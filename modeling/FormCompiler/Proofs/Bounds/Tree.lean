import FormCompiler.Proofs.Bounds.Packing
import FormCompiler.Proofs.Tree.Building
import Mathlib.Tactic.MkIffOfInductiveProp

/-!
# Reading Nodes Stays in Bounds

A list node is stored as a run of cells, which hold the ids of its items. In a forest in bounds
everything that is read of a node is there: its head, the cells of its items, and the text of its
name.

* `Forest.packed`: the nodes as they are stored.
* `Forest.InBounds`: items stand before their lists, and the names of tokens are in the table.
* `Forest.Checked`: reading, checked. In bounds it gives what reading gives.
-/

namespace FormCompiler

/-- A node as it is stored, without the cells of its items. -/
inductive StoredNode where
  | token (token : Token) (span : Span)
  | list (start count : Nat) (span : Span)
deriving DecidableEq, Repr

namespace StoredNode

/-- Where the node stands. -/
def span : StoredNode → Span
  | token _ span => span
  | list _ _ span => span

end StoredNode

namespace Node

/-- The head of a node whose cells start at an index. -/
def head (node : Node) (start : Nat) : StoredNode :=
  match node.kind with
  | .token token => .token token node.span
  | .list items => .list start items.length node.span

/-- The cells of a node: its items. -/
def cells (node : Node) : List NodeId :=
  match node.kind with
  | .token _ => []
  | .list items => items

end Node

namespace Forest

/-- The nodes as they are stored. -/
def packed (f : Forest) : Packed StoredNode NodeId := pack Node.head Node.cells f.nodes

/-- A list is stored by adding its items to the cells. -/
theorem packed_pushList (f : Forest) (items : List NodeId) (span : Span) :
    (f.pushList items span).2.packed =
      f.packed.push (fun start => .list start items.length span) items :=
  pack_push Node.head Node.cells f.nodes ⟨.list items, span⟩

/-- The id of a node is in range. -/
def Has (f : Forest) (id : NodeId) : Prop := id.index < f.size

instance (f : Forest) (id : NodeId) : Decidable (f.Has id) := inferInstanceAs (Decidable (_ < _))

/-- The items of lists stand before the lists, and the names of tokens are in the table. -/
@[mk_iff]
structure InBounds (f : Forest) : Prop where
  items : f.WellBuilt
  names : f.Named

instance (f : Forest) : Decidable f.Named :=
  have (node : Node) : Decidable
      (∀ token, node.kind = .token token → token.text.index < f.names.size) :=
    match node with
    | ⟨.token token, _⟩ => decidable_of_iff (token.text.index < f.names.size) (by simp)
    | ⟨.list _, _⟩ => isTrue (by simp)
  inferInstanceAs (Decidable (∀ node ∈ f.nodes, _))

instance (f : Forest) : Decidable f.InBounds := decidable_of_iff _ (inBounds_iff f).symm

/-- A token in the forest has a name in the table. -/
theorem InBounds.name_lt {f : Forest} (h : f.InBounds) {id : NodeId} {token : Token}
    (hid : f.Has id) (hkind : f.kind id = .token token) :
    token.text.index < f.names.size := by
  refine h.names (f.node id) ?_ token hkind
  rw [node, Array.getD_eq_getD_getElem?, Array.getElem?_eq_getElem hid, Option.getD_some]
  exact Array.getElem_mem hid

/-- The items of a list in the forest are in it. -/
theorem InBounds.has_items {f : Forest} (h : f.InBounds) {id : NodeId} {items : List NodeId}
    (hid : f.Has id) (hkind : f.kind id = .list items) : ∀ item ∈ items, f.Has item :=
  fun item hitem => Nat.lt_trans (h.items id items hkind item hitem) hid

/-! ## Reading -/

namespace Checked

/-- What is stored of a node. -/
def stored (f : Forest) (id : NodeId) : Except Fault StoredNode := readAt f.packed.heads id.index

/-- Token or list, with the items from the cells. -/
def kind (f : Forest) (id : NodeId) : Except Fault NodeKind := do
  match ← stored f id with
  | .token token _ => return .token token
  | .list start count _ => return .list (← cellsAt f.packed.cells start count)

/-- Where the node stands. -/
def span (f : Forest) (id : NodeId) : Except Fault Span := (stored f id).map (·.span)

/-- The text of a name. -/
def text (f : Forest) (name : Name) : Except Fault String := readAt f.names.texts name.index

/-- The items of a list, if the node is one. -/
def items? (f : Forest) (id : NodeId) : Except Fault (Option (List NodeId)) := do
  match ← kind f id with
  | .token _ => return none
  | .list items => return some items

/-- The text of a symbol; other tokens and lists have none. -/
def symbol? (f : Forest) (id : NodeId) : Except Fault (Option String) := do
  match ← kind f id with
  | .token ⟨.symbol, name⟩ => return some (← text f name)
  | _ => return none

/-- Word for the shape of a node in diagnostics. -/
def describe (f : Forest) (id : NodeId) : Except Fault String := do
  match ← kind f id with
  | .token token => return token.kind.describe
  | .list _ => return "list"

/-- Text of the tree at a node whose id is below `bound`. -/
def displayBelow (f : Forest) : (bound : Nat) → NodeId → Except Fault String
  | 0, _ => return ""
  | bound + 1, id => do
    match ← kind f id with
    | .token ⟨.string, name⟩ => return "\"" ++ (← text f name) ++ "\""
    | .token ⟨_, name⟩ => text f name
    | .list items =>
      return "(" ++ " ".intercalate (← items.mapM (displayBelow f bound)) ++ ")"

/-- Text of the tree at a node. -/
def display (f : Forest) (id : NodeId) : Except Fault String := displayBelow f (id.index + 1) id

section

variable {f : Forest} {id : NodeId}

theorem text_eq {name : Name} (hname : name.index < f.names.size) :
    text f name = .ok (f.names.text name) :=
  readAt_eq hname ""

/-- The head and the cells of a node are those of the node of its id. -/
theorem stored_eq (hid : f.Has id) :
    ∃ start, stored f id = .ok ((f.node id).head start) ∧
      Stores f.packed.cells start (f.node id).cells := by
  refine pack_stores Node.head Node.cells ?_
  rw [node, Array.getD_eq_getD_getElem?, Array.getElem?_eq_getElem hid]
  rfl

theorem kind_eq (hid : f.Has id) : kind f id = .ok (f.kind id) := by
  obtain ⟨start, hstored, hcells⟩ := stored_eq hid
  rw [kind, hstored, Forest.kind]
  unfold Node.head Node.cells at *
  cases hkind : (f.node id).kind with
  | token token => rfl
  | list items =>
    rw [hkind] at hcells
    simp only [bind, Except.bind, hcells.cellsAt]
    rfl

theorem span_eq (hid : f.Has id) : span f id = .ok (f.span id) := by
  obtain ⟨start, hstored, -⟩ := stored_eq hid
  rw [span, hstored, Forest.span]
  unfold Node.head
  cases (f.node id).kind <;> rfl

theorem items?_eq (hid : f.Has id) : items? f id = .ok (f.items? id) := by
  rw [items?, kind_eq hid, Forest.items?]
  cases f.kind id <;> rfl

theorem describe_eq (hid : f.Has id) : describe f id = .ok (f.describe id) := by
  rw [describe, kind_eq hid, Forest.describe]
  cases f.kind id <;> rfl

variable (hf : f.InBounds)

include hf

theorem symbol?_eq (hid : f.Has id) : symbol? f id = .ok (f.symbol? id) := by
  rw [symbol?, kind_eq hid, Forest.symbol?]
  cases hkind : f.kind id with
  | list items => rfl
  | token token =>
    obtain ⟨kind, name⟩ := token
    have htext := text_eq (hf.name_lt hid hkind)
    cases kind <;> simp [bind, Except.bind, htext, pure, Except.pure]

theorem displayBelow_eq (bound : Nat) (hid : f.Has id) :
    displayBelow f bound id = .ok (f.displayBelow bound id) := by
  induction bound generalizing id with
  | zero => rfl
  | succ bound ih =>
    unfold displayBelow Forest.displayBelow
    rw [kind_eq hid]
    cases hkind : f.kind id with
    | token token =>
      obtain ⟨kind, name⟩ := token
      have htext := text_eq (hf.name_lt hid hkind)
      cases kind <;> simp [bind, Except.bind, htext, pure, Except.pure]
    | list items =>
      have hitems : items.mapM (displayBelow f bound) = .ok (items.map (f.displayBelow bound)) :=
        mapM_eq fun item hitem => ih (hf.has_items hid hkind item hitem)
      simp [bind, Except.bind, hitems, pure, Except.pure]

theorem display_eq (hid : f.Has id) : display f id = .ok (f.display id) :=
  displayBelow_eq hf (id.index + 1) hid

end

end Checked

end Forest

end FormCompiler
