import FormCompiler.Tree.Forest
import Mathlib.Data.List.Forall2

/-!
# The Trees of a Forest

A form by itself is a tree. A forest adds to it the ids and the places of the nodes and a table of
the names in its tokens, none of which says anything about what the form means.

* `Tree`: tokens and lists.
* `Forest.tree`: the tree at a node.
* `Forest.Extends`: nodes were added, so every tree is still where it was (`Extends.tree`).
-/

namespace FormCompiler

/-- A form: a token, or a list of forms. -/
inductive Tree where
  | token (kind : TokenKind) (text : String)
  | list (items : List Tree)
deriving Repr, Inhabited

/-- The text of a symbol; other tokens and lists have none. -/
def Tree.symbol? : Tree → Option String
  | token .symbol text => some text
  | _ => none

namespace Forest

/-- The tree at a node whose id is below `bound`. -/
def treeBelow (f : Forest) : (bound : Nat) → NodeId → Tree
  | 0, _ => .list []
  | bound + 1, id =>
    match f.kind id with
    | .token token => .token token.kind (f.names.text token.text)
    | .list items => .list (items.map (f.treeBelow bound))

/-- The tree at a node. -/
def tree (f : Forest) (id : NodeId) : Tree := f.treeBelow (id.index + 1) id

variable {f f' f'' : Forest} {id : NodeId}

/-! ## Nodes and their trees -/

/-- Any bound above the id gives the tree. -/
theorem WellBuilt.treeBelow_eq (h : f.WellBuilt) {bound : Nat} (hbound : id.index < bound) :
    f.treeBelow bound id = f.tree id := by
  have heq : ∀ {bound bound' : Nat} {id : NodeId}, id.index < bound → id.index < bound' →
      f.treeBelow bound id = f.treeBelow bound' id := by
    intro bound
    induction bound with
    | zero => exact fun hbound => absurd hbound (Nat.not_lt_zero _)
    | succ bound ih =>
      intro bound' id hbound hbound'
      obtain ⟨bound', rfl⟩ := Nat.exists_eq_succ_of_ne_zero (Nat.ne_zero_of_lt hbound')
      unfold treeBelow
      cases hkind : f.kind id with
      | token token => rfl
      | list items =>
        refine congrArg Tree.list (List.map_congr_left fun item hitem => ?_)
        have hitem := h id items hkind item hitem
        exact ih (by omega) (by omega)
  exact heq hbound (Nat.lt_succ_self _)

/-- The tree at a token. -/
theorem tree_token {token : Token} (h : f.kind id = .token token) :
    f.tree id = .token token.kind (f.names.text token.text) := by
  rw [tree, treeBelow, h]

/-- The tree at a list. -/
theorem WellBuilt.tree_list (hf : f.WellBuilt) {items : List NodeId} (h : f.kind id = .list items) :
    f.tree id = .list (items.map f.tree) := by
  rw [tree, treeBelow, h]
  exact congrArg Tree.list (List.map_congr_left fun item hitem =>
    hf.treeBelow_eq (hf id items h item hitem))

/-- A node that reads as a token. -/
theorem kind_of_tree_token {kind : TokenKind} {text : String} (h : f.tree id = .token kind text) :
    ∃ name, f.kind id = .token ⟨kind, name⟩ ∧ f.names.text name = text := by
  cases hkind : f.kind id with
  | token token =>
    rw [tree_token hkind] at h
    cases h
    exact ⟨token.text, rfl, rfl⟩
  | list items =>
    rw [tree, treeBelow, hkind] at h
    cases h

/-- A node that reads as a list. -/
theorem WellBuilt.kind_of_tree_list (hf : f.WellBuilt) {ts : List Tree} (h : f.tree id = .list ts) :
    ∃ items, f.kind id = .list items ∧ items.map f.tree = ts := by
  cases hkind : f.kind id with
  | token token =>
    rw [tree_token hkind] at h
    cases h
  | list items =>
    rw [hf.tree_list hkind] at h
    cases h
    exact ⟨items, rfl, rfl⟩

/-- A symbol can be told from the tree. -/
theorem tree_symbol? (f : Forest) (id : NodeId) : (f.tree id).symbol? = f.symbol? id := by
  unfold tree treeBelow symbol?
  split
  next token hkind =>
    rw [hkind]
    obtain ⟨kind, name⟩ := token
    cases kind <;> rfl
  next items hkind =>
    rw [hkind]
    rfl

/-! ## Nodes with the same tree -/

/-- The items of a node. A token has none. -/
def items (f : Forest) (id : NodeId) : List NodeId :=
  match f.kind id with
  | .token _ => []
  | .list items => items

/-- The items of a list. -/
theorem items_of_list {items : List NodeId} (h : f.kind id = .list items) : f.items id = items := by
  rw [Forest.items, h]

/-- Two nodes with the same tree are tokens of the same kind and text, or lists of nodes with the
same trees. -/
theorem WellBuilt.same_cases (hf : f.WellBuilt) {n m : NodeId} (h : f.tree n = f.tree m) :
    (∃ kind text text', f.kind n = .token ⟨kind, text⟩ ∧ f.kind m = .token ⟨kind, text'⟩ ∧
      f.names.text text' = f.names.text text) ∨
    ∃ ns ms, f.kind n = .list ns ∧ f.kind m = .list ms ∧
      List.Forall₂ (fun n m => f.tree n = f.tree m) ns ms := by
  cases hn : f.kind n with
  | token token =>
    rw [tree_token hn] at h
    obtain ⟨text', hm, htext⟩ := kind_of_tree_token h.symm
    exact .inl ⟨token.kind, token.text, text', rfl, hm, htext⟩
  | list ns =>
    rw [hf.tree_list hn] at h
    obtain ⟨ms, hm, hms⟩ := hf.kind_of_tree_list h.symm
    exact .inr ⟨ns, ms, rfl, hm, List.forall₂_map_left_iff.1 (List.forall₂_map_right_iff.1
      (by rw [List.forall₂_eq_eq_eq]; exact hms.symm))⟩

/-- The items of two nodes with the same tree come before the nodes and have the same trees. -/
theorem WellBuilt.same_items (hf : f.WellBuilt) {n m : NodeId} (h : f.tree n = f.tree m) :
    List.Forall₂ (fun n' m' => n'.index < n.index ∧ m'.index < m.index ∧ f.tree n' = f.tree m')
      (f.items n) (f.items m) := by
  obtain ⟨kind, text, text', hn, hm, -⟩ | ⟨ns, ms, hn, hm, hitems⟩ := hf.same_cases h
  · rw [Forest.items, hn, Forest.items, hm]
    exact .nil
  · rw [items_of_list hn, items_of_list hm]
    have hleft := (List.forall₂_and_left _ _).2 ⟨hf n ns hn, hitems⟩
    have hboth := (List.forall₂_and_left _ _).2 ⟨hf m ms hm, hleft.flip⟩
    exact hboth.flip.imp fun _ _ h => ⟨h.2.1, h.1, h.2.2⟩

/-- Nodes with the same tree are the same symbol, or none of them is a symbol. -/
theorem symbol?_eq {n m : NodeId} (h : f.tree n = f.tree m) : f.symbol? m = f.symbol? n := by
  rw [← tree_symbol?, ← h, tree_symbol?]

/-- Nodes with the same tree have the same shape. -/
theorem WellBuilt.describe_eq (hf : f.WellBuilt) {n m : NodeId} (h : f.tree n = f.tree m) :
    f.describe m = f.describe n := by
  obtain ⟨kind, text, text', hn, hm, -⟩ | ⟨ns, ms, hn, hm, -⟩ := hf.same_cases h
  · rw [describe, hm, describe, hn]
  · rw [describe, hm, describe, hn]

/-- Nodes with the same tree have the same text. -/
theorem WellBuilt.display_eq (hf : f.WellBuilt) {n m : NodeId} (h : f.tree n = f.tree m) :
    f.display m = f.display n := by
  -- the texts agree under any two bounds that the nodes are below
  have heq : ∀ (bound bound' : Nat) (n m : NodeId), n.index < bound → m.index < bound' →
      f.tree n = f.tree m → f.displayBelow bound' m = f.displayBelow bound n := by
    intro bound
    induction bound with
    | zero => exact fun _ _ _ hn => absurd hn (Nat.not_lt_zero _)
    | succ bound ih =>
      intro bound' n m hn hm h
      obtain ⟨bound', rfl⟩ := Nat.exists_eq_succ_of_ne_zero (Nat.ne_zero_of_lt hm)
      unfold displayBelow
      obtain ⟨kind, text, text', hnkind, hmkind, htext⟩ | ⟨ns, ms, hnkind, hmkind, hitems⟩ :=
        hf.same_cases h
      · rw [hnkind, hmkind]
        cases kind <;> simp [htext]
      · rw [hnkind, hmkind]
        have hns := hf n ns hnkind
        have hms := hf m ms hmkind
        -- the parts are below their node, so the bounds still hold for them
        have hmap : ms.map (f.displayBelow bound') = ns.map (f.displayBelow bound) := by
          clear hnkind hmkind
          induction hitems with
          | nil => rfl
          | cons hitem hrest ihitems =>
            rw [List.map_cons, List.map_cons,
              ih bound' _ _ (by have := hns _ List.mem_cons_self; omega)
                (by have := hms _ List.mem_cons_self; omega) hitem,
              ihitems (fun item hitem => hns item (List.mem_cons_of_mem _ hitem))
                fun item hitem => hms item (List.mem_cons_of_mem _ hitem)]
        dsimp only
        rw [hmap]
  exact heq _ _ n m (Nat.lt_succ_self _) (Nat.lt_succ_self _) h

/-! ## Forests that grow -/

/-- Nodes were added, and perhaps names. -/
structure Extends (f f' : Forest) : Prop where
  size : f.size ≤ f'.size
  kind : ∀ id : NodeId, id.index < f.size → f'.kind id = f.kind id
  text : ∀ (id : NodeId) (token : Token), id.index < f.size → f.kind id = .token token →
    f'.names.text token.text = f.names.text token.text

namespace Extends

/-- Nothing was added. -/
theorem refl (f : Forest) : f.Extends f := ⟨Nat.le_refl _, fun _ _ => rfl, fun _ _ _ _ => rfl⟩

/-- Nodes were added several times. -/
theorem trans (h : f.Extends f') (h' : f'.Extends f'') : f.Extends f'' where
  size := Nat.le_trans h.size h'.size
  kind id hid := (h'.kind id (Nat.lt_of_lt_of_le hid h.size)).trans (h.kind id hid)
  text id token hid hkind :=
    (h'.text id token (Nat.lt_of_lt_of_le hid h.size) ((h.kind id hid).trans hkind)).trans
      (h.text id token hid hkind)

/-- The trees of the forest are still there. -/
theorem tree (h : f.Extends f') (hf : f.WellBuilt) (hid : id.index < f.size) :
    f'.tree id = f.tree id := by
  have heq : ∀ (bound : Nat) (id : NodeId), id.index < f.size →
      f'.treeBelow bound id = f.treeBelow bound id := by
    intro bound
    induction bound with
    | zero => exact fun _ _ => rfl
    | succ bound ih =>
      intro id hid
      unfold treeBelow
      rw [h.kind id hid]
      cases hkind : f.kind id with
      | token token => exact congrArg (Tree.token token.kind) (h.text id token hid hkind)
      | list items =>
        exact congrArg Tree.list (List.map_congr_left fun item hitem =>
          ih item (Nat.lt_trans (hf id items hkind item hitem) hid))
  exact heq _ id hid

end Extends

end Forest

end FormCompiler
