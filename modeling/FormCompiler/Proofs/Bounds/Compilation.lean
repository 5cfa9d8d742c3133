import FormCompiler.Proofs.Bounds.Cleanup
import FormCompiler.Proofs.Bounds.Tree

/-!
# Steps on Units Stay in Bounds

The steps that all forms are processed by, with their accesses checked: reading nodes, reports, the
shapes of forms, expansion and the types that forms name.

* `Expander.KeepsBounds`: the expander only adds nodes, in bounds, and answers with a node that is
  there.
* `Compilation.InBounds`: forest and context are in bounds, and the expander keeps forests so.
* `Lower.Checked`: the steps, checked.
-/

namespace FormCompiler

variable {σ : Type}

/-- The expander keeps forests in bounds. It takes no nodes away, and a tree that a form stands for
is in the forest. -/
structure Expander.KeepsBounds (expander : Expander σ) : Prop where
  forest : ∀ memory (f : Forest) (node : NodeId), f.InBounds → f.Has node →
    (expander memory f node).2.2.InBounds
  size : ∀ memory (f : Forest) (node : NodeId), f.InBounds → f.Has node →
    f.size ≤ (expander memory f node).2.2.size
  result : ∀ memory (f : Forest) (node : NodeId), f.InBounds → f.Has node →
    ∀ result, (expander memory f node).1 = .expanded result →
      (expander memory f node).2.2.Has result

/-- Without macros, forests stay as they are. -/
theorem Expander.none_keepsBounds : (none : Expander σ).KeepsBounds where
  forest _ _ _ hf _ := hf
  size _ _ _ _ _ := Nat.le_refl _
  result _ _ _ _ _ _ h := by cases h

/-- The expander of a list of rules keeps forests in bounds. -/
theorem Rule.expander_keepsBounds (rules : List Rule) : (Rule.expander rules).KeepsBounds where
  forest memory _ node hf _ :=
    have hadds := (Rule.expander_adds rules memory node hf.items).1
    ⟨hadds.built, hadds.named hf.names⟩
  size memory _ node hf _ := (Rule.expander_adds rules memory node hf.items).1.size
  result memory _ node hf hnode := (Rule.expander_adds rules memory node hf.items).2 hnode

namespace Compilation

/-- All ids in the tables of the unit are in range. -/
def TablesInBounds (u : Compilation σ) : Prop := u.forest.InBounds ∧ u.context.InBounds

instance (u : Compilation σ) : Decidable u.TablesInBounds := inferInstanceAs (Decidable (_ ∧ _))

/-- All ids in the unit are in range, and the expander keeps forests so. -/
structure InBounds (u : Compilation σ) : Prop where
  forest : u.forest.InBounds
  context : u.context.InBounds
  expander : u.expander.KeepsBounds

/-- Nodes, types, code and namespaces are only added. -/
structure Widens (u u' : Compilation σ) : Prop where
  forest : u.forest.size ≤ u'.forest.size
  context : u.context.Widens u'.context

/-- How units grow, and when their ids are in range. -/
instance : Bounds (Compilation σ) where
  InBounds := InBounds
  Grows := Widens
  refl u := ⟨Nat.le_refl _, .refl u.context⟩
  trans h h' := ⟨Nat.le_trans h.forest h'.forest, h.context.trans h'.context⟩

variable {u u' : Compilation σ}

/-- A node stays in range. -/
theorem Widens.has {node : NodeId} (h : u.Widens u') (hnode : u.forest.Has node) :
    u'.forest.Has node :=
  Nat.lt_of_lt_of_le hnode h.forest

theorem InBounds.tables (h : u.InBounds) : u.TablesInBounds := ⟨h.forest, h.context⟩

/-- The context may be replaced. -/
theorem InBounds.withContext (h : u.InBounds) {c : Context} (hc : Bounds.After u.context c) :
    Bounds.After u (u.withContext c) :=
  ⟨⟨h.forest, hc.inBounds, h.expander⟩, Nat.le_refl _, hc.grows⟩

end Compilation

namespace Lower.Checked

open FormCompiler.Checked (refuse demand free)

variable {α : Type} {u : Compilation σ} {node : NodeId}

/-! ## Steps on parts of the unit -/

/-- A step on the context alone. -/
def onContext (step : Checked Halt Context α) : Checked Halt (Compilation σ) α := fun u =>
  match step u.context with
  | .ok a c => .ok a (u.withContext c)
  | .error e c => .error e (u.withContext c)

theorem onContext_passes {g : Checked Halt Context α} {step : Check α} {Q : α → Context → Prop}
    (h : Passes g step u.context Q) :
    Passes (onContext g) (Lower.onContext step) u fun a u' => Q a u'.context := by
  intro hu
  obtain ⟨hsame, hends⟩ := h hu.context
  unfold Ends onContext Lower.onContext
  dsimp only
  rw [hsame]
  cases hstep : step u.context with
  | ok a c =>
    obtain ⟨hafter, hQ⟩ := hends.of_ok hstep
    exact ⟨rfl, hu.withContext hafter, hQ⟩
  | error e c => exact ⟨rfl, hu.withContext (hends.of_error hstep)⟩

/-- The place of a node. -/
def span (node : NodeId) : Checked Halt (Compilation σ) Span := do
  demand (Forest.Checked.span (← get).forest node)

/-- The text of the tree at a node. -/
def display (node : NodeId) : Checked Halt (Compilation σ) String := do
  demand (Forest.Checked.display (← get).forest node)

/-- The word for the shape of a node. -/
def describe (node : NodeId) : Checked Halt (Compilation σ) String := do
  demand (Forest.Checked.describe (← get).forest node)

/-- Token or list. -/
def kind (node : NodeId) : Checked Halt (Compilation σ) NodeKind := do
  demand (Forest.Checked.kind (← get).forest node)

/-- The text of a name. -/
def text (name : Name) : Checked Halt (Compilation σ) String := do
  demand (Forest.Checked.text (← get).forest name)

/-- The text of a symbol. -/
def symbol? (node : NodeId) : Checked Halt (Compilation σ) (Option String) := do
  demand (Forest.Checked.symbol? (← get).forest node)

/-- The items of a list. -/
def items? (node : NodeId) : Checked Halt (Compilation σ) (Option (List NodeId)) := do
  demand (Forest.Checked.items? (← get).forest node)

/-- Reads something of the context. -/
def read (f : Context → Except Fault α) : Checked Halt (Compilation σ) α := do
  demand (f (← get).context)

/-- The type of a name. -/
def lookupType? (name : String) : Checked Halt (Compilation σ) (Option TypeId) :=
  read fun c => Context.Checked.lookupType? c name

/-- Printable form of a type. -/
def typeName (t : TypeId) : Checked Halt (Compilation σ) String :=
  read fun c => Context.Checked.typeName c t

section

/-- What an access gives. -/
theorem demand_run {f : Compilation σ → Except Fault α} {a : α} (h : f u = .ok a) :
    (do demand (f (← get)) : Checked Halt (Compilation σ) α) u = .ok a u := by
  change demand (f u) u = .ok a u
  rw [h]
  rfl

theorem read_run {f : Context → Except Fault α} {a : α} (h : f u.context = .ok a) :
    read f u = .ok a u := demand_run (f := fun u => f u.context) h

theorem kind_run (hnode : u.forest.Has node) : kind node u = .ok (u.forest.kind node) u :=
  demand_run (f := fun u : Compilation σ => Forest.Checked.kind u.forest node)
    (Forest.Checked.kind_eq hnode)

theorem text_run {name : Name} (hname : name.index < u.forest.names.size) :
    text name u = .ok (u.forest.names.text name) u :=
  demand_run (f := fun u : Compilation σ => Forest.Checked.text u.forest name)
    (Forest.Checked.text_eq hname)

theorem span_reads (hnode : u.forest.Has node) :
    Reads (span node) (Lower.span node) u (u.forest.span node) :=
  ⟨demand_run (f := fun u : Compilation σ => Forest.Checked.span u.forest node)
    (Forest.Checked.span_eq hnode), rfl⟩

theorem describe_reads (hnode : u.forest.Has node) :
    Reads (describe node) (Lower.describe node) u (u.forest.describe node) :=
  ⟨demand_run (f := fun u : Compilation σ => Forest.Checked.describe u.forest node)
    (Forest.Checked.describe_eq hnode), rfl⟩

theorem items?_reads (hnode : u.forest.Has node) :
    Reads (items? node) (Lower.items? node) u (u.forest.items? node) :=
  ⟨demand_run (f := fun u : Compilation σ => Forest.Checked.items? u.forest node)
    (Forest.Checked.items?_eq hnode), rfl⟩

theorem display_reads (hu : u.InBounds) (hnode : u.forest.Has node) :
    Reads (display node) (Lower.display node) u (u.forest.display node) :=
  ⟨demand_run (f := fun u : Compilation σ => Forest.Checked.display u.forest node)
    (Forest.Checked.display_eq hu.forest hnode), rfl⟩

theorem symbol?_reads (hu : u.InBounds) (hnode : u.forest.Has node) :
    Reads (symbol? node) (Lower.symbol? node) u (u.forest.symbol? node) :=
  ⟨demand_run (f := fun u : Compilation σ => Forest.Checked.symbol? u.forest node)
    (Forest.Checked.symbol?_eq hu.forest hnode), rfl⟩

theorem typeName_reads (hu : u.InBounds) {t : TypeId} (ht : u.context.pool.Has t) :
    Reads (typeName t) (Lower.typeName t) u (u.context.typeName t) :=
  ⟨read_run (Context.Checked.typeName_eq hu.context ht), rfl⟩

end

/-- Reports an error and stops. -/
def fail (d : Diagnostic) : Checked Halt (Compilation σ) α := onContext (Context.Checked.fail d)

theorem fail_passes {d : Diagnostic} {Q : α → Compilation σ → Prop} :
    Passes (fail d) (Lower.fail d) u Q :=
  (onContext_passes (Context.Checked.fail_passes (Q := fun _ _ => False))).mono
    fun _ _ _ h => h.elim

/-- Nothing is done after a report. -/
theorem fail_stops {β : Type} {d : Diagnostic} {g : α → Checked Halt (Compilation σ) β}
    {Q : β → Compilation σ → Prop} : Passes (fail d >>= g) (Lower.fail d) u Q := by
  have h : Passes (fail d >>= g) (Lower.fail d >>= fun _ : α => Lower.fail d) u Q :=
    (fail_passes (Q := fun _ _ => False)).bind fun _ _ _ h => h.elim
  exact .congr h rfl

/-- Runs an operation on the module; its refusal is reported at a node. -/
def emit (node : NodeId) (op : Checked Ir.Error Ir.Module α) : Checked Halt (Compilation σ) α := do
  let span ← span node
  onContext (Context.Checked.emit span op)

theorem emit_passes {g : Checked Ir.Error Ir.Module α} {op : Ir.Build α}
    {Q : α → Ir.Module → Prop} (hnode : u.forest.Has node) (h : Passes g op u.context.ir Q) :
    Passes (emit node g) (Lower.emit node op) u fun a u' => Q a u'.context.ir :=
  .read (span_reads hnode) (onContext_passes (Context.Checked.emitOr_passes _ h))

/-! ## Shapes of forms -/

/-- Requires something of a form; without it the report is made at a node. -/
def expect (p : Prop) [Decidable p] (node : NodeId) (d : Span → Diagnostic) :
    Checked Halt (Compilation σ) PUnit := do
  if p then return ⟨⟩ else fail (d (← span node))

/-- Requires a form to have a number of arguments. -/
def expectCount (node : NodeId) (form : String) (found expected : Nat) :
    Checked Halt (Compilation σ) PUnit :=
  expect (found = expected) node fun s => Report.incorrectArgumentCount s form expected found

/-- Requires a form to have at least a number of arguments. -/
def expectAtLeast (node : NodeId) (form : String) (found least : Nat) :
    Checked Halt (Compilation σ) PUnit :=
  expect (least ≤ found) node fun s => Report.tooFewArguments s form least found

section

variable {β : Type} {p : Prop} [Decidable p] {d : Span → Diagnostic} {y : Lower σ β}
  {g : PUnit → Checked Halt (Compilation σ) β} {R : β → Compilation σ → Prop}

/-- What is required is there. -/
theorem expect_met (h : p) (h' : Passes (g ⟨⟩) y u R) : Passes (expect p node d >>= g) y u R := by
  unfold expect
  rw [if_pos h]
  exact h'

/-- What is required is not there. -/
theorem expect_unmet (hnode : u.forest.Has node) (h : ¬p) :
    Passes (expect p node d >>= g) (Lower.span node >>= fun s => Lower.fail (d s)) u R := by
  unfold expect
  rw [if_neg h, bind_assoc]
  exact .read (span_reads hnode) fail_stops

end

/-- Requires a node to be a list. -/
def expectList (node : NodeId) (what : String) : Checked Halt (Compilation σ) (List NodeId) := do
  match ← items? node with
  | some items => return items
  | none => fail (Report.incorrectArgumentShape (← span node) "list" what (← describe node))

theorem expectList_passes (what : String) (hnode : u.forest.Has node) :
    Passes (expectList node what) (Lower.expectList node what) u
      fun items u' => u = u' ∧ ∀ item ∈ items, u.forest.Has item := by
  refine .given fun hu => .read (items?_reads hnode) ?_
  cases hitems : u.forest.items? node with
  | some items => exact .pure ⟨rfl, hu.forest.has_items hnode (Forest.items?_eq_some.1 hitems)⟩
  | none => exact .read (span_reads hnode) (.read (describe_reads hnode) fail_passes)

/-- Requires a node to be a symbol. -/
def expectSymbol (node : NodeId) (what : String) : Checked Halt (Compilation σ) String := do
  match ← symbol? node with
  | some name => return name
  | none => fail (Report.unexpectedElement (← span node) "symbol" what (← describe node))

theorem expectSymbol_passes (what : String) (hnode : u.forest.Has node) :
    Passes (expectSymbol node what) (Lower.expectSymbol node what) u fun _ u' => u = u' := by
  refine .given fun hu => .read (symbol?_reads hu hnode) ?_
  cases u.forest.symbol? node with
  | some name => exact .pure rfl
  | none => exact .read (span_reads hnode) (.read (describe_reads hnode) fail_passes)

/-- Requires a node to be a linkage word. -/
def expectLinkage (node : NodeId) : Checked Halt (Compilation σ) Ir.Linkage := do
  match (← symbol? node).bind Ir.Linkage.ofKeyword? with
  | some linkage => return linkage
  | none => fail (Report.invalidLinkage (← span node) (← display node))

theorem expectLinkage_passes (hnode : u.forest.Has node) :
    Passes (expectLinkage node) (Lower.expectLinkage node) u fun _ u' => u = u' := by
  refine .given fun hu => .read (symbol?_reads hu hnode) ?_
  cases (u.forest.symbol? node).bind Ir.Linkage.ofKeyword? with
  | some linkage => exact .pure rfl
  | none => exact .read (span_reads hnode) (.read (display_reads hu hnode) fail_passes)

/-! ## Expansion -/

/-- Asks the expander about a node. -/
def offer (node : NodeId) : Checked Halt (Compilation σ) Expansion := free (Lower.offer node)

theorem offer_passes (hnode : u.forest.Has node) :
    Passes (offer node) (Lower.offer node) u
      fun expansion u' => ∀ result, expansion = .expanded result → u'.forest.Has result :=
  .free fun hu =>
    have hexpander := hu.expander
    ⟨⟨⟨hexpander.forest _ _ node hu.forest hnode, hu.context, hexpander⟩,
      hexpander.size _ _ node hu.forest hnode, .refl u.context⟩,
      hexpander.result _ _ node hu.forest hnode⟩

/-- Offers a node to the expander, with a number of expansions left. The trees of the form and of
what it is replaced by are read for the trace. -/
def tryExpand (left : Nat) (node : NodeId) : Checked Halt (Compilation σ) (Option NodeId) := do
  if left = 0 then
    let limit := (← get).maxExpansions
    fail (Report.expansionFailed (← span node) (limitText limit))
  else
    match ← offer node with
    | .expanded result => do
      -- the expander may have replaced the forest, and the form must still be in it
      let _ ← display node
      let _ ← display result
      return some result
    | .notApplicable => return none
    | .failed detail => fail (Report.expansionFailed (← span node) detail)

theorem tryExpand_passes (left : Nat) (hnode : u.forest.Has node) :
    Passes (tryExpand left node) (Lower.tryExpand left node) u
      fun expansion u' => ∀ result, expansion = some result → u'.forest.Has result := by
  refine .ite (fun _ => .get (.read (span_reads hnode) fail_passes)) fun _ => ?_
  refine (offer_passes hnode).bind fun expansion u₁ hu₁ hresult => ?_
  have hnode₁ := hu₁.grows.has hnode
  cases expansion with
  | expanded result =>
    have hresult := hresult result rfl
    refine .checkedRead (display_reads hu₁.inBounds hnode₁).1 ?_
    refine .checkedRead (display_reads hu₁.inBounds hresult).1 (.pure ?_)
    rintro _ ⟨⟩
    exact hresult
  | notApplicable => exact .pure nofun
  | failed detail => exact .read (span_reads hnode₁) fail_passes

/-! ## Types -/

/-- Whether items are those of a pointer type: the word for it and another one. -/
def isPointerForm (items : List NodeId) : Checked Halt (Compilation σ) Bool := do
  if items.length = 2 then
    let name? ← symbol? (← demand (itemAt items 0))
    return decide (name? = some "p" ∨ name? = some "pointer")
  else
    return false

/-- The type a form names, for nodes whose id is below `bound`. -/
def resolveTypeBelow : (bound : Nat) → NodeId → Checked Halt (Compilation σ) TypeId
  | 0, _ => refuse .unfinished
  | bound + 1, node => do
    match ← kind node with
    | .token token =>
      if token.kind = .symbol then
        let name ← text token.text
        match ← lookupType? name with
        | some t => return t
        | none => fail (Report.typeNotInScope (← span node) name)
      else
        fail (Report.unexpectedElement (← span node) "type" "type position" (← describe node))
    | .list items =>
      if ← isPointerForm items then
        let pointee ← resolveTypeBelow bound (← demand (itemAt items 1))
        onContext (Context.Checked.intern (.pointer pointee))
      else
        fail (Report.typeNotInScope (← span node) (← display node))

/-- The type a form names. -/
def resolveType (node : NodeId) : Checked Halt (Compilation σ) TypeId :=
  resolveTypeBelow (node.index + 1) node

theorem isPointerForm_run (hu : u.InBounds) {head pointee : NodeId} (hhead : u.forest.Has head) :
    isPointerForm [head, pointee] u = .ok (decide (u.forest.symbol? head = some "p" ∨
      u.forest.symbol? head = some "pointer")) u := by
  change (symbol? head >>= fun name? =>
    pure (decide (name? = some "p" ∨ name? = some "pointer"))) u = _
  exact bind_run (symbol?_reads hu hhead).1

theorem resolveTypeBelow_passes (bound : Nat) (hnode : u.forest.Has node) :
    Passes (resolveTypeBelow bound node) (Lower.resolveTypeBelow bound node) u
      fun t u' => u'.context.pool.Has t := by
  induction bound generalizing u node with
  | zero => exact .refused rfl
  | succ bound ih =>
    unfold resolveTypeBelow Lower.resolveTypeBelow
    refine .given fun hu => .checkedRead (kind_run hnode) (.plainRead rfl ?_)
    -- every list but the two items of a pointer type is refused in this way
    have hother : Passes (do fail (Report.typeNotInScope (← span node) (← display node)))
        (do Lower.fail (Report.typeNotInScope (← Lower.span node) (← Lower.display node))) u
        fun t u' => u'.context.pool.Has t :=
      .read (span_reads hnode) (.read (display_reads hu hnode) fail_passes)
    cases hkind : u.forest.kind node with
    | token token =>
      refine .ite (fun _ => ?_) fun _ => ?_
      · refine .checkedRead (text_run (hu.forest.name_lt hnode hkind)) (.plainRead rfl ?_)
        refine .checkedRead (read_run (Context.Checked.lookupType?_eq hu.context _))
          (.plainRead rfl ?_)
        cases hlookup : u.context.lookupType? (u.forest.names.text token.text) with
        | some t => exact .pure (hu.context.has_lookupType hlookup)
        | none => exact .read (span_reads hnode) fail_passes
      · exact .read (span_reads hnode) (.read (describe_reads hnode) fail_passes)
    | list items =>
      have hitems := hu.forest.has_items hnode hkind
      match items with
      | [] => exact hother
      | [_] => exact hother
      | _ :: _ :: _ :: _ => exact hother
      | [head, pointee] =>
        have hhead := hitems head List.mem_cons_self
        have hpointee := hitems pointee (by simp)
        refine .checkedRead (isPointerForm_run hu hhead) (.plainRead (symbol?_reads hu hhead).2 ?_)
        by_cases hword : u.forest.symbol? head = some "p" ∨ u.forest.symbol? head = some "pointer"
        · rw [if_pos hword, if_pos (decide_eq_true hword)]
          refine .look rfl ((ih hpointee).bind fun t u₁ _ ht => ?_)
          refine onContext_passes (Context.Checked.intern_passes ?_)
          rintro _ ⟨⟩
          exact ht
        · rw [if_neg hword, if_neg (by simpa using hword)]
          exact hother

theorem resolveType_passes (hnode : u.forest.Has node) :
    Passes (resolveType node) (Lower.resolveType node) u fun t u' => u'.context.pool.Has t :=
  resolveTypeBelow_passes (node.index + 1) hnode

end Lower.Checked

end FormCompiler
