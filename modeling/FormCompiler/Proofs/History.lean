import FormCompiler.Proofs.Context.Layouts

/-!
# Histories

Whatever may be done to a unit one step after the other, as a relation between the unit before and
the unit after (`Later`): top-level forms, whole or the ones inside them, looking up types,
expressions and the cleanup after them, and what a caller does with the module. Every reachable unit
has such a history from one in which nothing is declared (`Reachable.later`).

What there was is retained, and a name that has a struct never becomes that of an enum afterwards
(`Context.Continues`), since both are registered together or the enum is refused.
-/

namespace FormCompiler

namespace Context

variable {c c' c'' : Context}

/-- The later context is valid and retains what there was, and of the names that have a struct the
same ones are those of enums. -/
structure Continues (c c' : Context) : Prop where
  valid : c'.Valid
  retains : c.Retains c'
  laid : c.Laid → c'.Laid
  enum? : ∀ id name s, (c.namespaceOf id).struct? name = some s →
    (c'.namespaceOf id).enum? name = (c.namespaceOf id).enum? name

/-- Nothing has happened. -/
theorem Continues.refl (hc : c.Valid) : c.Continues c :=
  ⟨hc, Std.Refl.refl c, id, fun _ _ _ _ => rfl⟩

/-- A later context is continued. -/
theorem Continues.trans (h : c.Continues c') (h' : c'.Continues c'') : c.Continues c'' where
  valid := h'.valid
  retains := IsTrans.trans _ _ _ h.retains h'.retains
  laid hl := h'.laid (h.laid hl)
  enum? id name s hs := by
    have hkept := (h.retains.namespaces id (lt_of_struct? hs)).struct? name s hs
    rw [h'.enum? id name s hkept, h.enum? id name s hs]

/-- Structs and enums stay laid out where nothing is declared. -/
theorem Laid.of_retains (hl : c.Laid) (hr : c.Retains c') (h : c'.namespaces = c.namespaces) :
    c'.Laid := by
  have hns : ∀ id, c'.namespaceOf id = c.namespaceOf id := fun id => by
    rw [namespaceOf, h, namespaceOf]
  constructor
  case structs =>
    intro id name s hs
    rw [hns] at hs
    exact Ir.Module.lookupStruct?_mono hr.ir.types (hl.structs id name s hs)
  case enums =>
    intro id name e he
    rw [hns] at he ⊢
    obtain ⟨s, hs, hbacked⟩ := hl.enums id name e he
    exact ⟨s, hs, hbacked.mono hr.steady⟩

/-- Nothing was declared, and the later context is valid. -/
theorem Continues.of_within {P : Pool → Pool → Prop} {R : Ir.Module → Ir.Module → Prop}
    (h : Within P R c c') (hvalid : c'.Valid) (hsteady : c.Steady c') (hir : c.ir.Extends c'.ir) :
    c.Continues c' := by
  have hr : c.Retains c' := ⟨hsteady, hir, Nat.le_of_eq (congrArg _ h.namespaces.symm),
    fun id _ => namespaces_retained h.namespaces id⟩
  exact ⟨hvalid, hr, fun hl => hl.of_retains hr h.namespaces,
    fun id _ _ _ => by rw [h.namespaceOf]⟩

/-- An enum is registered under a name that has no struct, so one that has a struct does not become
that of an enum. -/
theorem Change.enum?_of_struct? (h : Change c c') (hc : c.Valid) {id : NamespaceId}
    {name : String} {s : Struct} (hs : (c.namespaceOf id).struct? name = some s) :
    (c'.namespaceOf id).enum? name = (c.namespaceOf id).enum? name := by
  rcases h.registered_cases hc with
    ⟨_, _, _, hstruct⟩ | ⟨new, _, _, _, _, henum, hinteger⟩ | hsame
  · obtain ⟨_, -, hnamespaces⟩ := StructRegistered.namespaceOf hstruct
    rcases hnamespaces id with heq | ⟨rfl, heq⟩
    · rw [heq]
    · rw [heq]
      rfl
  · obtain ⟨_, _, -, -, hnamespaces⟩ := EnumRegistered.namespaceOf henum hinteger
    rcases hnamespaces id with heq | ⟨rfl, heq⟩
    · rw [heq]
    · have hne : name ≠ new := by
        rintro rfl
        exact absurd (henum.noStruct.symm.trans hs) (Option.some_ne_none s).symm
      rw [heq, Namespace.enum?, List.lookup_cons, beq_false_of_ne hne]
      rfl
  · rw [Namespace.enum?, (hsame id).2, Namespace.enum?]

/-- Every change continues a valid context. -/
theorem Change.continues (h : Change c c') (hc : c.Valid) : c.Continues c' :=
  ⟨(h.safe hc).1, h.retains hc, h.laid hc, fun _ _ _ hs => h.enum?_of_struct? hc hs⟩

/-- So does every development. -/
theorem Develops.continues (h : c.Develops c') (hc : c.Valid) : c.Continues c' := by
  have hchanges := h hc
  clear h
  induction hchanges with
  | refl => exact .refl hc
  | tail _ hchange ih => exact ih.trans (hchange.continues ih.valid)

end Context

/-- The context of the second unit continues that of the first one, if that is valid. -/
def Compilation.Continues {σ : Type} (u u' : Compilation σ) : Prop :=
  u.context.Valid → u.context.Continues u'.context

namespace Compilation

variable {σ : Type} {u u' : Compilation σ}

instance : Std.Refl (Continues (σ := σ)) := ⟨fun _ => .refl⟩

instance : IsTrans (Compilation σ) Continues where
  trans _ _ _ h h' hu := (h hu).trans (h' (h hu).valid)

/-- Development continues a unit. -/
theorem Develops.continues (h : Develops u u') : Continues u u' := fun hu =>
  Context.Develops.continues h hu

/-- What is quiet continues a unit. -/
theorem Quiet.continues (h : Quiet u u') : Continues u u' := h.develops.continues

/-- What processing an expression does continues a unit that has the types of the variables. -/
theorem Kept.continues {s : Scope} (h : Compilation.Kept s u u')
    (hs : s.TypesIn u.context.pool) : Continues u u' := by
  intro hu
  obtain ⟨hvalid, hsteady⟩ := Lower.kept_safe h hs hu
  exact .of_within h.context hvalid hsteady h.context.ir

end Compilation

/-- Top-level forms continue units. -/
theorem Lower.topLevel_continues {σ : Type} :
    Lower.TopLevel (Compilation.Continues (σ := σ)) where
  checks h := h.develops.continues
  enter name _ hu := Context.Change.continues (.enter name rfl) hu
  leave _ hu := Context.Change.continues (.leave rfl) hu
  defineEnum nameNode name body parts :=
    (defineEnum_develops nameNode name body parts).mono fun _ _ h => h.continues
  defineStruct nameNode name body parts :=
    (defineStruct_develops nameNode name body parts).mono fun _ _ h => h.continues
  defineFunction nameNode name body parts :=
    (defineFunction_develops nameNode name body parts).mono fun _ _ h => h.continues

/-- The second unit comes from the first one: by top-level forms, whole or the ones inside them, by
entering and leaving namespaces, by looking up types, by expressions and the cleanup after them, and
by what a caller does with the module. -/
inductive Later {σ : Type} (u : Compilation σ) : Compilation σ → Prop
  | refl : Later u u
  /-- Forms are added, or replaced by others, and the expander has been asked. -/
  | offered {u' : Compilation σ} (forest : Forest) (memory : σ) (h : Later u u') :
      Later u { u' with forest, memory }
  /-- A top-level form is processed, with success or without, where namespaces may nest so deep. -/
  | topForm {u' : Compilation σ} (depth : Nat) (node : NodeId) (h : Later u u') :
      Later u (final (Lower.topFormBelow depth node) u')
  | declareEnum {u' : Compilation σ} (node : NodeId) (h : Later u u') :
      Later u (final (Lower.declareEnum node) u')
  | enter {u' : Compilation σ} (name : String) (h : Later u u') :
      Later u (u'.withContext (Context.enter name u'.context).2)
  | leave {u' : Compilation σ} (h : Later u u') :
      Later u (u'.withContext (Context.leave u'.context).2)
  /-- The form of a type is read, with success or without. -/
  | resolve {u' : Compilation σ} (node : NodeId) (h : Later u u') :
      Later u (final (Lower.resolveType node) u')
  /-- An expression is processed, with success or without. -/
  | process {u' : Compilation σ} (frame : Frame) (b : Ir.BlockId) (node : NodeId)
      (scope : frame.scope.TypesIn u'.context.pool) (h : Later u u') :
      Later u (final (Lower.process frame b node) u')
  /-- A result is cleaned up, with success or without. -/
  | destruct {u' : Compilation σ} (r : Result) (h : Later u u') :
      Later u (final (Lower.onContext (Context.destruct r)) u')
  /-- The caller adds to the module or reports errors. -/
  | emit {u' : Compilation σ} {c : Context}
      (within : u'.context.Within (· = ·) Ir.Module.Extends c) (h : Later u u') :
      Later u (u'.withContext c)
  /-- The caller asks for the type of pointers to a type. -/
  | pointerTo {u' : Compilation σ} (t : TypeId) (grounded : u'.context.Grounded t)
      (h : Later u u') :
      Later u (u'.withContext (u'.context.withPool (u'.context.pool.pointerTo t).2))

namespace Later

variable {σ : Type} {u u' : Compilation σ}

/-- What every part of a top-level form keeps, and every step that declares nothing, is kept along a
history. -/
theorem rel {R : Compilation σ → Compilation σ → Prop} [Std.Refl R] [IsTrans (Compilation σ) R]
    (htop : Lower.TopLevel R)
    (hsame : ∀ u u' : Compilation σ, u.Continues u' →
      u'.context.namespaces = u.context.namespaces → R u u') (h : Later u u') : R u u' := by
  induction h with
  | refl => exact Std.Refl.refl u
  | offered _ _ _ ih => exact IsTrans.trans _ _ _ ih (hsame _ _ .refl rfl)
  | topForm depth node _ ih =>
    exact IsTrans.trans _ _ _ ih ((htop.topFormBelow_keeps depth node).rel_final _)
  | declareEnum node _ ih =>
    exact IsTrans.trans _ _ _ ih ((htop.declareEnum_keeps node).rel_final _)
  | enter name _ ih => exact IsTrans.trans _ _ _ ih (htop.enter name _)
  | leave _ ih => exact IsTrans.trans _ _ _ ih (htop.leave _)
  | @resolve u' node _ ih =>
    have hquiet : u'.Quiet (final (Lower.resolveType node) u') :=
      ((Lower.resolveType_ends node u').mono (fun _ _ h => h.1) fun _ h => h).final
    exact IsTrans.trans _ _ _ ih (hsame _ _ hquiet.continues hquiet.within.context.namespaces)
  | @process u' frame b node scope _ ih =>
    have hkept := (Lower.process_keeps frame.scope frame.func b node).rel_final u'
    exact IsTrans.trans _ _ _ ih (hsame _ _ (hkept.continues scope) hkept.context.namespaces)
  | @destruct u' r _ ih =>
    have hkept : Compilation.Kept .empty u' _ :=
      (Lower.onContext_keeps (Context.destruct_keeps .empty r)).rel_final u'
    exact IsTrans.trans _ _ _ ih (hsame _ _ (hkept.continues (.empty _)) hkept.context.namespaces)
  | @emit u' c within _ ih =>
    have hcontinues : u'.Continues (u'.withContext c) := fun hu => by
      obtain ⟨hvalid, hsteady⟩ := Context.Safe.of_extends within hu
      exact .of_within within hvalid hsteady within.ir
    exact IsTrans.trans _ _ _ ih (hsame _ _ hcontinues within.namespaces)
  | @pointerTo u' t grounded _ ih =>
    have hcontinues : u'.Continues
        (u'.withContext (u'.context.withPool (u'.context.pool.pointerTo t).2)) := fun hu => by
      obtain ⟨hvalid, hsteady, -⟩ := hu.pointerTo grounded
      have hwithin : Context.Within Pool.Extends Ir.Module.Extends _ _ := .of_pool hsteady.pool
      exact .of_within hwithin hvalid hsteady (.refl _)
    exact IsTrans.trans _ _ _ ih (hsame _ _ hcontinues rfl)

/-- Every history continues the context. -/
theorem continues (h : Later u u') : u.Continues u' :=
  h.rel Lower.topLevel_continues fun _ _ hcontinues _ => hcontinues

end Later

/-- A reachable unit has a history that begins where nothing is declared. -/
theorem Reachable.later {σ : Type} {u : Compilation σ} (h : Reachable u) :
    ∃ options expander memory, Later (.start options expander memory) u := by
  induction h with
  | start options expander memory => exact ⟨options, expander, memory, .refl⟩
  | @forest u forest _ ih =>
    obtain ⟨options, expander, memory, h⟩ := ih
    exact ⟨options, expander, memory, h.offered forest u.memory⟩
  | topLevel node _ ih =>
    obtain ⟨options, expander, memory, h⟩ := ih
    exact ⟨options, expander, memory, h.topForm Lower.maxNamespaceDepth node⟩
  | declareEnum node _ ih =>
    obtain ⟨options, expander, memory, h⟩ := ih
    exact ⟨options, expander, memory, h.declareEnum node⟩
  | enter name _ ih =>
    obtain ⟨options, expander, memory, h⟩ := ih
    exact ⟨options, expander, memory, h.enter name⟩
  | leave _ ih =>
    obtain ⟨options, expander, memory, h⟩ := ih
    exact ⟨options, expander, memory, h.leave⟩
  | process frame b node scope _ ih =>
    obtain ⟨options, expander, memory, h⟩ := ih
    exact ⟨options, expander, memory, h.process frame b node scope⟩
  | destruct r _ ih =>
    obtain ⟨options, expander, memory, h⟩ := ih
    exact ⟨options, expander, memory, h.destruct r⟩
  | emit within _ ih =>
    obtain ⟨options, expander, memory, h⟩ := ih
    exact ⟨options, expander, memory, h.emit within⟩
  | pointerTo t grounded _ ih =>
    obtain ⟨options, expander, memory, h⟩ := ih
    exact ⟨options, expander, memory, h.pointerTo t grounded⟩

end FormCompiler
