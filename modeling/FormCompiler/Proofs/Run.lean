import FormCompiler.Proofs.Context.Retention

/-!
# Runs

What may be done to a unit one step after the other, as a relation between the unit before and the
unit after (`Run`). The context of the later unit develops from that of the earlier one, so it
retains all that the earlier one has.
-/

namespace FormCompiler

/-- The second unit comes from the first one by top-level forms, by entering and leaving namespaces
and by asking for backend types. -/
inductive Run {σ : Type} (u : Compilation σ) : Compilation σ → Prop
  | refl : Run u u
  /-- Forms are added, or replaced by others. -/
  | forest {u' : Compilation σ} (forest : Forest) (h : Run u u') : Run u { u' with forest }
  /-- A top-level form is processed, with success or without. -/
  | topLevel {u' : Compilation σ} (node : NodeId) (h : Run u u') :
      Run u (final (Lower.processTopLevel node) u')
  | declareEnum {u' : Compilation σ} (node : NodeId) (h : Run u u') :
      Run u (final (Lower.declareEnum node) u')
  | enter {u' : Compilation σ} (name : String) (h : Run u u') :
      Run u (u'.withContext (Context.enter name u'.context).2)
  | leave {u' : Compilation σ} (h : Run u u') :
      Run u (u'.withContext (Context.leave u'.context).2)
  /-- The backend type of a type is asked for. -/
  | ask {u' : Compilation σ} (t : TypeId) (h : Run u u') :
      Run u (u'.withContext (Context.backendType t u'.context).2)

/-- Where nothing is declared, the root is the only namespace. -/
theorem Context.namespaceOf_start (options : Options) (id : NamespaceId) :
    (start options).namespaceOf id = .root ∨ (start options).namespaceOf id = default := by
  by_cases hid : id.index < (start options).namespaces.size
  · obtain ⟨index⟩ := id
    obtain rfl : index = 0 := Nat.lt_one_iff.1 hid
    exact .inl rfl
  · exact .inr (namespaceOf_of_ge (Nat.le_of_not_lt hid))

namespace Run

variable {σ : Type} {u u' : Compilation σ}

/-- What every part of a top-level form keeps, and asking for a backend type too, is kept along a
run. -/
theorem rel {R : Compilation σ → Compilation σ → Prop} [Std.Refl R] [IsTrans (Compilation σ) R]
    (htop : Lower.TopLevel R) (hforest : ∀ u forest, R u { u with forest })
    (hask : ∀ u t, R u (u.withContext (Context.backendType t u.context).2)) (h : Run u u') :
    R u u' := by
  induction h with
  | refl => exact Std.Refl.refl u
  | forest forest _ ih => exact IsTrans.trans _ _ _ ih (hforest _ forest)
  | topLevel node _ ih =>
    exact IsTrans.trans _ _ _ ih ((htop.processTopLevel_keeps node).rel_final _)
  | declareEnum node _ ih =>
    exact IsTrans.trans _ _ _ ih ((htop.declareEnum_keeps node).rel_final _)
  | enter name _ ih => exact IsTrans.trans _ _ _ ih (htop.enter name _)
  | leave _ ih => exact IsTrans.trans _ _ _ ih (htop.leave _)
  | ask t _ ih => exact IsTrans.trans _ _ _ ih (hask _ t)

/-- The context develops along a run. -/
theorem develops (h : Run u u') : u.context.Develops u'.context :=
  h.rel Lower.topLevel_develops (fun u _ => Std.Refl.refl u.context)
    fun u t => .of_still (Context.backendType_moves t u.context)

section Start

variable {options : Options} {expander : Expander σ} {memory : σ}

/-- The context is valid after a run from a unit in which nothing is declared. -/
theorem valid (h : Run (.start options expander memory) u) : u.context.Valid :=
  (h.develops.safe (Context.valid_start options)).1

/-- What every change keeps of a valid context holds after a run, if it does where nothing is
declared. -/
theorem invariant {P : Context → Prop} (hstart : P (.start options))
    (hchange : ∀ c c', c.Valid → Context.Change c c' → P c → P c')
    (h : Run (.start options expander memory) u) : P u.context :=
  h.develops.invariant hchange (Context.valid_start options) hstart

end Start

/-- A run from a valid context retains what there was. -/
theorem retains (h : Run u u') (hu : u.context.Valid) : u.context.Retains u'.context :=
  h.develops.retains hu

end Run

end FormCompiler
