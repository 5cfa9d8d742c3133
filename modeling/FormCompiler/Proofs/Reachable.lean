import FormCompiler.Proofs.Lower.Development

/-!
# Reachable Units

The units reached from one in which nothing is declared: by top-level forms, by entering and leaving
namespaces, by expressions and the cleanup after them, and by what a caller does with the module and
the types, such as opening a session. Every one of them has a valid context.
-/

namespace FormCompiler

namespace Context

variable {c : Context}

/-- The context of a unit in which nothing is declared is valid. -/
theorem valid_start (options : Options) : (start options).Valid := by
  have hroot : ∀ i : NamespaceId, i.index < (start options).namespaces.size →
      (start options).namespaceOf i = .root := by
    intro i hi
    have hzero : i.index = 0 := Nat.lt_one_iff.1 hi
    rw [namespaceOf, hzero]
    rfl
  have hpool : ∀ i : Nat, (start options).pool.types[i]? =
      Primitive.all[i]?.map SourceType.primitive := fun i => by simp [start, Pool.start]
  constructor
  constructor
  case pool => exact Pool.sound_start options.target
  case rooted => exact Nat.one_pos
  case entered => exact fun id hid => absurd hid List.not_mem_nil
  case paths =>
    rintro ⟨i⟩ ⟨j⟩ hi hj -
    exact congrArg NamespaceId.mk ((Nat.lt_one_iff.1 hi).trans (Nat.lt_one_iff.1 hj).symm)
  case parents =>
    intro j hj name rest hchain
    rw [hroot j hj] at hchain
    cases hchain
  case children =>
    intro i hi name j hj
    rw [hroot i hi] at hj
    cases hj
  case enums =>
    intro i hi e he
    rw [hroot i hi] at he
    cases he
  case structs =>
    intro i hi s hs
    rw [hroot i hi] at hs
    cases hs
  case functions =>
    intro i hi f hf
    rw [hroot i hi] at hf
    exact absurd hf (Array.not_mem_empty f)
  case layouts => exact fun t ty hty => by cases hty
  case named =>
    intro t type htype hnamed
    rw [hpool, Option.map_eq_some_iff] at htype
    obtain ⟨p, -, rfl⟩ := htype
    cases hnamed
  case declared => exact fun t ty hty => by cases hty

end Context

/-- The units reached from one in which nothing is declared. -/
inductive Reachable {σ : Type} : Compilation σ → Prop
  | start (options : Options) (expander : Expander σ) (memory : σ) :
      Reachable (.start options expander memory)
  /-- Forms are added, or replaced by others. -/
  | forest {u : Compilation σ} (forest : Forest) (h : Reachable u) : Reachable { u with forest }
  /-- A top-level form is processed, with success or without. -/
  | topLevel {u : Compilation σ} (node : NodeId) (h : Reachable u) :
      Reachable (final (Lower.processTopLevel node) u)
  | declareEnum {u : Compilation σ} (node : NodeId) (h : Reachable u) :
      Reachable (final (Lower.declareEnum node) u)
  | enter {u : Compilation σ} (name : String) (h : Reachable u) :
      Reachable (u.withContext (Context.enter name u.context).2)
  | leave {u : Compilation σ} (h : Reachable u) :
      Reachable (u.withContext (Context.leave u.context).2)
  /-- An expression is processed, with success or without. -/
  | process {u : Compilation σ} (frame : Frame) (b : Ir.BlockId) (node : NodeId)
      (scope : frame.scope.TypesIn u.context.pool) (h : Reachable u) :
      Reachable (final (Lower.process frame b node) u)
  /-- A result is cleaned up, with success or without. -/
  | destruct {u : Compilation σ} (r : Result) (h : Reachable u) :
      Reachable (final (Lower.onContext (Context.destruct r)) u)
  /-- The caller adds to the module or reports errors. -/
  | emit {u : Compilation σ} {c : Context}
      (within : u.context.Within (· = ·) Ir.Module.Extends c) (h : Reachable u) :
      Reachable (u.withContext c)
  /-- The caller asks for the type of pointers to a type. -/
  | pointerTo {u : Compilation σ} (t : TypeId) (grounded : u.context.Grounded t)
      (h : Reachable u) :
      Reachable (u.withContext (u.context.withPool (u.context.pool.pointerTo t).2))

namespace Reachable

variable {σ : Type} {u : Compilation σ}

/-- The context of a reachable unit is valid. -/
theorem valid (h : Reachable u) : u.context.Valid := by
  induction h with
  | start options => exact Context.valid_start options
  | forest _ _ ih => exact ih
  | @topLevel u node _ ih =>
    exact (((Lower.topLevel_develops.processTopLevel_keeps node).rel_final u).safe ih).1
  | @declareEnum u node _ ih =>
    exact (((Lower.topLevel_develops.declareEnum_keeps node).rel_final u).safe ih).1
  | enter name _ ih => exact (Context.enter_safe name _ ih).1
  | leave _ ih => exact (Context.leave_safe _ ih).1
  | @process u frame b node scope _ ih =>
    have hkept := (Lower.process_keeps frame.scope frame.func b node).rel_final u
    exact (Lower.kept_safe hkept scope ih).1
  | @destruct u r _ ih =>
    have hkept := (Lower.onContext_keeps (Context.destruct_keeps .empty r)).rel_final u
    exact (Lower.kept_safe hkept (.empty _) ih).1
  | emit within _ ih => exact (Context.Safe.of_extends within ih).1
  | pointerTo t grounded _ ih => exact (ih.pointerTo grounded).1

/-- Entering the types that several parameters hold. -/
theorem heldTypes (h : Reachable u) {params : List SessionParam}
    (hparams : ∀ p ∈ params, u.context.Grounded p.ty) :
    Reachable (u.withContext (Context.heldTypes params u.context).2) := by
  induction params generalizing u with
  | nil => exact h
  | cons param params ih =>
    have hgrounded := hparams param List.mem_cons_self
    have hrest : ∀ p ∈ params, u.context.Grounded p.ty := fun p hp =>
      hparams p (List.mem_cons_of_mem _ hp)
    change Reachable (u.withContext
      (Context.heldTypes params (Context.onPool param.heldType u.context).2).2)
    rw [Context.onPool_run]
    unfold SessionParam.heldType
    split
    · exact ih (h.pointerTo param.ty hgrounded) fun p hp =>
        (hrest p hp).mono (h.valid.pointerTo hgrounded).2.1
    · exact ih h hrest

/-- Opening a session keeps a unit reachable. -/
theorem openSession (h : Reachable u) (symbol : String) {params : List SessionParam}
    (hparams : ∀ p ∈ params, u.context.Grounded p.ty) (returnType : TypeId)
    (linkage : Ir.Linkage) :
    Reachable (u.withContext
      (Context.openSession symbol params returnType linkage u.context).2) := by
  -- once its types are entered, all that a session adds is in the module
  have hsession : Context.Within (· = ·) Ir.Module.Extends (Context.heldTypes params u.context).2
      (Context.openSession symbol params returnType linkage u.context).2 := by
    have hstill : ∀ c c', Context.Within (· = ·) Ir.Module.Still c c' →
        Context.Within (· = ·) Ir.Module.Extends c c' := fun _ _ h =>
      h.mono (fun _ _ h => h) fun _ _ => Ir.Module.Still.toExtends
    refine Moves.after (fun held => ?_) _ _
    refine .bind ((Context.backendTypes_moves _).mono hstill) fun tys =>
      .bind ((Context.backendType_moves _).mono hstill) fun ret =>
      .bind (Context.attempt_moves fun m => ?_) fun declared => ?_
    · refine (Ir.Module.declareFunction_ends symbol tys ret linkage m).mono
        (fun _ _ hm => hm.toExtends) ?_
      rintro _ ⟨rfl, -⟩
      exact .refl m
    · cases declared with
      | error e => exact .pure _
      | ok func =>
        exact .bind (Context.onModule_moves (Ir.Module.appendBlock_moves func _)) fun entry =>
          .bind (fun c => Std.Refl.refl c) fun c => .pure _
  exact Reachable.emit (u := u.withContext (Context.heldTypes params u.context).2) hsession
    (h.heldTypes hparams)

end Reachable

/-- The units reached from one in which nothing is declared by top-level forms and by entering and
leaving namespaces. -/
inductive Built {σ : Type} : Compilation σ → Prop
  | start (options : Options) (expander : Expander σ) (memory : σ) :
      Built (.start options expander memory)
  /-- Forms are added, or replaced by others. -/
  | forest {u : Compilation σ} (forest : Forest) (h : Built u) : Built { u with forest }
  /-- A top-level form is processed, with success or without. -/
  | topLevel {u : Compilation σ} (node : NodeId) (h : Built u) :
      Built (final (Lower.processTopLevel node) u)
  | declareEnum {u : Compilation σ} (node : NodeId) (h : Built u) :
      Built (final (Lower.declareEnum node) u)
  | enter {u : Compilation σ} (name : String) (h : Built u) :
      Built (u.withContext (Context.enter name u.context).2)
  | leave {u : Compilation σ} (h : Built u) :
      Built (u.withContext (Context.leave u.context).2)

namespace Built

variable {σ : Type} {u : Compilation σ}

/-- What forms build is reachable. -/
theorem reachable (h : Built u) : Reachable u := by
  induction h with
  | start options expander memory => exact .start options expander memory
  | forest forest _ ih => exact ih.forest forest
  | topLevel node _ ih => exact ih.topLevel node
  | declareEnum node _ ih => exact ih.declareEnum node
  | enter name _ ih => exact ih.enter name
  | leave _ ih => exact ih.leave

/-- What forms build develops from the context in which nothing is declared. -/
theorem develops (h : Built u) : ∃ options, (Context.start options).Develops u.context := by
  induction h with
  | start options _ _ => exact ⟨options, Std.Refl.refl _⟩
  | forest _ _ ih => exact ih
  | @topLevel u node _ ih =>
    obtain ⟨options, h⟩ := ih
    exact ⟨options, IsTrans.trans _ _ _ h
      ((Lower.topLevel_develops.processTopLevel_keeps node).rel_final u)⟩
  | @declareEnum u node _ ih =>
    obtain ⟨options, h⟩ := ih
    exact ⟨options, IsTrans.trans _ _ _ h
      ((Lower.topLevel_develops.declareEnum_keeps node).rel_final u)⟩
  | enter name _ ih =>
    obtain ⟨options, h⟩ := ih
    exact ⟨options, IsTrans.trans _ _ _ h (.single fun _ => .enter name rfl)⟩
  | leave _ ih =>
    obtain ⟨options, h⟩ := ih
    exact ⟨options, IsTrans.trans _ _ _ h (.single fun _ => .leave rfl)⟩

end Built

end FormCompiler
