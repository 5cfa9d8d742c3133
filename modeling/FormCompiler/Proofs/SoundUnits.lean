import FormCompiler.Proofs.Bounds.Session
import FormCompiler.Proofs.Bounds.TopLevel
import FormCompiler.Proofs.Reachable

/-!
# The Code of a Unit Is Well Typed

A caller hands in ids: nodes of the forest, types, blocks, and the arguments of operations on the
module. If they are ids of the unit, then what the caller does meets no id that is out of range.
The operations on the module check what they emit, so all of its code is well typed, after top-level
forms, sessions and expressions alike, with success or without.

* `Compilation.StepsTo`: what a caller may do with ids of a unit. Ids stay in range
  (`StepsTo.after`) and a sound module stays sound (`StepsTo.sound`).
* `ReachedInBounds`: the units that are reached by such steps.
* `ReachedInBounds.sound`: the module of such a unit is sound.
-/

namespace FormCompiler

namespace Ir

/-- The arguments of an operation are in range: its ids are those of the module, and the width of an
integer type is one there is. -/
structure Operation.InBounds (m : Module) (op : Operation) : Prop where
  fits : op.Fits m
  width : ∀ bits, op = .intType bits → 1 ≤ bits ∧ bits ≤ 128

/-- Every operation whose arguments are in range keeps a module in bounds, accepted or refused. -/
theorem Operation.run_after {m : Module} {op : Operation} (hm : m.InBounds) (h : op.InBounds m) :
    Bounds.After m (op.run m) := by
  have hfits := h.fits
  -- operations that enter one type differ in the type only, which is never a named one
  have hentered : ∀ {ty : Ty}, ty.isNamed = false → ty.InBounds m →
      Bounds.After m (Module.internType ty m).2 := fun hunnamed hty =>
    (Checked.internType_passes (ε := Error) hunnamed hty).after_final hm
  cases op with
  | voidType => exact hentered rfl ⟨by simp [Ty.parts], by simp⟩
  | intType bits => exact hentered rfl ⟨by simp [Ty.parts], by simpa using h.width bits rfl⟩
  | floatType bits => exact hentered rfl ⟨by simp [Ty.parts], by simp⟩
  | pointerTo pointee =>
    have hpointee : m.HasTy pointee := hfits
    exact hentered rfl ⟨by simpa [Ty.parts] using hpointee, by simp⟩
  | literalStruct fields => exact hentered rfl ⟨hfits, by simp⟩
  | namedStruct name fields => exact (Checked.namedStruct_passes name hfits).after_final hm
  | constInt ty v => exact (Checked.constInt_passes (ε := Error) hfits v).after_final hm
  | constIntOfText ty signed text =>
    exact (Checked.constIntOfText_passes hfits signed text).after_final hm
  | constFloat ty value => exact hm.newValue ⟨hfits, by simp⟩
  | undefined ty => exact hm.newValue ⟨hfits, by simp⟩
  | globalText text => exact (Checked.globalText_passes (ε := Error) text).after_final hm
  | declareFunction symbol params returned linkage =>
    exact (Checked.declareFunction_passes symbol linkage hfits.1 hfits.2).after_final hm
  | appendBlock func label =>
    exact (Checked.appendBlock_passes (ε := Error) label hfits).after_final hm
  | finishFunction func =>
    exact (Checked.finishFunction_passes (ε := Error) hfits).after_final hm
  | alloca b ty => exact (Checked.alloca_passes hfits.1 hfits.2).after_final hm
  | load b pointer => exact (Checked.load_passes hfits.1 hfits.2).after_final hm
  | store b value pointer =>
    exact (Checked.store_passes hfits.1 hfits.2.1 hfits.2.2).after_final hm
  | call b callee arguments =>
    exact (Checked.call_passes hfits.1 hfits.2.1 hfits.2.2).after_final hm
  | extractValue b aggregate index =>
    exact (Checked.extractValue_passes index hfits.1 hfits.2).after_final hm
  | insertValue b aggregate value index =>
    exact (Checked.insertValue_passes index hfits.1 hfits.2.1 hfits.2.2).after_final hm
  | icmp b predicate lhs rhs =>
    exact (Checked.icmp_passes predicate hfits.1 hfits.2.1 hfits.2.2).after_final hm
  | phi b incoming => exact (Checked.phi_passes hfits.1 hfits.2).after_final hm
  | ret b value => exact (Checked.ret_passes hfits.1 hfits.2).after_final hm
  | br b target => exact (Checked.br_passes hfits.1 hfits.2).after_final hm
  | condBr b condition onTrue onFalse =>
    exact (Checked.condBr_passes hfits.1 hfits.2.1 hfits.2.2.1 hfits.2.2.2).after_final hm
  | unreachable b =>
    exact (Checked.terminate_passes hfits (Terminator.unreachable_known m) trivial).after_final hm

end Ir

section

variable {σ : Type} {u u' : Compilation σ}

/-- What a caller may do with a unit by means of ids of that unit, and the unit it leads to. -/
inductive Compilation.StepsTo (u : Compilation σ) : Compilation σ → Prop
  /-- A top-level form is processed, with success or without. -/
  | topLevel {node : NodeId} (hnode : u.forest.Has node) :
      StepsTo u (final (Lower.processTopLevel node) u)
  | declareEnum {node : NodeId} (hnode : u.forest.Has node) :
      StepsTo u (final (Lower.declareEnum node) u)
  | enter (name : String) : StepsTo u (u.withContext (Context.enter name u.context).2)
  | leave : StepsTo u (u.withContext (Context.leave u.context).2)
  | openSession (symbol : String) {params : List SessionParam} {returnType : TypeId}
      (linkage : Ir.Linkage) (hparams : ∀ p ∈ params, u.context.pool.Has p.ty)
      (hreturn : u.context.pool.Has returnType) :
      StepsTo u (u.withContext (Context.openSession symbol params returnType linkage u.context).2)
  /-- An expression is processed, with success or without. -/
  | process {frame : Frame} {b : Ir.BlockId} {node : NodeId} (hframe : frame.InBounds u.context)
      (hb : u.context.ir.HasBlock b) (hnode : u.forest.Has node) :
      StepsTo u (final (Lower.process frame b node) u)
  /-- A result is cleaned up, with success or without. -/
  | destruct {r : Result} (hr : r.InBounds u.context) :
      StepsTo u (final (Lower.onContext (Context.destruct r)) u)
  | pointerTo {t : TypeId} (ht : u.context.pool.Has t) :
      StepsTo u (u.withContext (u.context.withPool (u.context.pool.pointerTo t).2))
  /-- An operation is run on the module, accepted or refused. -/
  | operate {op : Ir.Operation} (hop : op.InBounds u.context.ir) :
      StepsTo u (u.withContext (u.context.withIr (op.run u.context.ir)))

namespace Compilation.StepsTo

/-- What a caller does with ids of a unit keeps all ids in range. -/
theorem after (h : u.StepsTo u') (hu : u.InBounds) : Bounds.After u u' := by
  -- steps on the context alone never stop, so they pass for any reason to stop
  cases h with
  | topLevel hnode =>
    exact (Lower.Checked.topFormBelow_passes _ u _ hnode).after_final hu
  | declareEnum hnode => exact (Lower.Checked.declareEnum_passes u _ hnode).after_final hu
  | enter name =>
    exact hu.withContext
      ((Context.Checked.enter_passes (ε := Halt) name).after_final hu.context)
  | leave =>
    exact hu.withContext ((Context.Checked.leave_passes (ε := Halt)).after_final hu.context)
  | openSession symbol linkage hparams hreturn =>
    exact hu.withContext ((Context.Checked.openSession_passes (ε := Halt) symbol linkage hparams
      hreturn).after_final hu.context)
  | process hframe hb hnode =>
    exact (Lower.Checked.process_passes u _ _ hframe hb hnode).after_final hu
  | destruct hr =>
    exact (Lower.Checked.onContext_passes (Context.Checked.destruct_passes hr)).after_final hu
  | @pointerTo t ht =>
    have hpassed := Context.Checked.intern_passes (ε := Halt) (c := u.context)
      fun pointee (heq : SourceType.pointer t = .pointer pointee) => by
        cases heq
        exact ht
    exact hu.withContext (hpassed.after_final hu.context)
  | operate hop =>
    exact hu.withContext (hu.context.withIr (Ir.Operation.run_after hu.context.ir hop))

/-- Top-level forms, sessions, expressions and operations keep the code of a unit well typed. -/
theorem sound (h : u.StepsTo u') (hu : u.InBounds) (hsound : u.context.ir.Sound) :
    u'.context.ir.Sound :=
  (h.after hu).grows.context.ir.sound hsound

/-- What a caller does with ids of a reachable unit leads to a reachable one. -/
theorem reachable (h : u.StepsTo u') (hu : u.InBounds) (hreachable : Reachable u) :
    Reachable u' := by
  have hafter := h.after hu
  -- being in range is what the steps of reachable units ask for: a type of the pool is grounded,
  -- and the variables of a frame in bounds have such types
  cases h with
  | topLevel _ => exact hreachable.topLevel _
  | declareEnum _ => exact hreachable.declareEnum _
  | enter name => exact hreachable.enter name
  | leave => exact hreachable.leave
  | openSession symbol linkage hparams _ =>
    exact hreachable.openSession symbol
      (fun p hp => hreachable.valid.grounded (hparams p hp)) _ linkage
  | process hframe _ _ =>
    refine hreachable.process _ _ _ fun name v hv => ?_
    exact (hframe.vars _ (mem_of_lookup hv)).ty
  | destruct _ => exact hreachable.destruct _
  | pointerTo ht => exact hreachable.pointerTo _ (hreachable.valid.grounded ht)
  | operate _ =>
    exact hreachable.emit ⟨rfl, hafter.grows.context.ir.toExtends, rfl, rfl, rfl, rfl⟩

end Compilation.StepsTo

/-- The units that a caller who only hands in ids of the unit reaches from one in which nothing is
declared, with an expander that keeps forests in bounds. -/
inductive ReachedInBounds : Compilation σ → Prop
  | start {options : Options} {expander : Expander σ} (memory : σ)
      (hint : 1 ≤ options.target.intWidth ∧ options.target.intWidth ≤ 128)
      (hpointer : 1 ≤ options.target.pointerWidth ∧ options.target.pointerWidth ≤ 128)
      (hexpander : expander.KeepsBounds) : ReachedInBounds (.start options expander memory)
  /-- Forms are added, or replaced by others. -/
  | forest {u : Compilation σ} {forest : Forest} (hforest : forest.InBounds)
      (h : ReachedInBounds u) : ReachedInBounds { u with forest }
  | step {u u' : Compilation σ} (hstep : u.StepsTo u') (h : ReachedInBounds u) :
      ReachedInBounds u'

namespace ReachedInBounds

/-- All ids in such a unit are in range. -/
theorem inBounds (h : ReachedInBounds u) : u.InBounds := by
  induction h with
  | start memory hint hpointer hexpander =>
    have hforest : Forest.empty.InBounds := by decide
    exact ⟨hforest, Context.inBounds_start hint hpointer, hexpander⟩
  | forest hforest _ ih => exact { ih with forest := hforest }
  | step hstep _ ih => exact (hstep.after ih).inBounds

theorem reachable (h : ReachedInBounds u) : Reachable u := by
  induction h with
  | start memory _ _ _ => exact .start _ _ memory
  | forest _ _ ih => exact ih.forest _
  | step hstep h ih => exact hstep.reachable h.inBounds ih

/-- All code in the module of such a unit is well typed, and refers to nothing that the module does
not have. -/
theorem sound (h : ReachedInBounds u) : u.context.ir.Sound := by
  induction h with
  | start _ _ _ _ => exact Ir.Module.sound_empty _
  | forest _ _ ih => exact ih
  | step hstep h ih => exact hstep.sound h.inBounds ih

end ReachedInBounds

end

end FormCompiler
