import FormCompiler.Proofs.Ir.Numbering
import FormCompiler.Proofs.ModuleTyping

/-!
# Operations Are All or Nothing

An operation on a module that is refused leaves everything but the table of types as it was, and
that table at most gets unnamed types. One that is accepted only adds: to the tables, and at the end
of blocks that are open. `build_ends` says so for every operation on every module.

What is refused takes no number of a value. So in a module that was empty at first, after any
operations, refused ones among them, the values that are results and the instructions that define
values correspond one to one, and so do the values that are parameters and the places for them in
signatures (`runAll_numbered`).
-/

namespace FormCompiler.Ir.Operation

open Ir.Module

/-! ## Operations with their outcome -/

/-- A step without its result. -/
def only {α : Type} (x : Build α) : Build PUnit := x >>= fun _ => pure ⟨⟩

/-- An operation, accepted or refused, without its result. -/
def build : Operation → Build PUnit
  | voidType => only (always Module.voidType)
  | intType bits => only (always (Module.intType bits))
  | floatType bits => only (always (Module.floatType bits))
  | pointerTo pointee => only (always (Module.pointerTo pointee))
  | literalStruct fields => only (always (Module.literalStruct fields))
  | namedStruct name fields => only (Module.namedStruct name fields)
  | constInt ty v => only (always (Module.constInt ty v))
  | constIntOfText ty signed text => only (Module.constIntOfText ty signed text)
  | constFloat ty value => only (always (Module.constFloat ty value))
  | undefined ty => only (always (Module.undefined ty))
  | globalText text => only (always (Module.globalText text))
  | declareFunction symbol params returned linkage =>
    only (Module.declareFunction symbol params returned linkage)
  | appendBlock func label => only (always (Module.appendBlock func label))
  | finishFunction func => only (always (Module.finishFunction func))
  | alloca b ty => only (Module.alloca b ty)
  | load b pointer => only (Module.load b pointer)
  | store b value pointer => only (Module.store b value pointer)
  | call b callee arguments => only (Module.call b callee arguments)
  | extractValue b aggregate index => only (Module.extractValue b aggregate index)
  | insertValue b aggregate value index => only (Module.insertValue b aggregate value index)
  | icmp b predicate lhs rhs => only (Module.icmp b predicate lhs rhs)
  | phi b incoming => only (Module.phi b incoming)
  | ret b value => only (Module.ret b value)
  | br b target => only (Module.br b target)
  | condBr b condition onTrue onFalse => only (Module.condBr b condition onTrue onFalse)
  | unreachable b => only (Module.unreachable b)

section Only

variable {α : Type} {x : Build α} {m : Module}

/-- A step ends in the same state without its result. -/
theorem only_run (x : Build α) (m : Module) :
    only x m = match x m with
      | .ok _ m' => .ok ⟨⟩ m'
      | .error e m' => .error e m' := by
  change EStateM.bind x _ m = _
  unfold EStateM.bind
  cases x m <;> rfl

/-- What is known of the state after a step is known without its result. -/
theorem only_ends {P : α → Module → Prop} {Q E : Module → Prop}
    (h : Ends x m P E) (hok : ∀ a m', P a m' → Q m') : Ends (only x) m (fun _ => Q) E :=
  h.bind fun a m' ha => .pure (hok a m' ha)

end Only

/-- The module after an operation is the state that it ends in. -/
theorem final_build (op : Operation) (m : Module) : final op.build m = op.run m := by
  have hfinal : ∀ {α : Type} (x : Build α), final (only x) m = final x m := fun x => by
    unfold final
    rw [only_run]
    cases x m <;> rfl
  cases op <;> exact hfinal _

/-! ## One operation -/

/-- Steps that are not refused, by the module after them. -/
theorem always_build_ends {α : Type} {op : StateM Module α} {m : Module}
    (h : m.Extends (op m).2) :
    Ends (only (always op)) m (fun _ => m.Extends) m.Intact := h

/-- Steps on a block: what they add if they are accepted, and that they are atomic. -/
theorem block_build_ends {α : Type} {b : BlockId} {x : Build α} {m : Module}
    {P : α → Module → Prop} (h : Ends x m P (Still m)) (hx : Atomic b x)
    (hok : ∀ a m', P a m' → m.Extends m') :
    Ends (only x) m (fun _ => m.Extends) m.Intact :=
  only_ends ((h.and (hx m)).mono (fun _ _ h => h) fun _ h => h.2) fun a m' h => hok a m' h.1

/-- Whatever the operation and its arguments: if it is refused, at most unnamed types were entered;
if it is accepted, entries were added, open blocks may have got longer or have been closed, and
functions may have got blocks. -/
theorem build_ends (op : Operation) (m : Module) :
    Ends op.build m (fun _ => m.Extends) m.Intact := by
  -- `Still` alone would let a refused step on a block take ids of values: that it takes none is
  -- what `Atomic` adds.
  cases op with
  | voidType => exact always_build_ends (internType_spec .void rfl m).1.toExtends
  | intType bits => exact always_build_ends (internType_spec (.int bits) rfl m).1.toExtends
  | floatType bits => exact always_build_ends (internType_spec (.float bits) rfl m).1.toExtends
  | pointerTo pointee =>
    exact always_build_ends (internType_spec (.pointer pointee) rfl m).1.toExtends
  | literalStruct fields =>
    exact always_build_ends (internType_spec (.struct none fields) rfl m).1.toExtends
  | namedStruct name fields =>
    refine only_ends ((namedStruct_ends name fields m).mono (fun _ _ h => h) ?_) ?_
    · rintro _ ⟨rfl, -⟩
      exact .refl _
    · rintro _ _ ⟨-, -, rfl⟩
      exact extends_push_type m _
  | constInt ty v => exact always_build_ends (newValue_spec ty _ m).1.toExtends
  | constIntOfText ty signed text =>
    refine only_ends (P := fun _ => m.Extends) ?_ fun _ _ h => h
    unfold Ends Module.constIntOfText
    cases m.intWidth? ty with
    | none => exact .refl m
    | some bits =>
      dsimp only
      cases parseIntLiteral text bits signed with
      | error e => exact .refl m
      | ok raw => exact (newValue_spec ty _ m).1.toExtends
  | constFloat ty value => exact always_build_ends (newValue_spec ty _ m).1.toExtends
  | undefined ty => exact always_build_ends (newValue_spec ty _ m).1.toExtends
  | globalText text =>
    obtain ⟨_, hfresh, -⟩ := globalText_spec text m
    exact always_build_ends hfresh.still.toExtends
  | declareFunction symbol params returned linkage =>
    refine only_ends ((declareFunction_ends symbol params returned linkage m).mono
      (fun _ _ h => h) ?_) fun _ _ h => h.toExtends
    rintro _ ⟨rfl, -⟩
    exact .refl _
  | appendBlock func label => exact always_build_ends (appendBlock_extends m func label)
  | finishFunction func => exact always_build_ends (finishFunction_extends func m)
  | alloca b ty =>
    exact block_build_ends (alloca_ends b ty m) (alloca_atomic b ty) fun _ _ h => h.1.toExtends
  | load b pointer =>
    exact block_build_ends (load_ends b pointer m) (load_atomic b pointer)
      fun _ _ h => h.1.toExtends
  | store b value pointer =>
    exact block_build_ends (store_ends b value pointer m) (store_atomic b value pointer)
      fun _ _ h => h.1.toExtends
  | call b callee arguments =>
    exact block_build_ends (call_ends b callee arguments m) (call_atomic b callee arguments)
      fun _ _ h => h.1.toExtends
  | extractValue b aggregate index =>
    exact block_build_ends (extractValue_ends b aggregate index m)
      (extractValue_atomic b aggregate index) fun _ _ h => h.1.toExtends
  | insertValue b aggregate value index =>
    exact block_build_ends (insertValue_ends b aggregate value index m)
      (insertValue_atomic b aggregate value index) fun _ _ h => h.1.toExtends
  | icmp b predicate lhs rhs =>
    exact block_build_ends (icmp_ends b predicate lhs rhs m) (icmp_atomic b predicate lhs rhs)
      fun _ _ h => h.1.toExtends
  | phi b incoming =>
    exact block_build_ends (phi_ends b incoming m) (phi_atomic b incoming)
      fun _ _ h => h.1.toExtends
  | ret b value =>
    exact block_build_ends (ret_ends b value m) (ret_atomic b value) fun _ _ h => h.toExtends
  | br b target =>
    exact block_build_ends (br_ends b target m) (terminate_atomic b _) fun _ _ h => h.toExtends
  | condBr b condition onTrue onFalse =>
    exact block_build_ends (condBr_ends b condition onTrue onFalse m)
      (condBr_atomic b condition onTrue onFalse) fun _ _ h => h.toExtends
  | unreachable b =>
    exact block_build_ends (terminate_ends b .unreachable m) (terminate_atomic b _)
      fun _ _ h => h.toExtends

/-! ## Sequences of operations -/

/-- A step on a block of the module keeps it numbered, accepted or refused. -/
theorem numbered_of_atomic {α : Type} {b : BlockId} {x : Build α} {m : Module} (hx : Atomic b x)
    (hb : m.HasBlock b) (h : m.Numbered) : (final x m).Numbered :=
  ((hx m).mono (fun _ _ hm => hm hb h) fun _ hm => h.intact hm).final

/-- Every operation keeps the module numbered, accepted or refused. -/
theorem run_numbered {m : Module} {op : Operation} (h : m.Numbered) (hfits : op.Fits m) :
    (op.run m).Numbered := by
  cases op with
  | voidType => exact h.intact (internType_intact .void rfl m)
  | intType bits => exact h.intact (internType_intact (.int bits) rfl m)
  | floatType bits => exact h.intact (internType_intact (.float bits) rfl m)
  | pointerTo pointee => exact h.intact (internType_intact (.pointer pointee) rfl m)
  | literalStruct fields => exact h.intact (internType_intact (.struct none fields) rfl m)
  | namedStruct name fields =>
    refine ((namedStruct_ends name fields m).mono ?_ fun _ hm => hm.1 ▸ h).final
    rintro _ _ ⟨-, -, rfl⟩
    exact h.of_same (fun _ => .rfl) (fun _ _ _ => .rfl) (fun _ _ => rfl) fun _ _ => rfl
  | constInt ty v => exact h.constant ty rfl
  | constIntOfText ty signed text =>
    suffices hends : Ends (Module.constIntOfText ty signed text) m (fun _ => Numbered) Numbered from
      hends.final
    unfold Ends Module.constIntOfText
    cases m.intWidth? ty with
    | none => exact h
    | some bits =>
      dsimp only
      cases parseIntLiteral text bits signed with
      | error e => exact h
      | ok raw => exact h.constant ty rfl
  | constFloat ty value => exact h.constant ty rfl
  | undefined ty => exact h.constant ty rfl
  | globalText text =>
    have hbyte := internType_intact (.int 8) rfl m
    have hpointer := internType_intact (.pointer (Module.internType (.int 8) m).1) rfl
      (Module.internType (.int 8) m).2
    exact (h.intact (hbyte.trans hpointer)).constant _ rfl
  | declareFunction symbol params returned linkage =>
    suffices hends : Ends (Module.declareFunction symbol params returned linkage) m
        (fun _ => Numbered) Numbered from hends.final
    unfold Ends Module.declareFunction
    cases m.lookupFunction? symbol with
    | some func => exact h
    | none => exact h.pushFunction rfl (by rw [newParams_eq]) (by rw [newParams_eq])
  | appendBlock func label => exact h.appendBlock func label
  | finishFunction func => exact h.finishFunction func
  | alloca b ty => exact numbered_of_atomic (alloca_atomic b ty) hfits.1 h
  | load b pointer => exact numbered_of_atomic (load_atomic b pointer) hfits.1 h
  | store b value pointer => exact numbered_of_atomic (store_atomic b value pointer) hfits.1 h
  | call b callee arguments => exact numbered_of_atomic (call_atomic b callee arguments) hfits.1 h
  | extractValue b aggregate index =>
    exact numbered_of_atomic (extractValue_atomic b aggregate index) hfits.1 h
  | insertValue b aggregate value index =>
    exact numbered_of_atomic (insertValue_atomic b aggregate value index) hfits.1 h
  | icmp b predicate lhs rhs =>
    exact numbered_of_atomic (icmp_atomic b predicate lhs rhs) hfits.1 h
  | phi b incoming => exact numbered_of_atomic (phi_atomic b incoming) hfits.1 h
  | ret b value => exact numbered_of_atomic (ret_atomic b value) hfits.1 h
  | br b target => exact numbered_of_atomic (terminate_atomic b _) hfits.1 h
  | condBr b condition onTrue onFalse =>
    exact numbered_of_atomic (condBr_atomic b condition onTrue onFalse) hfits.1 h
  | unreachable b => exact numbered_of_atomic (terminate_atomic b _) hfits h

/-- Sequences of operations keep the module numbered. -/
theorem runAll_numbered {m : Module} {ops : List Operation} (h : m.Numbered) (hfit : Fit m ops) :
    (runAll ops m).Numbered := by
  -- the later operations fit the module after the first one
  induction ops generalizing m with
  | nil => exact h
  | cons op ops ih => exact ih (run_numbered h hfit.1) hfit.2

/-- After any operations on a module that was empty, with ids of that module: every further
operation that is refused leaves values, blocks, functions, symbols and names of structs as they
are and enters at most unnamed types; every one that is accepted only adds; and results and
instructions, parameters and signatures correspond one to one. -/
theorem runAll_atomic {name : String} {ops : List Operation} (hfit : Fit (.empty name) ops) :
    (∀ op : Operation,
      final op.build (runAll ops (.empty name)) = op.run (runAll ops (.empty name)) ∧
      Ends op.build (runAll ops (.empty name)) (fun _ m' => (runAll ops (.empty name)).Extends m')
        fun m' => (runAll ops (.empty name)).Intact m' ∧
          (∀ symbol, m'.lookupFunction? symbol =
            (runAll ops (.empty name)).lookupFunction? symbol) ∧
          ∀ other, m'.lookupStruct? other = (runAll ops (.empty name)).lookupStruct? other) ∧
      (runAll ops (.empty name)).Numbered := by
  refine ⟨fun op => ⟨final_build op _, ?_⟩, runAll_numbered (numbered_empty name) hfit⟩
  exact (build_ends op _).mono (fun _ _ h => h) fun _ h =>
    ⟨h, h.lookupFunction?, h.typesGrown.lookupStruct?⟩

/-- The smaller of two numbers, by a comparison and a merge. A branch by a number and a return
without a value are refused in between; each has entered a type by then. -/
def smaller : List Operation :=
  [intType 32, declareFunction "smaller" [⟨0⟩, ⟨0⟩] ⟨0⟩ .internal,
    appendBlock ⟨0⟩ "entry", appendBlock ⟨0⟩ "left", appendBlock ⟨0⟩ "merged",
    condBr ⟨0⟩ ⟨0⟩ ⟨1⟩ ⟨2⟩, icmp ⟨0⟩ .slt ⟨0⟩ ⟨1⟩, ret ⟨0⟩ none,
    condBr ⟨0⟩ ⟨2⟩ ⟨1⟩ ⟨2⟩, br ⟨1⟩ ⟨2⟩, phi ⟨2⟩ [(⟨1⟩, ⟨0⟩), (⟨0⟩, ⟨1⟩)], ret ⟨2⟩ (some ⟨3⟩)]

/-- In the module of `smaller` the refused operations have entered two types; its two results and
its two parameters have the four ids of values. -/
theorem smaller_atomic :
    Fit (.empty "unit") smaller ∧
      (runAll smaller (.empty "unit")).types = #[.int 32, .int 1, .void] ∧
      (runAll smaller (.empty "unit")).values.map (·.kind) =
        #[.param ⟨0⟩ 0, .param ⟨0⟩ 1, .result, .result] ∧
      (runAll smaller (.empty "unit")).Numbered :=
  ⟨by decide +kernel, by decide +kernel, by decide +kernel, (runAll_atomic (by decide +kernel)).2⟩

end FormCompiler.Ir.Operation
