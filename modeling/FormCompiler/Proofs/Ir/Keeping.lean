import FormCompiler.Proofs.Ir.Operations

/-!
# Relations That Operations Keep

An operation on a block is a sequence of small steps: requirements, which change nothing; perhaps a
type or a value that is entered; and at last an instruction or a terminator. A preorder on modules
that the small steps keep is therefore kept by the operation, accepted or refused.

* `expectOpen_keeps` and its like: a requirement keeps every reflexive relation.
* `BlockSteps`: the relation is kept by what operations add to a block.
* `BlockSteps.load` and its like: operations that enter no type.
* `BlockSteps.alloca` and its like: operations that enter one, which the relation has to allow.
-/

namespace FormCompiler.Ir.Module

variable {R : Module → Module → Prop}

/-! ## Requirements -/

section Requirements

variable [Std.Refl R]

/-- A requirement that changes nothing, met or not. -/
theorem keeps_of_ends {α : Type} {x : Build α} {P : Module → α → Prop}
    (hx : ∀ m, Ends x m (fun a m' => m = m' ∧ P m a) (m = ·)) : Keeps R x := fun m =>
  (hx m).mono (fun _ _ h => h.1 ▸ Std.Refl.refl m) fun _ h => h ▸ Std.Refl.refl m

/-- Reading the module. -/
theorem get_keeps : Keeps R (EStateM.get : Build Module) := fun m => .get (Std.Refl.refl m)

/-- Requiring a block to be open. -/
theorem expectOpen_keeps (b : BlockId) : Keeps R (expectOpen b) :=
  keeps_of_ends (expectOpen_ends b)

/-- Requiring a type. -/
theorem expectType_keeps (expected found : TyId) : Keeps R (expectType expected found) :=
  keeps_of_ends (expectType_ends expected found)

/-- Requiring a pointer. -/
theorem expectPointer_keeps (pointer : ValueId) : Keeps R (expectPointer pointer) :=
  keeps_of_ends (expectPointer_ends pointer)

/-- Requiring a field. -/
theorem expectField_keeps (aggregate : TyId) (index : Nat) :
    Keeps R (expectField aggregate index) :=
  keeps_of_ends (expectField_ends aggregate index)

/-- Requiring the types of other values. -/
theorem expectTypes_keeps (expected found : List ValueId) :
    Keeps R (expectTypes expected found) :=
  keeps_of_ends (expectTypes_ends expected found)

end Requirements

/-- A step that is never refused. -/
theorem always_keeps {α : Type} {op : StateM Module α} (h : Moves R op) : Keeps R (always op) := h

/-- Finishing a function changes blocks only. -/
theorem finishFunction_blocks (func : FuncId) (m : Module) :
    ∃ blocks, (finishFunction func m).2 = { m with blocks } := by
  have hclose : ∀ (ids : List BlockId) (m : Module), ∃ blocks,
      ids.foldl (fun m b => { m with blocks := m.blocks.modify b.index closeBlock }) m =
        { m with blocks } := by
    intro ids
    induction ids with
    | nil => exact fun m => ⟨m.blocks, rfl⟩
    | cons b ids ih => exact fun m => ih { m with blocks := m.blocks.modify b.index closeBlock }
  rw [finishFunction, ← Array.foldl_toList]
  exact hclose _ m

/-! ## Operations on blocks -/

/-- The relation is kept by the steps that change a block: a new result, a new instruction, and the
end of the block. -/
structure BlockSteps (R : Module → Module → Prop) : Prop where
  result : ∀ ty, Moves R (newValue ty .result)
  instr : ∀ b i, Moves R (pushInstr b i)
  terminator : ∀ b t, Keeps R (terminate b t)

namespace BlockSteps

variable [Std.Refl R] [IsTrans Module R] (h : BlockSteps R) (b : BlockId)

include h

/-- An instruction with a new result. -/
theorem define (ty : TyId) (instr : ValueId → Instr) :
    Keeps R (always (Module.define b ty instr)) :=
  always_keeps (.bind (h.result ty) fun dst => .bind (h.instr b (instr dst)) fun _ => .pure dst)

theorem load (pointer : ValueId) : Keeps R (Module.load b pointer) :=
  .bind (expectPointer_keeps pointer) fun _ =>
    .bind (expectOpen_keeps b) fun _ => h.define b _ _

theorem store (value pointer : ValueId) : Keeps R (Module.store b value pointer) :=
  .bind (expectPointer_keeps pointer) fun _ => .bind get_keeps fun _ =>
    .bind (expectType_keeps _ _) fun _ =>
      .bind (expectOpen_keeps b) fun _ => always_keeps (h.instr b _)

/-- A call to a callee that returns `void` has no result. -/
theorem call (callee : FuncId) (arguments : List ValueId) :
    Keeps R (Module.call b callee arguments) := by
  intro m
  unfold Ends
  by_cases hlength : (m.function callee).params.length = arguments.length
  · rw [call_of_length hlength]
    refine Keeps.bind (expectTypes_keeps _ _) (fun _ => .bind (expectOpen_keeps b) fun _ => ?_) m
    by_cases hvoid : m.type (m.function callee).ret = .void
    · rw [if_pos hvoid]
      exact .bind (always_keeps (h.instr b _)) fun _ => .pure _
    · rw [if_neg hvoid]
      exact .bind (h.define b _ _) fun _ => .pure _
  · rw [call_of_length_ne hlength]
    exact Std.Refl.refl m

theorem extractValue (aggregate : ValueId) (index : Nat) :
    Keeps R (Module.extractValue b aggregate index) :=
  .bind get_keeps fun _ => .bind (expectField_keeps _ _) fun _ =>
    .bind (expectOpen_keeps b) fun _ => h.define b _ _

theorem insertValue (aggregate value : ValueId) (index : Nat) :
    Keeps R (Module.insertValue b aggregate value index) :=
  .bind get_keeps fun _ => .bind (expectField_keeps _ _) fun _ =>
    .bind (expectType_keeps _ _) fun _ =>
      .bind (expectOpen_keeps b) fun _ => h.define b _ _

theorem phi (incoming : List (ValueId × BlockId)) : Keeps R (Module.phi b incoming) := by
  match incoming with
  | [] => exact .throw _
  | (first, origin) :: others =>
    exact .bind (expectTypes_keeps _ _) fun _ => .bind (expectOpen_keeps b) fun _ =>
      .bind get_keeps fun _ => h.define b _ _

/-- Returning a value. -/
theorem retValue (v : ValueId) : Keeps R (Module.ret b (some v)) :=
  .bind get_keeps fun _ => .bind (expectType_keeps _ _) fun _ => h.terminator b _

variable (hintern : ∀ ty : Ty, ty.isNamed = false → Moves R (internType ty))

include hintern

theorem alloca (ty : TyId) : Keeps R (Module.alloca b ty) :=
  .bind (expectOpen_keeps b) fun _ =>
    .bind (always_keeps (hintern (.pointer ty) rfl)) fun _ => h.define b _ _

theorem icmp (predicate : IntPredicate) (lhs rhs : ValueId) :
    Keeps R (Module.icmp b predicate lhs rhs) := by
  intro m
  unfold Ends
  cases hint : (m.intWidth? (m.valueType lhs)).isNone with
  | true =>
    rw [icmp_of_none hint]
    exact Std.Refl.refl m
  | false =>
    rw [icmp_of_int hint]
    exact Keeps.bind (expectType_keeps _ _) (fun _ => .bind (expectOpen_keeps b) fun _ =>
      .bind (always_keeps (hintern (.int 1) rfl)) fun _ => h.define b _ _) m

/-- Returning, with a value or without. -/
theorem ret (value : Option ValueId) : Keeps R (Module.ret b value) := by
  cases value with
  | some v => exact h.retValue b v
  | none =>
    exact .bind get_keeps fun _ => .bind (always_keeps (hintern .void rfl)) fun _ =>
      .bind (expectType_keeps _ _) fun _ => h.terminator b _

theorem condBr (condition : ValueId) (onTrue onFalse : BlockId) :
    Keeps R (Module.condBr b condition onTrue onFalse) :=
  .bind (always_keeps (hintern (.int 1) rfl)) fun _ => .bind get_keeps fun _ =>
    .bind (expectType_keeps _ _) fun _ => h.terminator b _

end BlockSteps

end FormCompiler.Ir.Module
