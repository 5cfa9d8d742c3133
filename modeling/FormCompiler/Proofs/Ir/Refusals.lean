import FormCompiler.Proofs.Ir.Operations
import Mathlib.Logic.Relation

/-!
# What Operations Are Refused For

In an open block, an instruction with the right number of operands is refused at most for the type
of one of them. `RefusedFor R op m` says that `op` is refused only where one type is expected and
another one is found that `R` relates to it in the module: there is one lemma for each operation
whose operands have to agree, and it takes `R` or equality of their types, one by one.
-/

namespace FormCompiler.Ir.Module

open Relation

variable {α β : Type} {R : Module → TyId → TyId → Prop} {m : Module} {b : BlockId}

/-- If the operation is refused in the module, it is for a type that is found where a type is
expected that `R` relates it to. -/
def RefusedFor (R : Module → TyId → TyId → Prop) (op : Build α) (m : Module) : Prop :=
  ∀ e m', op m = .error e m' → ∃ expected found, R m' expected found ∧
    e = .typeMismatch (m'.typeName expected) (m'.typeName found)

namespace RefusedFor

/-- An operation that is accepted is not refused. -/
theorem of_accepted {op : Build α} {Q : α → Module → Prop} (h : Ends op m Q fun _ => False) :
    RefusedFor R op m := fun _ _ hrun => (h.of_error hrun).elim

/-- A sequence is refused in its first part or in its second one. -/
theorem bind {x : Build α} {f : α → Build β} (hx : RefusedFor R x m)
    (hf : ∀ a m', x m = .ok a m' → RefusedFor R (f a) m') : RefusedFor R (x >>= f) m := by
  intro e m' hrun
  cases hfirst : x m with
  | ok a m₁ =>
    rw [bind_run hfirst] at hrun
    exact hf a m₁ hfirst e m' hrun
  | error e₁ m₁ =>
    rw [bind_error hfirst] at hrun
    cases hrun
    exact hx _ _ hfirst

/-- A sequence whose first part is accepted. -/
theorem andThen {x : Build α} {f : α → Build β} {Q : α → Module → Prop}
    (hx : Ends x m Q fun _ => False) (hf : ∀ a m', Q a m' → RefusedFor R (f a) m') :
    RefusedFor R (x >>= f) m :=
  .bind (.of_accepted hx) fun a m' hrun => hf a m' (hx.of_ok hrun)

/-- A sequence whose first part is known to give a result. -/
theorem next {x : Build α} {f : α → Build β} {a : α} {m' : Module} (hx : x m = .ok a m')
    (hf : RefusedFor R (f a) m') : RefusedFor R (x >>= f) m := by
  intro e m'' hrun
  rw [bind_run hx] at hrun
  exact hf e m'' hrun

/-! ## Operands -/

/-- One type is found where another one is expected. -/
theorem expectType {expected found : TyId} (h : ReflGen (R m) expected found) :
    RefusedFor R (expectType expected found) m := by
  intro e m' hrun
  cases h with
  | refl =>
    rw [expectType_run] at hrun
    cases hrun
  | single hR =>
    unfold Module.expectType at hrun
    split at hrun
    · cases hrun
    · cases hrun
      exact ⟨_, _, hR, rfl⟩

/-- Values are found where others are expected. -/
theorem expectTypes {expected found : List ValueId}
    (h : List.Forall₂ (fun e f => ReflGen (R m) (m.valueType e) (m.valueType f)) expected found) :
    RefusedFor R (expectTypes expected found) m := by
  induction h with
  | nil => exact of_accepted (Q := fun _ _ => True) trivial
  | cons hfirst _ ih =>
    intro e m' hrun
    rw [expectTypes_cons] at hrun
    split at hrun
    next _ m₁ hok =>
      obtain ⟨rfl, -⟩ := (expectType_ends _ _ m).of_ok hok
      exact ih e m' hrun
    next refusal m₁ herror =>
      cases hrun
      exact expectType hfirst _ _ herror

/-! ## Operations -/

/-- A value is written where a pointer points. -/
theorem store {v pointer : ValueId} {pointee : TyId}
    (hpointer : m.pointee? (m.valueType pointer) = some pointee)
    (hty : ReflGen (R m) pointee (m.valueType v)) (hopen : m.isTerminated b = false) :
    RefusedFor R (store b v pointer) m := by
  have hexpect : expectPointer pointer m = .ok pointee m := by rw [expectPointer, hpointer]
  refine .next hexpect (.next rfl (.bind (expectType hty) fun _ m' hok => ?_))
  obtain ⟨rfl, -⟩ := (expectType_ends _ _ m).of_ok hok
  exact .next (expectOpen_run hopen) (.of_accepted (always_ends _ m))

/-- A function is called with as many values as it has parameters. -/
theorem call {callee : FuncId} {arguments : List ValueId}
    (harguments : List.Forall₂ (fun param argument =>
      ReflGen (R m) (m.valueType param) (m.valueType argument)) (m.function callee).params
      arguments)
    (hopen : m.isTerminated b = false) : RefusedFor R (call b callee arguments) m := by
  intro e m' hrun
  rw [call_of_length harguments.length_eq] at hrun
  refine bind (expectTypes harguments) (fun _ m₁ hok => ?_) e m' hrun
  obtain ⟨rfl, -⟩ := (expectTypes_ends _ _ m).of_ok hok
  refine .next (expectOpen_run hopen) ?_
  split
  · exact .andThen (always_ends _ m) fun _ _ _ => .of_accepted (Q := fun _ _ => True) trivial
  · exact .andThen (always_ends _ m) fun _ _ _ => .of_accepted (Q := fun _ _ => True) trivial

/-- Two values are merged. -/
theorem phi {first second : ValueId} (origin origin' : BlockId)
    (hty : ReflGen (R m) (m.valueType first) (m.valueType second))
    (hopen : m.isTerminated b = false) :
    RefusedFor R (phi b [(first, origin), (second, origin')]) m := by
  refine .bind (expectTypes (.cons hty .nil)) fun _ m₁ hok => ?_
  obtain ⟨rfl, -⟩ := (expectTypes_ends _ _ m).of_ok hok
  exact .next (expectOpen_run hopen) (.next rfl (.of_accepted (always_ends _ m)))

/-- A value is returned. -/
theorem ret {v : ValueId}
    (hty : ReflGen (R m) (m.function (m.block b).func).ret (m.valueType v))
    (hopen : m.isTerminated b = false) : RefusedFor R (ret b (some v)) m := by
  refine .next rfl (.bind (expectType hty) fun _ m₁ hok => ?_)
  obtain ⟨rfl, -⟩ := (expectType_ends _ _ m).of_ok hok
  exact .of_accepted (terminate_accepted _ hopen)

end RefusedFor

end FormCompiler.Ir.Module
