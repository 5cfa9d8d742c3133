import FormCompiler.Lower.EnumFunctions
import FormCompiler.Proofs.Lower.Course

/-!
# Bodies of Functions

The code of a body goes on from the entry of its function until it returns (`Course.Returns`) or
something is refused (`Course.Stops`), for functions with forms and for the functions of enums. A
course that starts at the entry, with the parameters of the function, covers the whole body.
-/

namespace FormCompiler

namespace Ir.Course

open Ir.Module

variable {func : FuncId} (C : Course func) {α : Type} {m m₁ m' : Module} {b b₁ : BlockId}

/-- Code was emitted from the block on until control returns from the function. -/
def Returns (m : Module) (b : BlockId) (m' : Module) : Prop :=
  ∃ (m₁ : Module) (b₁ : BlockId) (value : Option ValueId), C.Leads m b m₁ b₁ ∧
    (∀ v ∈ value, C.Usable m₁ b₁ v) ∧ Closed b₁ (.ret value) m₁ m'

/-- Code may be emitted into the block, and it may use the parameters of the function. -/
structure Starts (m : Module) (b : BlockId) : Prop where
  ready : C.At m b
  params : ∀ v ∈ (m.function func).params, C.Usable m b v

variable {C}

/-- Control returns after code led on. -/
theorem Returns.after (h : C.Returns m₁ b₁ m') (hlead : C.Leads m b m₁ b₁) :
    C.Returns m b m' := by
  obtain ⟨m₂, b₂, value, hlead', hvalue, hclosed⟩ := h
  exact ⟨m₂, b₂, value, C.trans hlead hlead', hvalue, hclosed⟩

variable (hat : C.At m b)

include hat

/-- Returning. -/
theorem ret {value : Option ValueId} (hvalue : ∀ v ∈ value, C.Usable m b v) :
    Ends (ret b value) m (fun _ m' => C.Returns m b m') (C.Stops m b) :=
  (ret_ends b value m).mono
    (fun _ _ h => ⟨m, b, value, C.still hat (.refl m), hvalue, h⟩) fun _ => C.refused hat

/-! ## Functions of enums -/

variable {vs : List ValueId} (hvs : ∀ v ∈ vs, C.Usable m b v)

include hvs

/-- The body of the constructor of an enum. -/
theorem constructorBody (backing : TyId) :
    Ends (Context.constructorBody backing b vs) m
      (fun w m' => C.Leads m b m' b ∧ C.Usable m' b w) (C.Stops m b) := by
  match vs with
  | [] => exact .throw (C.stops hat)
  | value :: _ =>
    have hfresh := newValue_fresh backing .undefined m
    have hlead := C.still hat hfresh.still
    refine .next (a := (newValue backing .undefined m).1) (by rfl) ?_
    have huses : ∀ v ∈ [(newValue backing .undefined m).1, value],
        C.Usable (newValue backing .undefined m).2 b v := by
      simpa using ⟨C.constant hfresh.value rfl, C.stays (hvs value List.mem_cons_self) hlead⟩
    exact (C.instr (C.lands hlead) (insertValue_ends b _ value 0 _) (fun _ => huses) nofun).mono
      (fun _ _ h => ⟨C.trans hlead h.1, h.2 _ rfl⟩) fun _ => C.after hlead

/-- The body of the conversion of an enum. -/
theorem conversionBody :
    Ends (Context.conversionBody b vs) m
      (fun w m' => C.Leads m b m' b ∧ C.Usable m' b w) (C.Stops m b) := by
  match vs with
  | [] => exact .throw (C.stops hat)
  | value :: _ => exact C.extractValue hat 0 (hvs value List.mem_cons_self)

/-- The body of a comparison of an enum. -/
theorem comparisonBody (predicate : IntPredicate) :
    Ends (Context.comparisonBody predicate b vs) m
      (fun w m' => C.Leads m b m' b ∧ C.Usable m' b w) (C.Stops m b) := by
  match vs with
  | [] | [_] => exact .throw (C.stops hat)
  | first :: second :: _ =>
    have hsecond := hvs second (List.mem_cons_of_mem _ List.mem_cons_self)
    refine (C.extractValue hat 0 (hvs first List.mem_cons_self)).bind ?_
    rintro lhs m₁ ⟨hlead, hlhs⟩
    refine (C.extractValue (C.lands hlead) 0 (C.stays hsecond hlead)).andThen
      (fun _ => C.after hlead) ?_
    rintro rhs m₂ ⟨hlead', hrhs⟩
    have huses : ∀ v ∈ [lhs, rhs], C.Usable m₂ b v := by
      simpa using ⟨C.stays hlhs hlead', hrhs⟩
    exact (C.instr (C.lands hlead') (icmp_ends b predicate lhs rhs m₂) (fun _ => huses) nofun).mono
      (fun _ _ h => ⟨C.trans (C.trans hlead hlead') h.1, h.2 _ rfl⟩)
      fun _ h => C.after hlead (C.after hlead' h)

end Ir.Course

namespace Lower

variable {σ : Type} {func : Ir.FuncId} {C : Ir.Course func} {u : Compilation σ}
  {b entry : Ir.BlockId}

/-- Storing parameters in slots leads on, with the slots in scope. -/
theorem spillParams_covered {scope : Scope} (index : Nat) (params : List (Param × Span))
    (hready : C.Ready scope u.context b) (hfunc : func.index < u.context.ir.functions.size)
    (hparams : ∀ v ∈ (u.context.ir.function func).params, C.Usable u.context.ir b v) :
    Ends (spillParams b index ⟨func, scope⟩ params) u
      (fun frame u' => ∃ scope', frame = ⟨func, scope'⟩ ∧ C.Ready scope' u'.context b ∧
        C.Leads u.context.ir b u'.context.ir b)
      fun u' => C.Stops u.context.ir b u'.context.ir := by
  induction params generalizing index scope u with
  | nil => exact .pure ⟨scope, rfl, hready, C.still hready.ready (.refl _)⟩
  | cons param rest ih =>
    obtain ⟨param, place⟩ := param
    refine .next rfl ?_
    split
    next => exact C.stops hready.ready
    next value hvalue =>
      have husable := hparams value (List.mem_of_getElem? hvalue)
      obtain ⟨ty, c₁, hty⟩ : ∃ ty c₁, Context.backendType param.ty u.context = (ty, c₁) :=
        ⟨_, _, rfl⟩
      have hemits := hready.backendType hty
      refine .next (onState_of_eq hty) ?_
      refine (onContext_final (u := u.withContext c₁) (hemits.emitOr _
        (C.spillInstrs hemits.lands.ready ty (C.stays husable hemits.leads)))).andThen
          (fun _ h => h.stops) ?_
      rintro slot u₂ ⟨hemits₂, hslot⟩
      have hfunction := hemits₂.within.ir.function func hfunc
      have hready₂ : C.Ready (scope.bind param.name ⟨param.ty, .slot slot⟩).2 u₂.context b := by
        refine ⟨C.lands hemits₂.leads, fun name v hv => ?_⟩
        rw [Scope.lookup?_bind] at hv
        split at hv
        · cases hv
          exact hslot
        · exact hemits₂.lands.scope name v hv
      refine (ih (index + 1) hready₂ (Nat.lt_of_lt_of_le hfunc hemits₂.within.ir.functions)
        fun v hv => ?_).mono ?_ fun _ => C.after hemits₂.leads
      · rw [hfunction.params] at hv
        exact C.stays (hparams v hv) hemits₂.leads
      · rintro frame u' ⟨scope', rfl, hready', hlead⟩
        exact ⟨scope', rfl, hready', C.trans hemits₂.leads hlead⟩

/-- Returning the result of a body. -/
theorem returnResult_covered {scope : Scope} (returnType : TypeId) (last : NodeId) {r : Result}
    (hready : C.Ready scope u.context r.block)
    (hvalue : C.Usable u.context.ir r.block r.value) :
    Ends (returnResult returnType last r) u
      (fun _ u' => C.Returns u.context.ir r.block u'.context.ir)
      fun u' => C.Stops u.context.ir r.block u'.context.ir := by
  have hret : ∀ {u₁ : Compilation σ} {b₁ : Ir.BlockId} {value : Option Ir.ValueId},
      C.Emits scope u.context r.block u₁.context b₁ →
      (∀ v ∈ value, C.Usable u₁.context.ir b₁ v) →
      Ends (emit last (Ir.Module.ret b₁ value)) u₁
        (fun _ u' => C.Returns u.context.ir r.block u'.context.ir)
        fun u' => C.Stops u.context.ir r.block u'.context.ir := by
    intro u₁ b₁ value hemits hvalue
    refine emit_final (Q := fun _ c' => C.Returns u.context.ir r.block c'.ir)
      (E := fun c' => C.Stops u.context.ir r.block c'.ir) fun span =>
        (Context.emitOr_ends _ (Ir.Course.ret hemits.lands.ready hvalue)).mono ?_ ?_
    · rintro _ _ ⟨ir, rfl, hreturns⟩
      exact hreturns.after hemits.leads
    · rintro _ ⟨ir, queue, rfl, hstops⟩
      exact C.after hemits.leads hstops
  refine .next rfl ?_
  split
  next =>
    exact (drop_covered (K := C.account ⟨func, scope⟩) hready hvalue).andThen
      (fun _ h => h.stops) fun b₁ u₁ hemits => hret hemits nofun
  next =>
    split
    next => exact C.stops hready.ready
    next =>
      refine hret (hready.still (Std.Refl.refl _)) ?_
      rintro v ⟨⟩
      exact hvalue

/-- The body of a function returns, or something in it is refused. -/
theorem body_covered (params : List (Param × Span)) (returnType : TypeId) (first : NodeId)
    (rest : List NodeId) {m : Ir.Module}
    (hentry : Ir.Module.appendBlock func "entry" u.context.ir = (entry, m))
    (hfunc : func.index < m.functions.size) (hstart : C.Starts m entry) :
    Ends (body func params returnType first rest) u
      (fun _ u' => C.Returns m entry u'.context.ir) fun u' => C.Stops m entry u'.context.ir := by
  refine .next (onModule_of_eq hentry) ?_
  refine (spillParams_covered (C := C) (u := u.withIr m) 0 params
    ⟨hstart.ready, fun _ _ h => by cases h⟩ hfunc hstart.params).bind ?_
  rintro _ u₁ ⟨scope, rfl, hready, hlead⟩
  refine (bodyForms_covered (K := C.account ⟨func, scope⟩) first rest hready).andThen
    (fun _ h => C.after hlead h.stops) ?_
  rintro ⟨last, r⟩ u₂ hgives
  have hlead₂ := C.trans hlead hgives.leads.leads
  exact (returnResult_covered returnType last hgives.leads.lands hgives.value).mono
    (fun _ _ h => h.after hlead₂) fun _ => C.after hlead₂

end Lower

end FormCompiler
