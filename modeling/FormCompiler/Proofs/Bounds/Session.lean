import FormCompiler.Lower.Evaluation
import FormCompiler.Proofs.Bounds.Forms

/-!
# Sessions Stay in Bounds

A session is opened with its accesses checked. The frame that it gives is in bounds: each of its
variables stands for a parameter of the function that was declared for the session.
-/

namespace FormCompiler

variable {c : Context}

/-- Parameters of a session may be bound to values of the module. -/
theorem Frame.InBounds.bindAll {func : Ir.FuncId} {scope : Scope}
    (h : Frame.InBounds c ⟨func, scope⟩) {pairs : List (SessionParam × Ir.ValueId)}
    (hpairs : ∀ pair ∈ pairs, c.pool.Has pair.1.ty ∧ c.ir.HasValue pair.2) :
    Frame.InBounds c ⟨func, pairs.foldl
      (fun scope (param, value) => (scope.bind param.name (param.toVariable value)).2) scope⟩ := by
  induction pairs generalizing scope with
  | nil => exact h
  | cons pair pairs ih =>
    obtain ⟨⟨hty, hvalue⟩, hpairs⟩ := List.forall_mem_cons.1 hpairs
    refine ih (h.bind pair.1.name ⟨hty, fun a ha => ?_, fun v hv => ?_⟩) hpairs
    · unfold SessionParam.toVariable at ha
      split at ha <;> cases ha
      exact hvalue
    · unfold SessionParam.toVariable at hv
      split at hv <;> cases hv
      exact hvalue

namespace Context.Checked

open FormCompiler.Checked (refuse demand free)

variable {ε : Type}

/-- The types of what several parameters hold, in order. -/
def heldTypes : List SessionParam → Checked ε Context (List TypeId)
  | [] => pure []
  | param :: params => do
    let t ← ofState (onPool param.heldType)
    let ts ← heldTypes params
    return t :: ts

theorem heldTypes_passes {params : List SessionParam} (hparams : ∀ p ∈ params, c.pool.Has p.ty) :
    Passes (heldTypes params : Checked ε Context (List TypeId))
      (ofState (Context.heldTypes params)) c fun ts c' => ∀ t ∈ ts, c'.pool.Has t := by
  induction params generalizing c with
  | nil => exact .pure nofun
  | cons param params ih =>
    simp only [heldTypes, Context.heldTypes, ofState_bind, ofState_pure]
    have hty := hparams param List.mem_cons_self
    have hheld : Passes (ofState (onPool param.heldType) : Checked ε Context TypeId)
        (ofState (onPool param.heldType)) c fun t c' => c'.pool.Has t := by
      unfold SessionParam.heldType
      split
      · refine intern_passes (fun u hu => ?_)
        cases hu
        exact hty
      · exact .step fun hc => ⟨.refl hc, hty⟩
    refine hheld.bind fun t c₁ hc₁ ht => ?_
    refine (ih fun p hp => hc₁.grows.pool.has (hparams p (List.mem_cons_of_mem _ hp))).bind
      fun ts c₂ hc₂ hts => .pure ?_
    exact List.forall_mem_cons.2 ⟨hc₂.grows.pool.has ht, hts⟩

/-- Declares the function of a session and appends its first block. -/
def openSession (symbol : String) (params : List SessionParam) (returnType : TypeId)
    (linkage : Ir.Linkage) : Checked ε Context (Except Ir.Error (Frame × Ir.BlockId)) := do
  let held ← heldTypes params
  let backendParams ← backendTypes held
  let ret ← backendType returnType
  match ← attempt (Ir.Checked.declareFunction symbol backendParams ret linkage) with
  | .error e => return .error e
  | .ok func =>
    let entry ← onModule (Ir.Checked.appendBlock func "entry")
    let values := (← demand (Ir.Checked.function (← get).ir func)).params
    let scope := (params.zip values).foldl
      (fun scope (param, value) => (scope.bind param.name (param.toVariable value)).2) Scope.empty
    return .ok (⟨func, scope⟩, entry)

theorem openSession_passes (symbol : String) {params : List SessionParam} {returnType : TypeId}
    (linkage : Ir.Linkage) (hparams : ∀ p ∈ params, c.pool.Has p.ty)
    (hreturn : c.pool.Has returnType) :
    Passes (openSession symbol params returnType linkage :
        Checked ε Context (Except Ir.Error (Frame × Ir.BlockId)))
      (ofState (Context.openSession symbol params returnType linkage)) c
      fun outcome c' => ∀ frame entry, outcome = .ok (frame, entry) →
        frame.InBounds c' ∧ c'.ir.HasBlock entry := by
  simp only [openSession, Context.openSession, ofState_bind]
  refine (heldTypes_passes hparams).bind fun held c₁ hc₁ hheld => ?_
  refine (backendTypes_passes hheld).bind ?_
  rintro backendParams c₂ hc₂ ⟨-, hbackend⟩
  have hc₂' := hc₁.trans hc₂
  refine (backendType_passes (hc₂'.grows.pool.has hreturn)).bind fun ret c₃ hc₃ hret => ?_
  have hc₃' := hc₂'.trans hc₃
  refine (attempt_passes (Ir.Checked.declareFunction_passes symbol linkage
    (fun t ht => hc₃.grows.ir.hasTy (hbackend t ht)) hret)).bind fun declared c₄ hc₄ hdeclared => ?_
  have hc₄' := hc₃'.trans hc₄
  cases declared with
  | error e => exact .pure fun frame entry heq => by cases heq
  | ok func =>
    have hfunc := (hdeclared func rfl).1
    simp only [ofState_bind, ofState_pure]
    refine (onModule_passes (Ir.Checked.appendBlock_passes "entry" hfunc)).bind
      fun entry c₅ hc₅ hentry => ?_
    have hfunc₅ := hc₅.grows.ir.hasFunction hfunc
    refine .get (.look (Ir.Checked.function_eq hfunc₅) (.pure ?_))
    rintro _ _ ⟨⟩
    have hvalues := (hc₅.inBounds.ir.functions _ (Ir.Checked.function_mem hfunc₅)).params
    -- the parameters of the new function are values of the module, and nothing else is bound
    have hstart : Frame.InBounds c₅ ⟨func, .empty⟩ :=
      ⟨hfunc₅, fun _ hb => absurd hb List.not_mem_nil⟩
    refine ⟨hstart.bindAll fun pair hpair => ?_, hentry⟩
    obtain ⟨hparam, hvalue⟩ := List.of_mem_zip hpair
    exact ⟨(hc₄'.trans hc₅).grows.pool.has (hparams _ hparam), hvalues _ hvalue⟩

end Context.Checked

end FormCompiler
