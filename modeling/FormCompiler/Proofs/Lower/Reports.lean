import FormCompiler.Proofs.Lower.Typing

/-!
# What Is Reported

A check of the source that fails reports one error and changes nothing else but types and values of
the module. `Context.Rejects c c'` says so, and that the error is none of those by which the
backend, the cleanup of values or the compiler itself fails (`Code.isSource`).

A literal or a truth value is either rejected or adds a constant and reports nothing
(`Context.AddsConstant`).
-/

namespace FormCompiler

/-- The code is reported by a check of the source. The others say that the backend refused code,
that a cleanup could not be emitted, and that the compiler broke a rule of its own. -/
def Code.isSource : Code → Bool
  | backendError | destructorFailed | internalError => false
  | _ => true

/-- The diagnostic is reported by a check of the source. -/
def Diagnostic.IsSource (d : Diagnostic) : Prop := d.code.isSource = true

namespace Context

variable {c c' c'' : Context}

/-- A check of the source failed: one error was reported, and types and values were added at
most. -/
structure Rejects (c c' : Context) : Prop where
  within : c.Within (· = ·) Ir.Module.Still c'
  reported : ∃ d : Diagnostic, d.IsSource ∧ c'.queue = c.queue.emitError d

/-- The value was added as a constant of the type, and nothing was reported. -/
structure AddsConstant (s : Scope) (t : TypeId) (v : Ir.ValueId) (c c' : Context) : Prop where
  within : c.Within (Pool.Kept s) Ir.Module.Still c'
  queue : c'.queue = c.queue
  constant : ∃ ty kind, c'.ir.values[v.index]? = some ⟨ty, kind⟩ ∧ kind.isConstant = true
  backs : c.Valid → c'.Backs t (c'.ir.valueType v)

/-- Nothing is reported, and no type of the source is entered. -/
structure Silent (c c' : Context) : Prop where
  within : c.Within (· = ·) Ir.Module.Still c'
  queue : c'.queue = c.queue

/-- A rejection after silent steps. -/
theorem Silent.rejects (h : c.Silent c') (h' : c'.Rejects c'') : c.Rejects c'' where
  within := IsTrans.trans _ _ _ h.within h'.within
  reported := by
    obtain ⟨d, hd, hqueue⟩ := h'.reported
    exact ⟨d, hd, by rw [hqueue, h.queue]⟩

/-- Asking for a backend type reports nothing. -/
theorem backendType_silent (t : TypeId) : Moves Silent (backendType t) := by
  have hbelow : ∀ bound t c, (backendTypeBelow bound t c).2.queue = c.queue := by
    intro bound
    induction bound with
    | zero => exact fun _ _ => rfl
    | succ bound ih =>
      intro t c
      unfold backendTypeBelow
      split
      · rfl
      · split
        · rfl
        · exact ih _ c
      all_goals split <;> rfl
  exact fun c => ⟨backendType_moves t c, hbelow _ t c⟩

/-- A report of a check of the source rejects. -/
theorem rejects_report {d : Diagnostic} (hd : d.IsSource) (c : Context) :
    c.Rejects { c with queue := c.queue.emitError d } :=
  ⟨.of_queue, d, hd, rfl⟩

end Context

/-- A check of the source failed. -/
def Compilation.Rejects {σ : Type} (u u' : Compilation σ) : Prop :=
  u.context.Rejects u'.context

/-- The context stays as it is, or a check of the source failed. -/
def Compilation.Checks {σ : Type} (u u' : Compilation σ) : Prop :=
  u'.context = u.context ∨ u.Rejects u'

namespace Lower

variable {σ α : Type} {u : Compilation σ}

/-- The outcomes of a step on the context, as far as they concern the context. -/
theorem onContext_final {step : Check α} {Q : α → Context → Prop} {E : Context → Prop}
    (h : Ends step u.context Q E) :
    Ends (onContext step) u (fun a u' => Q a u'.context) fun u' => E u'.context := by
  refine (onContext_ends h).mono ?_ ?_
  · rintro a _ ⟨c, rfl, h⟩
    exact h
  · rintro _ ⟨c, rfl, h⟩
    exact h

/-- The outcomes of an operation whose refusal is reported at a node. -/
theorem emit_final {op : Ir.Build α} {node : NodeId} {Q : α → Context → Prop}
    {E : Context → Prop} (h : ∀ span, Ends (Context.emit span op) u.context Q E) :
    Ends (emit node op : Lower σ α) u (fun a u' => Q a u'.context) fun u' => E u'.context :=
  onContext_final (h (u.forest.span node))

/-- The run of a step on the context that never stops. -/
theorem onState_run (step : StateM Context α) (u : Compilation σ) :
    onState step u = .ok (step u.context).1 (u.withContext (step u.context).2) := rfl

/-- A step on the context that never stops, given what it does. -/
theorem onState_of_eq {step : StateM Context α} {a : α} {c : Context}
    (h : step u.context = (a, c)) : onState step u = .ok a (u.withContext c) := by
  rw [onState_run, h]

/-- A step on the module that never stops, given what it does. -/
theorem onModule_of_eq {step : StateM Ir.Module α} {a : α} {m : Ir.Module}
    (h : step u.context.ir = (a, m)) : onModule step u = .ok a (u.withIr m) := by
  rw [onModule, onState_run, Context.onModule_run, h]
  rfl

/-- The outcomes of handing out the refusal of an operation. -/
theorem attempt_ends (op : Ir.Build α) (u : Compilation σ) :
    Ends (onState (Context.attempt op)) u (fun outcome u' => ∃ ir, u' = u.withIr ir ∧
      match outcome with
      | .ok a => op u.context.ir = .ok a ir
      | .error e => op u.context.ir = .error e ir) fun _ => False := by
  have hrun := onState_run (Context.attempt op) u
  rw [Context.attempt_run] at hrun
  unfold Ends
  rw [hrun]
  cases hop : op u.context.ir with
  | ok a ir => exact ⟨ir, rfl, rfl⟩
  | error e ir => exact ⟨ir, rfl, rfl⟩

/-- Stopping with a report of a check of the source. -/
theorem fail_rejects {d : Diagnostic} (hd : d.IsSource) :
    Refuses Compilation.Rejects (fail d : Lower σ α) := fun u => Context.rejects_report hd u.context

/-- A malformed literal is rejected. -/
theorem failMalformed_rejects (node : NodeId) (expected : String) :
    Refuses Compilation.Rejects (failMalformed node expected : Lower σ α) :=
  .read fun _ => .read fun _ => fail_rejects rfl

/-! ## Constants -/

section

variable (s : Scope)

/-- A value that is made after silent steps, as a constant of a type, is added as one. -/
theorem addsConstant_of_silent {t : TypeId} {ty : Ir.TyId} {kind : Ir.ValueKind} {c c' : Context}
    (h : c.Silent c') (hkind : kind.isConstant = true)
    (hbacks : c.Valid → c'.Backs t ty) :
    c.AddsConstant s t (Ir.Module.newValue ty kind c'.ir).1
      (c'.withIr (Ir.Module.newValue ty kind c'.ir).2) := by
  have hfresh := Ir.Module.newValue_fresh ty kind c'.ir
  refine ⟨?_, h.queue, ⟨ty, kind, hfresh.value, hkind⟩, fun hc => ?_⟩
  · have hstill := IsTrans.trans _ _ _ h.within (.of_ir hfresh.still)
    exact hstill.mono (fun _ _ => .of_eq) fun _ _ hir => hir
  · have hty : (Ir.Module.newValue ty kind c'.ir).2.valueType
        (Ir.Module.newValue ty kind c'.ir).1 = ty := Ir.Module.valueType_of_getElem? hfresh.value
    change (c'.withIr _).Backs t ((Ir.Module.newValue ty kind c'.ir).2.valueType _)
    rw [hty]
    exact (hbacks hc).mono (.of_still (.of_ir hfresh.still))

/-- The backend type of a primitive type is entered silently. -/
theorem backs_of_primitive {c : Context} (hc : c.Valid) (p : Primitive) :
    (Context.backendType (.ofPrimitive p) c).2.Backs (.ofPrimitive p)
      (Context.backendType (.ofPrimitive p) c).1 :=
  (hc.grounded_primitive p).backendType_spec.2

/-- An integer token is a constant or is rejected. -/
theorem integerToken_ends (b : Ir.BlockId) (node : NodeId) (text : String)
    (u : Compilation σ) :
    Ends (integerToken b node text) u
      (fun r u' => r = .new b r.ty r.value ∧
        u.context.AddsConstant s r.ty r.value u'.context) u.Rejects := by
  have hty := Context.backendType_silent .int u.context
  refine .next (onState_run _ u) ((attempt_ends _ _).andThen (fun _ h => h.elim) ?_)
  rintro outcome _ ⟨ir, rfl, hop⟩
  unfold Ir.Module.constIntOfText at hop
  cases outcome with
  | ok v =>
    refine .pure ⟨rfl, ?_⟩
    dsimp only at hop
    split at hop
    next => cases hop
    next bits _ =>
      split at hop
      next => cases hop
      next raw _ =>
        cases hop
        exact addsConstant_of_silent s hty rfl fun hc => backs_of_primitive hc .int
  | error e =>
    -- a literal that is refused adds no value
    have hir : ir = (Context.backendType .int u.context).2.ir := by
      dsimp only at hop
      split at hop
      next =>
        cases hop
        rfl
      next =>
        split at hop
        next =>
          cases hop
          rfl
        next => cases hop
    subst hir
    refine Refuses.ends (R := Compilation.Rejects) ?_ _ fun _ h => hty.rejects h
    split
    next h => cases h
    · exact .read fun _ => .read fun _ => fail_rejects rfl
    · exact failMalformed_rejects node _

/-- A float token is a constant or is rejected. -/
theorem floatToken_ends (b : Ir.BlockId) (node : NodeId) (text : String) (u : Compilation σ) :
    Ends (floatToken b node text) u
      (fun r u' => r = .new b r.ty r.value ∧
        u.context.AddsConstant s r.ty r.value u'.context) u.Rejects := by
  unfold floatToken
  split
  · exact .next (onState_run _ u) (.next (onState_run _ _) (.pure ⟨rfl,
      addsConstant_of_silent s (Context.backendType_silent .float u.context) rfl
        fun hc => backs_of_primitive hc .float⟩))
  · exact (failMalformed_rejects node _).ends u fun _ h => h

/-- A truth value is a constant. -/
theorem truthValue_ends (b : Ir.BlockId) (value : Bool) (u : Compilation σ) :
    Ends (truthValue b value) u
      (fun r u' => r = .new b r.ty r.value ∧
        u.context.AddsConstant s r.ty r.value u'.context) fun _ => False :=
  .next (onState_run _ u) (.next (onState_run _ _) (.pure ⟨rfl,
    addsConstant_of_silent s (Context.backendType_silent .bool u.context) rfl
      fun hc => backs_of_primitive hc .bool⟩))

/-- A string token is a constant. -/
theorem stringToken_ends (b : Ir.BlockId) (text : String) (u : Compilation σ) :
    Ends (stringToken b text) u
      (fun r u' => r = .new b r.ty r.value ∧
        u.context.AddsConstant s r.ty r.value u'.context) fun _ => False := by
  obtain ⟨byte, hfresh, -, -⟩ := Ir.Module.globalText_spec text u.context.ir
  refine .next (onState_run _ u) (.next (onState_run _ _) (.pure ⟨rfl, ?_, rfl, ?_, ?_⟩))
  · exact ⟨⟨(Pool.intern_spec _ _).1, fun _ hp => hp.pointerTo
      (Array.getElem?_eq_some_iff.1 (hp.primitives .char)).1, Pool.unnamed_pointerTo _ _⟩,
      hfresh.still, rfl, rfl, rfl, rfl⟩
  · exact ⟨_, _, hfresh.value, rfl⟩
  · exact fun hu => (stringToken_ok (b := b) hu (by rfl)).backs

end

/-! ## Checks -/

/-- A list is required. -/
theorem expectList_checks (node : NodeId) (what : String) :
    Keeps Compilation.Checks (expectList node what : Lower σ (List NodeId)) := by
  refine fun u => .next rfl ?_
  split
  · exact .pure (.inl rfl)
  · exact Refuses.ends (.read fun _ => .read fun _ => fail_rejects (by rfl)) u fun _ => .inr

/-- A symbol is required. -/
theorem expectSymbol_checks (node : NodeId) (what : String) :
    Keeps Compilation.Checks (expectSymbol node what : Lower σ String) := by
  refine fun u => .next rfl ?_
  split
  · exact .pure (.inl rfl)
  · exact Refuses.ends (.read fun _ => .read fun _ => fail_rejects (by rfl)) u fun _ => .inr

/-- Trying to expand a form leaves the context as it is. -/
theorem tryExpand_ends (left : Nat) (node : NodeId) (u : Compilation σ) :
    Ends (tryExpand left node) u (fun _ u' => u'.context = u.context) u.Rejects := by
  unfold tryExpand
  split
  · exact .next rfl (Refuses.ends (.read fun _ => fail_rejects (by rfl)) u fun _ h => h)
  · obtain ⟨forest, context, memory, expander, limit⟩ := u
    refine .next rfl ?_
    split
    · exact .pure rfl
    · exact .pure rfl
    · exact Refuses.ends (.read fun _ => fail_rejects (by rfl)) _ fun _ h => h

/-- Trying to expand a form is a check. -/
theorem tryExpand_checks (left : Nat) (node : NodeId) :
    Keeps Compilation.Checks (tryExpand left node : Lower σ (Option NodeId)) := fun u =>
  (tryExpand_ends left node u).mono (fun _ _ => .inl) fun _ => .inr

/-- A pointer is required. -/
theorem expectPointee_ends (r : Result) (node : NodeId) (u : Compilation σ) :
    Ends (expectPointee r node) u
      (fun pointee u' => u = u' ∧ u.context.pool.pointee? r.ty = some pointee) u.Rejects := by
  refine .next rfl ?_
  split
  next pointee hpointee => exact .pure ⟨rfl, hpointee⟩
  next => exact Refuses.ends (.read fun _ => .read fun _ => fail_rejects (by rfl)) u fun _ h => h

/-- Looking for a form that reads through a pointer changes nothing. -/
theorem derefArguments?_ends (node : NodeId) (u : Compilation σ) :
    Ends (derefArguments? node) u (fun _ u' => u = u') fun _ => False := by
  refine .next rfl ?_
  split
  · refine .next rfl ?_
    split
    · refine .next rfl ?_
      split <;> exact .pure rfl
    · exact .pure rfl
  · exact .pure rfl

end Lower

end FormCompiler
