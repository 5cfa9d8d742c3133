import FormCompiler.Proofs.Context.Reporting
import FormCompiler.Proofs.Lower.Inversion

/-!
# Two Runs Side by Side

Some properties of an expression compare its processing with another one: the same expression in a
unit that keeps more books, or the expression it expands to in a unit without macros. The handlers
do the same in both runs as long as their parts do.

* `Coupling`: which units may stand at corresponding points of two runs, and what is known when both
  stop. The laws say that emitting code, reporting and failing respect it.
* `Coupling.Runs K x u y v`: `x` from `u` and `y` from `v` give the same result, or both stop.
* `Coupling.Alike`: two nodes that are processed alike.

There is one theorem for each handler. Whether a part of `#` reads through a pointer is decided by a
look at the form of the part before it is processed, so the theorem about `#` asks that both runs
see the same there (`Coupling.SeesAlike`).
-/

namespace FormCompiler

/-! ## What code does to the context -/

namespace Context

variable {c c' : Context}

/-- Dropping a result that needs no report. -/
theorem destruct_proceeds {r r' : Result} (h : destruct r c = .ok r' c') : c.Proceeds c' := by
  have hwithin := (destruct_keeps .empty r).ok h
  have hqueue := destruct_reportsOnce r c.queue c rfl
  rw [h] at hqueue
  exact ⟨hwithin.mono (fun _ _ hp => ⟨hp.grown, hp.unnamed⟩) fun _ _ _ => trivial, hqueue⟩

/-- Dropping a result stopped after code was emitted, with a report or without. -/
theorem destruct_error {r : Result} {e : Halt} (h : destruct r c = .error e c') :
    ∃ c₁, c.Proceeds c₁ ∧
      ((e = .unfinished ∧ c' = c₁) ∨
        (e = .reported ∧ ∃ d, c' = { c₁ with queue := c₁.queue.emitError d })) := by
  have hwithin := ((destruct_keeps .empty r) c).of_error h
  have hqueue := destruct_reportsOnce r c.queue c rfl
  rw [h] at hqueue
  refine ⟨{ c' with queue := c.queue }, ⟨⟨⟨hwithin.pool.grown, hwithin.pool.unnamed⟩, trivial,
    hwithin.namespaces, hwithin.entered, hwithin.layouts, hwithin.onceTag⟩, rfl⟩, ?_⟩
  cases e with
  | unfinished =>
    have hsame : c'.queue = c.queue := hqueue
    exact .inl ⟨rfl, by rw [← hsame]⟩
  | reported =>
    obtain ⟨d, hd⟩ := hqueue
    exact .inr ⟨rfl, d, by rw [← hd]⟩

end Context

/-- The unit after the report of an error. -/
def Compilation.reporting {σ : Type} (u : Compilation σ) (d : Diagnostic) : Compilation σ :=
  u.withContext { u.context with queue := u.context.queue.emitError d }

/-! ## Couplings -/

/-- A way to compare two runs of the handlers. -/
structure Coupling (σ τ : Type) where
  /-- The units stand at corresponding points of the two runs. -/
  States : Compilation σ → Compilation τ → Prop
  /-- The runs stopped in these units. -/
  Stops : Halt → Compilation σ → Halt → Compilation τ → Prop
  /-- Reports about the two nodes correspond. -/
  Nodes : NodeId → NodeId → Prop
  context {u : Compilation σ} {v : Compilation τ} : States u v → v.context = u.context
  proceeds {u : Compilation σ} {v : Compilation τ} {c : Context} :
    States u v → u.context.Proceeds c → States (u.withContext c) (v.withContext c)
  reports {u : Compilation σ} {v : Compilation τ} (d : Diagnostic) :
    States u v → Stops .reported (u.reporting d) .reported (v.reporting d)
  refuses {u : Compilation σ} {v : Compilation τ} {n m : NodeId} (d : Span → String → Diagnostic) :
    States u v → Nodes n m →
      Stops .reported (u.reporting (d (u.forest.span n) (u.forest.display n)))
        .reported (v.reporting (d (v.forest.span m) (v.forest.display m)))
  /-- The members of a type that is cleaned up do not descend. -/
  unfinished {u : Compilation σ} {v : Compilation τ} {r : Result} {c : Context} : States u v →
    Context.destruct r u.context = .error .unfinished c →
      Stops .unfinished (u.withContext c) .unfinished (v.withContext c)

/-- A form that reads through a pointer has one list of arguments. -/
theorem Compilation.IsDeref.unique {σ : Type} {u : Compilation σ} {node : NodeId}
    {inner inner' : List NodeId} (h : u.IsDeref node inner) (h' : u.IsDeref node inner') :
    inner = inner' := by
  obtain ⟨head, name, hitems, -⟩ := h
  obtain ⟨head', name', hitems', -⟩ := h'
  rw [hitems] at hitems'
  cases hitems'
  rfl

/-- The look at the form of a part, as a whole. -/
theorem Lower.derefArguments?_run {σ : Type} (u : Compilation σ) (node : NodeId) :
    ∃ found, derefArguments? node u = .ok found u ∧ match found with
      | some arguments => u.IsDeref node arguments
      | none => ∀ arguments, ¬ u.IsDeref node arguments := by
  have hends := derefArguments?_ends node u
  cases hrun : derefArguments? node u with
  | ok found u' =>
    obtain ⟨rfl, hfound⟩ := derefArguments?_ok hrun
    refine ⟨found, rfl, ?_⟩
    cases found <;> exact hfound
  | error e u' => exact (hends.of_error hrun).elim

/-- What asking the expander does. -/
theorem Lower.offer_run {σ : Type} (u : Compilation σ) (node : NodeId) :
    offer node u = .ok (u.expander u.memory u.forest node).1
      { u with
        memory := (u.expander u.memory u.forest node).2.1
        forest := (u.expander u.memory u.forest node).2.2 } := rfl

/-- A form is only expanded as long as expansions are left. -/
theorem Lower.tryExpand_left {σ : Type} {u u' : Compilation σ} {left : Nat} {node : NodeId}
    {answer : Option NodeId} (h : tryExpand left node u = .ok answer u') : left ≠ 0 := by
  rintro rfl
  simp only [tryExpand, if_true, bind_ok_iff, fail_ok_iff, and_false, exists_false] at h

namespace Coupling

open Lower

variable {σ τ α β : Type} (K : Coupling σ τ) {u : Compilation σ} {v : Compilation τ}

/-- Two outcomes are the same result in corresponding units, or both are none. -/
def Agree : EStateM.Result Halt (Compilation σ) α → EStateM.Result Halt (Compilation τ) α → Prop
  | .ok a u, .ok b v => a = b ∧ K.States u v
  | .error e u, .error e' v => K.Stops e u e' v
  | _, _ => False

/-- Two steps have outcomes that agree. -/
def Runs (x : Lower σ α) (u : Compilation σ) (y : Lower τ α) (v : Compilation τ) : Prop :=
  K.Agree (x u) (y v)

variable {K}

namespace Runs

variable {x : Lower σ α} {y : Lower τ α} {f : α → Lower σ β} {g : α → Lower τ β}

/-- Steps without effect. -/
theorem pure (h : K.States u v) (a : α) :
    K.Runs (pure a : Lower σ α) u (pure a : Lower τ α) v := ⟨rfl, h⟩

/-- Sequences run alike if their parts do, the second ones from where the first ones led. -/
theorem bindOf (hx : K.Runs x u y v)
    (hf : ∀ a u' v', x u = .ok a u' → K.States u' v' → K.Runs (f a) u' (g a) v') :
    K.Runs (x >>= f) u (y >>= g) v := by
  change K.Agree (EStateM.bind x f u) (EStateM.bind y g v)
  unfold Runs at hx
  unfold EStateM.bind
  cases hxu : x u <;> cases hyv : y v <;> rw [hxu, hyv] at hx
  case ok.ok a u' b v' =>
    obtain ⟨rfl, hstates⟩ := hx
    exact hf a u' v' hxu hstates
  case error.error => exact hx
  all_goals exact hx.elim

/-- Sequences run alike if their parts do. -/
theorem bind (hx : K.Runs x u y v)
    (hf : ∀ a u' v', K.States u' v' → K.Runs (f a) u' (g a) v') :
    K.Runs (x >>= f) u (y >>= g) v := hx.bindOf fun a u' v' _ => hf a u' v'

/-- Sequences whose first parts are known. -/
theorem next {α' : Type} {y : Lower τ α'} {g : α' → Lower τ β} {a : α} {a' : α'}
    {u' : Compilation σ} {v' : Compilation τ} (hx : x u = .ok a u') (hy : y v = .ok a' v')
    (hf : K.Runs (f a) u' (g a') v') : K.Runs (x >>= f) u (y >>= g) v := by
  unfold Runs
  rwa [bind_run hx, bind_run hy]

/-- The context is the same. -/
theorem context {f : Context → Lower σ β} {g : Context → Lower τ β} (h : K.States u v)
    (hf : K.Runs (f u.context) u (g u.context) v) :
    K.Runs (Lower.context >>= f) u (Lower.context >>= g) v :=
  next rfl (congrArg (EStateM.Result.ok · v) (K.context h)) hf

/-- A type has the same name. -/
theorem typeName {t : TypeId} {f : String → Lower σ β} {g : String → Lower τ β}
    (h : K.States u v) (hf : K.Runs (f (u.context.typeName t)) u (g (u.context.typeName t)) v) :
    K.Runs (Lower.typeName t >>= f) u (Lower.typeName t >>= g) v :=
  next rfl (congrArg (fun c : Context => EStateM.Result.ok (c.typeName t) v) (K.context h)) hf

/-- A step on the context that never stops. -/
theorem onState (h : K.States u v) {step : StateM Context α}
    (hstep : Moves Context.Proceeds step) :
    K.Runs (onState step : Lower σ α) u (Lower.onState step : Lower τ α) v := by
  unfold Runs
  rw [onState_run, onState_run, K.context h]
  exact ⟨rfl, K.proceeds h (hstep _)⟩

/-- A step on the module that never stops. -/
theorem onModule (h : K.States u v) (step : StateM Ir.Module α) :
    K.Runs (onModule step : Lower σ α) u (Lower.onModule step : Lower τ α) v :=
  .onState h (Context.onModule_proceeds step)

/-- An operation on the module whose refusal is reported at corresponding nodes. -/
theorem emit (h : K.States u v) {n m : NodeId} (hn : K.Nodes n m) (op : Ir.Build α) :
    K.Runs (emit n op : Lower σ α) u (Lower.emit m op : Lower τ α) v := by
  change K.Agree (onContext (Context.emitOr _ op) u) (onContext (Context.emitOr _ op) v)
  unfold onContext
  dsimp only
  rw [K.context h]
  cases hop : op u.context.ir with
  | ok a ir =>
    rw [Context.emitOr_of_ok _ hop, Context.emitOr_of_ok _ hop]
    exact ⟨rfl, K.proceeds h (.of_ir ir)⟩
  | error e ir =>
    rw [Context.emitOr_of_error _ hop, Context.emitOr_of_error _ hop]
    exact K.refuses (fun span _ => Report.backendError span e.message)
      (K.proceeds h (.of_ir ir)) hn

/-- Dropping a result. -/
theorem drop (h : K.States u v) (r : Result) :
    K.Runs (drop r : Lower σ Ir.BlockId) u (Lower.drop r : Lower τ Ir.BlockId) v := by
  refine bind (x := onContext (Context.destruct r)) ?_ fun r u' v' h => .pure h r.block
  unfold Runs onContext
  dsimp only
  rw [K.context h]
  cases hrun : Context.destruct r u.context with
  | ok r' c => exact ⟨rfl, K.proceeds h (Context.destruct_proceeds hrun)⟩
  | error e c =>
    obtain ⟨c₁, hproceeds, ⟨rfl, rfl⟩ | ⟨rfl, d, rfl⟩⟩ := Context.destruct_error hrun
    · exact K.unfinished h hrun
    · exact K.reports d (K.proceeds h hproceeds)

/-- Dropping several results. -/
theorem dropAll (h : K.States u v) (b : Ir.BlockId) (rs : List Result) :
    K.Runs (dropAll b rs : Lower σ Ir.BlockId) u (Lower.dropAll b rs : Lower τ Ir.BlockId) v := by
  induction rs generalizing b u v with
  | nil => exact .pure h b
  | cons r rs ih => exact (drop h _).bind fun b _ _ h => ih h b

end Runs

/-! ## Refusals -/

/-- A refusal that names the place of a node only. -/
theorem failAt_runs {n m : NodeId} (h : K.States u v) (hn : K.Nodes n m) (d : Span → Diagnostic) :
    K.Runs (do fail (d (← span n)) : Lower σ α) u (do fail (d (← span m)) : Lower τ α) v :=
  .next rfl rfl (K.refuses (fun span _ => d span) h hn)

/-- A refusal that shows the tree at a node. -/
theorem failShown_runs {n m : NodeId} (h : K.States u v) (hn : K.Nodes n m)
    (d : Span → String → Diagnostic) :
    K.Runs (do fail (d (← span n) (← display n)) : Lower σ α) u
      (do fail (d (← span m) (← display m)) : Lower τ α) v :=
  .next rfl rfl (.next rfl rfl (K.refuses d h hn))

/-- A refusal that names a type. -/
theorem failType_runs {n m : NodeId} (h : K.States u v) (hn : K.Nodes n m)
    (d : Span → String → Diagnostic) (t : TypeId) :
    K.Runs (do fail (d (← span n) (← typeName t)) : Lower σ α) u
      (do fail (d (← span m) (← typeName t)) : Lower τ α) v :=
  .next rfl rfl (.typeName h (K.refuses (fun span _ => d span (u.context.typeName t)) h hn))

/-- A refusal that names two types. -/
theorem failTypes_runs {n m : NodeId} (h : K.States u v) (hn : K.Nodes n m)
    (d : Span → String → String → Diagnostic) (s t : TypeId) :
    K.Runs (do fail (d (← span n) (← typeName s) (← typeName t)) : Lower σ α) u
      (do fail (d (← span m) (← typeName s) (← typeName t)) : Lower τ α) v :=
  .next rfl rfl (.typeName h (.typeName h (K.refuses
    (fun span _ => d span (u.context.typeName s) (u.context.typeName t)) h hn)))

/-- A wrong number of arguments. -/
theorem failCount_runs {n m : NodeId} (h : K.States u v) (hn : K.Nodes n m) {ns ms : List NodeId}
    (hlength : ns.length = ms.length) (form : String) (expected : Nat) :
    K.Runs (do fail (Report.incorrectArgumentCount (← span n) form expected ns.length) : Lower σ α)
      u (do fail (Report.incorrectArgumentCount (← span m) form expected ms.length) : Lower τ α)
      v := by
  rw [hlength]
  exact failAt_runs h hn _

/-! ## Tokens -/

section

variable {n m : NodeId} (h : K.States u v) (hn : K.Nodes n m) (b : Ir.BlockId)

include h hn

/-- Malformed literals. -/
theorem failMalformed_runs (expected : String) :
    K.Runs (failMalformed n expected : Lower σ α) u (failMalformed m expected : Lower τ α) v :=
  failShown_runs h hn _

/-- Integer tokens. -/
theorem integerToken_runs (text : String) :
    K.Runs (integerToken b n text) u (integerToken b m text) v := by
  refine (Runs.onState h (Context.backendType_proceeds _)).bind fun ty u v h =>
    (Runs.onState h (Context.attempt_proceeds _)).bind fun outcome u v h => ?_
  split
  · exact .pure h _
  · exact failType_runs h hn _ _
  · exact failMalformed_runs h hn _

/-- Float tokens. -/
theorem floatToken_runs (text : String) :
    K.Runs (floatToken b n text) u (floatToken b m text) v := by
  unfold floatToken
  split
  · exact (Runs.onState h (Context.backendType_proceeds _)).bind fun ty u v h =>
      (Runs.onModule h _).bind fun _ u v h => .pure h _
  · exact failMalformed_runs h hn _

omit hn in
/-- String tokens. -/
theorem stringToken_runs (text : String) :
    K.Runs (stringToken b text) u (stringToken b text) v :=
  (Runs.onState h (Context.pointerTo_proceeds _)).bind fun _ _ _ h =>
    (Runs.onModule h _).bind fun _ _ _ h => .pure h _

omit hn in
/-- Truth values. -/
theorem truthValue_runs (value : Bool) :
    K.Runs (truthValue b value) u (truthValue b value) v :=
  (Runs.onState h (Context.backendType_proceeds _)).bind fun _ _ _ h =>
    (Runs.onModule h _).bind fun _ _ _ h => .pure h _

/-- Variables. -/
theorem variableRead_runs (frame : Frame) (name : String) :
    K.Runs (variableRead frame b n name) u (variableRead frame b m name) v := by
  unfold variableRead
  split
  · exact failAt_runs h hn _
  · exact .pure h _
  · exact (Runs.emit h hn _).bind fun _ _ _ h =>
      (Runs.onState h (Context.pointerTo_proceeds _)).bind fun _ _ _ h => .pure h _

/-- Tokens. -/
theorem token_runs (frame : Frame) (kind : TokenKind) (text : String) :
    K.Runs (token frame b n kind text) u (token frame b m kind text) v := by
  cases kind with
  | integer => exact integerToken_runs h hn b text
  | float => exact floatToken_runs h hn b text
  | string => exact stringToken_runs h b text
  | symbol =>
    change K.Runs (symbolToken frame b n text) u (symbolToken frame b m text) v
    unfold symbolToken
    split
    · exact truthValue_runs h b true
    · split
      · exact truthValue_runs h b false
      · exact variableRead_runs h hn b frame text

end

/-! ## Nodes that are processed alike -/

/-- Reports about the nodes correspond, and they are processed alike. -/
structure Alike (K : Coupling σ τ) (sub : Lower.Sub σ) (sub' : Lower.Sub τ) (n m : NodeId) :
    Prop where
  nodes : K.Nodes n m
  runs {u : Compilation σ} {v : Compilation τ} (h : K.States u v) (b : Ir.BlockId) :
    K.Runs (sub b n) u (sub' b m) v

/-- Both runs find a form there that reads through a pointer, with arguments that are processed
alike, or neither does. -/
def SeesAlike (K : Coupling σ τ) (sub : Lower.Sub σ) (sub' : Lower.Sub τ) (n m : NodeId) : Prop :=
  ∀ {u : Compilation σ} {v : Compilation τ}, K.States u v →
    (∀ inner, u.IsDeref n inner → ∃ inner', v.IsDeref m inner' ∧
      List.Forall₂ (K.Alike sub sub') inner inner') ∧
    ∀ inner', v.IsDeref m inner' → ∃ inner, u.IsDeref n inner

/-! ## Handlers -/

section

variable {n m : NodeId}

/-- A pointer is required. -/
theorem expectPointee_runs (h : K.States u v) (hn : K.Nodes n m) (r : Result) :
    K.Runs (expectPointee r n) u (expectPointee r m) v := by
  refine .context h ?_
  split
  · exact .pure h _
  · exact failType_runs h hn _ _

/-- An owned copy of a borrowed result. -/
theorem copyBorrowed_runs (h : K.States u v) (hn : K.Nodes n m) (r : Result) :
    K.Runs (copyBorrowed n r) u (copyBorrowed m r) v := by
  refine .context h ?_
  split
  · exact (Runs.onState h (Context.backendType_proceeds _)).bind fun _ _ _ h =>
      (Runs.emit h hn _).bind fun _ _ _ h => .pure h _
  · exact failType_runs h hn _ _

/-- The results of two branches get the same ownership. -/
theorem unifyOwnership_runs (h : K.States u v) (hn : K.Nodes n m) (onTrue onFalse : Result) :
    K.Runs (unifyOwnership n onTrue onFalse) u (unifyOwnership m onTrue onFalse) v := by
  unfold unifyOwnership
  split
  · exact .pure h _
  refine .context h ?_
  split
  · exact .pure h _
  split
  · exact (copyBorrowed_runs h hn onTrue).bind fun _ _ _ h => .pure h _
  · exact (copyBorrowed_runs h hn onFalse).bind fun _ _ _ h => .pure h _

/-- The results of two branches are merged. -/
theorem merge_runs (h : K.States u v) (hn : K.Nodes n m) (frame : Frame)
    (onTrue onFalse : Result) :
    K.Runs (merge frame n onTrue onFalse) u (merge frame m onTrue onFalse) v := by
  refine (Runs.onModule h _).bind fun target u v h => (Runs.emit h hn _).bind fun _ u v h =>
    .context h ?_
  dsimp only
  split
  · exact (Runs.onState h Context.voidValue_proceeds).bind fun _ _ _ h => .pure h _
  · exact (Runs.emit h hn _).bind fun _ _ _ h => .pure h _

variable {sub : Lower.Sub σ} {sub' : Lower.Sub τ} {ns ms : List NodeId} (h : K.States u v)
  (hn : K.Nodes n m) (b : Ir.BlockId) (hargs : List.Forall₂ (K.Alike sub sub') ns ms)

include h hn hargs

/-- Reading through a pointer. -/
theorem dereference_runs (addressOnly marked : Bool) :
    K.Runs (dereference sub b n ns addressOnly marked) u
      (dereference sub' b m ms addressOnly marked) v := by
  have hlength := hargs.length_eq
  rcases hargs with _ | ⟨ha, _ | ⟨ha', hrest⟩⟩
  · exact failCount_runs h hn hlength _ _
  · refine (ha.runs h b).bind fun pointer u v h =>
      (expectPointee_runs h ha.nodes pointer).bind fun pointee u v h => .context h ?_
    split
    · exact failAt_runs h ha.nodes _
    · dsimp only
      split
      · exact (Runs.pure h _).bind fun r u v h => (Runs.drop h pointer).bind fun _ _ _ h =>
          .pure h _
      · exact (Runs.emit h hn _).bind fun _ u v h => (Runs.pure h _).bind fun r u v h =>
          (Runs.drop h pointer).bind fun _ _ _ h => .pure h _
  · exact failCount_runs h hn hlength _ _

/-- Taking an address. -/
theorem addressOf_runs (hsees : List.Forall₂ (K.SeesAlike sub sub') ns ms) :
    K.Runs (addressOf sub b n ns) u (addressOf sub' b m ms) v := by
  have hlength := hargs.length_eq
  rcases hargs with _ | ⟨ha, _ | ⟨ha', hrest⟩⟩
  · exact failCount_runs h hn hlength _ _
  · obtain _ | ⟨hsees, -⟩ := hsees
    obtain ⟨hthere, hback⟩ := hsees h
    obtain ⟨found, hu, hfound⟩ := derefArguments?_run u _
    obtain ⟨found', hv, hfound'⟩ := derefArguments?_run v _
    refine .next hu hv ?_
    match found, found', hfound, hfound' with
    | some inner, some inner', hinner, hinner' =>
      obtain ⟨other, hother, halike⟩ := hthere inner hinner
      cases hother.unique hinner'
      exact dereference_runs h ha.nodes b halike true false
    | none, none, _, _ =>
      refine (ha.runs h b).bind fun r u v h => ?_
      split
      · exact .pure h _
      · exact failAt_runs h ha.nodes _
    | some inner, none, hinner, hnone =>
      obtain ⟨other, hother, -⟩ := hthere inner hinner
      exact (hnone other hother).elim
    | none, some inner', hnone, hinner' =>
      obtain ⟨inner, hinner⟩ := hback inner' hinner'
      exact (hnone inner hinner).elim
  · exact failCount_runs h hn hlength _ _

/-- Assigning. -/
theorem assignment_runs :
    K.Runs (assignment sub b n ns) u (assignment sub' b m ms) v := by
  have hlength := hargs.length_eq
  rcases hargs with _ | ⟨hdest, _ | ⟨hvalue, _ | ⟨hthird, hrest⟩⟩⟩
  · exact failCount_runs h hn hlength _ _
  · exact failCount_runs h hn hlength _ _
  · refine (hdest.runs h b).bind fun dest u v h =>
      (expectPointee_runs h hdest.nodes dest).bind fun pointee u v h =>
      (hvalue.runs h dest.block).bind fun value u v h => ?_
    split
    · exact failTypes_runs h hvalue.nodes _ _ _
    · refine .context h ?_
      dsimp only
      split
      · exact (Runs.emit h hn _).bind fun _ u v h => (Runs.drop h value).bind fun b u v h =>
          (Runs.drop h _).bind fun b u v h => truthValue_runs h b true
      · exact (Runs.emit h hn _).bind fun _ u v h => (Runs.pure h _).bind fun b u v h =>
          (Runs.drop h _).bind fun b u v h => truthValue_runs h b true
  · exact failCount_runs h hn hlength _ _

omit hn in
/-- Forms one after the other. -/
theorem forms_runs {first first' : NodeId} (hfirst : K.Alike sub sub' first first') :
    K.Runs (forms sub b first ns) u (forms sub' b first' ms) v := by
  induction hargs generalizing b first first' u v with
  | nil => exact hfirst.runs h b
  | cons hnext _ ih =>
    exact (hfirst.runs h b).bind fun r u v h => (Runs.drop h r).bind fun b u v h =>
      ih h b hnext

/-- A sequence. -/
theorem sequence_runs : K.Runs (sequence sub b n ns) u (sequence sub' b m ms) v := by
  rcases hargs with _ | ⟨hfirst, hrest⟩
  · exact failAt_runs h hn _
  · exact forms_runs h b hrest hfirst

/-- A conditional. -/
theorem conditional_runs (frame : Frame) :
    K.Runs (conditional frame sub b n ns) u (conditional frame sub' b m ms) v := by
  have hlength := hargs.length_eq
  rcases hargs with _ | ⟨hcond, _ | ⟨hthen, _ | ⟨helse, _ | ⟨hfourth, hrest⟩⟩⟩⟩
  · exact failCount_runs h hn hlength _ _
  · exact failCount_runs h hn hlength _ _
  · exact failCount_runs h hn hlength _ _
  · refine (hcond.runs h b).bind fun condition u v h => ?_
    split
    · exact failType_runs h hcond.nodes _ _
    · refine (Runs.drop h condition).bind fun b u v h => (Runs.onModule h _).bind
        fun thenEntry u v h => (Runs.onModule h _).bind fun elseEntry u v h =>
        (Runs.emit h hn _).bind fun _ u v h => (hthen.runs h thenEntry).bind
        fun onTrue u v h => (helse.runs h elseEntry).bind fun onFalse u v h => ?_
      split
      · exact failTypes_runs h hn _ _ _
      · exact (unifyOwnership_runs h hn onTrue onFalse).bind fun branches u v h =>
          merge_runs h hn frame branches.1 branches.2
  · exact failCount_runs h hn hlength _ _

/-- A core form. -/
theorem coreForm_runs (frame : Frame) (form : CoreForm) (marked : Bool)
    (hsees : form = .addressOf → List.Forall₂ (K.SeesAlike sub sub') ns ms) :
    K.Runs (coreForm frame sub b n form ns marked) u
      (coreForm frame sub' b m form ms marked) v := by
  cases form with
  | deref => exact dereference_runs h hn b hargs false marked
  | addressOf => exact addressOf_runs h hn b hargs (hsees rfl)
  | setf => exact assignment_runs h hn b hargs
  | sequence => exact sequence_runs h hn b hargs
  | conditional => exact conditional_runs h hn b hargs frame
  | core =>
    exact failAt_runs h hn _

omit hn in
/-- Arguments. -/
theorem arguments_runs : K.Runs (arguments sub b ns) u (arguments sub' b ms) v := by
  induction hargs generalizing b u v with
  | nil => exact .pure h _
  | cons ha _ ih =>
    exact (ha.runs h b).bind fun r u v h => (ih h r.block).bind fun _ _ _ h => .pure h _

/-- A call. -/
theorem call_runs (name : String) :
    K.Runs (call sub b n name ns) u (call sub' b m name ms) v := by
  refine (arguments_runs h b hargs).bind fun results u v h => .context h ?_
  obtain ⟨rs, b⟩ := results
  dsimp only
  split
  · refine .context h ?_
    exact failAt_runs h hn _
  · refine (Runs.emit h hn _).bind fun returned u v h => ?_
    split
    · exact (Runs.pure h _).bind fun _ u v h => (Runs.dropAll h b rs).bind fun _ _ _ h =>
        .pure h _
    · exact (Runs.onState h Context.voidValue_proceeds).bind fun _ u v h =>
        (Runs.dropAll h b rs).bind fun _ _ _ h => .pure h _

end

/-! ## Runs through the same forms -/

/-- Both runs are about the same nodes and forests. -/
structure Beside (K : Coupling σ τ) : Prop where
  nodes (n : NodeId) : K.Nodes n n
  forest {u : Compilation σ} {v : Compilation τ} : K.States u v → v.forest = u.forest

/-- They have the same limits, too, and forms are offered alike. -/
structure Parallel (K : Coupling σ τ) : Prop extends K.Beside where
  limit {u : Compilation σ} {v : Compilation τ} :
    K.States u v → v.maxExpansions = u.maxExpansions
  offer {u : Compilation σ} {v : Compilation τ} (h : K.States u v) (n : NodeId) :
    K.Runs (offer n) u (offer n) v

/-- What holds of a node holds of the items of a list there, whichever units the runs are at. -/
def PartsOf (K : Coupling σ τ) (part : NodeId → Prop) (n : NodeId) : Prop :=
  ∀ {u : Compilation σ} {v : Compilation τ} {items : List NodeId}, K.States u v →
    u.forest.items? n = some items → ∀ item ∈ items, part item

/-- The form may be rewritten in both runs, with as many expansions left as each has, and what it is
rewritten to is processed alike. -/
structure ExpandsAlike (K : Coupling σ τ) (left left' : Nat) (again : Lower.Sub σ)
    (again' : Lower.Sub τ) (n : NodeId) : Prop where
  runs {u : Compilation σ} {v : Compilation τ} (h : K.States u v) :
    K.Runs (tryExpand left n) u (tryExpand left' n) v
  again {u u' : Compilation σ} {v : Compilation τ} {result : NodeId} (h : K.States u v)
    (hrun : tryExpand left n u = .ok (some result) u') : K.Alike again again' result result

section

variable {sub again : Lower.Sub σ} {sub' again' : Lower.Sub τ} {part : NodeId → Prop} {n : NodeId}
  {left left' : Nat}

/-- Nodes with a property that are processed alike, one by one. -/
theorem alike_of_parts {ns : List NodeId} (hsub : ∀ m, part m → K.Alike sub sub' m m)
    (hns : ∀ m ∈ ns, part m) : List.Forall₂ (K.Alike sub sub') ns ns :=
  List.forall₂_same.2 fun m hm => hsub m (hns m hm)

section

variable (P : K.Beside)

include P

/-- In the same forest both runs see the same. -/
theorem Beside.seesAlike {m : NodeId} (hsub : ∀ m, part m → K.Alike sub sub' m m)
    (hm : K.PartsOf part m) : K.SeesAlike sub sub' m m := by
  intro u v h
  have hsame : ∀ inner, v.IsDeref m inner ↔ u.IsDeref m inner := fun inner => by
    rw [Compilation.IsDeref, Compilation.IsDeref, P.forest h, K.context h]
  refine ⟨fun inner hinner => ⟨inner, (hsame inner).2 hinner, alike_of_parts hsub ?_⟩,
    fun inner hinner => ⟨inner, (hsame inner).1 hinner⟩⟩
  obtain ⟨head, name, hitems, -⟩ := hinner
  exact fun item hitem => hm h hitems item (List.mem_cons_of_mem _ hitem)

variable (hsub : ∀ m, part m → K.Alike sub sub' m m) (h : K.States u v) (b : Ir.BlockId)

include hsub h

/-- A call, or what a rewriter makes of it. -/
theorem Beside.callOrExpand_runs (name : String) {arguments : List NodeId}
    (hargs : ∀ m ∈ arguments, part m) (hexpand : K.ExpandsAlike left left' again again' n) :
    K.Runs (callOrExpand left sub again b n name arguments) u
      (callOrExpand left' sub' again' b n name arguments) v := by
  refine (hexpand.runs h).bindOf fun answer u' v' hrun h' => ?_
  split
  · exact (hexpand.again h hrun).runs h' b
  · exact call_runs h' (P.nodes n) b (alike_of_parts hsub hargs) name

/-- A marked core form. -/
theorem Beside.marked_runs (frame : Frame) {arguments : List NodeId}
    (hparts : ∀ m, part m → K.PartsOf part m) (hargs : ∀ m ∈ arguments, part m) :
    K.Runs (marked frame sub b n arguments) u (marked frame sub' b n arguments) v := by
  unfold marked
  split
  · exact failShown_runs h (P.nodes n) _
  · next head rest =>
    refine .next rfl rfl ?_
    rw [P.forest h]
    have hrest : ∀ m ∈ rest, part m := fun m hm => hargs m (List.mem_cons_of_mem _ hm)
    split
    · split
      · exact failShown_runs h (P.nodes head) _
      · exact coreForm_runs h (P.nodes n) b (alike_of_parts hsub hrest) frame _ true fun _ =>
          List.forall₂_same.2 fun m hm => P.seesAlike hsub (hparts m (hrest m hm))
    · exact failShown_runs h (P.nodes head) _

/-- A list. -/
theorem Beside.list_runs (frame : Frame) {items : List NodeId}
    (hparts : ∀ m, part m → K.PartsOf part m) (hitems : ∀ m ∈ items, part m)
    (hexpand : K.ExpandsAlike left left' again again' n) :
    K.Runs (list frame left sub again b n items) u
      (list frame left' sub' again' b n items) v := by
  unfold list
  split
  · exact failAt_runs h (P.nodes n) _
  · next head arguments =>
    have hargs : ∀ m ∈ arguments, part m := fun m hm => hitems m (List.mem_cons_of_mem _ hm)
    refine .next rfl rfl ?_
    rw [P.forest h]
    split
    · refine .next rfl rfl (.next rfl rfl ?_)
      rw [P.forest h]
      exact K.reports _ h
    · next name _ =>
      have hcall := fun {u v} (h : K.States u v) =>
        P.callOrExpand_runs hsub h b (n := n) name hargs hexpand
      refine .context h ?_
      split
      · exact P.marked_runs hsub h b frame hparts hargs
      · dsimp only
        split
        · exact hcall h
        · exact coreForm_runs h (P.nodes n) b (alike_of_parts hsub hargs) frame _ false fun _ =>
            List.forall₂_same.2 fun m hm => P.seesAlike hsub (hparts m (hargs m hm))
      · exact hcall h

/-- A form, whose parts are processed alike, and the forms it expands to. -/
theorem Beside.form_runs (frame : Frame) (hparts : ∀ m, part m → K.PartsOf part m)
    (hn : K.PartsOf part n) (hexpand : K.ExpandsAlike left left' again again' n) :
    K.Runs (form frame left sub again b n) u (form frame left' sub' again' b n) v := by
  refine .next rfl rfl ?_
  rw [P.forest h]
  split
  · exact token_runs h (P.nodes n) b frame _ _
  · next items hkind =>
    refine P.list_runs hsub h b frame hparts (hn h ?_) hexpand
    rw [Forest.items?, hkind]

end

variable (P : K.Parallel)

include P

/-- Offering a form and taking the answer. -/
theorem Parallel.tryExpand_runs (h : K.States u v) (left : Nat) (n : NodeId) :
    K.Runs (tryExpand left n) u (tryExpand left n) v := by
  unfold tryExpand
  split
  · refine .next (a := u) rfl rfl ?_
    dsimp only
    rw [P.limit h]
    exact failAt_runs h (P.nodes n) _
  · refine (P.offer h n).bind fun answer u v h => ?_
    split
    · exact .pure h _
    · exact .pure h _
    · exact failAt_runs h (P.nodes n) _

/-- A form, whose parts are processed alike, and the forms it expands to as long as there may be
any. -/
theorem Parallel.form_runs (hsub : ∀ m, part m → K.Alike sub sub' m m) (h : K.States u v)
    (b : Ir.BlockId) (frame : Frame) (left : Nat) (hparts : ∀ m, part m → K.PartsOf part m)
    (hn : K.PartsOf part n) (hagain : left ≠ 0 → ∀ m, K.Alike again again' m m) :
    K.Runs (form frame left sub again b n) u (form frame left sub' again' b n) v :=
  P.toBeside.form_runs hsub h b frame hparts hn
    ⟨fun h => P.tryExpand_runs h left n, fun _ hrun => hagain (tryExpand_left hrun) _⟩

end

end Coupling

end FormCompiler
