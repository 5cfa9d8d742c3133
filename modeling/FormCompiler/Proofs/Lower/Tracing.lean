import FormCompiler.Proofs.Context.Ordered
import FormCompiler.Proofs.Lower.Coupling
import FormCompiler.Proofs.Tree.Building

/-!
# Runs that Keep Count of Rewrites

The processing of an expression, with a counter of the rewrites that are in progress and a record of
the calls inside each other. The counter is raised before the form that a rewrite gives is processed
and lowered after it, and it alone decides whether one more rewrite is allowed.

* `Call`: a nested call, for a part of a form or for what it was rewritten to.
* `Traced`: the memory of an expander, the counter, the chain of calls in progress, and every chain
  there was.
* `tracedProcess`, `tracedElement`: processing with a counter.
* `tracing`: the coupling of a run with a traced one, by which `tracedTo_runs` and
  `tracedElementTo_runs` prove that the counter is exact and no chain has more rewrites than the
  limit.
-/

namespace FormCompiler

/-- A call inside another one. -/
inductive Call where
  /-- A part of a form is processed. -/
  | part (node : NodeId)
  /-- The form is processed that another one was rewritten to. -/
  | rewritten (node : NodeId)
deriving DecidableEq, Repr

/-- How many rewrites a call adds to a chain. -/
def Call.rewrites : Call → Nat
  | part _ => 0
  | rewritten _ => 1

/-- How many rewrites were applied along a chain of calls. -/
def rewritesOf : List Call → Nat
  | [] => 0
  | call :: chain => call.rewrites + rewritesOf chain

/-- The memory of an expander, and a record of the calls. -/
structure Traced (σ : Type) where
  memory : σ
  /-- The counter of rewrites. -/
  depth : Nat
  /-- The calls in progress, the innermost first. -/
  chain : List Call
  /-- Every chain of calls there was. -/
  chains : List (List Call)

namespace Traced

variable {σ : Type}

/-- The record inside a call. -/
def enter (t : Traced σ) (call : Call) : Traced σ :=
  ⟨t.memory, t.depth + call.rewrites, call :: t.chain, (call :: t.chain) :: t.chains⟩

/-- The record after a call. -/
def leave (t : Traced σ) (call : Call) : Traced σ :=
  ⟨t.memory, t.depth - call.rewrites, t.chain.tail, t.chains⟩

end Traced

variable {σ α : Type}

/-- The expander does not look at the record. -/
def Expander.traced (expander : Expander σ) : Expander (Traced σ) := fun t forest node =>
  let (answer, memory, forest) := expander t.memory forest node
  (answer, { t with memory }, forest)

/-- The unit with a record, in a chain of calls. -/
def Compilation.traced (u : Compilation σ) (chain : List Call) : Compilation (Traced σ) :=
  ⟨u.forest, u.context, ⟨u.memory, rewritesOf chain, chain, []⟩, u.expander.traced,
    u.maxExpansions⟩

/-- What ensures that a unit is followed to the end of any of its forms. -/
structure Compilation.Bounded (u : Compilation σ) : Prop where
  forest : u.forest.WellBuilt
  expander : u.expander.Builds
  structs : u.context.Ordered

namespace Lower

/-! ## Processing with a counter -/

/-- Runs a step inside a call, which ends however the step ends. -/
def within (call : Call) (x : Lower (Traced σ) α) : Lower (Traced σ) α := fun u =>
  match x { u with memory := u.memory.enter call } with
  | .ok a u => .ok a { u with memory := u.memory.leave call }
  | .error e u => .error e { u with memory := u.memory.leave call }

/-- Number of rewrites that the counter allows. -/
def allowed : Lower (Traced σ) Nat := fun u => .ok (u.maxExpansions - u.memory.depth) u

/-- Processes a form whose id is below `bound`. -/
def tracedBelow (frame : Frame) (again : Sub (Traced σ)) : (bound : Nat) → Sub (Traced σ)
  | 0 => fun _ _ => throw .unfinished
  | bound + 1 => fun b node => do
    let left ← allowed
    form frame left (fun b part => within (.part part) (tracedBelow frame again bound b part))
      (fun b result => within (.rewritten result) (again b result)) b node

/-- Processes a form. The number does not limit rewrites, it only bounds how far they are
followed. -/
def tracedTo (frame : Frame) : (far : Nat) → Sub (Traced σ)
  | 0 => fun b node => tracedBelow frame (fun _ _ => throw .unfinished) (node.index + 1) b node
  | far + 1 => fun b node => tracedBelow frame (tracedTo frame far) (node.index + 1) b node

/-- Processes the form at a node. -/
def tracedProcess (frame : Frame) : Sub (Traced σ) := fun b node => do
  let left ← allowed
  tracedTo frame left b node

/-- Adds the member of an element. The number only bounds how far rewrites are followed. -/
def tracedElementTo (underlying : TypeId) :
    (far : Nat) → EnumBuilder → NodeId → Lower (Traced σ) EnumBuilder
  | 0 => fun builder node => do
    let left ← allowed
    element underlying left (fun _ _ => throw .unfinished) builder node
  | far + 1 => fun builder node => do
    let left ← allowed
    element underlying left (fun builder result =>
      within (.rewritten result) (tracedElementTo underlying far builder result)) builder node

/-- Adds the member of an element. -/
def tracedElement (underlying : TypeId) (builder : EnumBuilder) (node : NodeId) :
    Lower (Traced σ) EnumBuilder := do
  let left ← allowed
  tracedElementTo underlying left builder node

/-! ## The coupling -/

/-- The second unit is the first one with a record, in a chain of calls. No chain has more rewrites
than the limit. -/
structure Traces (chain : List Call) (u : Compilation σ) (v : Compilation (Traced σ)) : Prop where
  forest : v.forest = u.forest
  context : v.context = u.context
  memory : v.memory.memory = u.memory
  expander : v.expander = u.expander.traced
  limit : v.maxExpansions = u.maxExpansions
  depth : v.memory.depth = rewritesOf chain
  chain : v.memory.chain = chain
  chains : ∀ c ∈ v.memory.chains, rewritesOf c ≤ u.maxExpansions

/-- Another context. -/
theorem Traces.withContext {chain : List Call} {u : Compilation σ} {v : Compilation (Traced σ)}
    (h : Traces chain u v) (c : Context) : Traces chain (u.withContext c) (v.withContext c) :=
  ⟨h.forest, rfl, h.memory, h.expander, h.limit, h.depth, h.chain, h.chains⟩

/-- A run and the traced run, in a chain of calls. -/
def tracing (σ : Type) (limit : Nat) (chain : List Call) : Coupling σ (Traced σ) where
  States u v := Traces chain u v ∧ Compilation.Bounded u ∧ u.maxExpansions = limit
  Stops e u e' v := (e = .reported ∧ e' = .reported) ∧ Traces chain u v ∧
    Compilation.Bounded u ∧ u.maxExpansions = limit
  Nodes n m := m = n
  context h := h.1.context
  proceeds := fun ⟨h, hu, hlimit⟩ hc =>
    ⟨h.withContext _, ⟨hu.forest, hu.expander, hu.structs.proceeds hc⟩, hlimit⟩
  reports := by
    rintro u v d ⟨h, hu, hlimit⟩
    unfold Compilation.reporting
    rw [h.context]
    exact ⟨⟨rfl, rfl⟩, h.withContext _, ⟨hu.forest, hu.expander, hu.structs.of_queue _⟩, hlimit⟩
  refuses := by
    rintro u v n m d ⟨h, hu, hlimit⟩ rfl
    unfold Compilation.reporting
    rw [h.context, h.forest]
    exact ⟨⟨rfl, rfl⟩, h.withContext _, ⟨hu.forest, hu.expander, hu.structs.of_queue _⟩, hlimit⟩
  unfinished := by
    rintro u v r c ⟨-, hu, -⟩ hrun
    cases ((Context.destruct_finishes r u.context hu.structs).of_error hrun).1

variable {limit : Nat} {chain : List Call} {u : Compilation σ} {v : Compilation (Traced σ)}

/-- Both runs are about the same forms. -/
theorem tracing_parallel (limit : Nat) (chain : List Call) : (tracing σ limit chain).Parallel where
  nodes _ := rfl
  forest h := h.1.forest
  limit h := h.1.limit
  offer := by
    rintro u v ⟨h, hu, hlimit⟩ n
    have hanswer : v.expander v.memory v.forest n =
        ((u.expander u.memory u.forest n).1,
          { v.memory with memory := (u.expander u.memory u.forest n).2.1 },
          (u.expander u.memory u.forest n).2.2) := by
      rw [h.expander, h.forest, Expander.traced, h.memory]
    unfold Coupling.Runs
    rw [offer_run, offer_run, hanswer]
    exact ⟨rfl, ⟨rfl, h.context, rfl, h.expander, h.limit, h.depth, h.chain, h.chains⟩,
      ⟨hu.expander _ _ n hu.forest, hu.expander, hu.structs⟩, hlimit⟩

/-- A unit with an empty record stands beside itself. -/
theorem tracing_states (hu : u.Bounded) (chain : List Call) :
    (tracing σ u.maxExpansions chain).States u (u.traced chain) :=
  ⟨⟨rfl, rfl, rfl, rfl, rfl, rfl, rfl, fun _ hc => absurd hc List.not_mem_nil⟩, hu, rfl⟩

/-- The number of rewrites along a chain with a further call. -/
@[simp]
theorem rewritesOf_cons (call : Call) (chain : List Call) :
    rewritesOf (call :: chain) = call.rewrites + rewritesOf chain := rfl

/-- At the beginning of a call. -/
theorem Traces.enter {call : Call} (h : Traces chain u v)
    (hcall : rewritesOf (call :: chain) ≤ u.maxExpansions) :
    Traces (call :: chain) u { v with memory := v.memory.enter call } where
  forest := h.forest
  context := h.context
  memory := h.memory
  expander := h.expander
  limit := h.limit
  depth := by rw [Traced.enter, h.depth, rewritesOf_cons, Nat.add_comm]
  chain := by rw [Traced.enter, h.chain]
  chains := by
    intro c hc
    rcases List.mem_cons.1 hc with rfl | hc
    · rwa [h.chain]
    · exact h.chains c hc

/-- At the end of a call. -/
theorem Traces.leave {call : Call} (h : Traces (call :: chain) u v) :
    Traces chain u { v with memory := v.memory.leave call } where
  forest := h.forest
  context := h.context
  memory := h.memory
  expander := h.expander
  limit := h.limit
  depth := by rw [Traced.leave, h.depth, rewritesOf_cons, Nat.add_sub_cancel_left]
  chain := by rw [Traced.leave, h.chain, List.tail_cons]
  chains := h.chains

/-- A call inside the chain runs alike if the step does at the end of the longer chain. -/
theorem within_runs {call : Call} {x : Lower σ α} {y : Lower (Traced σ) α}
    (h : (tracing σ limit chain).States u v) (hcall : rewritesOf (call :: chain) ≤ limit)
    (hxy : ∀ {v}, (tracing σ limit (call :: chain)).States u v →
      (tracing σ limit (call :: chain)).Runs x u y v) :
    (tracing σ limit chain).Runs x u (within call y) v := by
  obtain ⟨htraces, hu, hlimit⟩ := h
  have hinside := hxy ⟨htraces.enter (hlimit ▸ hcall), hu, hlimit⟩
  unfold Coupling.Runs at hinside ⊢
  unfold within
  cases hx : x u <;> cases hy : y { v with memory := v.memory.enter call } <;>
    rw [hx, hy] at hinside
  case ok.ok =>
    obtain ⟨rfl, htraces, hu, hlimit⟩ := hinside
    exact ⟨rfl, htraces.leave, hu, hlimit⟩
  case error.error =>
    obtain ⟨hhalts, htraces, hu, hlimit⟩ := hinside
    exact ⟨hhalts, htraces.leave, hu, hlimit⟩
  all_goals exact hinside.elim

/-- The counter allows what is left of the limit. -/
theorem allowed_run (h : (tracing σ limit chain).States u v) {left : Nat}
    (hleft : rewritesOf chain + left = limit) : allowed v = .ok left v := by
  unfold allowed
  rw [h.1.limit, h.1.depth, h.2.2, ← hleft, Nat.add_sub_cancel_left]

/-! ## Expressions -/

section

variable (frame : Frame)

/-- A form whose id is below the bound runs alike, if rewritten forms do at the end of any chain
with one more rewrite. -/
theorem tracedBelow_runs {left : Nat} {again : Sub σ} {again' : Sub (Traced σ)}
    (hagain : ∀ {far : Nat} {chain : List Call}, left = far + 1 → rewritesOf chain + far = limit →
      ∀ n, (tracing σ limit chain).Alike again again' n n)
    (bound : Nat) {chain : List Call} (hchain : rewritesOf chain + left = limit) (n : NodeId)
    (hn : n.index < bound) :
    (tracing σ limit chain).Alike (expressionBelow frame left again bound)
      (tracedBelow frame again' bound) n n := by
  induction bound generalizing chain n with
  | zero => exact absurd hn (Nat.not_lt_zero _)
  | succ bound ih =>
    refine ⟨rfl, fun {u v} h b => ?_⟩
    have hparts : ∀ m : NodeId, m.index ≤ bound →
        (tracing σ limit chain).PartsOf (fun part => part.index < bound) m := by
      intro m hm u v items hstates hitems item hitem
      refine Nat.lt_of_lt_of_le (hstates.2.1.forest m items ?_ item hitem) hm
      unfold Forest.items? at hitems
      split at hitems
      next => cases hitems
      next heq =>
        cases hitems
        exact heq
    have hsub : ∀ m : NodeId, m.index < bound → (tracing σ limit chain).Alike
        (expressionBelow frame left again bound)
        (fun b part => within (.part part) (tracedBelow frame again' bound b part)) m m := by
      intro m hm
      refine ⟨rfl, fun h b => within_runs h ?_ fun h => ?_⟩
      · rw [rewritesOf_cons, Call.rewrites]
        omega
      · exact (ih (by rw [rewritesOf_cons, Call.rewrites]; omega) m hm).runs h b
    have hagain' : left ≠ 0 → ∀ m, (tracing σ limit chain).Alike again
        (fun b result => within (.rewritten result) (again' b result)) m m := by
      intro hleft m
      refine ⟨rfl, fun h b => within_runs h ?_ fun h => ?_⟩
      · rw [rewritesOf_cons, Call.rewrites]
        omega
      · refine (hagain (by omega : left = left - 1 + 1) ?_ m).runs h b
        rw [rewritesOf_cons, Call.rewrites]
        omega
    have hform := (tracing_parallel (σ := σ) limit chain).form_runs hsub h b frame left
      (fun m hm => hparts m (Nat.le_of_lt hm)) (hparts n (Nat.le_of_lt_succ hn)) hagain'
    have hbelow : tracedBelow frame again' (bound + 1) b n v = form frame left
        (fun b part => within (.part part) (tracedBelow frame again' bound b part))
        (fun b result => within (.rewritten result) (again' b result)) b n v :=
      bind_run (allowed_run h hchain)
    unfold Coupling.Runs at hform ⊢
    rwa [hbelow]

/-- A form runs alike at the end of a chain that leaves a number of rewrites. -/
theorem tracedTo_runs (left : Nat) {chain : List Call} (hchain : rewritesOf chain + left = limit)
    (n : NodeId) :
    (tracing σ limit chain).Alike (expression frame left) (tracedTo frame left) n n := by
  induction left generalizing chain n with
  | zero =>
    have hbelow : (tracing σ limit chain).Alike
        (expressionBelow frame 0 (fun _ _ => throw .unfinished) (n.index + 1))
        (tracedBelow frame (fun _ _ => throw .unfinished) (n.index + 1)) n n :=
      tracedBelow_runs frame (fun h => by cases h) _ hchain n (Nat.lt_succ_self _)
    exact ⟨rfl, fun h b => hbelow.runs h b⟩
  | succ left ih =>
    have hbelow : (tracing σ limit chain).Alike
        (expressionBelow frame (left + 1) (expression frame left) (n.index + 1))
        (tracedBelow frame (tracedTo frame left) (n.index + 1)) n n :=
      tracedBelow_runs frame (fun hfar hchain n => by
        cases hfar
        exact ih hchain n) _ hchain n (Nat.lt_succ_self _)
    exact ⟨rfl, fun h b => hbelow.runs h b⟩

end

/-! ## Elements of enums -/

section

variable {τ : Type} {K : Coupling σ τ} {w : Compilation τ} (P : K.Beside) (h : K.States u w)
  (node : NodeId) (underlying : TypeId)

include P h

/-- A member that is added or refused. -/
theorem memberAdded_runs (outcome : Except MemberError EnumBuilder) (name : String) :
    K.Runs (memberAdded outcome node name underlying) u
      (memberAdded outcome node name underlying) w := by
  unfold memberAdded
  split
  · exact .pure h _
  · exact Coupling.failAt_runs h (P.nodes node) _
  · exact Coupling.failType_runs h (P.nodes node) _ _

/-- The value of a literal. -/
theorem memberLiteral_runs (text : String) :
    K.Runs (memberLiteral node text underlying) u (memberLiteral node text underlying) w := by
  refine .context h ((Coupling.Runs.onState h (Context.backendType_proceeds _)).bind
    fun ty u w h => (Coupling.Runs.onState h (Context.attempt_proceeds _)).bind
    fun outcome u w h => ?_)
  split
  · refine .context h ?_
    dsimp only
    split
    · exact .pure h _
    · exact Coupling.failType_runs h (P.nodes node) _ _
  · exact Coupling.failType_runs h (P.nodes node) _ _
  · exact Coupling.failAt_runs h (P.nodes node) _

/-- An element, and the one it expands to. -/
theorem element_runs {left left' : Nat} {again : EnumBuilder → NodeId → Lower σ EnumBuilder}
    {again' : EnumBuilder → NodeId → Lower τ EnumBuilder} (builder : EnumBuilder)
    (hoffer : ∀ {u w}, K.States u w → K.Runs (tryExpand left node) u (tryExpand left' node) w)
    (hagain : ∀ {u u' w result}, K.States u w → tryExpand left node u = .ok (some result) u' →
      ∀ {u w}, K.States u w → K.Runs (again builder result) u (again' builder result) w) :
    K.Runs (element underlying left again builder node) u
      (element underlying left' again' builder node) w := by
  have hnone : ∀ {u w}, K.States u w →
      K.Runs (failElement node : Lower σ EnumBuilder) u
        (failElement node : Lower τ EnumBuilder) w :=
    fun h => Coupling.failShown_runs h (P.nodes node) _
  refine .next rfl rfl ?_
  rw [P.forest h]
  split
  · exact memberAdded_runs P h node underlying _ _
  · exact hnone h
  · split
    · exact (memberLiteral_runs P h _ underlying _).bind fun value u w h =>
        memberAdded_runs P h node underlying _ _
    · refine (hoffer h).bindOf fun answer u' w' hrun h' => ?_
      split
      · exact hagain h hrun h'
      · exact hnone h'

end

/-- An element runs alike at the end of a chain that leaves a number of rewrites. -/
theorem tracedElementTo_runs (underlying : TypeId) (left : Nat) {chain : List Call}
    (hchain : rewritesOf chain + left = limit) (builder : EnumBuilder) (node : NodeId)
    {u : Compilation σ} {v : Compilation (Traced σ)} (h : (tracing σ limit chain).States u v) :
    (tracing σ limit chain).Runs (elementWith underlying left builder node) u
      (tracedElementTo underlying left builder node) v := by
  induction left generalizing chain builder node u v with
  | zero =>
    have helement : (tracing σ limit chain).Runs
        (element underlying 0 (fun _ _ => throw .unfinished) builder node) u
        (element underlying 0 (fun _ _ => throw .unfinished) builder node) v :=
      element_runs (tracing_parallel limit chain).toBeside h node underlying builder
        (fun h => (tracing_parallel limit chain).tryExpand_runs h 0 node)
        fun _ hrun => absurd rfl (tryExpand_left hrun)
    have hrun : tracedElementTo underlying 0 builder node v =
        element underlying 0 (fun _ _ => throw .unfinished) builder node v :=
      bind_run (allowed_run h hchain)
    unfold Coupling.Runs at helement ⊢
    rwa [hrun]
  | succ left ih =>
    have hagain : ∀ (result : NodeId) {u : Compilation σ} {w : Compilation (Traced σ)},
        (tracing σ limit chain).States u w →
        (tracing σ limit chain).Runs (elementWith underlying left builder result) u
          (within (.rewritten result) (tracedElementTo underlying left builder result)) w :=
      fun result {u w} h => within_runs h (by rw [rewritesOf_cons, Call.rewrites]; omega)
        fun h => ih (by rw [rewritesOf_cons, Call.rewrites]; omega) builder result h
    have helement : (tracing σ limit chain).Runs
        (element underlying (left + 1) (elementWith underlying left) builder node) u
        (element underlying (left + 1) (fun builder result =>
          within (.rewritten result) (tracedElementTo underlying left builder result))
          builder node) v :=
      element_runs (tracing_parallel limit chain).toBeside h node underlying builder
        (fun h => (tracing_parallel limit chain).tryExpand_runs h (left + 1) node)
        fun _ _ => hagain _
    have hrun : tracedElementTo underlying (left + 1) builder node v =
        element underlying (left + 1) (fun builder result =>
          within (.rewritten result) (tracedElementTo underlying left builder result))
          builder node v := bind_run (allowed_run h hchain)
    unfold Coupling.Runs at helement ⊢
    rwa [hrun]

end Lower

end FormCompiler
