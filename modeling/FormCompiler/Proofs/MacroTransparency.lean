import FormCompiler.Lower.Evaluation
import FormCompiler.Proofs.Lower.Expansion

/-!
# Macros Are Transparent

An expression means the same whether its macros are expanded on the way or before: the same result,
the same instructions, or none in both cases. There is one exception. `#` looks at the form of its
operand before it is expanded, and does not read the pointer of an operand `(@ pointer)`. So an
operand that only expands to such a form is read, and it means what the expansion means inside
`(core do ...)`.

* `Expanded`: a node for the full expansion of another one, in a unit without macros.
* `process_expanded`: both are processed with the same outcome.
-/

namespace FormCompiler.Lower

variable {σ τ : Type}

/-- The two outcomes are the same result and the same context, or neither is a result. -/
def SameOutcome (x : EStateM.Result Halt (Compilation σ) Result)
    (y : EStateM.Result Halt (Compilation τ) Result) : Prop :=
  match x, y with
  | .ok r u, .ok r' v => r' = r ∧ v.context = u.context
  | .error _ _, .error _ _ => True
  | _, _ => False

/-- The second unit has no macros and otherwise the state of the first one. What a node there reads
as is the full expansion of a node of the first unit, for the macros of that unit, and within its
limit. `operand` says what stands for an operand of `#`, made from the operand and its expansion. -/
structure Expanded (reply : Tree → Reply) (operand : Tree → Tree → Tree) (u : Compilation σ)
    (v : Compilation τ) (n q : NodeId) : Prop where
  built : u.forest.WellBuilt
  built' : v.forest.WellBuilt
  follows : u.expander.Follows reply
  plain : v.expander = .none
  context : v.context = u.context
  limit : v.maxExpansions = u.maxExpansions
  node : n.index < u.forest.size
  expansion : ∃ left, left ≤ u.maxExpansions ∧
    Macros.expand ⟨reply, u.context.hasFunction, operand⟩ left (u.forest.tree n) =
      some (v.forest.tree q)

/-- **Macros are transparent.** An expression is processed with the same outcome as its full
expansion by a unit without macros, where an operand of `#` that is no form `(@ pointer)` but
expands to one is enclosed in `(core do ...)`. -/
theorem process_expanded {u : Compilation σ} {v : Compilation τ} {reply : Tree → Reply}
    {n q : NodeId} (h : Expanded reply (Tree.enclose u.context.hasFunction) u v n q) (frame : Frame)
    (b : Ir.BlockId) : SameOutcome (process frame b n u) (process frame b q v) := by
  obtain ⟨left, hleft, hexpansion⟩ := h.expansion
  have hstates : Expanding ⟨reply, u.context.hasFunction, Tree.enclose u.context.hasFunction⟩
      u.forest v.forest u v :=
    ⟨h.context, fun _ => rfl, h.built, .refl _, h.follows, rfl, h.plain⟩
  have halike : ∀ (limit : Nat) (again' : Sub τ), u.maxExpansions = limit →
      SameOutcome (process frame b n u)
        (expressionBelow frame limit again' (q.index + 1) b q v) := by
    rintro limit again' rfl
    have hruns := (expand_alike h.built' rfl frame again' left hleft (Nat.le_refl _) hexpansion
      h.built h.node rfl rfl (Nat.lt_succ_self _)).runs hstates b
    unfold Coupling.Runs at hruns
    change SameOutcome (expression frame u.maxExpansions b n u) _
    cases hx : expression frame u.maxExpansions b n u <;>
      cases hy : expressionBelow frame u.maxExpansions again' (q.index + 1) b q v <;>
      rw [hx, hy] at hruns
    case ok.ok => exact ⟨hruns.1.symm, hruns.2.context⟩
    case error.error => trivial
    all_goals exact hruns.elim
  change SameOutcome _ (expression frame v.maxExpansions b q v)
  rw [h.limit]
  cases hlimit : u.maxExpansions with
  | zero => exact halike 0 _ hlimit
  | succ limit => exact halike (limit + 1) _ hlimit

/-! ## The exception -/

/-- The macro `(m x)` stands for `x`. -/
def unwrapRule : Rule := ⟨some "m", some 1, .replace (.argument 0)⟩

/-- What it stands for, as a tree. -/
def unwrapped : Tree → Reply
  | .list [head, t] => if head.symbol? = some "m" then .expanded t else .notApplicable
  | _ => .notApplicable

/-- What the expander of the rule answers. It adds nothing. -/
theorem unwrapRule_run (f : Forest) (node : NodeId) :
    Rule.expander [unwrapRule] ⟨⟩ f node = (match f.items? node with
      | some [head, x] => if f.symbol? head = some "m" then .expanded x else .notApplicable
      | _ => .notApplicable, ⟨⟩, f) := by
  unfold Rule.expander
  cases hitems : f.items? node with
  | none => rfl
  | some items =>
    match items with
    | [] | [_] | _ :: _ :: _ :: _ =>
      simp [Rule.appliesTo, unwrapRule]
    | [head, x] =>
      by_cases hhead : f.symbol? head = some "m"
      · have hadd : Template.add [x] (.argument 0) f = .ok x f := rfl
        simp [Rule.appliesTo, unwrapRule, hhead, Rule.apply, hadd]
      · simp [Rule.appliesTo, unwrapRule, hhead]

/-- The expander of the rule depends only on the tree. -/
theorem unwrapRule_follows : (Rule.expander [unwrapRule]).Follows unwrapped where
  builds := Rule.expander_builds _
  adds memory f node _ := by
    rw [unwrapRule_run]
    exact .refl f
  answers memory f node hf hnode := by
    rw [unwrapRule_run]
    cases hkind : f.kind node with
    | token token => simp [Forest.items?, hkind, Forest.tree_token hkind, unwrapped, Reply.Is]
    | list items =>
      rw [Forest.items?, hkind, hf.tree_list hkind]
      obtain _ | ⟨head, _ | ⟨x, _ | ⟨third, rest⟩⟩⟩ := items
      case cons.cons.nil =>
        have hx : x.index < f.size := Nat.lt_trans (hf node _ hkind x (by simp)) hnode
        by_cases hhead : f.symbol? head = some "m" <;>
          simp [unwrapped, Forest.tree_symbol?, hhead, Reply.Is, hx]
      all_goals simp [unwrapped, Reply.Is]

/-- The forms `(# (m (@ p)))`, `(# (@ p))` and `(# (core do (@ p)))`. -/
def addressForest : Forest :=
  ⟨#[⟨.token ⟨.symbol, ⟨1⟩⟩, .dummy⟩, ⟨.token ⟨.symbol, ⟨2⟩⟩, .dummy⟩,
    ⟨.token ⟨.symbol, ⟨3⟩⟩, .dummy⟩, ⟨.token ⟨.symbol, ⟨4⟩⟩, .dummy⟩,
    ⟨.token ⟨.symbol, ⟨5⟩⟩, .dummy⟩, ⟨.token ⟨.symbol, ⟨6⟩⟩, .dummy⟩, ⟨.list [⟨1⟩, ⟨0⟩], .dummy⟩,
    ⟨.list [⟨3⟩, ⟨6⟩], .dummy⟩, ⟨.list [⟨4⟩, ⟨5⟩, ⟨6⟩], .dummy⟩, ⟨.list [⟨2⟩, ⟨7⟩], .dummy⟩,
    ⟨.list [⟨2⟩, ⟨6⟩], .dummy⟩, ⟨.list [⟨2⟩, ⟨8⟩], .dummy⟩],
    ⟨#["", "p", "@", "#", "m", "core", "do"]⟩⟩

/-- A session with a variable `p` of type `(p int)`, without macros. -/
def addressSession : Compilation PUnit where
  forest := addressForest
  context := (Context.openSession "scratch" [⟨"p", ⟨21⟩, false⟩] .void .internal
    ((Context.start .standard).withPool ((Context.start .standard).pool.pointerTo .int).2)).2
  memory := ⟨⟩
  expander := .none
  maxExpansions := 128

/-- The session with the macro `m`. -/
def unwrapSession : Compilation PUnit :=
  { addressSession with expander := Rule.expander [unwrapRule] }

/-- The function of the session, with the parameter for `p`. -/
def addressFrame : Frame := ⟨⟨0⟩, ⟨[("p", ⟨⟨21⟩, .value ⟨0⟩⟩)]⟩⟩

/-- No function is declared in the session. -/
theorem unwrapSession_hasFunction : unwrapSession.context.hasFunction = fun _ => false := by
  have hnone : unwrapSession.context.chain.all (·.functions.isEmpty) = true := by decide +kernel
  funext name
  rw [Context.hasFunction, List.any_eq_false]
  intro ns hns
  have hempty := List.all_eq_true.1 hnone ns hns
  simp [Namespace.hasFunction, Array.isEmpty_iff.1 hempty]

/-- The outcome of `(# (m (@ p)))` is that of `(# (core do (@ p)))` without the macro. -/
theorem sameOutcome_unwrapSession :
    Expanded unwrapped (Tree.enclose unwrapSession.context.hasFunction) unwrapSession addressSession
        ⟨9⟩ ⟨11⟩ ∧
      SameOutcome (process addressFrame ⟨0⟩ ⟨9⟩ unwrapSession)
        (process addressFrame ⟨0⟩ ⟨11⟩ addressSession) := by
  have hexpanded : Expanded unwrapped (Tree.enclose unwrapSession.context.hasFunction)
      unwrapSession addressSession ⟨9⟩ ⟨11⟩ := by
    refine ⟨by decide, by decide, unwrapRule_follows, rfl, rfl, rfl, by decide, 1, by decide, ?_⟩
    rw [unwrapSession_hasFunction]
    rfl
  exact ⟨hexpanded, process_expanded hexpanded addressFrame ⟨0⟩⟩

/-- The outcome of `(# (m (@ p)))` is not that of `(# (@ p))` without the macro: the address that is
taken of what `(@ p)` reads is owned elsewhere, and `p` itself is not. -/
theorem not_sameOutcome_unwrapSession :
    Expanded unwrapped (fun _ expansion => expansion) unwrapSession addressSession ⟨9⟩ ⟨10⟩ ∧
      ¬ SameOutcome (process addressFrame ⟨0⟩ ⟨9⟩ unwrapSession)
        (process addressFrame ⟨0⟩ ⟨10⟩ addressSession) := by
  refine ⟨⟨by decide, by decide, unwrapRule_follows, rfl, rfl, rfl, by decide, 1, by decide, ?_⟩,
    fun hsame => ?_⟩
  · rw [unwrapSession_hasFunction]
    rfl
  have hread : Ends (process addressFrame ⟨0⟩ ⟨9⟩) unwrapSession (fun r _ => r.borrowed = true)
      fun _ => False := by
    unfold Ends
    decide +kernel
  have hskipped : Ends (process addressFrame ⟨0⟩ ⟨10⟩) addressSession
      (fun r _ => r.borrowed = false) fun _ => False := by
    unfold Ends
    decide +kernel
  unfold SameOutcome at hsame
  unfold Ends at hread hskipped
  split at hsame
  next r u r' v hx hy =>
    rw [hx] at hread
    rw [hy] at hskipped
    obtain ⟨rfl, -⟩ := hsame
    exact absurd (hread.symm.trans hskipped) (by decide)
  next hx hy =>
    rw [hx] at hread
    exact hread
  next => exact hsame

end FormCompiler.Lower
