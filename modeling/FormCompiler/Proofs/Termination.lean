import FormCompiler.Proofs.Lower.Tracing

/-!
# Expressions Terminate

Every expression is processed to the end, and so is every element of an enum. A form is processed by
way of its parts, which stand before it in the forest, and of what it is rewritten to, which is
limited by the counter of rewrites; so the number of rewrites left and the id descend together.

* `Completes`: a step comes to an end, and along its traced run the counter is exact and no chain of
  calls has more rewrites than the limit.
* `dispatch_terminates`: expressions and elements complete, from any depth of rewrites.
-/

namespace FormCompiler.Lower

variable {σ α : Type} {u : Compilation σ}

/-- From the unit, at the end of a chain of calls, the step gives a result or reports a failure. The
traced step, which keeps a counter, does the same; its counter and its chain of calls are afterwards
what they were before, also if it failed, and no chain there was has more rewrites than the limit.
-/
def Completes (x : Lower σ α) (traced : Lower (Traced σ) α) (chain : List Call)
    (u : Compilation σ) : Prop :=
  match x u, traced (u.traced chain) with
  | .ok a u', .ok b v' => a = b ∧ Traces chain u' v' ∧ u'.maxExpansions = u.maxExpansions
  | .error e u', .error e' v' => (e = .reported ∧ e' = .reported) ∧ Traces chain u' v' ∧
      u'.maxExpansions = u.maxExpansions
  | _, _ => False

/-- Runs alike complete. -/
theorem completes_of_runs {x : Lower σ α} {traced : Lower (Traced σ) α} {chain : List Call}
    (h : (tracing σ u.maxExpansions chain).Runs x u traced (u.traced chain)) :
    Completes x traced chain u := by
  unfold Completes
  unfold Coupling.Runs at h
  match hx : x u, hy : traced (u.traced chain) with
  | .ok a u', .ok b v' =>
    rw [hx, hy] at h
    obtain ⟨hab, htraces, -, hlimit⟩ := h
    exact ⟨hab, htraces, hlimit⟩
  | .error e u', .error e' v' =>
    rw [hx, hy] at h
    obtain ⟨hhalts, htraces, -, hlimit⟩ := h
    exact ⟨hhalts, htraces, hlimit⟩
  | .ok _ _, .error _ _ | .error _ _, .ok _ _ =>
    rw [hx, hy] at h
    exact h.elim

/-- **The dispatcher of expressions terminates**, and so does adding the elements of enums. In a
reachable unit whose forest is built of earlier nodes, with an expander that keeps it so, any form
is processed to the end, with success or a report. Nested in a chain of calls, a form gets the
rewrites that the chain leaves; the counter is what it was before, whatever the outcome, and no
chain of calls has more rewrites than the limit. -/
theorem dispatch_terminates (hu : Reachable u) (hforest : u.forest.WellBuilt)
    (hexpander : u.expander.Builds) (frame : Frame) (b : Ir.BlockId) (node : NodeId)
    (underlying : TypeId) (builder : EnumBuilder) {chain : List Call}
    (hchain : rewritesOf chain ≤ u.maxExpansions) :
    Completes (process frame b node) (tracedProcess frame b node) [] u ∧
      Completes (expression frame (u.maxExpansions - rewritesOf chain) b node)
        (tracedProcess frame b node) chain u ∧
      Completes (elementWith underlying (u.maxExpansions - rewritesOf chain) builder node)
        (tracedElement underlying builder node) chain u := by
  have hbounded : u.Bounded := ⟨hforest, hexpander, hu.ordered⟩
  have hexpression : ∀ chain, rewritesOf chain ≤ u.maxExpansions →
      Completes (expression frame (u.maxExpansions - rewritesOf chain) b node)
        (tracedProcess frame b node) chain u := by
    intro chain hchain
    refine completes_of_runs ?_
    have hstates := tracing_states hbounded chain
    have hleft : rewritesOf chain + (u.maxExpansions - rewritesOf chain) = u.maxExpansions :=
      Nat.add_sub_of_le hchain
    have hruns := (tracedTo_runs frame _ hleft node).runs hstates b
    have hrun : tracedProcess frame b node (u.traced chain) =
        tracedTo frame (u.maxExpansions - rewritesOf chain) b node (u.traced chain) :=
      bind_run (allowed_run hstates hleft)
    unfold Coupling.Runs at hruns ⊢
    rwa [hrun]
  refine ⟨hexpression [] (Nat.zero_le _), hexpression chain hchain, completes_of_runs ?_⟩
  have hstates := tracing_states hbounded chain
  have hleft : rewritesOf chain + (u.maxExpansions - rewritesOf chain) = u.maxExpansions :=
    Nat.add_sub_of_le hchain
  have hruns := tracedElementTo_runs underlying _ hleft builder node hstates
  have hrun : tracedElement underlying builder node (u.traced chain) =
      tracedElementTo underlying (u.maxExpansions - rewritesOf chain) builder node
        (u.traced chain) := bind_run (allowed_run hstates hleft)
  unfold Coupling.Runs at hruns ⊢
  rwa [hrun]

/-- The unit with the form `(m)`, for a macro that keeps the form. -/
def runawayUnit : Compilation PUnit where
  forest := ((Forest.empty.pushToken .symbol "m" .dummy).2.pushList [⟨0⟩] .dummy).2
  context := .start .standard
  memory := ⟨⟩
  expander := Rule.expander [⟨some "m", none, .keep⟩]
  maxExpansions := 128

/-- A macro that keeps its form is expanded until the limit is reached. -/
theorem completes_runawayUnit :
    Reachable runawayUnit ∧ runawayUnit.forest.WellBuilt ∧ runawayUnit.expander.Builds ∧
      rewritesOf [.rewritten ⟨1⟩] ≤ runawayUnit.maxExpansions ∧
      (Completes (process default ⟨0⟩ ⟨1⟩) (tracedProcess default ⟨0⟩ ⟨1⟩) [] runawayUnit ∧
        Completes (expression default 127 ⟨0⟩ ⟨1⟩) (tracedProcess default ⟨0⟩ ⟨1⟩)
          [.rewritten ⟨1⟩] runawayUnit ∧
        Completes (elementWith ⟨0⟩ 127 default ⟨1⟩)
          (tracedElement ⟨0⟩ default ⟨1⟩) [.rewritten ⟨1⟩] runawayUnit) := by
  have hreachable : Reachable runawayUnit :=
    Reachable.forest runawayUnit.forest (.start .standard runawayUnit.expander ⟨⟩)
  have hforest : runawayUnit.forest.WellBuilt :=
    (Forest.wellBuilt_empty.pushToken .symbol "m" .dummy).pushList (by decide) .dummy
  have hexpander : runawayUnit.expander.Builds := Rule.expander_builds _
  have hchain : rewritesOf [.rewritten ⟨1⟩] ≤ runawayUnit.maxExpansions := by decide
  exact ⟨hreachable, hforest, hexpander, hchain,
    dispatch_terminates hreachable hforest hexpander default ⟨0⟩ ⟨1⟩ ⟨0⟩ _ hchain⟩

end FormCompiler.Lower
