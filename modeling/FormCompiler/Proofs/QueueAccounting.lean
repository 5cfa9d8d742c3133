import FormCompiler.Proofs.Diagnostic.Calls
import Mathlib.Data.Prod.Lex
import Mathlib.Order.WithBot

/-!
# The Account and the Order of Diagnostics

After any calls the counts of a queue agree with what it stores, and a flush hands out what was
stored in the order of places (`calls_accounted`).

* `Diagnostic.place`: places are ordered by start, then by end, and a diagnostic without a primary
  span comes after all that have one.
* `Queue.Sorts`: a list is another one in the order of places, with ties in their former order.
-/

namespace FormCompiler

/-- Where a diagnostic stands in the order of places. -/
def Diagnostic.place (d : Diagnostic) : WithTop (Nat ×ₗ Nat) :=
  match d.primarySpan? with
  | some s => ((toLex (s.start, s.stop) : Nat ×ₗ Nat) : WithTop (Nat ×ₗ Nat))
  | none => ⊤

namespace Queue

/-- The first list is the second one in the order of places, and diagnostics of one place have kept
their order. -/
structure Sorts (sorted ds : List Diagnostic) : Prop where
  perm : sorted.Perm ds
  ordered : sorted.Pairwise fun d e => d.place ≤ e.place
  stable : ∀ p, sorted.filter (·.place = p) = ds.filter (·.place = p)

/-! ## Sorting by place -/

/-- The order that a flush sorts by is the one of places. -/
theorem placeLe_iff {d e : Diagnostic} :
    placeLe d.primarySpan? e.primarySpan? = true ↔ d.place ≤ e.place := by
  unfold Diagnostic.place
  cases d.primarySpan? with
  | none => cases e.primarySpan? <;> simp [placeLe]
  | some s =>
    cases e.primarySpan? with
    | none => simp [placeLe]
    | some t => simp [placeLe, Span.le, Prod.Lex.toLex_le_toLex]

/-- Of two places, one comes first. -/
theorem placeLe_total (d e : Diagnostic) :
    (placeLe d.primarySpan? e.primarySpan? || placeLe e.primarySpan? d.primarySpan?) = true := by
  rw [Bool.or_eq_true, placeLe_iff, placeLe_iff]
  exact le_total _ _

theorem placeLe_trans (d e f : Diagnostic) (h : placeLe d.primarySpan? e.primarySpan? = true)
    (h' : placeLe e.primarySpan? f.primarySpan? = true) :
    placeLe d.primarySpan? f.primarySpan? = true := by
  rw [placeLe_iff] at h h' ⊢
  exact h.trans h'

/-- What a flush hands out is what was stored, in the order of places. -/
theorem flush_sorts (q : Queue) : Sorts q.flush.1 q.stored.toList := by
  have hperm : q.flush.1.Perm q.stored.toList := List.mergeSort_perm _ _
  refine ⟨hperm, ?_, fun p => ?_⟩
  · exact (List.pairwise_mergeSort placeLe_trans placeLe_total _).imp placeLe_iff.1
  · -- the diagnostics of one place are in order already, so sorting keeps them as a sublist
    have hties : (q.stored.toList.filter (·.place = p)).Pairwise fun d e =>
        placeLe d.primarySpan? e.primarySpan? = true := by
      refine List.pairwise_of_forall_mem_list fun d hd e he => placeLe_iff.2 ?_
      rw [List.mem_filter, decide_eq_true_eq] at hd he
      exact le_of_eq (hd.2.trans he.2.symm)
    have hsub : (q.stored.toList.filter (·.place = p)).Sublist q.flush.1 :=
      List.sublist_mergeSort placeLe_trans placeLe_total hties List.filter_sublist
    have hsub' := hsub.filter (·.place = p)
    simp only [List.filter_filter, Bool.and_self] at hsub'
    exact (hsub'.eq_of_length (hperm.filter _).length_eq.symm).symm

/-! ## The account -/

/-- After any calls of a queue, the suppressed errors are among those counted, and the others are
those in store, no more than a limit allows. Without repeats, no two stored diagnostics agree. A
warning or note is refused if it repeats a stored diagnostic, and stored otherwise. A flush hands
out what is stored in the order of places, and after it the queue answers as a new one does. -/
theorem calls_accounted (config : QueueConfig) (cs : List Call) :
    let q := after config cs
    (q.suppressed ≤ q.errorCount ∧
      q.errorCount - q.suppressed = (q.stored.toList.filter (·.isError)).length ∧
      (config.errorLimit ≠ 0 → q.errorCount - q.suppressed ≤ config.errorLimit)) ∧
    (config.deduplicate = true → q.stored.toList.Pairwise fun d e => ¬ d.Agrees e) ∧
    (∀ d : Diagnostic, d.isError = false →
      let repeated := config.deduplicate = true ∧ ∃ e ∈ q.stored, d.Agrees e
      (repeated → q.add d = (false, q)) ∧
      (¬ repeated → q.add d = (true, { q with stored := q.stored.push d }))) ∧
    Sorts q.flush.1 q.stored.toList ∧
    ∀ later : List Call, calls later q.flush.2 = calls later (empty config) := by
  intro q
  have haccounted : q.Accounted := accounted_after config cs
  have hconfig : q.config = config := config_after config cs
  refine ⟨⟨haccounted.suppressed_le, ?_, fun hlimit => ?_⟩, fun hdeduplicate => ?_,
    fun d hd => ⟨fun h => ?_, fun h => ?_⟩, flush_sorts q, fun later => ?_⟩
  · exact haccounted.storedErrors.trans List.countP_eq_length_filter
  · rw [← hconfig] at hlimit ⊢
    exact haccounted.limited (Nat.pos_of_ne_zero hlimit)
  · exact haccounted.distinct (hconfig ▸ hdeduplicate)
  · exact add_dropped hd (by rwa [Repeated, hconfig])
  · exact add_stored hd (by rwa [Repeated, hconfig])
  · rw [← hconfig]
    rfl

end Queue

end FormCompiler
