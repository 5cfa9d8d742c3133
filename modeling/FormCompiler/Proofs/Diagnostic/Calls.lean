import FormCompiler.Diagnostic.Queue

/-!
# Calls of the Diagnostic Queue

What a unit asks of its queue, one call after the other, and what the queue answers.

* `Queue.Call`, `Queue.calls`: the calls, and the answers to several of them.
* `Diagnostic.Agrees`: two diagnostics have one code, one primary place and one message.
* `Queue.Accounted`: the counts agree with what is stored. Every call keeps it so
  (`Accounted.call`), and therefore every run (`accounted_calls`).
-/

namespace FormCompiler

namespace Diagnostic

/-- The diagnostics agree in code, primary place and message, whatever else they say. -/
def Agrees (d other : Diagnostic) : Prop :=
  d.code = other.code ∧ d.primarySpan? = other.primarySpan? ∧ d.message = other.message

variable {d e f : Diagnostic}

instance : Decidable (d.Agrees e) := by
  unfold Agrees
  infer_instance

theorem Agrees.symm (h : d.Agrees e) : e.Agrees d := ⟨h.1.symm, h.2.1.symm, h.2.2.symm⟩

theorem Agrees.trans (h : d.Agrees e) (h' : e.Agrees f) : d.Agrees f :=
  ⟨h.1.trans h'.1, h.2.1.trans h'.2.1, h.2.2.trans h'.2.2⟩

theorem repeats_iff : d.repeats e = true ↔ d.Agrees e := by
  simp only [repeats, Agrees, Bool.and_eq_true, beq_iff_eq, and_assoc]
  exact ⟨fun h => ⟨h.1.symm, h.2.1.symm, h.2.2.symm⟩, fun h => ⟨h.1.symm, h.2.1.symm, h.2.2.symm⟩⟩

end Diagnostic

namespace Queue

/-- A call of the queue. Only errors are emitted as such; any diagnostic may be added. -/
inductive Call where
  | emit (d : Diagnostic) (isError : d.isError = true)
  | add (d : Diagnostic)
  | flush

/-- What the queue answers to a call. -/
inductive Answer where
  | emitted
  /-- Whether the diagnostic counts. -/
  | added (counts : Bool)
  | flushed (ds : List Diagnostic)
deriving Repr

/-- Answers a call. -/
def call : Call → Queue → Answer × Queue
  | .emit d _, q => (.emitted, q.emitError d)
  | .add d, q => (.added (q.add d).1, (q.add d).2)
  | .flush, q => (.flushed q.flush.1, q.flush.2)

/-- Answers calls one after the other. -/
def calls : List Call → Queue → List Answer × Queue
  | [], q => ([], q)
  | c :: cs, q => ((call c q).1 :: (calls cs (call c q).2).1, (calls cs (call c q).2).2)

/-- The queue after calls that began with nothing emitted. -/
def after (config : QueueConfig) (cs : List Call) : Queue := (calls cs (empty config)).2

/-- Whether some diagnostic in store agrees with this one and repeats are not stored. -/
def Repeated (q : Queue) (d : Diagnostic) : Prop :=
  q.config.deduplicate = true ∧ ∃ e ∈ q.stored, d.Agrees e

variable {q : Queue} {d : Diagnostic}

theorem isRepeat_iff : q.isRepeat d = true ↔ q.Repeated d := by
  simp only [isRepeat, Repeated, Bool.and_eq_true, Array.any_eq_true', Diagnostic.repeats_iff]

theorem limitReached_iff :
    q.limitReached = true ↔ 0 < q.config.errorLimit ∧ q.config.errorLimit ≤ q.storedErrors := by
  simp only [limitReached, Bool.and_eq_true, decide_eq_true_eq]

/-! ## What a call does -/

/-- An error past the limit, or one that repeats another diagnostic, is counted only. -/
theorem emitError_dropped (h : q.limitReached = true ∨ q.Repeated d) :
    q.emitError d =
      { q with errorCount := q.errorCount + 1, suppressed := q.suppressed + 1 } := by
  rw [← isRepeat_iff, ← Bool.or_eq_true] at h
  rw [emitError, if_pos h]

/-- Any other error is stored. -/
theorem emitError_stored (hlimit : q.limitReached = false) (hnew : ¬ q.Repeated d) :
    q.emitError d = { q with errorCount := q.errorCount + 1, stored := q.stored.push d } := by
  rw [← isRepeat_iff, Bool.not_eq_true] at hnew
  rw [emitError, hlimit, hnew]
  rfl

/-- An error is emitted in either way. -/
theorem add_error (h : d.isError = true) : q.add d = (true, q.emitError d) := by
  rw [add, if_pos h]

/-- A warning or note that repeats another diagnostic changes nothing. -/
theorem add_dropped (h : d.isError = false) (hrepeated : q.Repeated d) :
    q.add d = (false, q) := by
  rw [← isRepeat_iff] at hrepeated
  rw [add, h, if_neg Bool.false_ne_true, if_pos hrepeated]

/-- Any other warning or note is stored. -/
theorem add_stored (h : d.isError = false) (hnew : ¬ q.Repeated d) :
    q.add d = (true, { q with stored := q.stored.push d }) := by
  rw [← isRepeat_iff] at hnew
  rw [add, h, if_neg Bool.false_ne_true, if_neg hnew]

/-- Emitting an error leaves the configuration alone. -/
theorem config_emitError (q : Queue) (d : Diagnostic) : (q.emitError d).config = q.config := by
  unfold emitError
  split <;> rfl

/-! ## The account -/

/-- Number of errors among the stored diagnostics. -/
def errorsInStore (q : Queue) : Nat := q.stored.toList.countP (·.isError)

/-- The counts agree with what is stored, and what is stored keeps to the configuration. -/
structure Accounted (q : Queue) : Prop where
  suppressed_le : q.suppressed ≤ q.errorCount
  storedErrors : q.storedErrors = q.errorsInStore
  limited : 0 < q.config.errorLimit → q.storedErrors ≤ q.config.errorLimit
  distinct : q.config.deduplicate = true →
    q.stored.toList.Pairwise fun d e => ¬ d.Agrees e

/-- Nothing emitted, nothing stored. -/
theorem accounted_empty (config : QueueConfig) : (empty config).Accounted :=
  ⟨Nat.le_refl 0, rfl, fun _ => Nat.zero_le _, fun _ => List.Pairwise.nil⟩

/-- A diagnostic that repeats none may be stored beside the others. -/
theorem Accounted.pairwise_push (h : q.Accounted) (hnew : ¬ q.Repeated d) :
    q.config.deduplicate = true →
      (q.stored.push d).toList.Pairwise fun d e => ¬ d.Agrees e := by
  intro hdeduplicate
  rw [Array.toList_push, List.pairwise_append]
  refine ⟨h.distinct hdeduplicate, List.pairwise_singleton _ _, fun e he f hf hagrees => ?_⟩
  obtain rfl := List.mem_singleton.1 hf
  exact hnew ⟨hdeduplicate, e, Array.mem_toList_iff.1 he, hagrees.symm⟩

/-- Emitting an error keeps the account. -/
theorem Accounted.emitError (h : q.Accounted) (hd : d.isError = true) :
    (q.emitError d).Accounted := by
  have hle := h.suppressed_le
  have herrors := h.storedErrors
  rw [Queue.storedErrors] at herrors
  by_cases hdropped : q.limitReached = true ∨ q.Repeated d
  · rw [emitError_dropped hdropped]
    -- both counts rise, so their difference stays
    have hsub : q.errorCount + 1 - (q.suppressed + 1) = q.errorCount - q.suppressed := by omega
    refine ⟨Nat.succ_le_succ hle, hsub.trans herrors, fun hpos => ?_, h.distinct⟩
    exact Nat.le_trans (Nat.le_of_eq hsub) (h.limited hpos)
  · rw [not_or, Bool.not_eq_true] at hdropped
    obtain ⟨hlimit, hnew⟩ := hdropped
    rw [emitError_stored hlimit hnew]
    have hsub : q.errorCount + 1 - q.suppressed = q.errorCount - q.suppressed + 1 := by omega
    refine ⟨Nat.le_succ_of_le hle, hsub.trans ?_, fun hpos => Nat.le_trans (Nat.le_of_eq hsub) ?_,
      h.pairwise_push hnew⟩
    · simp [herrors, errorsInStore, List.countP_append, hd]
    · -- the limit is not reached, so one more error fits
      rw [Bool.eq_false_iff, Ne, limitReached_iff, not_and, Nat.not_le] at hlimit
      exact hlimit hpos

/-- Adding a diagnostic keeps the account. -/
theorem Accounted.add (h : q.Accounted) (d : Diagnostic) : (q.add d).2.Accounted := by
  cases hd : d.isError with
  | true =>
    rw [add_error hd]
    exact h.emitError hd
  | false =>
    by_cases hrepeated : q.Repeated d
    · rwa [add_dropped hd hrepeated]
    · rw [add_stored hd hrepeated]
      refine ⟨h.suppressed_le, ?_, h.limited, h.pairwise_push hrepeated⟩
      have herrors := h.storedErrors
      simpa [Queue.storedErrors, errorsInStore, List.countP_append, hd] using herrors

/-- Every call keeps the account. -/
theorem Accounted.call (h : q.Accounted) (c : Call) : (Queue.call c q).2.Accounted := by
  cases c with
  | emit d hd => exact h.emitError hd
  | add d => exact h.add d
  | flush => exact accounted_empty q.config

/-- No call changes the configuration. -/
theorem config_call (c : Call) (q : Queue) : (call c q).2.config = q.config := by
  cases c with
  | emit d _ => exact config_emitError q d
  | flush => rfl
  | add d =>
    change (q.add d).2.config = q.config
    unfold add
    split
    · exact config_emitError q d
    · split <;> rfl

/-- A run keeps the account and the configuration. -/
theorem Accounted.calls (h : q.Accounted) (cs : List Call) :
    (Queue.calls cs q).2.Accounted ∧ (Queue.calls cs q).2.config = q.config := by
  induction cs generalizing q with
  | nil => exact ⟨h, rfl⟩
  | cons c cs ih =>
    obtain ⟨haccounted, hconfig⟩ := ih (h.call c)
    exact ⟨haccounted, hconfig.trans (config_call c q)⟩

/-- Every queue that calls lead to is accounted. -/
theorem accounted_after (config : QueueConfig) (cs : List Call) :
    (after config cs).Accounted :=
  ((accounted_empty config).calls cs).1

/-- Calls leave the configuration alone. -/
theorem config_after (config : QueueConfig) (cs : List Call) :
    (after config cs).config = config :=
  ((accounted_empty config).calls cs).2

end Queue

end FormCompiler
