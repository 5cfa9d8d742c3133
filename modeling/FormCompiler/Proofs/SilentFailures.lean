import FormCompiler.Proofs.Diagnostic.Calls

/-!
# Failures Without a Stored Error

A queue that counts an error may have none in store: if repeats are not stored, a warning or note
that agrees with the error in code, place and message keeps it out. The limit alone never does that,
as only errors in store count towards it.

* `Queue.sinceFlush`: the diagnostics emitted since the last flush.
* `Queue.Shadowed`: every error among them repeats an earlier warning or note.
* `silent_iff`: these are exactly the silent failures.
-/

namespace FormCompiler

namespace Queue

/-- Errors were emitted, and none of them is in store. -/
def Silent (q : Queue) : Prop := q.hasErrors = true ∧ ∀ d ∈ q.stored, d.isError = false

/-- The diagnostics that calls emit after the last flush among them, stored or not. `ds` are those
emitted before. -/
def sinceFlush (ds : List Diagnostic) : List Call → List Diagnostic
  | [] => ds
  | .emit d _ :: cs => sinceFlush (ds ++ [d]) cs
  | .add d :: cs => sinceFlush (ds ++ [d]) cs
  | .flush :: cs => sinceFlush [] cs

/-- Repeats are not stored, and the diagnostic agrees with a warning or note of the list. -/
def InShadow (config : QueueConfig) (ds : List Diagnostic) (d : Diagnostic) : Prop :=
  config.deduplicate = true ∧ ∃ w ∈ ds, w.isError = false ∧ d.Agrees w

/-- Every error of the list is in the shadow of what is before it. -/
def Shadowed (config : QueueConfig) (ds : List Diagnostic) : Prop :=
  ∀ before d later, ds = before ++ d :: later → d.isError = true → InShadow config before d

/-- The queue stores what was emitted, as far as errors and their shadows are concerned. -/
structure Records (q : Queue) (ds : List Diagnostic) : Prop where
  accounted : q.Accounted
  stored : ∀ e ∈ q.stored, e ∈ ds
  /-- A warning or note that is not in store agrees with a diagnostic that is. -/
  mild : ∀ w ∈ ds, w.isError = false → ∃ e ∈ q.stored, w.Agrees e
  hasErrors : q.hasErrors = true ↔ ∃ e ∈ ds, e.isError = true
  silent : (∀ e ∈ q.stored, e.isError = false) ↔ Shadowed q.config ds

variable {config : QueueConfig} {q : Queue} {ds : List Diagnostic} {d : Diagnostic}

/-- One more diagnostic has to be in the shadow of the others if it is an error. -/
theorem shadowed_append :
    Shadowed config (ds ++ [d]) ↔
      Shadowed config ds ∧ (d.isError = true → InShadow config ds d) := by
  constructor
  · refine fun h => ⟨fun before e later hds => ?_, h ds d [] rfl⟩
    exact h before e (later ++ [d]) (by rw [hds, List.append_assoc, List.cons_append])
  · rintro ⟨h, hd⟩ before e later hds herror
    -- the error is the last diagnostic, or it is one of those before
    obtain rfl | ⟨later, x, rfl⟩ := later.eq_nil_or_concat
    · obtain ⟨rfl, hlast⟩ := List.append_inj' hds rfl
      obtain rfl := List.singleton_inj.1 hlast
      exact hd herror
    · rw [List.concat_eq_append, ← List.cons_append, ← List.append_assoc] at hds
      exact h before e later (List.append_inj' hds rfl).1 herror

namespace Records

/-- Nothing was emitted. -/
theorem empty (config : QueueConfig) : Records (empty config) [] where
  accounted := accounted_empty config
  stored e he := absurd he (Array.not_mem_empty e)
  mild := nofun
  hasErrors := ⟨nofun, fun ⟨_, he, _⟩ => nomatch he⟩
  silent := by
    refine iff_of_true (fun e he => absurd he (Array.not_mem_empty e)) fun before d later h => ?_
    cases before <;> cases h

/-- Where no error is in store, the limit is not reached. -/
theorem limitReached_eq_false (h : Records q ds) (hnone : ∀ e ∈ q.stored, e.isError = false) :
    q.limitReached = false := by
  rw [Bool.eq_false_iff, Ne, limitReached_iff, h.accounted.storedErrors]
  have hzero : q.errorsInStore = 0 :=
    List.countP_eq_zero.2 fun e he => by simp [hnone e (Array.mem_toList_iff.1 he)]
  omega

/-- Where no error is in store, an error is a repeat exactly if it is in the shadow of what was
emitted. -/
theorem repeated_iff (h : Records q ds) (hnone : ∀ e ∈ q.stored, e.isError = false) :
    q.Repeated d ↔ InShadow q.config ds d := by
  refine and_congr_right fun _ => ⟨?_, ?_⟩
  · rintro ⟨e, he, hagrees⟩
    exact ⟨e, h.stored e he, hnone e he, hagrees⟩
  · rintro ⟨w, hw, hmild, hagrees⟩
    obtain ⟨e, he, hwe⟩ := h.mild w hw hmild
    exact ⟨e, he, hagrees.trans hwe⟩

/-- An error was emitted. -/
theorem emitError (h : Records q ds) (hd : d.isError = true) :
    Records (q.emitError d) (ds ++ [d]) := by
  have haccounted := h.accounted.emitError hd
  have hconfig := config_emitError q d
  have herrors : (q.emitError d).hasErrors = true ↔ ∃ e ∈ ds ++ [d], e.isError = true := by
    refine iff_of_true ?_ ⟨d, List.mem_append_right _ List.mem_cons_self, hd⟩
    unfold Queue.emitError
    split <;> exact decide_eq_true (Nat.succ_pos _)
  have hmild : ∀ {w}, w ∈ ds ++ [d] → w.isError = false → ∃ e ∈ q.stored, w.Agrees e := by
    intro w hw hwmild
    rcases List.mem_append.1 hw with hw | hw
    · exact h.mild w hw hwmild
    · obtain rfl := List.mem_singleton.1 hw
      cases hd.symm.trans hwmild
  by_cases hdropped : q.limitReached = true ∨ q.Repeated d
  · rw [emitError_dropped hdropped] at haccounted hconfig herrors ⊢
    refine ⟨haccounted, fun e he => List.mem_append_left _ (h.stored e he), fun w hw => hmild hw,
      herrors, ?_⟩
    rw [shadowed_append, ← h.silent]
    refine ⟨fun hnone => ⟨hnone, fun _ => ?_⟩, fun hboth => hboth.1⟩
    -- it was dropped as a repeat
    rw [h.limitReached_eq_false hnone] at hdropped
    exact (h.repeated_iff hnone).1 (hdropped.resolve_left Bool.false_ne_true)
  · rw [not_or, Bool.not_eq_true] at hdropped
    rw [emitError_stored hdropped.1 hdropped.2] at haccounted hconfig herrors ⊢
    refine ⟨haccounted, fun e he => ?_, fun w hw hwmild => ?_, herrors, ?_⟩
    · rcases Array.mem_push.1 he with he | rfl
      · exact List.mem_append_left _ (h.stored e he)
      · exact List.mem_append_right _ List.mem_cons_self
    · obtain ⟨e, he, hagrees⟩ := hmild hw hwmild
      exact ⟨e, Array.mem_push_of_mem d he, hagrees⟩
    · rw [shadowed_append, ← h.silent]
      refine iff_of_false (fun hnone => ?_) fun ⟨hnone, hshadow⟩ => ?_
      · cases hd.symm.trans (hnone d Array.mem_push_self)
      · exact hdropped.2 ((h.repeated_iff hnone).2 (hshadow hd))

/-- A warning or note was added. -/
theorem addMild (h : Records q ds) (hd : d.isError = false) :
    Records (q.add d).2 (ds ++ [d]) := by
  have hshadowed : Shadowed q.config (ds ++ [d]) ↔ Shadowed q.config ds := by
    rw [shadowed_append, hd]
    exact ⟨fun hboth => hboth.1, fun hleft => ⟨hleft, nofun⟩⟩
  have herrors : (∃ e ∈ ds ++ [d], e.isError = true) ↔ ∃ e ∈ ds, e.isError = true := by
    simp [or_and_right, exists_or, hd]
  by_cases hrepeated : q.Repeated d
  · rw [add_dropped hd hrepeated]
    refine ⟨h.accounted, fun e he => List.mem_append_left _ (h.stored e he), fun w hw hmild => ?_,
      h.hasErrors.trans herrors.symm, h.silent.trans hshadowed.symm⟩
    rcases List.mem_append.1 hw with hw | hw
    · exact h.mild w hw hmild
    · obtain rfl := List.mem_singleton.1 hw
      exact hrepeated.2
  · have haccounted := h.accounted.add d
    rw [add_stored hd hrepeated] at haccounted ⊢
    refine ⟨haccounted, fun e he => ?_, fun w hw hmild => ?_, h.hasErrors.trans herrors.symm, ?_⟩
    · rcases Array.mem_push.1 he with he | rfl
      · exact List.mem_append_left _ (h.stored e he)
      · exact List.mem_append_right _ List.mem_cons_self
    · rcases List.mem_append.1 hw with hw | hw
      · obtain ⟨e, he, hagrees⟩ := h.mild w hw hmild
        exact ⟨e, Array.mem_push_of_mem d he, hagrees⟩
      · obtain rfl := List.mem_singleton.1 hw
        exact ⟨w, Array.mem_push_self, rfl, rfl, rfl⟩
    · refine Iff.trans ⟨fun hnone e he => hnone e (Array.mem_push_of_mem d he),
        fun hnone e he => ?_⟩ (h.silent.trans hshadowed.symm)
      rcases Array.mem_push.1 he with he | rfl
      · exact hnone e he
      · exact hd

/-- Calls record what they emit. -/
theorem calls (h : Records q ds) (cs : List Call) :
    Records (calls cs q).2 (sinceFlush ds cs) := by
  induction cs generalizing q ds with
  | nil => exact h
  | cons c cs ih =>
    cases c with
    | emit d hd => exact ih (h.emitError hd)
    | flush => exact ih (.empty q.config)
    | add d =>
      refine ih (q := (q.add d).2) ?_
      cases hd : d.isError with
      | true =>
        rw [add_error hd]
        exact h.emitError hd
      | false => exact h.addMild hd

end Records

/-- A failure is silent exactly if repeats are not stored and each error since the last flush agrees
in code, place and message with a warning or note that was emitted before it. -/
theorem silent_iff (config : QueueConfig) (cs : List Call) :
    (after config cs).Silent ↔
      (∃ d ∈ sinceFlush [] cs, d.isError = true) ∧ Shadowed config (sinceFlush [] cs) := by
  have hrecords : Records (after config cs) (sinceFlush [] cs) := (Records.empty config).calls cs
  rw [Silent, hrecords.hasErrors, hrecords.silent, config_after]

/-- A warning, and then an error with its code and message. -/
def warnedTwice : List Call :=
  [.add ⟨.unexpectedElement, .warning, "odd", [], []⟩,
    .emit ⟨.unexpectedElement, .error, "odd", [], []⟩ rfl]

/-- The error is not in store, as it repeats the warning. -/
theorem silent_warnedTwice : (after .standard warnedTwice).Silent := by
  constructor <;> decide +kernel

end Queue

end FormCompiler
