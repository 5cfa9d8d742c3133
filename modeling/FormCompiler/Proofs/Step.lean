import Mathlib.Order.Defs.Unbundled

/-!
# Steps and How They End

Operations on modules, checks on the context and the lowering of forms are all steps: from a state
they go to another one, with a result or without. This module has the vocabulary for them.

* `Ends x s Q E`: from `s` the step `x` gives a result as `Q` says, or stops in a state of `E`.
* `Keeps R x`: the state after `x`, with or without a result, is related by `R` to the one before.
* `final x s`: that state.

`bind_ok_iff` takes a sequence of steps that gave a result apart.
-/

namespace FormCompiler

variable {ε σ α β : Type}

/-- An outcome is a result and a state as `Q` says, or no result and a state of `E`. -/
def Outcome (outcome : EStateM.Result ε σ α) (Q : α → σ → Prop) (E : σ → Prop) : Prop :=
  match outcome with
  | .ok a s' => Q a s'
  | .error _ s' => E s'

@[simp]
theorem outcome_ok {a : α} {s : σ} {Q : α → σ → Prop} {E : σ → Prop} :
    Outcome (.ok a s : EStateM.Result ε σ α) Q E ↔ Q a s := .rfl

@[simp]
theorem outcome_error {e : ε} {s : σ} {Q : α → σ → Prop} {E : σ → Prop} :
    Outcome (.error e s : EStateM.Result ε σ α) Q E ↔ E s := .rfl

instance {outcome : EStateM.Result ε σ α} {Q : α → σ → Prop} {E : σ → Prop}
    [∀ a s, Decidable (Q a s)] [∀ s, Decidable (E s)] : Decidable (Outcome outcome Q E) :=
  match outcome with
  | .ok a s => inferInstanceAs (Decidable (Q a s))
  | .error _ s => inferInstanceAs (Decidable (E s))

/-- From `s` the step gives a result and a state as `Q` says, or stops in a state of `E`. -/
def Ends (x : EStateM ε σ α) (s : σ) (Q : α → σ → Prop) (E : σ → Prop) : Prop :=
  Outcome (x s) Q E

/-- The state a step ends in, whether it gave a result or not. -/
def final (x : EStateM ε σ α) (s : σ) : σ :=
  match x s with
  | .ok _ s' => s'
  | .error _ s' => s'

/-- The state after the step is related to the one before, whatever the outcome. -/
def Keeps (R : σ → σ → Prop) (x : EStateM ε σ α) : Prop :=
  ∀ s, Ends x s (fun _ s' => R s s') (R s)

/-- The step gives no result, and the state after it is related to the one before. -/
def Refuses (R : σ → σ → Prop) (x : EStateM ε σ α) : Prop :=
  ∀ s, Ends x s (fun _ _ => False) (R s)

/-- The state after a step that always gives a result is related to the one before. -/
def Moves (R : σ → σ → Prop) (x : StateM σ α) : Prop := ∀ s, R s (x s).2

/-! ## Sequences that gave a result -/

/-- A sequence gives a result exactly when both parts do. -/
theorem bind_ok_iff {x : EStateM ε σ α} {f : α → EStateM ε σ β} {s s' : σ} {b : β} :
    (x >>= f) s = .ok b s' ↔ ∃ a s₁, x s = .ok a s₁ ∧ f a s₁ = .ok b s' := by
  change EStateM.bind x f s = _ ↔ _
  unfold EStateM.bind
  cases x s <;> simp [and_assoc]

/-- A sequence goes on with the result of its first part. -/
theorem bind_run {x : EStateM ε σ α} {f : α → EStateM ε σ β} {s s' : σ} {a : α}
    (h : x s = .ok a s') : (x >>= f) s = f a s' := by
  change EStateM.bind x f s = _
  unfold EStateM.bind
  rw [h]

/-- A sequence stops where its first part does. -/
theorem bind_error {x : EStateM ε σ α} {f : α → EStateM ε σ β} {s s' : σ} {e : ε}
    (h : x s = .error e s') : (x >>= f) s = .error e s' := by
  change EStateM.bind x f s = _
  unfold EStateM.bind
  rw [h]

/-- A sequence that reads the state goes on with it. -/
theorem get_run {f : σ → EStateM ε σ β} (s : σ) : (get >>= f) s = f s s := rfl

/-- A sequence of steps that always give a result goes on with the first one's. -/
theorem state_bind_run {x : StateM σ α} {f : α → StateM σ β} {s s' : σ} {a : α}
    (h : x s = (a, s')) : (x >>= f) s = f a s' := by
  change f (x s).1 (x s).2 = _
  rw [h]

/-- What `pure` gives. -/
theorem pure_ok_iff {a b : α} {s s' : σ} :
    (pure a : EStateM ε σ α) s = .ok b s' ↔ a = b ∧ s = s' := by
  change EStateM.Result.ok a s = _ ↔ _
  simp

/-! ## Ends -/

namespace Ends

variable {x : EStateM ε σ α} {f : α → EStateM ε σ β} {s : σ}
  {P : α → σ → Prop} {Q : α → σ → Prop} {E F : σ → Prop}

/-- What is known of a step that gave a result. -/
theorem of_ok (h : Ends x s Q E) {a : α} {s' : σ} (hx : x s = .ok a s') : Q a s' := by
  unfold Ends at h
  rwa [hx] at h

/-- What is known of a step that stopped. -/
theorem of_error (h : Ends x s Q E) {e : ε} {s' : σ} (hx : x s = .error e s') : E s' := by
  unfold Ends at h
  rwa [hx] at h

/-- A statement about both outcomes of a step. -/
theorem intro (hok : ∀ a s', x s = .ok a s' → Q a s')
    (herr : ∀ e s', x s = .error e s' → E s') : Ends x s Q E := by
  unfold Ends
  cases hx : x s with
  | ok a s' => exact hok a s' hx
  | error e s' => exact herr e s' hx

/-- A step that does not stop gives a result. -/
theorem succeeds (h : Ends x s Q fun _ => False) : ∃ a s', x s = .ok a s' ∧ Q a s' := by
  cases hx : x s with
  | ok a s' => exact ⟨a, s', rfl, h.of_ok hx⟩
  | error e s' => exact (h.of_error hx).elim

/-- Weaker statements about both outcomes hold too. -/
theorem mono (h : Ends x s P E) (hok : ∀ a s', P a s' → Q a s') (herr : ∀ s', E s' → F s') :
    Ends x s Q F :=
  intro (fun _ _ hx => hok _ _ (h.of_ok hx)) fun _ _ hx => herr _ (h.of_error hx)

/-- A sequence ends as its second part does, or stops in the first. -/
theorem bind {R : β → σ → Prop} (hx : Ends x s P E)
    (hf : ∀ a s', P a s' → Ends (f a) s' R E) : Ends (x >>= f) s R E := by
  change Ends (EStateM.bind x f) s R E
  unfold Ends at hx ⊢
  unfold EStateM.bind
  cases hr : x s with
  | ok a s' =>
    rw [hr] at hx
    exact hf a s' hx
  | error e s' =>
    rw [hr] at hx
    exact hx

/-- The same, where stopping in the first part is known in other words. -/
theorem andThen {R : β → σ → Prop} (hx : Ends x s P E) (herr : ∀ s', E s' → F s')
    (hf : ∀ a s', P a s' → Ends (f a) s' R F) : Ends (x >>= f) s R F :=
  (hx.mono (fun _ _ h => h) herr).bind hf

/-- A sequence whose first part is known to give a result ends as its second part does. -/
theorem next {R : β → σ → Prop} {a : α} {s' : σ} (hx : x s = .ok a s')
    (hf : Ends (f a) s' R E) : Ends (x >>= f) s R E := by
  unfold Ends
  rwa [bind_run hx]

/-- What is known of a sequence is known of its second part, if the first one gave a result. -/
theorem of_next {R : β → σ → Prop} (h : Ends (x >>= f) s R E) {a : α} {s' : σ}
    (hx : x s = .ok a s') : Ends (f a) s' R E := by
  unfold Ends at h
  rwa [bind_run hx] at h

/-- Two statements about one step. -/
theorem and (h : Ends x s P E) (h' : Ends x s Q F) :
    Ends x s (fun a s' => P a s' ∧ Q a s') fun s' => E s' ∧ F s' :=
  intro (fun _ _ hx => ⟨h.of_ok hx, h'.of_ok hx⟩) fun _ _ hx => ⟨h.of_error hx, h'.of_error hx⟩

/-- A step without effect. -/
theorem pure {a : α} (h : Q a s) : Ends (pure a : EStateM ε σ α) s Q E := h

/-- A step that stops at once. -/
theorem throw {e : ε} (h : E s) : Ends (throw e : EStateM ε σ α) s Q E := h

/-- Reading the state. -/
theorem get {Q : σ → σ → Prop} (h : Q s s) : Ends (get : EStateM ε σ σ) s Q E := h

/-- The final state of a step is as one of the two statements says. -/
theorem final {P : σ → Prop} (h : Ends x s (fun _ => P) P) : P (final x s) := by
  unfold FormCompiler.final
  cases hx : x s with
  | ok a s' => exact h.of_ok hx
  | error e s' => exact h.of_error hx

end Ends

/-! ## Keeps -/

namespace Keeps

variable {R : σ → σ → Prop} {x : EStateM ε σ α} {f : α → EStateM ε σ β}

/-- A step that keeps a relation, as a statement about its outcomes. -/
theorem ends (h : Keeps R x) (s : σ) : Ends x s (fun _ s' => R s s') (R s) := h s

/-- The relation between a state and the one after the step. -/
theorem ok (h : Keeps R x) {s s' : σ} {a : α} (hx : x s = .ok a s') : R s s' := (h s).of_ok hx

/-- The relation between a state and the final one. -/
theorem rel_final (h : Keeps R x) (s : σ) : R s (final x s) := (h s).final

/-- A larger relation is kept too. -/
theorem mono {S : σ → σ → Prop} (h : Keeps R x) (hRS : ∀ s s', R s s' → S s s') : Keeps S x :=
  fun s => (h s).mono (fun _ _ => hRS _ _) fun _ => hRS _ _

/-- A step without effect keeps every reflexive relation. -/
theorem pure [Std.Refl R] (a : α) : Keeps R (pure a : EStateM ε σ α) :=
  fun s => .pure (Std.Refl.refl s)

/-- A step that stops at once keeps every reflexive relation. -/
theorem throw [Std.Refl R] (e : ε) : Keeps R (throw e : EStateM ε σ α) :=
  fun s => .throw (Std.Refl.refl s)

/-- Reading the state keeps every reflexive relation. -/
theorem get [Std.Refl R] : Keeps R (get : EStateM ε σ σ) := fun s => .get (Std.Refl.refl s)

/-- A sequence keeps a transitive relation if its parts do. -/
theorem bind [IsTrans σ R] (hx : Keeps R x) (hf : ∀ a, Keeps R (f a)) : Keeps R (x >>= f) :=
  fun s => Ends.intro
    (fun _ _ hr => by
      obtain ⟨a, s₁, hx', hf'⟩ := bind_ok_iff.1 hr
      exact IsTrans.trans _ _ _ ((hx s).of_ok hx') ((hf a s₁).of_ok hf'))
    (fun e s' hr => by
      change EStateM.bind x f s = _ at hr
      unfold EStateM.bind at hr
      cases hx' : x s with
      | ok a s₁ =>
        rw [hx'] at hr
        exact IsTrans.trans _ _ _ ((hx s).of_ok hx') ((hf a s₁).of_error hr)
      | error e₁ s₁ =>
        rw [hx'] at hr
        cases hr
        exact (hx s).of_error hx')

end Keeps

namespace Refuses

variable {R : σ → σ → Prop} {x : EStateM ε σ α} {f : α → EStateM ε σ β}

/-- Nothing need be known of the result of a step that has none. -/
theorem ends (h : Refuses R x) (s : σ) {Q : α → σ → Prop} {E : σ → Prop}
    (hE : ∀ s', R s s' → E s') : Ends x s Q E :=
  (h s).mono (fun _ _ h => h.elim) hE

/-- What is refused keeps the relation. -/
theorem keeps (h : Refuses R x) : Keeps R x := fun s => h.ends s fun _ h => h

/-- A sequence whose first part only reads the state and whose second part is refused. -/
theorem read {g : σ → α} (h : ∀ a, Refuses R (f a)) :
    Refuses R ((fun s => .ok (g s) s : EStateM ε σ α) >>= f) := fun s => h (g s) s

end Refuses

namespace Moves

variable {R : σ → σ → Prop} {x : StateM σ α} {f : α → StateM σ β}

/-- A step without effect. -/
theorem pure [Std.Refl R] (a : α) : Moves R (pure a : StateM σ α) := fun s => Std.Refl.refl s

/-- A sequence of steps that always give a result. -/
theorem bind [IsTrans σ R] (hx : Moves R x) (hf : ∀ a, Moves R (f a)) : Moves R (x >>= f) :=
  fun s => IsTrans.trans _ _ _ (hx s) (hf (x s).1 (x s).2)

/-- From the state after its first part, a sequence moves as its second part does. -/
theorem after (hf : ∀ a, Moves R (f a)) (x : StateM σ α) (s : σ) :
    R (x s).2 ((x >>= f) s).2 := hf (x s).1 (x s).2

/-- A larger relation. -/
theorem mono {S : σ → σ → Prop} (h : Moves R x) (hRS : ∀ s s', R s s' → S s s') : Moves S x :=
  fun s => hRS _ _ (h s)

end Moves

end FormCompiler
