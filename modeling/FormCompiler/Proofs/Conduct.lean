import FormCompiler.Context.Basic
import FormCompiler.Proofs.Step

/-!
# The Conduct of Steps

What a long sequence of steps does is often said by one property of all the states in between and
one of the state it stops in. A sequence has such a conduct if its parts have it.

* `Conduct`: the two properties.
* `Conduct.Allows`: an outcome is of this kind.
* `Conduct.Governs`: so is every outcome of a step that begins in a state of this kind.
-/

namespace FormCompiler

/-- What holds in the states that steps go through, and in the state where they stop. -/
structure Conduct (σ : Type) where
  Holds : σ → Prop
  Stops : Halt → σ → Prop

namespace Conduct

variable {σ α β : Type} {K : Conduct σ}

/-- The outcome of a step is a state to go on from, or one to stop in. -/
def Allows (K : Conduct σ) : EStateM.Result Halt σ α → Prop
  | .ok _ s => K.Holds s
  | .error e s => K.Stops e s

/-- A step that begins in a state of the conduct has an outcome that is allowed. -/
def Governs (K : Conduct σ) (x : EStateM Halt σ α) : Prop := ∀ s, K.Holds s → K.Allows (x s)

namespace Allows

variable {x : EStateM Halt σ α} {f : α → EStateM Halt σ β} {s s' : σ}

/-- The second part of a sequence goes on from where the first one led. -/
theorem bind (hx : K.Allows (x s))
    (hf : ∀ a s', x s = .ok a s' → K.Holds s' → K.Allows (f a s')) : K.Allows ((x >>= f) s) := by
  change K.Allows (EStateM.bind x f s)
  unfold EStateM.bind
  cases hrun : x s with
  | ok a s' =>
    rw [hrun] at hx
    exact hf a s' hrun hx
  | error e s' =>
    rw [hrun] at hx
    exact hx

/-- A sequence whose first part is known. -/
theorem next {a : α} (hx : x s = .ok a s') (hf : K.Allows (f a s')) : K.Allows ((x >>= f) s) := by
  rwa [bind_run hx]

/-- The state that a step leads to. -/
theorem of_ok (h : K.Allows (x s)) {a : α} (hx : x s = .ok a s') : K.Holds s' := by
  rwa [hx] at h

/-- The state that a step stops in. -/
theorem of_error (h : K.Allows (x s)) {e : Halt} (hx : x s = .error e s') : K.Stops e s' := by
  rwa [hx] at h

/-- Another conduct that allows as much. -/
theorem mono {K' : Conduct σ} (h : K.Allows (x s))
    (hok : ∀ a s', x s = .ok a s' → K.Holds s' → K'.Holds s')
    (herr : ∀ e s', x s = .error e s' → K.Stops e s' → K'.Stops e s') : K'.Allows (x s) := by
  cases hrun : x s with
  | ok a s' => exact hok a s' hrun (h.of_ok hrun)
  | error e s' => exact herr e s' hrun (h.of_error hrun)

end Allows

namespace Governs

variable {x : EStateM Halt σ α} {f : α → EStateM Halt σ β}

/-- A step without effect. -/
theorem pure (a : α) : K.Governs (pure a : EStateM Halt σ α) := fun _ h => h

/-- A sequence, the second part of which need only be governed for what the first one gives. -/
theorem bindOf (hx : K.Governs x) (hf : ∀ a s s', x s = .ok a s' → K.Governs (f a)) :
    K.Governs (x >>= f) := fun s hs =>
  (hx s hs).bind fun a s' hrun hs' => hf a s s' hrun s' hs'

/-- A sequence. -/
theorem bind (hx : K.Governs x) (hf : ∀ a, K.Governs (f a)) : K.Governs (x >>= f) :=
  hx.bindOf fun a _ _ _ => hf a

/-- What is read of the state is read of one of the conduct. -/
theorem read {g : σ → α} (hf : ∀ s, K.Holds s → K.Governs (f (g s))) :
    K.Governs ((fun s => .ok (g s) s : EStateM Halt σ α) >>= f) := fun s hs => hf s hs s hs

/-- The state that is read is one of the conduct. -/
theorem get {f : σ → EStateM Halt σ β} (hf : ∀ s, K.Holds s → K.Governs (f s)) :
    K.Governs (get >>= f) := fun s hs => hf s hs s hs

end Governs

end Conduct

/-- Steps are followed to their end, where they give a result or report a failure, in states with
the property. -/
def Conduct.ending {σ : Type} (P : σ → Prop) : Conduct σ := ⟨P, fun e s => e = .reported ∧ P s⟩

/-- From the state, the step is followed to its end: it gives a result or reports a failure, in a
state with the property. -/
def Concludes {σ α : Type} (P : σ → Prop) (x : EStateM Halt σ α) (s : σ) : Prop :=
  match x s with
  | .ok _ s' => P s'
  | .error e s' => e = .reported ∧ P s'

/-- To conclude is to be allowed to go on or to stop at the end. -/
theorem concludes_iff {σ α : Type} {P : σ → Prop} {x : EStateM Halt σ α} {s : σ} :
    Concludes P x s ↔ (Conduct.ending P).Allows (x s) := by
  unfold Concludes
  cases x s <;> exact Iff.rfl

end FormCompiler
