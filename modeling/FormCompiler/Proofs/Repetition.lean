import FormCompiler.Proofs.Step

/-!
# Runs That Repeat Earlier Ones

Two runs of the same steps, where the second one begins in a state in which the first one has ended,
perhaps with other arguments. What the first run enters into tables is there when the second one
looks for it. So what the first run has entered at a point cannot be told from the second run at the
corresponding point, but only from the state the first run will end in.

* `Repetition`: what is known of the first run, and of corresponding states of both.
* `Repetition.Repeats`: the second step does what the first one did.
-/

namespace FormCompiler

variable {ε σ ι α β γ δ : Type}

/-- What is read of the state. -/
def reading (p : σ → α) : EStateM ε σ α := fun s => .ok (p s) s

/-- A step that begins with reading the state. -/
theorem reading_bind (p : σ → α) (f : α → EStateM ε σ β) (s : σ) :
    (reading p >>= f) s = f (p s) s := rfl

/-- A way to compare two runs. -/
structure Repetition (ε σ ι : Type) where
  /-- What is known of a state of the first run. -/
  Holds : ι → σ → Prop
  /-- How the states of the first run grow. -/
  Grows : σ → σ → Prop
  /-- What the state of the first run has is there in the second one from the beginning. -/
  Covered : σ → Prop
  /-- The states stand at corresponding points of the two runs. -/
  Mirrors : σ → σ → Prop
  /-- The runs stopped in these states. -/
  Stops : ε → σ → ε → σ → Prop
  refl (s : σ) : Grows s s
  trans {s s' s'' : σ} : Grows s s' → Grows s' s'' → Grows s s''
  covered {s s' : σ} : Grows s s' → Covered s' → Covered s

namespace Repetition

variable (K : Repetition ε σ ι)

/-- The second outcome is the first one with a result that corresponds, or both are refusals. -/
def Agree (φ : α → β) : EStateM.Result ε σ α → EStateM.Result ε σ β → Prop
  | .ok a s, .ok b t => b = φ a ∧ K.Mirrors s t
  | .error e s, .error e' t => K.Stops e s e' t
  | _, _ => False

/-- From a state of which `i` is known, the first step leads to one of which `j` is known, and from
a corresponding state the second step has a corresponding outcome. -/
structure Repeats (i : ι) (x : EStateM ε σ α) (y : EStateM ε σ β) (φ : α → β) (j : α → ι) :
    Prop where
  ends (s : σ) (h : K.Holds i s) :
    Ends x s (fun a s' => K.Grows s s' ∧ K.Holds (j a) s') (K.Grows s)
  agree (s t : σ) (h : K.Holds i s) (hst : K.Mirrors s t) (hcovered : K.Covered (final x s)) :
    K.Agree φ (x s) (y t)

namespace Repeats

variable {K} {i : ι} {x x' : EStateM ε σ α} {y y' : EStateM ε σ β} {φ : α → β} {j : α → ι}
  {f : α → EStateM ε σ γ} {g : β → EStateM ε σ δ} {ψ : γ → δ} {k : γ → ι}

/-- The state after the first step has grown. -/
theorem grows (h : K.Repeats i x y φ j) {s : σ} (hs : K.Holds i s) : K.Grows s (final x s) :=
  ((h.ends s hs).mono (fun _ _ h => h.1) fun _ h => h).final

/-- Steps without effect. -/
theorem pure {a : α} {b : β} (hab : b = φ a) (h : ∀ s, K.Holds i s → K.Holds (j a) s) :
    K.Repeats i (pure a : EStateM ε σ α) (pure b : EStateM ε σ β) φ j where
  ends s hs := .pure ⟨K.refl s, h s hs⟩
  agree _ _ _ hst _ := ⟨hab, hst⟩

/-- Steps that stop at once. -/
theorem throw {e e' : ε} (h : ∀ s t, K.Holds i s → K.Mirrors s t → K.Stops e s e' t) :
    K.Repeats i (throw e : EStateM ε σ α) (throw e' : EStateM ε σ β) φ j where
  ends s _ := .throw (K.refl s)
  agree s t hs hst _ := h s t hs hst

/-- Less is known before, or more afterwards, than has to be. -/
theorem weaken {i' : ι} {j' : α → ι} (h : K.Repeats i' x y φ j')
    (hi : ∀ s, K.Holds i s → K.Holds i' s) (hj : ∀ a s, K.Holds (j' a) s → K.Holds (j a) s) :
    K.Repeats i x y φ j where
  ends s hs := (h.ends s (hi s hs)).mono (fun a s' ⟨hgrows, hs'⟩ => ⟨hgrows, hj a s' hs'⟩)
    fun _ h => h
  agree s t hs hst hcovered := h.agree s t (hi s hs) hst hcovered

/-- Steps that are the same where they are run. -/
theorem congr (hx : ∀ s, K.Holds i s → x s = x' s)
    (hy : ∀ s t, K.Holds i s → K.Mirrors s t → y t = y' t) (h : K.Repeats i x' y' φ j) :
    K.Repeats i x y φ j where
  ends s hs := by
    unfold Ends
    rw [hx s hs]
    exact h.ends s hs
  agree s t hs hst hcovered := by
    have hfinal : final x s = final x' s := by
      unfold final
      rw [hx s hs]
    rw [hx s hs, hy s t hs hst]
    exact h.agree s t hs hst (hfinal ▸ hcovered)

/-- Two steps, of which both runs take the same one. -/
theorem ite {p p' : Prop} [Decidable p] [Decidable p'] (hp : p' ↔ p) (h : p → K.Repeats i x y φ j)
    (h' : ¬ p → K.Repeats i x' y' φ j) :
    K.Repeats i (if p then x else x') (if p' then y else y') φ j := by
  by_cases hcase : p
  · rw [if_pos hcase, if_pos (hp.2 hcase)]
    exact h hcase
  · rw [if_neg hcase, if_neg fun hcase' => hcase (hp.1 hcase')]
    exact h' hcase

/-- Sequences whose first part gives what `P` says. The tables at the end of the first part are
covered because those at the end of the second part are. -/
theorem bindOf {P : α → Prop} (hx : K.Repeats i x y φ j)
    (hP : ∀ s a s', K.Holds i s → x s = .ok a s' → P a)
    (hf : ∀ a, P a → K.Repeats (j a) (f a) (g (φ a)) ψ k) :
    K.Repeats i (x >>= f) (y >>= g) ψ k where
  ends s hs := by
    have hgives : Ends x s (fun a _ => P a) fun _ => True :=
      .intro (fun a s' => hP s a s' hs) fun _ _ _ => trivial
    refine Ends.bind (((hx.ends s hs).and hgives).mono (fun _ _ h => h) fun _ h => h.1)
      fun a s' ⟨⟨hgrows, hs'⟩, ha⟩ => ?_
    exact ((hf a ha).ends s' hs').mono (fun _ _ h => ⟨K.trans hgrows h.1, h.2⟩)
      fun _ h => K.trans hgrows h
  agree s t hs hst hcovered := by
    change K.Agree ψ (EStateM.bind x f s) (EStateM.bind y g t)
    have hends := hx.ends s hs
    have hagree := hx.agree s t hs hst
    unfold EStateM.bind
    cases hrun : x s with
    | ok a s' =>
      have hfinal : final (x >>= f) s = final (f a) s' := by
        unfold final
        rw [bind_run hrun]
      have ha := hf a (hP s a s' hs hrun)
      have hs' := (hends.of_ok hrun).2
      -- the second part only adds to the tables, so those before it are covered as well
      have hcovered' := K.covered (ha.grows hs') (hfinal ▸ hcovered)
      have hx' : final x s = s' := by
        unfold final
        rw [hrun]
      have hagree := hagree (hx' ▸ hcovered')
      rw [hrun] at hagree
      cases hy : y t with
      | ok b t' =>
        rw [hy] at hagree
        obtain ⟨rfl, hst'⟩ := hagree
        exact ha.agree s' t' hs' hst' (hfinal ▸ hcovered)
      | error e t' =>
        rw [hy] at hagree
        exact hagree.elim
    | error e s' =>
      -- the second part is not run, so the sequence ends where the first part does
      have hfinal : final (x >>= f) s = final x s := by
        unfold final
        rw [bind_error hrun, hrun]
      have hagree := hagree (hfinal ▸ hcovered)
      rw [hrun] at hagree
      cases hy : y t with
      | ok b t' =>
        rw [hy] at hagree
        exact hagree.elim
      | error e' t' =>
        rw [hy] at hagree
        exact hagree

/-- Sequences. -/
theorem bind (hx : K.Repeats i x y φ j) (hf : ∀ a, K.Repeats (j a) (f a) (g (φ a)) ψ k) :
    K.Repeats i (x >>= f) (y >>= g) ψ k :=
  hx.bindOf (P := fun _ => True) (fun _ _ _ _ _ => trivial) fun a _ => hf a

/-- Reading the state. What is read may be known afterwards. -/
theorem reading {p : σ → α} {q : σ → β} (hself : ∀ s, K.Holds i s → K.Holds (j (p s)) s)
    (hpair : ∀ s t, K.Holds i s → K.Mirrors s t → K.Covered s → q t = φ (p s)) :
    K.Repeats i (reading p) (reading q) φ j where
  ends s hs := ⟨K.refl s, hself s hs⟩
  agree s t hs hst hcovered := ⟨hpair s t hs hst hcovered, hst⟩

/-- What is read of the states is related as the states themselves are, and what is read of one
state twice as well. -/
theorem readBoth {R : σ → σ → Prop} {p : σ → α} {q : σ → β} (hself : ∀ s, K.Holds i s → R s s)
    (hpair : ∀ s t, K.Holds i s → K.Mirrors s t → K.Covered s → R s t)
    (h : ∀ s t, R s t → K.Repeats i (f (p s)) (g (q t)) ψ k) :
    K.Repeats i (FormCompiler.reading p >>= f) (FormCompiler.reading q >>= g) ψ k where
  ends s hs := (h s s (hself s hs)).ends s hs
  agree s t hs hst hcovered :=
    have hgrows := (h s s (hself s hs)).grows hs
    (h s t (hpair s t hs hst (K.covered hgrows hcovered))).agree s t hs hst hcovered

end Repeats

end Repetition

end FormCompiler
