import FormCompiler.Proofs.Step

/-!
# Checked Steps

An index that is out of range reads as a default entry, and a difference that would be negative is
zero. A checked step does what a step does but looks first: where it would read outside of a table
or a list, take one cell of a record for another, or subtract below zero, it stops with a fault.

* `Fault`, `Stop`, `Checked`: what a checked step stops with.
* `readAt`, `itemAt`, `itemsFrom`, `cellsAt`, `minus`: the accesses.
* `Bounds`: for a kind of state, when all ids in it are in range, and how it grows.
* `Passes g x s Q`: from a state in bounds, the checked step `g` meets no fault. It ends as the step
  `x` does, in a state in bounds, and a result is as `Q` says.
-/

namespace FormCompiler

/-- What is wrong with an access. -/
inductive Fault where
  /-- There is no entry at the index. -/
  | outside (index size : Nat)
  /-- The cell of a record does not hold what it is read as. -/
  | misread
  /-- The difference is negative. -/
  | belowZero (minuend subtrahend : Nat)
  /-- Some table holds an id that is out of range. -/
  | dangling
deriving DecidableEq, Repr

/-- Why a checked step stops: for a reason of the step that it checks, or at a fault. -/
inductive Stop (ε : Type) where
  | refused (reason : ε)
  | fault (fault : Fault)
deriving Repr

/-- A step whose accesses are checked. -/
abbrev Checked (ε σ : Type) := EStateM (Stop ε) σ

/-! ## Accesses -/

section

variable {α β : Type}

/-- The entry of a table at an index. -/
def readAt (table : Array α) (index : Nat) : Except Fault α :=
  match table[index]? with
  | some entry => .ok entry
  | none => .error (.outside index table.size)

/-- The item of a list at a position. -/
def itemAt (items : List α) (position : Nat) : Except Fault α :=
  match items[position]? with
  | some item => .ok item
  | none => .error (.outside position items.length)

/-- The items of a list from a position on. -/
def itemsFrom (items : List α) (position : Nat) : Except Fault (List α) :=
  if position ≤ items.length then .ok (items.drop position)
  else .error (.outside position items.length)

/-- A number of entries of a table from an index on. -/
def cellsAt (table : Array α) (start count : Nat) : Except Fault (List α) :=
  if start + count ≤ table.size then .ok ((table.toList.drop start).take count)
  else .error (.outside (start + count) table.size)

/-- The difference of two numbers. -/
def minus (a b : Nat) : Except Fault Nat :=
  if b ≤ a then .ok (a - b) else .error (.belowZero a b)

theorem readAt_ok_iff {table : Array α} {index : Nat} {entry : α} :
    readAt table index = .ok entry ↔ table[index]? = some entry := by
  unfold readAt
  cases table[index]? <;> simp

/-- Whether all ids of something are in range. -/
def inRange (p : Prop) [Decidable p] : Except Fault PUnit :=
  if p then .ok ⟨⟩ else .error .dangling

theorem inRange_eq {p : Prop} [Decidable p] (h : p) : inRange p = .ok ⟨⟩ := if_pos h

/-- An entry of the table. -/
theorem readAt_eq {table : Array α} {index : Nat} (h : index < table.size) (d : α) :
    readAt table index = .ok (table.getD index d) := by
  simp [readAt, h]

/-- The items from a position in the list on. -/
theorem itemsFrom_eq {items : List α} {position : Nat} (h : position ≤ items.length) :
    itemsFrom items position = .ok (items.drop position) := if_pos h

/-- The items after the first one. -/
theorem itemsFrom_one {item : α} {items : List α} : itemsFrom (item :: items) 1 = .ok items :=
  itemsFrom_eq (Nat.succ_le_succ (Nat.zero_le _))

/-- A difference that is not negative. -/
theorem minus_eq {a b : Nat} (h : b ≤ a) : minus a b = .ok (a - b) := if_pos h

/-- Accesses that all succeed. -/
theorem mapM_eq {f : α → Except Fault β} {g : α → β} {xs : List α} (h : ∀ x ∈ xs, f x = .ok (g x)) :
    xs.mapM f = .ok (xs.map g) := by
  induction xs with
  | nil => rfl
  | cons x xs ih =>
    rw [List.mapM_cons, h x List.mem_cons_self, ih fun y hy => h y (List.mem_cons_of_mem x hy)]
    rfl

/-- Accesses that succeed until one gives `true`. -/
theorem anyM_eq {f : α → Except Fault Bool} {g : α → Bool} {xs : List α}
    (h : ∀ x ∈ xs, f x = .ok (g x)) : xs.anyM f = .ok (xs.any g) := by
  induction xs with
  | nil => rfl
  | cons x xs ih =>
    have htail := ih fun y hy => h y (List.mem_cons_of_mem x hy)
    simp only [List.anyM, h x List.mem_cons_self, bind, Except.bind, List.any_cons]
    cases g x with
    | true => rfl
    | false => exact htail

end

/-! ## Checked steps -/

section

variable {ε σ α β : Type}

/-- A step that always gives a result, as one that may stop. -/
def ofState (step : StateM σ α) : EStateM ε σ α := fun s =>
  let (a, s) := step s
  .ok a s

theorem ofState_bind (step : StateM σ α) (next : α → StateM σ β) :
    (ofState (step >>= next) : EStateM ε σ β) = ofState step >>= fun a => ofState (next a) := rfl

theorem ofState_pure (a : α) : (ofState (pure a) : EStateM ε σ α) = pure a := rfl

end

namespace Checked

variable {ε σ α : Type}

/-- Stops for a reason of the step. -/
def refuse (reason : ε) : Checked ε σ α := throw (.refused reason)

/-- Goes on with the answer to an access. -/
def demand (answer : Except Fault α) : Checked ε σ α := fun s =>
  match answer with
  | .ok a => .ok a s
  | .error f => .error (.fault f) s

/-- The outcome of a step, as that of a checked one that met no fault. -/
def faultless (outcome : EStateM.Result ε σ α) : EStateM.Result (Stop ε) σ α :=
  match outcome with
  | .ok a s => .ok a s
  | .error e s => .error (.refused e) s

/-- There was no fault. -/
theorem faultless_ne_fault (outcome : EStateM.Result ε σ α) (f : Fault) (s : σ) :
    faultless outcome ≠ .error (.fault f) s := by
  cases outcome <;> simp [faultless]

/-- A step without any access. -/
def free (step : EStateM ε σ α) : Checked ε σ α := fun s => faultless (step s)

end Checked

/-! ## Steps that pass all checks -/

/-- Which states have all their ids in range, and how states grow. -/
class Bounds (σ : Type) where
  InBounds : σ → Prop
  Grows : σ → σ → Prop
  refl : ∀ s, Grows s s
  trans : ∀ {s s' s''}, Grows s s' → Grows s' s'' → Grows s s''

section

variable {ε σ α β : Type} [Bounds σ]

/-- The second state comes after the first one, with all ids in range. -/
structure Bounds.After (s s' : σ) : Prop where
  inBounds : InBounds s'
  grows : Grows s s'

/-- A state in bounds comes after itself. -/
theorem Bounds.After.refl {s : σ} (h : InBounds s) : After s s := ⟨h, Bounds.refl s⟩

/-- What comes later comes after. -/
theorem Bounds.After.trans {s s' s'' : σ} (h : After s s') (h' : After s' s'') : After s s'' :=
  ⟨h'.inBounds, Bounds.trans h.grows h'.grows⟩

/-- From a state in bounds, the checked step meets no fault and ends as the step does, in a state in
bounds; a result is as `Q` says. -/
def Passes (g : Checked ε σ α) (x : EStateM ε σ α) (s : σ) (Q : α → σ → Prop) : Prop :=
  Bounds.InBounds s → g s = Checked.faultless (x s) ∧
    Ends x s (fun a s' => Bounds.After s s' ∧ Q a s') (Bounds.After s)

/-- From a state, both the checked step and the step read something and go on with it. -/
def Reads (g : Checked ε σ α) (x : EStateM ε σ α) (s : σ) (a : α) : Prop :=
  g s = .ok a s ∧ x s = .ok a s

namespace Passes

open Bounds Checked

variable {g : Checked ε σ α} {x : EStateM ε σ α} {g' : α → Checked ε σ β} {x' : α → EStateM ε σ β}
  {s : σ} {a : α} {P Q : α → σ → Prop} {R : β → σ → Prop}

/-- The state that the steps start from may be taken to be in bounds. -/
theorem given (h : InBounds s → Passes g x s Q) : Passes g x s Q := fun hs => h hs hs

/-- What is known of a result may be weakened. -/
theorem mono (h : Passes g x s P) (hPQ : ∀ a s', After s s' → P a s' → Q a s') :
    Passes g x s Q := fun hs =>
  have ⟨hsame, hends⟩ := h hs
  ⟨hsame, hends.mono (fun a s' h => ⟨h.1, hPQ a s' h.1 h.2⟩) fun _ h => h⟩

/-- A result is returned. -/
theorem returned (hx : x s = .ok a s) (ha : Q a s) : Passes (pure a) x s Q := fun hs =>
  ⟨by rw [hx]; rfl, by rw [Ends, hx]; exact ⟨.refl hs, ha⟩⟩

theorem pure (ha : Q a s) : Passes (Pure.pure a : Checked ε σ α) (Pure.pure a) s Q :=
  returned rfl ha

/-- The steps stop for one reason. -/
theorem refused {reason : ε} (hx : x s = .error reason s) : Passes (refuse reason) x s Q :=
  fun hs => ⟨by rw [hx]; rfl, by rw [Ends, hx]; exact .refl hs⟩

/-- One step after another. -/
theorem bind (h : Passes g x s P) (h' : ∀ a s', After s s' → P a s' → Passes (g' a) (x' a) s' R) :
    Passes (g >>= g') (x >>= x') s R := by
  intro hs
  obtain ⟨hsame, hends⟩ := h hs
  change EStateM.bind g g' s = faultless (EStateM.bind x x' s) ∧ Ends (EStateM.bind x x') s _ _
  unfold Ends EStateM.bind
  rw [hsame]
  cases hx : x s with
  | ok a s₁ =>
    -- both go on with the same result from the same state, which is in bounds again
    obtain ⟨hafter, ha⟩ := hends.of_ok hx
    obtain ⟨hsame', hends'⟩ := h' a s₁ hafter ha hafter.inBounds
    exact ⟨hsame', hends'.mono (fun b s₂ hb => ⟨hafter.trans hb.1, hb.2⟩) fun _ => hafter.trans⟩
  | error e s₁ => exact ⟨rfl, hends.of_error hx⟩

/-- Only the checked step reads something first. -/
theorem checkedRead {y : EStateM ε σ β} (h : g s = .ok a s) (h' : Passes (g' a) y s R) :
    Passes (g >>= g') y s R := by
  unfold Passes
  rw [bind_run h]
  exact h'

/-- Only the step that is checked reads something first. -/
theorem plainRead {g' : Checked ε σ β} (h : x s = .ok a s) (h' : Passes g' (x' a) s R) :
    Passes g' (x >>= x') s R := by
  unfold Passes Ends
  rw [bind_run h]
  exact h'

/-- Something is read first. -/
theorem read (h : Reads g x s a) (h' : Passes (g' a) (x' a) s R) :
    Passes (g >>= g') (x >>= x') s R := .checkedRead h.1 (.plainRead h.2 h')

/-- The checked step looks at something first. -/
theorem look {y : EStateM ε σ β} {answer : Except Fault α} (h : answer = .ok a)
    (h' : Passes (g' a) y s R) : Passes (demand answer >>= g') y s R :=
  .checkedRead (by rw [h]; rfl) h'

/-- The checked step goes on after the step is done. -/
theorem andThen {g' : α → Checked ε σ α} (h : Passes g x s P)
    (h' : ∀ a s', After s s' → P a s' → Passes (g' a) (Pure.pure a) s' Q) :
    Passes (g >>= g') x s Q := by
  have hbind := h.bind h'
  rwa [bind_pure] at hbind

/-- Both steps get the state. -/
theorem get {g' : σ → Checked ε σ β} {x' : σ → EStateM ε σ β} (h : Passes (g' s) (x' s) s R) :
    Passes (MonadState.get >>= g') (MonadState.get >>= x') s R := h

/-- The checked step gets the state. -/
theorem state {g' : σ → Checked ε σ β} {y : EStateM ε σ β} (h : Passes (g' s) y s R) :
    Passes (MonadState.get >>= g') y s R := h

/-- A step without any access. -/
theorem step {step : StateM σ α}
    (h : InBounds s → After s (step s).2 ∧ Q (step s).1 (step s).2) :
    Passes (ofState step : Checked ε σ α) (ofState step) s Q := fun hs => ⟨rfl, h hs⟩

/-- A step without any access that may be refused. -/
theorem free (h : InBounds s → Ends x s (fun a s' => After s s' ∧ Q a s') (After s)) :
    Passes (Checked.free x) x s Q := fun hs => ⟨rfl, h hs⟩

/-- Steps that look at a condition. -/
theorem ite {c : Prop} [Decidable c] {g₁ g₂ : Checked ε σ α} {x₁ x₂ : EStateM ε σ α}
    (h₁ : c → Passes g₁ x₁ s Q) (h₂ : ¬c → Passes g₂ x₂ s Q) :
    Passes (if c then g₁ else g₂) (if c then x₁ else x₂) s Q := by
  split
  next h => exact h₁ h
  next h => exact h₂ h

/-- From a state in bounds, the step ends in one that comes after, with success or without. -/
theorem after_final (h : Passes g x s Q) (hs : InBounds s) : After s (final x s) :=
  ((h hs).2.mono (fun _ _ h => h.1) fun _ h => h).final

/-- Only the outcome of the step matters. -/
theorem congr {y : EStateM ε σ α} (h : Passes g y s Q) (hxy : x s = y s) : Passes g x s Q := by
  unfold Passes Ends
  rw [hxy]
  exact h

end Passes

end

end FormCompiler
