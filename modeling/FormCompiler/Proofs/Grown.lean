import Mathlib.Order.Defs.Unbundled

/-!
# Tables That Only Grow

Types, values, blocks and functions are held in tables to which entries are only ever added at the
end. `Grown xs ys` says that `ys` is `xs` with any number of entries after it; an index of `xs` then
means the same in `ys`. `Distinct xs` says that no entry stands at two indices, so that an entry is
known by its index.
-/

namespace FormCompiler

variable {α : Type}

/-- The second table is the first one with any number of entries after it. -/
def Grown (xs ys : Array α) : Prop := ∃ extra, ys = xs ++ extra

namespace Grown

variable {xs ys zs : Array α}

instance : Std.Refl (Grown (α := α)) := ⟨fun _ => ⟨#[], by simp⟩⟩

instance : IsTrans (Array α) Grown where
  trans := by
    rintro xs _ _ ⟨first, rfl⟩ ⟨second, rfl⟩
    exact ⟨first ++ second, by simp⟩

/-- Every table is grown from itself. -/
theorem refl (xs : Array α) : Grown xs xs := Std.Refl.refl xs

/-- A table may grow several times. -/
theorem trans (h : Grown xs ys) (h' : Grown ys zs) : Grown xs zs := IsTrans.trans _ _ _ h h'

/-- A table with one further entry. -/
theorem push (xs : Array α) (x : α) : Grown xs (xs.push x) := ⟨#[x], by simp⟩

/-- A grown table has at least as many entries. -/
theorem size_le (h : Grown xs ys) : xs.size ≤ ys.size := by
  obtain ⟨extra, rfl⟩ := h
  simp

/-- An index of the old table means the same in the new one. -/
theorem getElem? (h : Grown xs ys) {i : Nat} (hi : i < xs.size) : ys[i]? = xs[i]? := by
  obtain ⟨extra, rfl⟩ := h
  simp [Array.getElem?_append, hi]

/-- An entry of the old table is in the new one. -/
theorem getElem?_some (h : Grown xs ys) {i : Nat} {x : α} (hx : xs[i]? = some x) :
    ys[i]? = some x := by
  have hi : i < xs.size := (Array.getElem?_eq_some_iff.1 hx).1
  rw [h.getElem? hi, hx]

/-- Reading at an index of the old table. -/
theorem getD (h : Grown xs ys) {i : Nat} (hi : i < xs.size) (d : α) :
    ys.getD i d = xs.getD i d := by
  rw [Array.getD_eq_getD_getElem?, Array.getD_eq_getD_getElem?, h.getElem? hi]

/-- What a search finds in the old table it finds in the new one. -/
theorem findIdx? (h : Grown xs ys) {p : α → Bool} {i : Nat} (hi : xs.findIdx? p = some i) :
    ys.findIdx? p = some i := by
  obtain ⟨extra, rfl⟩ := h
  simp [Array.findIdx?_append, hi]

end Grown

/-- The entries of a table with one more at the end. -/
theorem getElem?_push_eq_some_iff {xs : Array α} {x y : α} {i : Nat} :
    (xs.push x)[i]? = some y ↔ xs[i]? = some y ∨ i = xs.size ∧ x = y := by
  rw [Array.getElem?_push]
  split
  next hi => simp [hi]
  next hi => simp [hi]

/-- No entry stands at two indices. -/
def Distinct (xs : Array α) : Prop :=
  ∀ (i j : Nat) (x : α), xs[i]? = some x → xs[j]? = some x → i = j

/-- An entry that is new may be added. -/
theorem Distinct.push {xs : Array α} (h : Distinct xs) {x : α} (hnew : ∀ i : Nat, xs[i]? ≠ some x) :
    Distinct (xs.push x) := by
  intro i j y hi hj
  rw [getElem?_push_eq_some_iff] at hi hj
  rcases hi with hi | ⟨rfl, rfl⟩
  · rcases hj with hj | ⟨-, rfl⟩
    · exact h i j y hi hj
    · exact absurd hi (hnew i)
  · rcases hj with hj | ⟨rfl, -⟩
    · exact absurd hj (hnew j)
    · rfl

/-- A search finds an entry that is the only one of its kind. -/
theorem findIdx?_eq_some_of_unique {xs : Array α} {p : α → Bool} {i : Nat} {x : α}
    (hi : xs[i]? = some x) (hx : p x = true)
    (hunique : ∀ (j : Nat) (y : α), xs[j]? = some y → p y = true → j = i) :
    xs.findIdx? p = some i := by
  cases hfind : xs.findIdx? p with
  | some j =>
    obtain ⟨hj, hp, -⟩ := Array.findIdx?_eq_some_iff_getElem.1 hfind
    rw [hunique j xs[j] (Array.getElem?_eq_getElem hj) hp]
  | none =>
    have hfalse := Array.findIdx?_eq_none_iff.1 hfind x (Array.mem_of_getElem? hi)
    rw [hx] at hfalse
    cases hfalse

/-- A search for an entry itself finds where it stands. -/
theorem Distinct.findIdx?_eq_some_iff [BEq α] [LawfulBEq α] {xs : Array α} (h : Distinct xs)
    {x : α} {i : Nat} : xs.findIdx? (· == x) = some i ↔ xs[i]? = some x := by
  constructor
  · intro hfind
    obtain ⟨hi, hp, -⟩ := Array.findIdx?_eq_some_iff_getElem.1 hfind
    rw [Array.getElem?_eq_getElem hi, eq_of_beq hp]
  · intro hi
    refine findIdx?_eq_some_of_unique hi (beq_self_eq_true x) fun j y hj hy => ?_
    exact h j i x (eq_of_beq hy ▸ hj) hi

/-- What a search for an entry does not find stands nowhere. -/
theorem ne_of_findIdx?_eq_none [BEq α] [LawfulBEq α] {xs : Array α} {x : α}
    (h : xs.findIdx? (· == x) = none) (i : Nat) : xs[i]? ≠ some x := by
  intro hi
  have hne := Array.findIdx?_eq_none_iff.1 h x (Array.mem_of_getElem? hi)
  rw [beq_self_eq_true] at hne
  cases hne

/-- What a search for an entry finds after a new one was added at the end. -/
theorem findIdx?_push_of_ne [BEq α] [LawfulBEq α] [DecidableEq α] {xs : Array α} {x : α}
    (hnew : xs.findIdx? (· == x) = none) (y : α) :
    (xs.push x).findIdx? (· == y) = if y = x then some xs.size else xs.findIdx? (· == y) := by
  rw [Array.findIdx?_push]
  by_cases heq : y = x
  · subst heq
    simp [hnew]
  · have hne : (x == y) = false := beq_eq_false_iff_ne.2 (Ne.symm heq)
    simp [hne, heq]

end FormCompiler
