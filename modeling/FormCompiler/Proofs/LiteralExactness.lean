import FormCompiler.Ir.Literal
import Mathlib.Data.Nat.Digits.Lemmas
import Mathlib.Tactic.IntervalCases
import Mathlib.Tactic.Ring

/-!
# Integer Literals Are Read Exactly

The grammar of integer literals as rules, with the integer each literal denotes, and the ranges of
the integer types. A literal is accepted exactly if the rules derive it and its integer is in the
range; its bit pattern is that integer modulo `2 ^ bits`, although it was computed in words of 128
bits (`parseIntLiteral_exact`).

* `Writes`: digits in some radix and the number they write.
* `Denotes`: a literal and its integer.
* `InRange`: the integers of a type.
* `signed_eq`, `unsigned_eq`: the integer of a bit pattern.
-/

namespace FormCompiler.Number

/-! ## Grammar and ranges -/

/-- The character is the digit of a value in the radix, in lower or upper case. -/
def IsDigit (radix : Nat) (c : Char) (d : Nat) : Prop :=
  d < radix ∧ (c = d.digitChar ∨ c = d.digitChar.toUpper)

/-- One or more digits, most significant first, and the number they write. -/
def Writes (radix : Nat) (cs : List Char) (n : Nat) : Prop :=
  cs ≠ [] ∧ ∃ ds, List.Forall₂ (IsDigit radix) cs ds ∧ Nat.ofDigits radix ds.reverse = n

/-- A literal without a sign, and its integer. -/
inductive Magnitude : List Char → Nat → Prop
  | decimal {cs : List Char} {n : Nat} (digits : Writes 10 cs n) : Magnitude cs n
  | hexadecimal {cs : List Char} {n : Nat} (mark : Char) (isMark : mark = 'x' ∨ mark = 'X')
      (digits : Writes 16 cs n) : Magnitude ('0' :: mark :: cs) n

/-- A literal and the integer it denotes. -/
inductive Denotes : List Char → Int → Prop
  | unsigned {cs : List Char} {n : Nat} (body : Magnitude cs n) : Denotes cs n
  | plus {cs : List Char} {n : Nat} (body : Magnitude cs n) : Denotes ('+' :: cs) n
  | minus {cs : List Char} {n : Nat} (body : Magnitude cs n) : Denotes ('-' :: cs) (-n)

/-- The integer is a value of the integer type of this width and signedness. -/
def InRange (bits : Nat) (signed : Bool) (v : Int) : Prop :=
  if signed then -2 ^ (bits - 1) ≤ v ∧ v ≤ 2 ^ (bits - 1) - 1 else 0 ≤ v ∧ v ≤ 2 ^ bits - 1

/-! ## Digits -/

/-- Characters are ordered as their codes. -/
theorem toNat_le_of_le {c c' : Char} (h : c ≤ c') : c.toNat ≤ c'.toNat := h

/-- The digits up to sixteen, read. -/
theorem digitValue?_eq_some_iff {radix : Nat} (hradix : radix ≤ 16) {c : Char} {d : Nat} :
    digitValue? radix c = some d ↔ IsDigit radix c d := by
  unfold digitValue? IsDigit
  simp only [Option.filter_eq_some_iff, decide_eq_true_eq, and_comm (b := d < radix)]
  refine and_congr_right fun hd => ?_
  have hd : d < 16 := Nat.lt_of_lt_of_le hd hradix
  constructor
  · -- the value tells the code of the character
    have hcode : ∀ k, c.toNat = k → c = Char.ofNat k := fun k hk => by
      rw [← hk, Char.ofNat_toNat]
    intro h
    split_ifs at h with hdecimal hlower hupper <;> cases h
    · have hlow : 48 ≤ c.toNat := toNat_le_of_le hdecimal.1
      have hhigh : c.toNat ≤ 57 := toNat_le_of_le hdecimal.2
      generalize c.toNat = k at *
      rw [hcode k rfl]
      interval_cases k <;> decide
    · have hlow : 97 ≤ c.toNat := toNat_le_of_le hlower.1
      have hhigh : c.toNat ≤ 102 := toNat_le_of_le hlower.2
      generalize c.toNat = k at *
      rw [hcode k rfl]
      interval_cases k <;> decide
    · have hlow : 65 ≤ c.toNat := toNat_le_of_le hupper.1
      have hhigh : c.toNat ≤ 70 := toNat_le_of_le hupper.2
      generalize c.toNat = k at *
      rw [hcode k rfl]
      interval_cases k <;> decide
  · rintro (rfl | rfl) <;> interval_cases d <;> decide

/-- What is read after the digits of a number. -/
theorem readDigits?_eq_some_iff {radix : Nat} (hradix : radix ≤ 16) {acc n : Nat}
    {cs : List Char} :
    readDigits? radix acc cs = some n ↔
      ∃ ds, List.Forall₂ (IsDigit radix) cs ds ∧
        Nat.ofDigits radix ds.reverse + radix ^ ds.length * acc = n := by
  induction cs generalizing acc with
  | nil =>
    simp only [readDigits?, List.forall₂_nil_left_iff, Option.some_inj, exists_eq_left]
    simp
  | cons c cs ih =>
    -- the first digit counts for all places after it
    have hplace : ∀ (d : Nat) (ds : List Nat),
        Nat.ofDigits radix (d :: ds).reverse + radix ^ (d :: ds).length * acc =
          Nat.ofDigits radix ds.reverse + radix ^ ds.length * (acc * radix + d) := by
      intro d ds
      rw [List.reverse_cons, Nat.ofDigits_append, Nat.ofDigits_singleton, List.length_reverse,
        List.length_cons]
      ring
    unfold readDigits?
    constructor
    · intro h
      cases hvalue : digitValue? radix c with
      | none =>
        rw [hvalue] at h
        cases h
      | some d =>
        rw [hvalue] at h
        obtain ⟨ds, hds, rfl⟩ := ih.1 h
        exact ⟨d :: ds, .cons ((digitValue?_eq_some_iff hradix).1 hvalue) hds, hplace d ds⟩
    · rintro ⟨_, hds, rfl⟩
      cases hds with
      | @cons _ d _ ds hd hds =>
        rw [(digitValue?_eq_some_iff hradix).2 hd]
        exact ih.2 ⟨ds, hds, (hplace d ds).symm⟩

/-- What digits write, read. -/
theorem writes_iff {radix : Nat} (hradix : radix ≤ 16) {cs : List Char} {n : Nat} :
    Writes radix cs n ↔ cs.isEmpty = false ∧ readDigits? radix 0 cs = some n := by
  rw [readDigits?_eq_some_iff hradix, Writes, List.isEmpty_eq_false_iff]
  simp only [Nat.mul_zero, Nat.add_zero]

/-- A sign or the mark of a radix is no decimal digit. -/
theorem not_isDigit_ten {c : Char} (h : c ∈ ['+', '-', 'x', 'X']) (d : Nat) :
    ¬ IsDigit 10 c d := by
  rintro ⟨hd, hc⟩
  interval_cases d <;> (rcases hc with rfl | rfl <;> revert h <;> decide)

/-- Digits in radix ten have no character that is no digit. -/
theorem Writes.not_mem {cs : List Char} {n : Nat} (h : Writes 10 cs n) {c : Char} (hc : c ∈ cs) :
    c ∉ ['+', '-', 'x', 'X'] := fun hmem => by
  obtain ⟨-, ds, hds, -⟩ := h
  obtain ⟨i, hi, rfl⟩ := List.getElem_of_mem hc
  exact not_isDigit_ten hmem _ (hds.get hi (hds.length_eq ▸ hi))

/-! ## The parts of a literal -/

/-- The radix of a literal is ten or sixteen. -/
theorem splitRadix_le (cs : List Char) : (splitRadix cs).1 ≤ 16 := by
  unfold splitRadix
  split <;> simp

/-- The mark of the radix tells which rule derives an unsigned literal. -/
theorem magnitude_iff {cs : List Char} {n : Nat} :
    Magnitude cs n ↔ Writes (splitRadix cs).1 (splitRadix cs).2 n := by
  constructor
  · rintro (⟨h⟩ | ⟨mark, rfl | rfl, h⟩)
    · unfold splitRadix
      split
      next rest => exact absurd (h.not_mem (c := 'x') (by simp)) (by decide)
      next rest => exact absurd (h.not_mem (c := 'X') (by simp)) (by decide)
      next => exact h
    · exact h
    · exact h
  · unfold splitRadix
    split
    next rest => exact .hexadecimal 'x' (.inl rfl)
    next rest => exact .hexadecimal 'X' (.inr rfl)
    next => exact .decimal

/-- An unsigned literal begins with no sign. -/
theorem Magnitude.not_sign {c : Char} {cs : List Char} {n : Nat} (h : Magnitude (c :: cs) n) :
    c ≠ '+' ∧ c ≠ '-' := by
  cases h with
  | decimal h =>
    have hc := h.not_mem List.mem_cons_self
    constructor <;> (rintro rfl; exact hc (by decide))
  | hexadecimal => decide

/-- The integer of a sign and a magnitude. -/
def signedValue (negative : Bool) (n : Nat) : Int := if negative then -n else n

/-- The sign tells which rule derives a literal. -/
theorem denotes_iff {cs : List Char} {v : Int} :
    Denotes cs v ↔
      ∃ n, Magnitude (splitSign cs).2 n ∧ signedValue (splitSign cs).1 n = v := by
  constructor
  · rintro (⟨h⟩ | ⟨h⟩ | ⟨h⟩)
    · unfold splitSign
      split
      next rest => exact absurd rfl h.not_sign.2
      next rest => exact absurd rfl h.not_sign.1
      next => exact ⟨_, h, rfl⟩
    · exact ⟨_, h, rfl⟩
    · exact ⟨_, h, rfl⟩
  · unfold splitSign
    split
    next rest =>
      rintro ⟨n, h, rfl⟩
      exact .minus h
    next rest =>
      rintro ⟨n, h, rfl⟩
      exact .plus h
    next =>
      rintro ⟨n, h, rfl⟩
      exact .unsigned h

/-- A text denotes one integer at most. -/
theorem Denotes.unique {cs : List Char} {v w : Int} (hv : Denotes cs v) (hw : Denotes cs w) :
    w = v := by
  obtain ⟨n, hn, rfl⟩ := denotes_iff.1 hv
  obtain ⟨m, hm, rfl⟩ := denotes_iff.1 hw
  obtain ⟨-, hn⟩ := (writes_iff (splitRadix_le _)).1 (magnitude_iff.1 hn)
  obtain ⟨-, hm⟩ := (writes_iff (splitRadix_le _)).1 (magnitude_iff.1 hm)
  rw [Option.some_inj.1 (hm.symm.trans hn)]

/-! ## Words -/

variable {bits : Nat} {n : Nat}

/-- The mask of a width that a word has room for. -/
theorem toNat_mask (h : bits ≤ 128) : (mask bits).toNat = 2 ^ bits - 1 := by
  unfold mask
  split
  next hge =>
    obtain rfl : bits = 128 := by omega
    rfl
  next hlt =>
    have hpow : 2 ^ bits < 2 ^ 128 := Nat.pow_lt_pow_right (by decide) (by omega)
    have hpos : 0 < 2 ^ bits := Nat.two_pow_pos bits
    rw [BitVec.toNat_sub, BitVec.toNat_shiftLeft, BitVec.toNat_ofNat,
      Nat.one_mod_two_pow (by decide), Nat.one_shiftLeft, Nat.mod_eq_of_lt hpow]
    omega

/-- An integer is in the range of a type exactly if its sign and magnitude fit. -/
theorem fits_iff (hpos : 1 ≤ bits) (hbits : bits ≤ 128) (signed negative : Bool)
    (hn : n < 2 ^ 128) :
    fits bits signed negative (BitVec.ofNat 128 n) = true ↔
      InRange bits signed (signedValue negative n) := by
  have hword : (BitVec.ofNat 128 n).toNat = n := by
    rw [BitVec.toNat_ofNat, Nat.mod_eq_of_lt hn]
  unfold fits InRange signedValue
  cases signed with
  | true =>
    have hgreatest : (mask (bits - 1)).toNat = 2 ^ (bits - 1) - 1 := toNat_mask (by omega)
    -- at the greatest width there is still room for one more
    have hhalf : 2 ^ (bits - 1) ≤ 2 ^ 127 := Nat.pow_le_pow_right (by decide) (by omega)
    have hleast : (mask (bits - 1) + 1).toNat = 2 ^ (bits - 1) := by
      have := Nat.two_pow_pos (bits - 1)
      have hone : (1 : Word).toNat = 1 := rfl
      rw [BitVec.toNat_add, hgreatest, hone]
      omega
    have hcast : ((2 ^ (bits - 1) : Nat) : Int) = 2 ^ (bits - 1) := Nat.cast_pow 2 _
    have := Nat.two_pow_pos (bits - 1)
    cases negative <;>
      simp only [BitVec.ule_eq_decide, decide_eq_true_eq, hword, hgreatest, hleast, if_true,
        Bool.false_eq_true, if_false] <;> omega
  | false =>
    have hgreatest : (mask bits).toNat = 2 ^ bits - 1 := toNat_mask hbits
    have hzero : BitVec.ofNat 128 n = 0 ↔ n = 0 := by
      rw [← BitVec.toNat_inj, hword]
      rfl
    have hcast : ((2 ^ bits : Nat) : Int) = 2 ^ bits := Nat.cast_pow 2 _
    have := Nat.two_pow_pos bits
    cases negative <;>
      simp only [BitVec.ule_eq_decide, Bool.and_eq_true, Bool.or_eq_true, Bool.not_false,
        Bool.not_true, Bool.false_eq_true, true_or, false_or, and_true, beq_iff_eq,
        decide_eq_true_eq, hword, hgreatest, hzero, if_true, if_false] <;> omega

/-- Masking a word is taking it modulo the number of bit patterns. -/
theorem toNat_and_mask (hbits : bits ≤ 128) (w : Word) :
    ((w &&& mask bits).toNat : Int) = (w.toNat : Int) % 2 ^ bits := by
  rw [BitVec.toNat_and, toNat_mask hbits, Nat.and_two_pow_sub_one_eq_mod]
  norm_cast

/-- The low bits of an integer are the integer modulo the number of bit patterns. -/
theorem toNat_lowBits (hbits : bits ≤ 128) (negative : Bool) (hn : n < 2 ^ 128) :
    ((lowBits bits negative (BitVec.ofNat 128 n)).toNat : Int) =
      signedValue negative n % 2 ^ bits := by
  rw [lowBits, toNat_and_mask hbits]
  cases negative with
  | false =>
    rw [if_neg Bool.false_ne_true, BitVec.toNat_ofNat, Nat.mod_eq_of_lt hn]
    rfl
  | true =>
    -- negation is modulo `2 ^ 128`, of which `2 ^ bits` is a divisor
    have hdvd : ((2 ^ bits : Nat) : Int) ∣ ((2 ^ 128 : Nat) : Int) :=
      Int.natCast_dvd_natCast.2 (Nat.pow_dvd_pow 2 hbits)
    rw [if_pos rfl, BitVec.toNat_neg, BitVec.toNat_ofNat, Nat.mod_eq_of_lt hn, Int.natCast_mod,
      Int.ofNat_sub (Nat.le_of_lt hn)]
    push_cast at hdvd ⊢
    rw [Int.emod_emod_of_dvd _ hdvd]
    obtain ⟨k, hk⟩ := hdvd
    rw [hk, sub_eq_add_neg, Int.mul_add_emod_self_left]
    rfl

/-- An integer in the range of a type has a magnitude that is a word. -/
theorem lt_of_inRange (hpos : 1 ≤ bits) (hbits : bits ≤ 128) {signed negative : Bool}
    (h : InRange bits signed (signedValue negative n)) : n < 2 ^ 128 := by
  have hpow : ∀ k ≤ 128, ((2 : Int) ^ k) ≤ 2 ^ 128 := fun k hk =>
    pow_le_pow_right₀ (by decide) hk
  have hbits' := hpow bits hbits
  have hhalf := pow_le_pow_right₀ (a := (2 : Int)) (by decide) (show bits - 1 ≤ 127 by omega)
  unfold InRange signedValue at h
  cases signed <;> cases negative <;>
    simp only [Bool.false_eq_true, if_true, if_false] at h <;> omega

/-! ## Integers of bit patterns -/

section Patterns

variable {raw : Nat} {v : Int}

/-- Half of the bit patterns have the sign. -/
theorem two_pow_eq (hpos : 1 ≤ bits) : (2 : Int) ^ bits = 2 * 2 ^ (bits - 1) := by
  rw [← pow_succ']
  congr 1
  omega

/-- The bit pattern of a signed integer stands for that integer. -/
theorem signed_eq (hpos : 1 ≤ bits) (hv : InRange bits true v) (hraw : (raw : Int) = v % 2 ^ bits) :
    signed bits raw = v := by
  have hhalf := two_pow_eq hpos
  have hcast : ((Nat.pow 2 bits : Nat) : Int) = 2 ^ bits := Nat.cast_pow 2 bits
  simp only [InRange, if_true] at hv
  rw [signed, hraw, ← hcast, Int.emod_bmod]
  exact Int.bmod_eq_of_le (by omega) (by omega)

/-- The bit pattern of an unsigned integer is that integer. -/
theorem unsigned_eq (hv : InRange bits false v) (hraw : (raw : Int) = v % 2 ^ bits) :
    (raw : Int) = v := by
  simp only [InRange, Bool.false_eq_true, if_false] at hv
  rw [hraw, Int.emod_eq_of_lt hv.1 (by omega)]

end Patterns

/-! ## Reading -/

variable {text : String} {v : Int} (signed : Bool)

/-- A literal is read as its integer, if that is in range. -/
theorem parseInt_of_denotes (hpos : 1 ≤ bits) (hbits : bits ≤ 128) (h : Denotes text.toList v) :
    (InRange bits signed v →
      ∃ raw : Nat, parseInt text bits signed = .ok raw ∧ (raw : Int) = v % 2 ^ bits) ∧
    (¬ InRange bits signed v → parseInt text bits signed = .error .outOfRange) := by
  obtain ⟨n, hmagnitude, rfl⟩ := denotes_iff.1 h
  obtain ⟨hnonempty, hread⟩ := (writes_iff (splitRadix_le _)).1 (magnitude_iff.1 hmagnitude)
  unfold parseInt
  simp only [hnonempty, hread, Bool.false_eq_true, if_false]
  constructor
  · intro hrange
    have hn := lt_of_inRange hpos hbits hrange
    have hfits := (fits_iff hpos hbits signed _ hn).2 hrange
    have hword : ¬ Nat.pow 2 128 ≤ n := Nat.not_le.2 hn
    rw [if_neg hword, if_pos hfits]
    exact ⟨_, rfl, toNat_lowBits hbits _ hn⟩
  · intro hrange
    split
    next => rfl
    next hn =>
      have hfits := (fits_iff hpos hbits signed _ (Nat.not_le.1 hn)).not.2 hrange
      rw [if_neg hfits]

/-- A text that is no literal is malformed. -/
theorem parseInt_of_not_denotes (h : ¬ ∃ v, Denotes text.toList v) :
    parseInt text bits signed = .error .malformed := by
  unfold parseInt
  cases hempty : (splitRadix (splitSign text.toList).2).2.isEmpty with
  | true => simp only [hempty, if_true]
  | false =>
    cases hread : readDigits? (splitRadix (splitSign text.toList).2).1 0
        (splitRadix (splitSign text.toList).2).2 with
    | none => simp only [hempty, hread, Bool.false_eq_true, if_false]
    | some n =>
      refine absurd ⟨_, denotes_iff.2 ⟨n, magnitude_iff.2 ?_, rfl⟩⟩ h
      exact (writes_iff (splitRadix_le _)).2 ⟨hempty, hread⟩

end FormCompiler.Number

namespace FormCompiler.Ir

open Number

/-- At any width up to 128 an integer literal is accepted exactly if its integer is in the range of
the type, with the bit pattern of that integer. Any other text is an invalid literal, and any other
literal is out of range. -/
theorem parseIntLiteral_exact {bits : Nat} (hpos : 1 ≤ bits) (hbits : bits ≤ 128) (text : String)
    (signed : Bool) :
    (∀ raw : Nat, parseIntLiteral text bits signed = .ok raw ↔
      ∃ v, Denotes text.toList v ∧ InRange bits signed v ∧ (raw : Int) = v % 2 ^ bits) ∧
    (parseIntLiteral text bits signed = .error (.invalidLiteral text) ↔
      ¬ ∃ v, Denotes text.toList v) ∧
    (parseIntLiteral text bits signed =
        .error (.literalOutOfRange text (intTypeText bits signed)) ↔
      ∃ v, Denotes text.toList v ∧ ¬ InRange bits signed v) := by
  by_cases hliteral : ∃ v, Denotes text.toList v
  · obtain ⟨v, hv⟩ := hliteral
    have hone : ∀ P : Int → Prop, (∃ w, Denotes text.toList w ∧ P w) ↔ P v := fun P =>
      ⟨fun ⟨w, hw, hP⟩ => hv.unique hw ▸ hP, fun hP => ⟨v, hv, hP⟩⟩
    simp only [hone]
    obtain ⟨hin, hout⟩ := parseInt_of_denotes signed hpos hbits hv
    by_cases hrange : InRange bits signed v
    · obtain ⟨raw, hparse, hraw⟩ := hin hrange
      have hok : parseIntLiteral text bits signed = .ok raw := by rw [parseIntLiteral, hparse]
      rw [hok]
      refine ⟨fun raw' => ?_, iff_of_false nofun (not_not.2 ⟨v, hv⟩),
        iff_of_false nofun (not_not.2 hrange)⟩
      rw [Except.ok.injEq]
      refine ⟨fun h => ⟨hrange, h ▸ hraw⟩, fun h => ?_⟩
      exact Int.ofNat.inj (hraw.trans h.2.symm)
    · have herror : parseIntLiteral text bits signed =
          .error (.literalOutOfRange text (intTypeText bits signed)) := by
        rw [parseIntLiteral, hout hrange]
      rw [herror]
      exact ⟨fun raw => iff_of_false nofun fun h => hrange h.1,
        iff_of_false nofun (not_not.2 ⟨v, hv⟩), iff_of_true rfl hrange⟩
  · have hnone : ∀ P : Int → Prop, ¬ ∃ w, Denotes text.toList w ∧ P w := fun P ⟨w, hw, _⟩ =>
      hliteral ⟨w, hw⟩
    have herror : parseIntLiteral text bits signed = .error (.invalidLiteral text) := by
      rw [parseIntLiteral, parseInt_of_not_denotes signed hliteral]
    rw [herror]
    exact ⟨fun raw => iff_of_false nofun (hnone _), iff_of_true rfl hliteral,
      iff_of_false nofun (hnone _)⟩

/-- The least signed integer of eight bits is read from its hexadecimal literal. -/
theorem parseIntLiteral_exact_least :
    1 ≤ 8 ∧ 8 ≤ 128 ∧ parseIntLiteral "-0x80" 8 true = .ok 128 ∧
      ∃ v, Denotes "-0x80".toList v ∧ InRange 8 true v ∧ ((128 : Nat) : Int) = v % 2 ^ 8 := by
  have hread : parseIntLiteral "-0x80" 8 true = .ok 128 := by decide +kernel
  exact ⟨by decide, by decide, hread,
    ((parseIntLiteral_exact (by decide) (by decide) "-0x80" true).1 128).1 hread⟩

end FormCompiler.Ir
