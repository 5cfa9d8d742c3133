import FormCompiler.Ir.Printer
import FormCompiler.Proofs.Ir.Keeping
import FormCompiler.Proofs.LiteralExactness
import FormCompiler.Proofs.ModuleTyping

/-!
# Integer Constants Survive Printing

An integer constant holds the low bits of the integer that it is made of. Printed, it is the integer
that these bits stand for in two's complement, in decimal digits; read again as a signed literal of
its width, the text gives the same bits. That needs every constant to hold no more bits than its
type has, which every operation on a module keeps.

* `Number.lowWord`, `Number.signExtend`: the low bits and their integer, computed in words by a mask
  and by two shifts.
* `Number.signed_iff`: the integer is the one in the signed range that is congruent.
* `Number.denotes_toString`: a decimal text denotes the integer it was made of.
* `Module.ConstantsFit`: the invariant of constants.
-/

namespace FormCompiler

namespace Number

variable {bits : Nat}

/-! ## Words -/

/-- The low bits of an integer, as the word of the integer under a mask. -/
def lowWord (bits : Nat) (v : Int) : Word := BitVec.ofInt 128 v &&& mask bits

/-- The integer of the low bits of a word. A word that has more bits is shifted up until the sign
is its highest bit, and back by a shift that copies the sign. -/
def signExtend (bits : Nat) (w : Word) : Int :=
  if 128 ≤ bits then w.toInt else ((w <<< (128 - bits)).sshiftRight (128 - bits)).toInt

/-- The number of bit patterns is the same in natural numbers and in integers. -/
theorem cast_pow_two (n : Nat) : ((Nat.pow 2 n : Nat) : Int) = 2 ^ n := Nat.cast_pow 2 n

/-- Masking cuts an integer modulo the number of bit patterns. -/
theorem toNat_lowWord (hbits : bits ≤ 128) (v : Int) : (lowWord bits v).toNat = wrap bits v := by
  have hdvd : (2 : Int) ^ bits ∣ 2 ^ 128 := pow_dvd_pow 2 hbits
  have hword : ((BitVec.ofInt 128 v).toNat : Int) = v % 2 ^ 128 := by
    rw [BitVec.toNat_ofInt]
    exact Int.toNat_of_nonneg (Int.emod_nonneg v (by decide))
  have hlow : ((lowWord bits v).toNat : Int) = v % 2 ^ bits := by
    rw [lowWord, toNat_and_mask hbits, hword, Int.emod_emod_of_dvd v hdvd]
  exact (Int.toNat_natCast _).symm.trans (congrArg Int.toNat hlow)

/-- A bit pattern is an integer modulo the number of bit patterns. -/
theorem wrap_cast (bits : Nat) (v : Int) : (wrap bits v : Int) = v % 2 ^ bits := by
  have hne : (2 : Int) ^ bits ≠ 0 := pow_ne_zero bits two_ne_zero
  exact Int.toNat_of_nonneg (Int.emod_nonneg v hne)

/-- There is no bit above the width in a bit pattern. -/
theorem wrap_lt (bits : Nat) (v : Int) : wrap bits v < 2 ^ bits := by
  have hlt := Int.emod_lt_of_pos v (pow_pos (show (0 : Int) < 2 by decide) bits)
  rw [← wrap_cast] at hlt
  exact_mod_cast hlt

/-! ## The integer of a bit pattern -/

/-- Balanced remainders are scaled with their modulus, if that is even. -/
theorem bmod_mul_two_pow (hpos : 1 ≤ bits) (x : Int) (shift : Nat) :
    Int.bmod (x * 2 ^ shift) (2 ^ bits * 2 ^ shift) = Int.bmod x (2 ^ bits) * 2 ^ shift := by
  have hhalf := two_pow_eq hpos
  have hpow : 0 < 2 ^ bits := Nat.two_pow_pos bits
  have hcast : ((2 ^ bits : Nat) : Int) = 2 ^ bits := Nat.cast_pow 2 bits
  have hcast' : ((2 ^ bits * 2 ^ shift : Nat) : Int) = 2 * (2 ^ (bits - 1) * 2 ^ shift) := by
    push_cast
    rw [hhalf, mul_assoc]
  have hshift : (0 : Int) < 2 ^ shift := pow_pos (by decide) shift
  have hx := Int.bmod_add_bdiv x (2 ^ bits)
  have hleast := Int.le_bmod (x := x) hpow
  have hgreatest := Int.bmod_lt (x := x) hpow
  generalize Int.bmod x (2 ^ bits) = b at *
  generalize Int.bdiv x (2 ^ bits) = quotient at *
  -- the bounds of the remainder are scaled too
  have hleast' : -(2 ^ (bits - 1) * 2 ^ shift) ≤ b * 2 ^ shift := by
    rw [← neg_mul]
    exact Int.mul_le_mul_of_nonneg_right (by omega) hshift.le
  have hgreatest' : b * 2 ^ shift < 2 ^ (bits - 1) * 2 ^ shift :=
    Int.mul_lt_mul_of_pos_right (by omega) hshift
  calc Int.bmod (x * 2 ^ shift) (2 ^ bits * 2 ^ shift)
      = Int.bmod (b * 2 ^ shift + ((2 ^ bits * 2 ^ shift : Nat) : Int) * quotient)
          (2 ^ bits * 2 ^ shift) := by
        rw [← hx]
        congr 1
        push_cast
        ring
    _ = Int.bmod (b * 2 ^ shift) (2 ^ bits * 2 ^ shift) := Int.add_mul_bmod_self_left _ _ _
    _ = b * 2 ^ shift := by
        apply Int.bmod_eq_of_le <;> rw [hcast'] <;> omega

/-- The two shifts give the integer of the low bits in two's complement. -/
theorem signExtend_eq (hpos : 1 ≤ bits) (hbits : bits ≤ 128) (w : Word) :
    signExtend bits w = signed bits w.toNat := by
  unfold signExtend
  split
  next hfull =>
    obtain rfl : bits = 128 := by omega
    exact BitVec.toInt_eq_toNat_bmod w
  next hshort =>
    have hsplit : 2 ^ 128 = 2 ^ bits * 2 ^ (128 - bits) := by
      rw [← pow_add]
      congr 1
      omega
    -- shifting up multiplies modulo `2 ^ 128`, shifting back divides without a remainder
    rw [BitVec.toInt_sshiftRight, BitVec.toInt_shiftLeft, Nat.shiftLeft_eq, Nat.cast_mul,
      Nat.cast_pow, Int.shiftRight_eq_div_pow, hsplit]
    push_cast
    rw [bmod_mul_two_pow hpos, Int.mul_ediv_cancel _ (pow_ne_zero _ (by decide))]
    rfl

/-- The integer of a bit pattern is in the signed range. -/
theorem signed_inRange (hpos : 1 ≤ bits) (raw : Nat) : InRange bits true (signed bits raw) := by
  have hhalf := two_pow_eq hpos
  have hpow : 0 < Nat.pow 2 bits := Nat.two_pow_pos bits
  have hleast := Int.le_bmod (x := raw) hpow
  have hgreatest := Int.bmod_lt (x := raw) hpow
  rw [cast_pow_two] at hleast hgreatest
  simp only [InRange, if_true, signed]
  omega

/-- The integer of a bit pattern is congruent to it. -/
theorem signed_emod (bits raw : Nat) : signed bits raw % 2 ^ bits = (raw : Int) % 2 ^ bits := by
  rw [signed, ← cast_pow_two, Int.bmod_emod]

/-- The integer of the bit pattern of an integer is the one that is congruent to it in the signed
range. -/
theorem signed_iff (hpos : 1 ≤ bits) {raw : Nat} {v : Int} (hraw : (raw : Int) = v % 2 ^ bits)
    (n : Int) : InRange bits true n ∧ n % 2 ^ bits = v % 2 ^ bits ↔ n = signed bits raw := by
  constructor
  · rintro ⟨hrange, hcongr⟩
    exact (signed_eq hpos hrange (hraw.trans hcongr.symm)).symm
  · rintro rfl
    refine ⟨signed_inRange hpos raw, ?_⟩
    rw [signed_emod, hraw, Int.emod_emod_of_dvd v (dvd_refl _)]

/-! ## Decimal texts -/

/-- The decimal digits of a number write it. -/
theorem writes_toDigits (n : Nat) : Writes 10 (Nat.toDigits 10 n) n := by
  -- all digits but the last one are those of a tenth of the number
  induction n using Nat.strongRecOn with
  | _ n ih =>
    by_cases hn : n < 10
    · rw [Nat.toDigits_of_lt_base hn]
      exact ⟨List.cons_ne_nil _ _, [n], .cons ⟨hn, .inl rfl⟩ .nil, by simp⟩
    · have hten : 10 ≤ n := Nat.le_of_not_lt hn
      obtain ⟨-, ds, hds, hvalue⟩ := ih (n / 10) (by omega)
      rw [Nat.toDigits_of_base_le (by decide) hten]
      have hlast : IsDigit 10 (n % 10).digitChar (n % 10) := ⟨Nat.mod_lt n (by decide), .inl rfl⟩
      refine ⟨by simp, ds ++ [n % 10], List.rel_append hds (.cons hlast .nil), ?_⟩
      rw [List.reverse_append, List.reverse_singleton, List.singleton_append, Nat.ofDigits_cons,
        hvalue]
      exact Nat.mod_add_div n 10

/-- A printed integer denotes itself. -/
theorem denotes_toString (v : Int) : Denotes (toString v).toList v := by
  cases v with
  | ofNat n =>
    have htext : (toString (Int.ofNat n)).toList = Nat.toDigits 10 n := String.toList_ofList
    rw [htext]
    exact .unsigned (.decimal (writes_toDigits n))
  | negSucc n =>
    have htext : (toString (Int.negSucc n)).toList = '-' :: Nat.toDigits 10 (n + 1) := by
      change ("-" ++ String.ofList (Nat.toDigits 10 (n + 1))).toList = _
      simp only [String.toList_append, String.toList_ofList]
      rfl
    rw [htext]
    exact .minus (.decimal (writes_toDigits (n + 1)))

/-- What a bit pattern stands for is printed so that reading it gives the bit pattern again. -/
theorem parseInt_signed (hpos : 1 ≤ bits) (hbits : bits ≤ 128) {raw : Nat} (hraw : raw < 2 ^ bits) :
    parseInt (toString (signed bits raw)) bits true = .ok raw := by
  have hdenotes := denotes_toString (signed bits raw)
  obtain ⟨raw', hparse, hraw'⟩ :=
    (parseInt_of_denotes true hpos hbits hdenotes).1 (signed_inRange hpos raw)
  have hlt : (raw : Int) < 2 ^ bits := by exact_mod_cast hraw
  rw [signed_emod, Int.emod_eq_of_lt (Int.natCast_nonneg raw) hlt] at hraw'
  rw [hparse, Int.ofNat.inj hraw']

/-- No bit of a masked word is above the mask. -/
theorem toNat_and_mask_lt (bits : Nat) (w : Word) : (w &&& mask bits).toNat < 2 ^ min bits 128 := by
  by_cases hbits : bits ≤ 128
  · rw [Nat.min_eq_left hbits, BitVec.toNat_and, toNat_mask hbits, Nat.and_two_pow_sub_one_eq_mod]
    exact Nat.mod_lt _ (Nat.two_pow_pos bits)
  · rw [Nat.min_eq_right (Nat.le_of_not_le hbits)]
    exact (w &&& mask bits).isLt

/-- A bit pattern that is read has no more bits than there is room for. -/
theorem lt_of_parseInt {text : String} {isSigned : Bool} {raw : Nat}
    (h : parseInt text bits isSigned = .ok raw) : raw < 2 ^ min bits 128 := by
  unfold parseInt at h
  dsimp only at h
  split at h
  · cases h
  · split at h
    · cases h
    · split at h
      · cases h
      · split at h
        · obtain rfl := Except.ok.inj h
          exact toNat_and_mask_lt bits _
        · cases h

end Number

/-! ## Constants of modules -/

namespace Ir

/-- The errors of literals do not change what is read. -/
theorem parseIntLiteral_ok_iff {text : String} {bits : Nat} {signed : Bool} {raw : Nat} :
    parseIntLiteral text bits signed = .ok raw ↔ Number.parseInt text bits signed = .ok raw := by
  unfold parseIntLiteral
  split <;> simp_all

namespace Module

/-- Each integer constant has a type of the module and no more bits than that. -/
def ConstantsFit (m : Module) : Prop :=
  ∀ (i : Nat) (ty : TyId) (raw : Nat), m.values[i]? = some ⟨ty, .constInt raw⟩ →
    m.HasTy ty ∧ raw < 2 ^ m.constWidth ty

/-- Types stay, and no integer constant was added. -/
structure SameConstants (m m' : Module) : Prop where
  types : Grown m.types m'.types
  constants : ∀ (i : Nat) (ty : TyId) (raw : Nat), m'.values[i]? = some ⟨ty, .constInt raw⟩ →
    m.values[i]? = some ⟨ty, .constInt raw⟩

namespace SameConstants

instance : Std.Refl SameConstants := ⟨fun m => ⟨.refl m.types, fun _ _ _ h => h⟩⟩

instance : IsTrans Module SameConstants where
  trans _ _ _ h h' := ⟨h.types.trans h'.types, fun i ty raw hi =>
    h.constants i ty raw (h'.constants i ty raw hi)⟩

/-- A value of another kind. -/
theorem newValue (ty : TyId) {kind : ValueKind} (hkind : ∀ raw, kind ≠ .constInt raw) :
    Moves SameConstants (newValue ty kind) := by
  refine fun m => ⟨.refl _, fun i ty' raw hi => ?_⟩
  rcases getElem?_push_eq_some_iff.1 hi with hold | ⟨-, hnew⟩
  · exact hold
  · exact absurd (congrArg Value.kind hnew) (hkind raw)

/-- An unnamed type. -/
theorem internType (ty : Ty) : Moves SameConstants (internType ty) := by
  intro m
  unfold Module.internType
  split
  · exact Std.Refl.refl m
  · exact ⟨.push _ _, fun _ _ _ h => h⟩

/-- What is added to a block is no constant. -/
theorem blockSteps : BlockSteps SameConstants where
  result ty := newValue ty (by simp)
  instr _ _ m := ⟨.refl m.types, fun _ _ _ h => h⟩
  terminator b t := by
    intro m
    unfold Ends terminate
    cases m.isTerminated b <;> exact ⟨.refl m.types, fun _ _ _ h => h⟩

/-- The values of parameters. -/
theorem newParams (func : FuncId) (index : Nat) (tys : List TyId) :
    Moves SameConstants (newParams func index tys) := by
  induction tys generalizing index with
  | nil => exact .pure []
  | cons ty tys ih =>
    exact .bind (newValue ty (by simp)) fun v => .bind (ih (index + 1)) fun vs => .pure (v :: vs)

/-- A function, with values for its parameters. -/
theorem declareFunction (symbol : String) (params : List TyId) (ret : TyId) (linkage : Linkage) :
    Keeps SameConstants (declareFunction symbol params ret linkage) := by
  intro m
  unfold Ends Module.declareFunction
  cases m.lookupFunction? symbol with
  | some func => exact Std.Refl.refl m
  | none =>
    have hparams := newParams ⟨m.functions.size⟩ 0 params m
    exact ⟨hparams.types, hparams.constants⟩

/-- A named struct, if its name is free. -/
theorem namedStruct (name : String) (fields : List TyId) :
    Keeps SameConstants (namedStruct name fields) := by
  intro m
  unfold Ends Module.namedStruct
  cases m.lookupStruct? name with
  | some t => exact Std.Refl.refl m
  | none => exact ⟨.push _ _, fun _ _ _ h => h⟩

/-- A text is a constant, but no integer. -/
theorem globalText (text : String) : Moves SameConstants (globalText text) :=
  .bind (internType (.int 8)) fun byte => .bind (internType (.pointer byte)) fun ty =>
    newValue ty (by simp)

/-- Closing the blocks of a function. -/
theorem finishFunction (func : FuncId) : Moves SameConstants (finishFunction func) := by
  intro m
  obtain ⟨blocks, hm⟩ := finishFunction_blocks func m
  rw [hm]
  exact ⟨.refl m.types, fun _ _ _ h => h⟩

end SameConstants

namespace ConstantsFit

variable {m m' : Module}

/-- There are no constants in a module without any entry. -/
theorem empty (name : String) : (Module.empty name).ConstantsFit := fun i ty raw hi => by
  simp [Module.empty] at hi

/-- Types keep their width. -/
theorem constWidth_eq (h : Grown m.types m'.types) {ty : TyId} (hty : m.HasTy ty) :
    m'.constWidth ty = m.constWidth ty := by
  have htype : m'.type ty = m.type ty := h.getD hty _
  rw [constWidth, intWidth?, htype, constWidth, intWidth?]

/-- Constants go on to fit when none is added. -/
theorem same (h : m.ConstantsFit) (hm : m.SameConstants m') : m'.ConstantsFit := by
  intro i ty raw hi
  obtain ⟨hty, hraw⟩ := h i ty raw (hm.constants i ty raw hi)
  rw [constWidth_eq hm.types hty]
  exact ⟨Nat.lt_of_lt_of_le hty hm.types.size_le, hraw⟩

/-- Constants fit after an operation that adds none, accepted or refused. -/
theorem final {α : Type} {op : Build α} (h : m.ConstantsFit) (hop : Keeps SameConstants op) :
    (final op m).ConstantsFit := h.same (hop.rel_final m)

/-- A constant is added that fits its type. -/
theorem newValue (h : m.ConstantsFit) {ty : TyId} (hty : m.HasTy ty) {raw : Nat}
    (hraw : raw < 2 ^ m.constWidth ty) :
    (newValue ty (.constInt raw) m).2.ConstantsFit := by
  intro i ty' raw' hi
  rcases getElem?_push_eq_some_iff.1 hi with hold | ⟨-, hnew⟩
  · exact h i ty' raw' hold
  · cases hnew
    exact ⟨hty, hraw⟩

/-- The constant of a literal fits, as a literal that is out of range is refused. -/
theorem constIntOfText (h : m.ConstantsFit) {ty : TyId} (hty : m.HasTy ty) (signed : Bool)
    (text : String) : (FormCompiler.final (constIntOfText ty signed text) m).ConstantsFit := by
  refine Ends.final ?_
  unfold Ends Module.constIntOfText
  cases hwidth : m.intWidth? ty with
  | none => exact h
  | some bits =>
    dsimp only
    cases hparse : parseIntLiteral text bits signed with
    | error e => exact h
    | ok raw =>
      refine h.newValue hty ?_
      rw [constWidth, hwidth, Option.getD_some]
      exact Number.lt_of_parseInt (parseIntLiteral_ok_iff.1 hparse)

/-- Every operation keeps it so that constants fit. -/
theorem run (h : m.ConstantsFit) {op : Operation} (hfits : op.Fits m) :
    (op.run m).ConstantsFit := by
  have hsteps := SameConstants.blockSteps
  have hintern : ∀ ty : Ty, ty.isNamed = false → Moves SameConstants (Module.internType ty) :=
    fun ty _ => SameConstants.internType ty
  cases op with
  | voidType => exact h.same (SameConstants.internType .void m)
  | intType bits => exact h.same (SameConstants.internType (.int bits) m)
  | floatType bits => exact h.same (SameConstants.internType (.float bits) m)
  | pointerTo pointee => exact h.same (SameConstants.internType (.pointer pointee) m)
  | literalStruct fields => exact h.same (SameConstants.internType (.struct none fields) m)
  | namedStruct name fields => exact h.final (SameConstants.namedStruct name fields)
  | constInt ty v => exact h.newValue hfits (Number.wrap_lt _ v)
  | constIntOfText ty signed text => exact h.constIntOfText hfits signed text
  | constFloat ty value => exact h.same (SameConstants.newValue ty (by simp) m)
  | undefined ty => exact h.same (SameConstants.newValue ty (by simp) m)
  | globalText text => exact h.same (SameConstants.globalText text m)
  | declareFunction symbol params returned linkage =>
    exact h.final (SameConstants.declareFunction symbol params returned linkage)
  | appendBlock func label => exact h.same ⟨.refl m.types, fun _ _ _ h => h⟩
  | finishFunction func => exact h.same (SameConstants.finishFunction func m)
  | alloca b ty => exact h.final (hsteps.alloca b hintern ty)
  | load b pointer => exact h.final (hsteps.load b pointer)
  | store b value pointer => exact h.final (hsteps.store b value pointer)
  | call b callee arguments => exact h.final (hsteps.call b callee arguments)
  | extractValue b aggregate index => exact h.final (hsteps.extractValue b aggregate index)
  | insertValue b aggregate value index =>
    exact h.final (hsteps.insertValue b aggregate value index)
  | icmp b predicate lhs rhs => exact h.final (hsteps.icmp b hintern predicate lhs rhs)
  | phi b incoming => exact h.final (hsteps.phi b incoming)
  | ret b value => exact h.final (hsteps.ret b hintern value)
  | br b target => exact h.final (hsteps.terminator b (.br target))
  | condBr b condition onTrue onFalse =>
    exact h.final (hsteps.condBr b hintern condition onTrue onFalse)
  | unreachable b => exact h.final (hsteps.terminator b .unreachable)

/-- So does every sequence of them. -/
theorem runAll {ops : List Operation} {m : Module} (h : m.ConstantsFit)
    (hfit : Operation.Fit m ops) : (Operation.runAll ops m).ConstantsFit := by
  induction ops generalizing m with
  | nil => exact h
  | cons op ops ih => exact ih (h.run hfit.1) hfit.2

end ConstantsFit

end Module

namespace Operation

open Number (InRange lowWord signExtend)

/-- The value is a constant of the low bits of an integer; and what it stands for is the one integer
in the signed range that is congruent to it. -/
structure HoldsInteger (m : Module) (c : ValueId) (bits : Nat) (v : Int) : Prop where
  raw : ∃ raw, m.constRaw? c = some raw ∧ (raw : Int) = v % 2 ^ bits ∧
    raw = (lowWord bits v).toNat
  value : ∃ n, m.constIntValue? c = some n ∧ n = signExtend bits (lowWord bits v) ∧
    ∀ k : Int, InRange bits true k ∧ k % 2 ^ bits = v % 2 ^ bits ↔ k = n

/-- The integer constants of a width, those that may be made and those that are in the module. -/
structure ConstantsExact (m : Module) (bits : Nat) : Prop where
  made : ∀ ty, m.intWidth? ty = some bits → ∀ v : Int,
    HoldsInteger (Module.constInt ty v m).2 (Module.constInt ty v m).1 bits v
  printed : ∀ c, m.HasValue c → m.intWidth? (m.valueType c) = some bits →
    ∀ raw, m.constRaw? c = some raw → parseIntLiteral (m.valueName c) bits true = .ok raw

/-- A constant made of an integer holds it. -/
theorem holdsInteger_constInt {m : Module} {ty : TyId} {bits : Nat}
    (hty : m.intWidth? ty = some bits) (hpos : 1 ≤ bits) (hbits : bits ≤ 128) (v : Int) :
    HoldsInteger (Module.constInt ty v m).2 (Module.constInt ty v m).1 bits v := by
  have hwidth : m.constWidth ty = bits := by
    rw [Module.constWidth, hty, Option.getD_some]
    omega
  have hfresh := Module.newValue_fresh ty (.constInt (Number.wrap bits v)) m
  have hconst : Module.constInt ty v m = Module.newValue ty (.constInt (Number.wrap bits v)) m := by
    rw [Module.constInt, hwidth]
  have hkind := Module.valueKind_of_getElem? hfresh.value
  have hcut := Number.wrap_cast bits v
  rw [hconst]
  refine ⟨⟨Number.wrap bits v, ?_, hcut, (Number.toNat_lowWord hbits v).symm⟩,
    Number.signed bits (Number.wrap bits v), ?_, ?_, Number.signed_iff hpos hcut⟩
  · rw [Module.constRaw?, hkind]
  · have hwidth' : (Module.newValue ty (.constInt (Number.wrap bits v)) m).2.constWidth ty =
        bits := hwidth
    rw [Module.constIntValue?, hkind, Module.valueType_of_getElem? hfresh.value, hwidth']
  · rw [Number.signExtend_eq hpos hbits, Number.toNat_lowWord hbits]

/-- After any operations on a module that was empty, with ids of that module, and at any width from
1 to 128: a constant made of an integer holds its low bits and stands for the one integer in the
signed range that is congruent to it; and every integer constant, however it was made, is printed
as a signed literal that is read as its bits. -/
theorem runAll_constantsExact {name : String} {ops : List Operation} (hfit : Fit (.empty name) ops)
    {bits : Nat} (hpos : 1 ≤ bits) (hbits : bits ≤ 128) :
    ConstantsExact (runAll ops (.empty name)) bits where
  made ty hty v := holdsInteger_constInt hty hpos hbits v
  printed c hc hty raw hraw := by
    have hconstants := (Module.ConstantsFit.empty name).runAll hfit
    generalize runAll ops (.empty name) = m at *
    have hwidth : m.constWidth (m.valueType c) = bits := by
      rw [Module.constWidth, hty, Option.getD_some]
      omega
    -- the value stands in the table as a constant, so its bits are no more than the width
    have hkind : m.valueKind c = .constInt raw := by
      unfold Module.constRaw? at hraw
      split at hraw
      next heq => rw [heq, Option.some.inj hraw]
      next => cases hraw
    have hvalue : m.values[c.index]? = some ⟨m.valueType c, .constInt raw⟩ := by
      rw [← hkind, Module.valueType, Module.valueKind, Array.getD_eq_getD_getElem?,
        Array.getElem?_eq_getElem hc, Option.getD_some]
    have hbound := (hconstants c.index (m.valueType c) raw hvalue).2
    rw [hwidth] at hbound
    rw [Module.valueName, hkind]
    dsimp only
    rw [hwidth]
    exact parseIntLiteral_ok_iff.2 (Number.parseInt_signed hpos hbits hbound)

/-- Constants at the least and the greatest width: a bit that is set, the least integer of 128 bits,
and at eight bits one that was read as unsigned. -/
def extremes : List Operation :=
  [intType 1, intType 128, intType 8, constInt ⟨0⟩ 1, constInt ⟨1⟩ (-2 ^ 127),
    constIntOfText ⟨2⟩ false "0xff"]

/-- The set bit and the greatest unsigned integer of eight bits are printed as `-1`. -/
theorem extremes_constantsExact :
    Fit (.empty "unit") extremes ∧
      (runAll extremes (.empty "unit")).valueName ⟨0⟩ = "-1" ∧
      (runAll extremes (.empty "unit")).valueName ⟨1⟩ =
        "-170141183460469231731687303715884105728" ∧
      (runAll extremes (.empty "unit")).valueName ⟨2⟩ = "-1" ∧
      (runAll extremes (.empty "unit")).constRaw? ⟨2⟩ = some 255 ∧
      (1 ≤ 1 ∧ 1 ≤ 128 ∧ ConstantsExact (runAll extremes (.empty "unit")) 1) ∧
      (1 ≤ 128 ∧ 128 ≤ 128 ∧ ConstantsExact (runAll extremes (.empty "unit")) 128) := by
  have hfit : Fit (.empty "unit") extremes := by decide +kernel
  refine ⟨hfit, by decide +kernel, by decide +kernel, by decide +kernel, by decide +kernel,
    ⟨by decide, by decide, runAll_constantsExact hfit (by decide) (by decide)⟩,
    by decide, by decide, runAll_constantsExact hfit (by decide) (by decide)⟩

end Operation

end Ir

end FormCompiler
