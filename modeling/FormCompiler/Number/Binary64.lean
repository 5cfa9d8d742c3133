/-!
# Binary Floating-Point Values

The values of the 64-bit binary floating-point format, held exactly, and the reading of decimal
texts. A finite value is a sign, a significand below `2 ^ 53` and an exponent of two; reading
rounds the exact rational that a text denotes to the nearest value, a half to the even significand.
-/

namespace FormCompiler.Number

/-- A 64-bit binary floating-point value. A finite one is `significand * 2 ^ exponent`, negated if
`negative`. -/
inductive Binary64 where
  | nan
  | infinite (negative : Bool)
  | finite (negative : Bool) (significand : Nat) (exponent : Int)
deriving DecidableEq, Repr, Inhabited

namespace Binary64

/-- Number of bits of a significand. -/
def precision : Nat := 53

/-- Smallest exponent of a finite value. -/
def minExponent : Int := -1074

/-- Largest exponent of a finite value. -/
def maxExponent : Int := 971

/-- Zero, with either sign. -/
def zero (negative : Bool) : Binary64 := finite negative 0 minExponent

/-- The integer nearest to `num / den`, a half going to the even one. -/
def roundHalfEven (num den : Nat) : Nat :=
  let q := num / den
  let r := num % den
  if 2 * r < den then q
  else if den < 2 * r then q + 1
  else if q % 2 = 0 then q else q + 1

/-- Numerator and denominator of `num / den / 2 ^ e`. -/
def scaleDown (num den : Nat) (e : Int) : Nat × Nat :=
  if 0 ≤ e then (num, den <<< e.toNat) else (num <<< (-e).toNat, den)

/-- The exponent `l` of the leading binary digit of a positive `num / den`, so that
`2 ^ l ≤ num / den < 2 ^ (l + 1)`. -/
def leadingExponent (num den : Nat) : Int :=
  let l : Int := (Nat.log2 num : Int) - Nat.log2 den
  let (n, d) := scaleDown num den l
  if n < d then l - 1 else l

/-- The value nearest to `num / den`, negated if `negative`. A quotient that rounds beyond the
largest finite value is infinite. -/
def ofRatio (negative : Bool) (num den : Nat) : Binary64 :=
  if num = 0 then zero negative
  else
    let e := max (leadingExponent num den - (precision - 1)) minExponent
    let (n, d) := scaleDown num den e
    let m := roundHalfEven n d
    let (m, e) :=
      if m = Nat.pow 2 precision then (Nat.pow 2 (precision - 1), e + 1) else (m, e)
    if maxExponent < e then infinite negative else finite negative m e

/-- The value nearest to `digits * 10 ^ exponent`. A positive number of more than 310 integer
digits is beyond every finite value, and one below `10 ^ (-330)` rounds to zero. -/
def ofDecimal (negative : Bool) (digits : Nat) (exponent : Int) : Binary64 :=
  if digits = 0 then zero negative
  else
    let magnitude := (Nat.toDigits 10 digits).length + exponent
    if 310 < magnitude then infinite negative
    else if magnitude < -330 then zero negative
    else if 0 ≤ exponent then ofRatio negative (digits * Nat.pow 10 exponent.toNat) 1
    else ofRatio negative digits (Nat.pow 10 (-exponent).toNat)

/-! ## Reading decimal texts -/

/-- Whether the character is an ASCII decimal digit. -/
def isDigit (c : Char) : Bool := '0' ≤ c && c ≤ '9'

/-- The number written by decimal digits. -/
def digitsValue (cs : List Char) : Nat :=
  cs.foldl (fun acc c => acc * 10 + (c.toNat - '0'.toNat)) 0

/-- Takes one leading sign off; the flag says whether it was a minus. -/
def splitSign : List Char → Bool × List Char
  | '-' :: rest => (true, rest)
  | '+' :: rest => (false, rest)
  | cs => (false, cs)

/-- The exponent part of a number: nothing, or `e` or `E`, an optional sign and digits. -/
def readExponent? : List Char → Option Int
  | [] => some 0
  | mark :: rest =>
    if mark = 'e' ∨ mark = 'E' then
      let (negative, digits) := splitSign rest
      if digits.isEmpty || !digits.all isDigit then none
      else some (if negative then -(digitsValue digits) else digitsValue digits)
    else none

/-- A number: digits with an optional point, at least one digit on either side of it, and an
optional exponent part. -/
def readNumber? (negative : Bool) (cs : List Char) : Option Binary64 :=
  let whole := cs.takeWhile isDigit
  let afterWhole := cs.dropWhile isDigit
  let (fraction, rest) :=
    match afterWhole with
    | '.' :: tail => (tail.takeWhile isDigit, tail.dropWhile isDigit)
    | _ => ([], afterWhole)
  if whole.isEmpty && fraction.isEmpty then none
  else
    (readExponent? rest).map fun exponent =>
      ofDecimal negative (digitsValue (whole ++ fraction)) (exponent - fraction.length)

/-- The value a decimal text denotes: a number, `inf`, `infinity` or `nan`, the words in any
case, after an optional sign. Nothing else, a blank included, is read. -/
def read? (text : String) : Option Binary64 :=
  let (negative, body) := splitSign text.toList
  let word := body.map Char.toLower
  if word = "nan".toList then some nan
  else if word = "inf".toList ∨ word = "infinity".toList then some (infinite negative)
  else readNumber? negative body

end Binary64

end FormCompiler.Number
