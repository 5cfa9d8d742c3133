import FormCompiler.Number.Binary64

/-!
# Shortest Decimal Texts

The decimal text of a binary floating-point value with the fewest digits that read back as the
value. Every value has an interval of rationals that round to it. For one digit, two digits and
so on, the two neighbours of the value among the decimals with that many digits are tested against
the interval; the first count with a hit wins, and of two hits the nearer, a tie going up.

All comparisons are between natural numbers: the value and the ends of its interval are held as
multiples of a common unit.
-/

namespace FormCompiler.Number

/-- A positive value and the interval that rounds to it, in units of `1 / scale`: the value is
`value / scale`, and the interval reaches down by `below / scale` and up by `above / scale`. Its
ends belong to it if `closed`. -/
structure Interval where
  value : Nat
  scale : Nat
  below : Nat
  above : Nat
  closed : Bool
deriving Repr

namespace Interval

/-- The interval that rounds to `significand * 2 ^ exponent`. The lower neighbour of a power of two
is half as far away as the upper one. -/
def ofFinite (significand : Nat) (exponent : Int) : Interval :=
  let closed := significand % 2 = 0
  let atPower := significand = Nat.pow 2 (Binary64.precision - 1)
  let (up, down) := if 0 ≤ exponent then (exponent.toNat, 0) else (0, (-exponent).toNat)
  -- in quarters of the last place
  { value := (4 * significand) <<< up
    scale := 4 <<< down
    below := (if atPower then 1 else 2) <<< up
    above := 2 <<< up
    closed }

/-- Whether `num / den` lies in the interval. -/
def contains (i : Interval) (num den : Nat) : Bool :=
  let x := num * i.scale
  let low := (i.value - i.below) * den
  let high := (i.value + i.above) * den
  if i.closed then low ≤ x && x ≤ high else low < x && x < high

end Interval

/-- Decimal digits and a scale: the number `digits * 10 ^ exponent`. -/
structure Decimal where
  digits : Nat
  exponent : Int
deriving DecidableEq, Repr, Inhabited

/-- The exponent `k` with `10 ^ (k - 1) ≤ num / den < 10 ^ k`, searched upward from a start that is
not above it. -/
def decimalExponent (num den : Nat) : Nat → Int → Int
  | 0, k => k
  | fuel + 1, k =>
    let reached :=
      if 0 ≤ k then num < den * Nat.pow 10 k.toNat else num * Nat.pow 10 (-k).toNat < den
    if reached then k else decimalExponent num den fuel (k + 1)

/-- The decimal of the interval nearest to its value on the grid of multiples of `10 ^ exponent`,
if one of the two neighbours of the value there lies in the interval. -/
def gridPoint? (i : Interval) (exponent : Int) : Option Decimal :=
  let (stepNum, stepDen) :=
    if 0 ≤ exponent then (Nat.pow 10 exponent.toNat, 1)
    else (1, Nat.pow 10 (-exponent).toNat)
  let num := i.value * stepDen
  let den := i.scale * stepNum
  let low := num / den
  let lowIn := i.contains (low * stepNum) stepDen
  let highIn := i.contains ((low + 1) * stepNum) stepDen
  let nearerLow := 2 * (num % den) < den
  if lowIn && (nearerLow || !highIn) then some ⟨low, exponent⟩
  else if highIn then some ⟨low + 1, exponent⟩
  else none

/-- Tries the grids of one more digit each, `fuel` times, starting with the one of step
`10 ^ exponent`. -/
def shortestFrom (i : Interval) : Nat → Int → Decimal
  | 0, exponent => ⟨i.value / i.scale, exponent⟩
  | fuel + 1, exponent => (gridPoint? i exponent).getD (shortestFrom i fuel (exponent - 1))

/-- The shortest decimal that reads back as the positive value `significand * 2 ^ exponent`.
Seventeen digits always suffice. -/
def shortestDecimal (significand : Nat) (exponent : Int) : Decimal :=
  let i := Interval.ofFinite significand exponent
  -- a first guess below the exponent: 10 ^ k ≤ 2 ^ l for k ≤ l * 0.301
  let l : Int := Binary64.leadingExponent i.value i.scale
  let k := decimalExponent i.value i.scale 4 (l * 30103 / 100000)
  shortestFrom i 18 (k - 1)

namespace Binary64

/-- The digits of a positive number without the zeros at its end, and how many were dropped. -/
def trimZeros (digits : List Char) : List Char :=
  (digits.reverse.dropWhile (· = '0')).reverse

/-- Positional text of the digits `0.digits * 10 ^ point`, with at least one digit on either side
of the decimal point. -/
def positional (digits : List Char) (point : Int) : List Char :=
  if point ≤ 0 then
    ['0', '.'] ++ List.replicate (-point).toNat '0' ++ digits
  else if digits.length ≤ point.toNat then
    digits ++ List.replicate (point.toNat - digits.length) '0' ++ ['.', '0']
  else digits.take point.toNat ++ '.' :: digits.drop point.toNat

/-- Scientific text of the digits `0.digits * 10 ^ point`: one digit, the others after a point if
there are any, and the exponent without padding or plus sign. -/
def scientific (digits : List Char) (point : Int) : List Char :=
  let mantissa :=
    match digits with
    | [] => []
    | [d] => [d]
    | d :: rest => d :: '.' :: rest
  mantissa ++ 'e' :: (toString (point - 1)).toList

/-- Text of a finite magnitude. Values from `1e-4` up to but not including `1e16` are written
positionally, others in scientific form. -/
def magnitudeText (significand : Nat) (exponent : Int) : List Char :=
  if significand = 0 then ['0', '.', '0']
  else
    let d := shortestDecimal significand exponent
    let all := Nat.toDigits 10 d.digits
    let point := d.exponent + all.length
    let digits := trimZeros all
    if -4 < point ∧ point ≤ 16 then positional digits point else scientific digits point

/-- The shortest text that reads back as the value. -/
def text : Binary64 → String
  | nan => "NaN"
  | infinite negative => if negative then "-inf" else "inf"
  | finite negative m e =>
    String.ofList ((if negative then ['-'] else []) ++ magnitudeText m e)

end Binary64

end FormCompiler.Number
