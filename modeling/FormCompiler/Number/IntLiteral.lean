/-!
# Integer Literals

The grammar of integer literals and the bit patterns they denote. A literal is an optional sign
followed by one or more decimal digits, or by `0x` or `0X` and one or more hexadecimal digits.
It denotes an integer; at a given width and signedness the integer is either in range, and then
its bit pattern is the integer modulo `2 ^ bits`, or the literal is refused. Nothing wraps.

The bit pattern is computed in words of 128 bits, the greatest width there is. Digits that write a
number without a word are out of range at any width.
-/

namespace FormCompiler.Number

/-- Value of an ASCII digit in the given radix, at most sixteen. -/
def digitValue? (radix : Nat) (c : Char) : Option Nat :=
  let value? :=
    if '0' ≤ c ∧ c ≤ '9' then some (c.toNat - '0'.toNat)
    else if 'a' ≤ c ∧ c ≤ 'f' then some (c.toNat - 'a'.toNat + 10)
    else if 'A' ≤ c ∧ c ≤ 'F' then some (c.toNat - 'A'.toNat + 10)
    else none
  value?.filter (· < radix)

/-- The number written by the digits, most significant first, after the digits of `acc`. -/
def readDigits? (radix : Nat) (acc : Nat) : List Char → Option Nat
  | [] => some acc
  | c :: rest =>
    match digitValue? radix c with
    | some d => readDigits? radix (acc * radix + d) rest
    | none => none

/-- Takes one leading sign off; the flag says whether it was a minus. -/
def splitSign : List Char → Bool × List Char
  | '-' :: rest => (true, rest)
  | '+' :: rest => (false, rest)
  | cs => (false, cs)

/-- Takes the mark of a hexadecimal body off; the number is the radix of what is left. -/
def splitRadix : List Char → Nat × List Char
  | '0' :: 'x' :: rest => (16, rest)
  | '0' :: 'X' :: rest => (16, rest)
  | cs => (10, cs)

/-- The bit pattern of an integer at a width: the integer modulo `2 ^ bits`. -/
def wrap (bits : Nat) (v : Int) : Nat := (v % Int.pow 2 bits).toNat

/-- The integer that a bit pattern stands for in two's complement: the one congruent to it from
`-2 ^ (bits - 1)` up to `2 ^ (bits - 1) - 1`. -/
def signed (bits : Nat) (raw : Nat) : Int := Int.bmod raw (Nat.pow 2 bits)

/-- Why a literal has no bit pattern at a type. -/
inductive LiteralError where
  /-- The text is not an integer literal. -/
  | malformed
  /-- The integer it denotes is not a value of the type. -/
  | outOfRange
deriving DecidableEq, Repr

/-- The unsigned integers below `2 ^ 128`. -/
abbrev Word := BitVec 128

/-- The word whose low `bits` bits are set. -/
def mask (bits : Nat) : Word := if 128 ≤ bits then BitVec.allOnes 128 else 1#128 <<< bits - 1#128

/-- Whether the integer with this sign and magnitude is a value of the integer type. There is one
more negative value than there are positive ones, and `-0` is unsigned. -/
def fits (bits : Nat) (signed negative : Bool) (magnitude : Word) : Bool :=
  if signed then
    let greatest := mask (bits - 1)
    if negative then magnitude.ule (greatest + 1) else magnitude.ule greatest
  else magnitude.ule (mask bits) && (!negative || magnitude == 0)

/-- The low bits of an integer with this sign and magnitude. -/
def lowBits (bits : Nat) (negative : Bool) (magnitude : Word) : Word :=
  (if negative then -magnitude else magnitude) &&& mask bits

/-- The bit pattern of an integer literal at a width and signedness. -/
def parseInt (text : String) (bits : Nat) (signed : Bool) : Except LiteralError Nat :=
  let (negative, body) := splitSign text.toList
  let (radix, digits) := splitRadix body
  if digits.isEmpty then .error .malformed
  else
    match readDigits? radix 0 digits with
    | none => .error .malformed
    | some n =>
      if Nat.pow 2 128 ≤ n then .error .outOfRange
      else
        let magnitude : Word := BitVec.ofNat 128 n
        if fits bits signed negative magnitude then .ok (lowBits bits negative magnitude).toNat
        else .error .outOfRange

end FormCompiler.Number
