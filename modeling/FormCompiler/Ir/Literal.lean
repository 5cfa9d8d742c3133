import FormCompiler.Ir.Basic
import FormCompiler.Number.IntLiteral

/-!
# Integer Literals of the Representation

The bit pattern of a literal at an integer type, with refusals as errors of the module.
-/

namespace FormCompiler.Ir

/-- How an integer type is written in an error: `i` or `u` and the number of bits. -/
def intTypeText (bits : Nat) (signed : Bool) : String :=
  (if signed then "i" else "u") ++ toString bits

/-- The bit pattern of an integer literal at a width and signedness. -/
def parseIntLiteral (text : String) (bits : Nat) (signed : Bool) : Except Error Nat :=
  match Number.parseInt text bits signed with
  | .ok raw => .ok raw
  | .error .malformed => .error (.invalidLiteral text)
  | .error .outOfRange => .error (.literalOutOfRange text (intTypeText bits signed))

end FormCompiler.Ir
