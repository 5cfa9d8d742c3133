/-!
# Primitive Types

The types every program has, and the widths that depend on the target.
-/

namespace FormCompiler

/-- The primitive types. -/
inductive Primitive where
  | void
  | bool
  | char
  | int
  | uint
  | int8
  | int16
  | int32
  | int64
  | int128
  | uint8
  | uint16
  | uint32
  | uint64
  | uint128
  | intptr
  | size
  | ptrdiff
  | float
  | double
  | longDouble
deriving DecidableEq, Repr, Inhabited

/-- Widths in bits that depend on the target. -/
structure Target where
  /-- Width of `int` and `uint`. -/
  intWidth : Nat
  /-- Width of `intptr`, `size` and `ptrdiff`. -/
  pointerWidth : Nat
  /-- Width of `long-double`. -/
  longDoubleWidth : Nat
deriving DecidableEq, Repr

namespace Target

/-- A target with 32-bit integers, 64-bit pointers and 128-bit long doubles. -/
def standard : Target := ⟨32, 64, 128⟩

instance : Inhabited Target := ⟨standard⟩

end Target

namespace Primitive

/-- All primitive types, in the order of their ids. -/
def all : List Primitive :=
  [void, bool, char, int, uint, int8, int16, int32, int64, int128, uint8, uint16, uint32, uint64,
   uint128, intptr, size, ptrdiff, float, double, longDouble]

/-- The source name of a primitive type. -/
def name : Primitive → String
  | void => "void"
  | bool => "bool"
  | char => "char"
  | int => "int"
  | uint => "uint"
  | int8 => "int8"
  | int16 => "int16"
  | int32 => "int32"
  | int64 => "int64"
  | int128 => "int128"
  | uint8 => "uint8"
  | uint16 => "uint16"
  | uint32 => "uint32"
  | uint64 => "uint64"
  | uint128 => "uint128"
  | intptr => "intptr"
  | size => "size"
  | ptrdiff => "ptrdiff"
  | float => "float"
  | double => "double"
  | longDouble => "long-double"

/-- The primitive type of a source name. -/
def ofName? (text : String) : Option Primitive := all.find? fun p => p.name == text

/-- The position in `all`, which is also the index of the type's id. -/
def index : Primitive → Nat
  | void => 0
  | bool => 1
  | char => 2
  | int => 3
  | uint => 4
  | int8 => 5
  | int16 => 6
  | int32 => 7
  | int64 => 8
  | int128 => 9
  | uint8 => 10
  | uint16 => 11
  | uint32 => 12
  | uint64 => 13
  | uint128 => 14
  | intptr => 15
  | size => 16
  | ptrdiff => 17
  | float => 18
  | double => 19
  | longDouble => 20

theorem getElem?_all_index (p : Primitive) : all[p.index]? = some p := by cases p <;> rfl

/-- Width of an integer type on a target; other types have none. `char` is an integer type of
eight bits and `bool` is none. -/
def intWidth? (target : Target) : Primitive → Option Nat
  | char | int8 | uint8 => some 8
  | int16 | uint16 => some 16
  | int32 | uint32 => some 32
  | int64 | uint64 => some 64
  | int128 | uint128 => some 128
  | int | uint => some target.intWidth
  | intptr | size | ptrdiff => some target.pointerWidth
  | void | bool | float | double | longDouble => none

/-- Width of a floating-point type on a target; other types have none. -/
def floatWidth? (target : Target) : Primitive → Option Nat
  | float => some 32
  | double => some 64
  | longDouble => some target.longDoubleWidth
  | _ => none

/-- The type is an integer type. -/
def isInteger : Primitive → Bool
  | void | bool | float | double | longDouble => false
  | _ => true

/-- The type is an integer type with negative values. -/
def isSigned : Primitive → Bool
  | char | int | int8 | int16 | int32 | int64 | int128 | intptr | ptrdiff => true
  | _ => false

/-- The type is a floating-point type. -/
def isFloat : Primitive → Bool
  | float | double | longDouble => true
  | _ => false

end Primitive

end FormCompiler
