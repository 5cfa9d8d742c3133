import FormCompiler.Number.Binary64

/-!
# Typed Intermediate Representation

The entities of a module in static single assignment form: types, values, instructions, blocks and
functions, each known by the index of its id. Pointers are typed, so loads and stores can be
checked; named structs are nominal, all other types structural.
-/

namespace FormCompiler.Ir

/-- Id of a value: an instruction result, a parameter or a constant. -/
structure ValueId where
  index : Nat
deriving DecidableEq, Repr, Inhabited

/-- Id of a block, unique across the module. -/
structure BlockId where
  index : Nat
deriving DecidableEq, Repr, Inhabited

/-- Id of a function. -/
structure FuncId where
  index : Nat
deriving DecidableEq, Repr, Inhabited

/-- Id of a type. -/
structure TyId where
  index : Nat
deriving DecidableEq, Repr, Inhabited

/-- How a value is written. -/
def ValueId.text (v : ValueId) : String := "%v" ++ toString v.index

/-- How a block is written in messages. -/
def BlockId.text (b : BlockId) : String := "bb" ++ toString b.index

/-- How a function is written in messages. -/
def FuncId.text (f : FuncId) : String := "fn" ++ toString f.index

/-- What a type is. -/
inductive Ty where
  | void
  | int (bits : Nat)
  | float (bits : Nat)
  | pointer (pointee : TyId)
  /-- A struct without a name is structural, one with a name nominal. -/
  | struct (name : Option String) (fields : List TyId)
deriving DecidableEq, Repr, Inhabited

/-- What a value is. -/
inductive ValueKind where
  /-- An integer constant, by the bit pattern in the low bits of its type's width. -/
  | constInt (raw : Nat)
  | constFloat (value : Number.Binary64)
  | undefined
  /-- The parameter of a function at an index. -/
  | param (func : FuncId) (index : Nat)
  /-- The result of an instruction. -/
  | result
  /-- A pointer to a constant text. -/
  | text (text : String)
deriving DecidableEq, Repr, Inhabited

/-- A value and its type. -/
structure Value where
  ty : TyId
  kind : ValueKind
deriving DecidableEq, Repr, Inhabited

/-- Predicates of integer comparisons. -/
inductive IntPredicate where
  | eq
  | ne
  | slt
  | sle
  | sgt
  | sge
  | ult
  | ule
  | ugt
  | uge
deriving DecidableEq, Repr

namespace IntPredicate

/-- All predicates. -/
def all : List IntPredicate := [eq, ne, slt, sle, sgt, sge, ult, ule, ugt, uge]

/-- How a predicate is written. -/
def text : IntPredicate → String
  | eq => "eq"
  | ne => "ne"
  | slt => "slt"
  | sle => "sle"
  | sgt => "sgt"
  | sge => "sge"
  | ult => "ult"
  | ule => "ule"
  | ugt => "ugt"
  | uge => "uge"

/-- The predicate with this written form. -/
def ofText? (s : String) : Option IntPredicate := all.find? fun p => p.text == s

end IntPredicate

/-- An instruction inside a block. -/
inductive Instr where
  /-- `dst` points to a new stack slot for one `ty`. -/
  | alloca (dst : ValueId) (ty : TyId)
  /-- `dst` is what the pointer points to. -/
  | load (dst : ValueId) (pointer : ValueId)
  /-- What the pointer points to becomes `value`. -/
  | store (value : ValueId) (pointer : ValueId)
  /-- A call; a callee without a result gives none. -/
  | call (dst : Option ValueId) (callee : FuncId) (arguments : List ValueId)
  /-- `dst` is the field of an aggregate at an index. -/
  | extractValue (dst : ValueId) (aggregate : ValueId) (index : Nat)
  /-- `dst` is the aggregate with `value` as the field at an index. -/
  | insertValue (dst : ValueId) (aggregate : ValueId) (value : ValueId) (index : Nat)
  /-- `dst` is the truth of an integer comparison. -/
  | icmp (dst : ValueId) (predicate : IntPredicate) (lhs rhs : ValueId)
  /-- `dst` is the value that comes with the block control came from. -/
  | phi (dst : ValueId) (incoming : List (ValueId × BlockId))
deriving DecidableEq, Repr

namespace Instr

/-- The value an instruction defines. -/
def dst? : Instr → Option ValueId
  | alloca dst _ => some dst
  | load dst _ => some dst
  | store _ _ => none
  | call dst _ _ => dst
  | extractValue dst _ _ => some dst
  | insertValue dst _ _ _ => some dst
  | icmp dst _ _ _ => some dst
  | phi dst _ => some dst

/-- The values an instruction uses. -/
def uses : Instr → List ValueId
  | alloca _ _ => []
  | load _ pointer => [pointer]
  | store value pointer => [value, pointer]
  | call _ _ arguments => arguments
  | extractValue _ aggregate _ => [aggregate]
  | insertValue _ aggregate value _ => [aggregate, value]
  | icmp _ _ lhs rhs => [lhs, rhs]
  | phi _ incoming => incoming.map (·.1)

end Instr

/-- How a block ends. -/
inductive Terminator where
  | ret (value : Option ValueId)
  | br (target : BlockId)
  | condBr (condition : ValueId) (onTrue onFalse : BlockId)
  | unreachable
deriving DecidableEq, Repr

namespace Terminator

/-- The blocks control may go to. -/
def successors : Terminator → List BlockId
  | ret _ => []
  | br target => [target]
  | condBr _ onTrue onFalse => [onTrue, onFalse]
  | unreachable => []

/-- The values a terminator uses. -/
def uses : Terminator → List ValueId
  | ret value => value.toList
  | br _ => []
  | condBr condition _ _ => [condition]
  | unreachable => []

end Terminator

/-- A basic block: instructions and, once it is closed, how it ends. -/
structure Block where
  func : FuncId
  label : String
  instrs : Array Instr
  terminator : Option Terminator
deriving Repr, Inhabited

/-- Visibility of a symbol outside its unit. -/
inductive Linkage where
  | internal
  | external
deriving DecidableEq, Repr, Inhabited

/-- How a linkage is written in a module. -/
def Linkage.text : Linkage → String
  | internal => "internal"
  | external => "external"

/-- A function: its signature, and its blocks if it has a body. -/
structure Function where
  symbol : String
  params : List ValueId
  ret : TyId
  linkage : Linkage
  blocks : Array BlockId
deriving Repr, Inhabited

namespace Function

/-- A function without blocks is only declared. -/
def isDeclaration (f : Function) : Bool := f.blocks.isEmpty

end Function

/-- Why an operation on a module is refused. -/
inductive Error where
  | duplicateSymbol (symbol : String)
  | blockTerminated (block : BlockId)
  | notAPointer (found : String)
  | typeMismatch (expected found : String)
  | indexOutOfRange (index : Nat) (ty : String)
  | argumentCount (callee : String) (expected found : Nat)
  | invalidLiteral (text : String)
  /-- The type is written `i` or `u` and the number of bits. -/
  | literalOutOfRange (text : String) (ty : String)
deriving DecidableEq, Repr, Inhabited

namespace Error

/-- The text of an error. -/
def message : Error → String
  | duplicateSymbol symbol => "symbol `" ++ symbol ++ "` already has a distinct definition"
  | blockTerminated block => "block " ++ block.text ++ " is already terminated"
  | notAPointer found => "expected a pointer operand, found `" ++ found ++ "`"
  | typeMismatch expected found => "expected `" ++ expected ++ "`, found `" ++ found ++ "`"
  | indexOutOfRange index ty => "index " ++ toString index ++ " is out of range for `" ++ ty ++ "`"
  | argumentCount callee expected found =>
    "`" ++ callee ++ "` takes " ++ toString expected ++ " argument(s), " ++ toString found ++
      " supplied"
  | invalidLiteral text => "invalid integer literal `" ++ text ++ "`"
  | literalOutOfRange text ty =>
    "integer literal `" ++ text ++ "` is out of range for `" ++ ty ++ "`"

end Error

end FormCompiler.Ir
