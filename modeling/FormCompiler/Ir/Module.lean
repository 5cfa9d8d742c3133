import FormCompiler.Ir.Basic

/-!
# Modules

A module holds the types, values, blocks and functions made so far, each at the index of its id.
Entries are only ever added; of an existing entry only the end of an open block and the block list
of a function change.

Unnamed types are entered once, so two of them are the same exactly when their ids are equal. A
named struct has an id of its own. The fields and the pointee of a type are entered before it, so
they have smaller ids.
-/

namespace FormCompiler.Ir

/-- A module under construction. -/
structure Module where
  name : String
  types : Array Ty
  values : Array Value
  blocks : Array Block
  functions : Array Function
deriving Repr, Inhabited

namespace Module

/-- The module without any entry. -/
def empty (name : String) : Module := ⟨name, #[], #[], #[], #[]⟩

/-! ## Reading -/

/-- The type of an id. -/
def type (m : Module) (t : TyId) : Ty := m.types.getD t.index default

/-- The type of a value. -/
def valueType (m : Module) (v : ValueId) : TyId := (m.values.getD v.index default).ty

/-- What a value is. -/
def valueKind (m : Module) (v : ValueId) : ValueKind := (m.values.getD v.index default).kind

/-- The function of an id. -/
def function (m : Module) (f : FuncId) : Function := m.functions.getD f.index default

/-- The block of an id. -/
def block (m : Module) (b : BlockId) : Block := m.blocks.getD b.index default

/-- The block is closed. -/
def isTerminated (m : Module) (b : BlockId) : Bool := (m.block b).terminator.isSome

/-- The pointee of a pointer type. -/
def pointee? (m : Module) (t : TyId) : Option TyId :=
  match m.type t with
  | .pointer pointee => some pointee
  | _ => none

/-- The width of an integer type. -/
def intWidth? (m : Module) (t : TyId) : Option Nat :=
  match m.type t with
  | .int bits => some bits
  | _ => none

/-- The id of an unnamed type that is in the module. -/
def findType? (m : Module) (ty : Ty) : Option TyId :=
  (m.types.findIdx? (· == ty)).map TyId.mk

/-- The type is the struct of this name. -/
def isStructNamed (name : String) : Ty → Bool
  | .struct (some other) _ => other == name
  | _ => false

/-- The struct type of a name. -/
def lookupStruct? (m : Module) (name : String) : Option TyId :=
  (m.types.findIdx? (isStructNamed name)).map TyId.mk

/-- The function of a symbol. -/
def lookupFunction? (m : Module) (symbol : String) : Option FuncId :=
  (m.functions.findIdx? (·.symbol == symbol)).map FuncId.mk

/-- The parameter of a function at an index. -/
def param? (m : Module) (f : FuncId) (index : Nat) : Option ValueId :=
  (m.function f).params[index]?

/-! ## Names of types -/

/-- Written form of a type whose id is below `bound`. -/
def typeNameBelow (m : Module) : (bound : Nat) → TyId → String
  | 0, _ => ""
  | bound + 1, t =>
    match m.type t with
    | .void => "void"
    | .int bits => "i" ++ toString bits
    | .float 32 => "float"
    | .float 64 => "double"
    | .float bits => "f" ++ toString bits
    | .pointer pointee => m.typeNameBelow bound pointee ++ "*"
    | .struct (some name) _ => "%" ++ name
    | .struct none fields =>
      "\x7b " ++ ", ".intercalate (fields.map (m.typeNameBelow bound)) ++ " \x7d"

/-- Written form of a type: `i32`, `i8*`, the name of a named struct, the fields of another. -/
def typeName (m : Module) (t : TyId) : String := m.typeNameBelow (t.index + 1) t

end Module

end FormCompiler.Ir
