import FormCompiler.Decl.Linkage
import FormCompiler.Types.Pool

/-!
# Structs and Functions

What a namespace records of a declared struct and of one overload of a function.
-/

namespace FormCompiler

/-- A registered struct. -/
structure Struct where
  linkage : Ir.Linkage
  onceTag : Option String
  ty : TypeId
  backend : Ir.TyId
  /-- The name of the backend type. -/
  symbol : String
  members : List (String × TypeId)
deriving Repr, Inhabited, DecidableEq

namespace Struct

/-- The position of a member. -/
def memberIndex? (s : Struct) (name : String) : Option Nat :=
  s.members.findIdx? fun m => m.1 == name

/-- The type of a member. -/
def memberType? (s : Struct) (name : String) : Option TypeId :=
  (s.members.find? fun m => m.1 == name).map (·.2)

/-- The types of the members, in the order of declaration. -/
def memberTypes (s : Struct) : List TypeId := s.members.map (·.2)

end Struct

/-- A parameter of a function. -/
structure Param where
  name : String
  ty : TypeId
deriving DecidableEq, Repr, Inhabited

/-- One overload of a function. -/
structure Function where
  name : String
  params : List Param
  returnType : TypeId
  linkage : Ir.Linkage
  symbol : String
  backend : Ir.FuncId
deriving Repr, Inhabited, DecidableEq

namespace Function

/-- The types of the parameters. -/
def paramTypes (f : Function) : List TypeId := f.params.map (·.ty)

/-- The overload takes arguments of exactly these types. -/
def accepts (f : Function) (arguments : List TypeId) : Bool := f.paramTypes == arguments

end Function

end FormCompiler
