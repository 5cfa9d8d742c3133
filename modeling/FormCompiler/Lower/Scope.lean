import FormCompiler.Ir.Basic
import FormCompiler.Types.Pool

/-!
# Local Variables

The variables of one function body. A variable is a value by itself or lives in a stack slot.
-/

namespace FormCompiler

/-- Where the value of a variable is. -/
inductive Storage where
  /-- In a slot: the address of a value of the variable's type. -/
  | slot (address : Ir.ValueId)
  /-- A value without storage. -/
  | value (value : Ir.ValueId)
deriving DecidableEq, Repr, Inhabited

/-- A variable. -/
structure Variable where
  ty : TypeId
  storage : Storage
deriving DecidableEq, Repr, Inhabited

/-- The variables of a body, one for each name. -/
structure Scope where
  bindings : List (String × Variable)
deriving DecidableEq, Repr

namespace Scope

/-- The scope without variables. -/
def empty : Scope := ⟨[]⟩

instance : Inhabited Scope := ⟨empty⟩

/-- The variable of a name. -/
def lookup? (s : Scope) (name : String) : Option Variable := s.bindings.lookup name

/-- Binds a name and returns the variable it stood for before. -/
def bind (s : Scope) (name : String) (v : Variable) : Option Variable × Scope :=
  (s.lookup? name, ⟨(name, v) :: s.bindings.filter fun b => b.1 != name⟩)

/-- Number of variables. -/
def size (s : Scope) : Nat := s.bindings.length

end Scope

end FormCompiler
