import FormCompiler.Decl.Basic
import FormCompiler.Decl.Enum

/-!
# Namespaces

A namespace holds its own declarations and the ids of its children. Enums and structs are held
apart, so an enum and the struct that backs it share a name. A name is never declared twice, and a
declaration is never changed or removed.
-/

namespace FormCompiler

/-- Id of a namespace: its index in the context. -/
structure NamespaceId where
  index : Nat
deriving DecidableEq, Repr, Inhabited

/-- The unnamed namespace around all others. -/
def NamespaceId.root : NamespaceId := ⟨0⟩

/-- One namespace. -/
structure Namespace where
  /-- The root has no name. -/
  name : Option String
  parent : Option NamespaceId
  /-- The names of this namespace and those around it, innermost first, without the root. -/
  chain : List String
  children : List (String × NamespaceId)
  enums : List (String × Enum)
  structs : List (String × Struct)
  functions : Array Function
deriving Repr, Inhabited

namespace Namespace

/-- The root namespace, without declarations. -/
def root : Namespace := ⟨none, none, [], [], [], [], #[]⟩

/-- A child namespace, without declarations. -/
def child (name : String) (parent : NamespaceId) (parentChain : List String) : Namespace :=
  { root with name := some name, parent := some parent, chain := name :: parentChain }

/-- The names from the root down to and including this namespace. -/
def path (ns : Namespace) : List String := ns.chain.reverse

/-- The child of a name. -/
def child? (ns : Namespace) (name : String) : Option NamespaceId := ns.children.lookup name

/-- The enum of a name. -/
def enum? (ns : Namespace) (name : String) : Option Enum := ns.enums.lookup name

/-- The struct of a name. -/
def struct? (ns : Namespace) (name : String) : Option Struct := ns.structs.lookup name

/-- The overloads of a name, in the order of declaration. -/
def overloads (ns : Namespace) (name : String) : List Function :=
  ns.functions.toList.filter fun f => f.name == name

/-- The overload of a name that takes arguments of exactly these types. -/
def overload? (ns : Namespace) (name : String) (arguments : List TypeId) : Option Function :=
  ns.functions.find? fun f => f.name == name && f.accepts arguments

/-- Some function has the name. -/
def hasFunction (ns : Namespace) (name : String) : Bool :=
  ns.functions.any fun f => f.name == name

/-- Adds a child. -/
def addChild (ns : Namespace) (name : String) (id : NamespaceId) : Namespace :=
  { ns with children := (name, id) :: ns.children }

/-- Adds an enum unless the name is taken. -/
def addEnum? (ns : Namespace) (name : String) (e : Enum) : Option Namespace :=
  if (ns.enum? name).isSome then none else some { ns with enums := (name, e) :: ns.enums }

/-- Adds a struct unless the name is taken. -/
def addStruct? (ns : Namespace) (name : String) (s : Struct) : Option Namespace :=
  if (ns.struct? name).isSome then none else some { ns with structs := (name, s) :: ns.structs }

/-- Adds an overload unless there is one with the same parameter types. -/
def addFunction? (ns : Namespace) (f : Function) : Option Namespace :=
  if (ns.overload? f.name f.paramTypes).isSome then none
  else some { ns with functions := ns.functions.push f }

end Namespace

end FormCompiler
