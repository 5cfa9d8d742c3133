import FormCompiler.Decl.Namespace
import FormCompiler.Diagnostic.Report
import FormCompiler.Ir.Emit
import FormCompiler.Options
import FormCompiler.Symbol
import FormCompiler.Types.Pool

/-!
# The Compilation Context

The state that declarations and expressions of a unit share: its types, its module, its
diagnostics and its namespaces. One namespace is current; the namespaces around it, from the
innermost outwards, form its chain. Names are declared in the current namespace and looked up
along the chain.

A step that fails has reported an error before it stops, so nothing fails silently.
-/

namespace FormCompiler

/-- Why a step stops without a result. -/
inductive Halt where
  /-- At least one error was reported. -/
  | reported
  /-- The depth to which the step was followed did not suffice. -/
  | unfinished
deriving DecidableEq, Repr, Inhabited

/-- How a failure is written where a result is expected. -/
def Halt.text : Halt → String
  | reported => "error(s) emitted"
  | unfinished => "not finished"

/-- The state that all declarations and expressions of a unit share. -/
structure Context where
  pool : Pool
  ir : Ir.Module
  queue : Queue
  namespaces : Array Namespace
  /-- The namespaces entered and not left, innermost first, without the root. -/
  entered : List NamespaceId
  /-- The backend type of each struct and enum type that has a layout, the newest first. -/
  layouts : List (TypeId × Ir.TyId)
  onceTag : Option String
deriving Inhabited

/-- A step on the context that may stop. -/
abbrev Check := EStateM Halt Context

namespace Context

/-- The context of a unit in which nothing is declared. -/
def start (options : Options) : Context where
  pool := .start options.target
  ir := .empty options.moduleName
  queue := .empty options.diagnostics
  namespaces := #[.root]
  entered := []
  layouts := []
  onceTag := options.onceTag

/-! ## Steps on parts of the context -/

/-- A step that never stops. -/
def always {α : Type} (step : StateM Context α) : Check α := fun c =>
  let (a, c) := step c
  .ok a c

/-- A step on the module alone. -/
def onModule {α : Type} (step : StateM Ir.Module α) : StateM Context α := fun c =>
  match c with
  | ⟨pool, ir, queue, namespaces, entered, layouts, onceTag⟩ =>
    let (a, ir) := step ir
    (a, ⟨pool, ir, queue, namespaces, entered, layouts, onceTag⟩)

/-- A step on the pool alone. -/
def onPool {α : Type} (step : Pool → α × Pool) : StateM Context α := fun c =>
  match c with
  | ⟨pool, ir, queue, namespaces, entered, layouts, onceTag⟩ =>
    let (a, pool) := step pool
    (a, ⟨pool, ir, queue, namespaces, entered, layouts, onceTag⟩)

/-- Runs an operation on the module and hands out its refusal. -/
def attempt {α : Type} (op : Ir.Build α) : StateM Context (Except Ir.Error α) := fun c =>
  match c with
  | ⟨pool, ir, queue, namespaces, entered, layouts, onceTag⟩ =>
    match op ir with
    | .ok a ir => (.ok a, ⟨pool, ir, queue, namespaces, entered, layouts, onceTag⟩)
    | .error e ir => (.error e, ⟨pool, ir, queue, namespaces, entered, layouts, onceTag⟩)

/-- Reports an error. -/
def report (d : Diagnostic) : StateM Context PUnit := fun c =>
  (⟨⟩, { c with queue := c.queue.emitError d })

/-- Reports an error and stops. -/
def fail {α : Type} (d : Diagnostic) : Check α := fun c =>
  .error .reported { c with queue := c.queue.emitError d }

/-- Runs an operation on the module; its refusal is reported as the diagnostic it is turned into. -/
def emitOr {α : Type} (refusal : Ir.Error → Diagnostic) (op : Ir.Build α) : Check α := do
  match ← always (attempt op) with
  | .ok a => pure a
  | .error e => fail (refusal e)

/-- Runs an operation on the module; its refusal is reported at a place in the source. -/
def emit {α : Type} (span : Span) (op : Ir.Build α) : Check α :=
  emitOr (fun e => Report.backendError span e.message) op

/-- Printable form of a type. -/
def typeName (c : Context) (t : TypeId) : String := c.pool.format t

/-! ## Namespaces -/

/-- The current namespace and those around it, innermost first; the root comes last. -/
def chainIds (c : Context) : List NamespaceId := c.entered ++ [.root]

/-- The id of the current namespace. -/
def currentId (c : Context) : NamespaceId := c.entered.headD .root

/-- The namespace of an id. -/
def namespaceOf (c : Context) (id : NamespaceId) : Namespace := c.namespaces.getD id.index default

/-- The current namespace. -/
def current (c : Context) : Namespace := c.namespaceOf c.currentId

/-- The current namespace and those around it, innermost first. -/
def chain (c : Context) : List Namespace := c.chainIds.map c.namespaceOf

/-- The names from the root down to the current namespace. -/
def path (c : Context) : List String := c.current.path

/-- The namespace reached from one by a path of names. -/
def descend? (c : Context) : NamespaceId → List String → Option NamespaceId
  | id, [] => some id
  | id, name :: rest =>
    match (c.namespaceOf id).child? name with
    | some child => c.descend? child rest
    | none => none

/-- The namespace of a path from the root. -/
def namespaceAt? (c : Context) (path : List String) : Option Namespace :=
  (c.descend? .root path).map c.namespaceOf

/-- Enters the child namespace of a name, which is made if it is new. -/
def enter (name : String) : StateM Context NamespaceId := fun c =>
  match c.current.child? name with
  | some id => (id, { c with entered := id :: c.entered })
  | none =>
    let id : NamespaceId := ⟨c.namespaces.size⟩
    let parent := c.currentId
    let child := Namespace.child name parent c.current.chain
    (id, { c with
      namespaces := (c.namespaces.push child).modify parent.index (·.addChild name id)
      entered := id :: c.entered })

/-- Leaves the current namespace. The root is never left. -/
def leave : StateM Context PUnit := fun c => (⟨⟩, { c with entered := c.entered.tail })

/-! ## Registration -/

/-- Puts a changed namespace in the place of the current one, if there is one. -/
def update (c : Context) (changed? : Option Namespace) : Bool × Context :=
  match changed? with
  | some changed =>
    (true, { c with namespaces := c.namespaces.setIfInBounds c.currentId.index changed })
  | none => (false, c)

/-- Registers an enum in the current namespace unless the name is taken. -/
def addEnum (name : String) (e : Enum) : StateM Context Bool := fun c =>
  c.update (c.current.addEnum? name e)

/-- Registers a struct in the current namespace unless the name is taken. -/
def addStruct (name : String) (s : Struct) : StateM Context Bool := fun c =>
  c.update (c.current.addStruct? name s)

/-- Registers an overload in the current namespace unless there is one with the same parameter
types. -/
def addFunction (f : Function) : StateM Context Bool := fun c =>
  c.update (c.current.addFunction? f)

/-- The current namespace has an enum of this name. -/
def hasLocalEnum (c : Context) (name : String) : Bool := (c.current.enum? name).isSome

/-- The current namespace has a struct of this name. -/
def hasLocalStruct (c : Context) (name : String) : Bool := (c.current.struct? name).isSome

/-- Gives a struct or enum type its backend type. -/
def setLayout (t : TypeId) (backend : Ir.TyId) : StateM Context PUnit := fun c =>
  (⟨⟩, { c with layouts := (t, backend) :: c.layouts })

/-! ## Lookup -/

/-- The enum of a name. -/
def lookupEnum? (c : Context) (name : String) : Option Enum :=
  c.chain.findSome? fun ns => ns.enum? name

/-- The struct of a name. -/
def lookupStruct? (c : Context) (name : String) : Option Struct :=
  c.chain.findSome? fun ns => ns.struct? name

/-- The type of a name. Primitive types come first, and in each namespace an enum comes before the
struct that backs it. -/
def lookupType? (c : Context) (name : String) : Option TypeId :=
  match TypeId.ofPrimitiveName? name with
  | some t => some t
  | none => c.chain.findSome? fun ns =>
    ((ns.enum? name).map (·.ty)).or ((ns.struct? name).map (·.ty))

/-- The struct registered for a struct type. -/
def structOfType? (c : Context) (t : TypeId) : Option Struct :=
  match c.pool.type t with
  | .struct name path => (c.namespaceAt? path).bind (·.struct? name)
  | _ => none

/-- The enum registered for an enum type. -/
def enumOfType? (c : Context) (t : TypeId) : Option Enum :=
  match c.pool.type t with
  | .enum name path => (c.namespaceAt? path).bind (·.enum? name)
  | _ => none

/-- The overload of a name that takes arguments of exactly these types, innermost namespace
first. -/
def lookupFunction? (c : Context) (name : String) (arguments : List TypeId) : Option Function :=
  c.chain.findSome? fun ns => ns.overload? name arguments

/-- Some function of the chain has the name. -/
def hasFunction (c : Context) (name : String) : Bool := c.chain.any (·.hasFunction name)

/-! ## Symbols -/

/-- The symbol of a name declared in the current namespace. -/
def symbol (c : Context) (name : String) : String := Symbol.ofName c.path name

/-- The backend name of a struct declared in the current namespace. -/
def structSymbol (c : Context) (name : String) : String := Symbol.ofStruct c.path name

/-- The symbol of an overload declared in the current namespace. -/
def functionSymbol (c : Context) (name : String) (params : List TypeId) : String :=
  Symbol.ofFunction c.path name (params.map c.typeName)

end Context

end FormCompiler
