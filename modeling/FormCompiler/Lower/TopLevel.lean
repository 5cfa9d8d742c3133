import FormCompiler.Lower.EnumDeclaration
import FormCompiler.Lower.FunctionDeclaration

/-!
# Top-Level Forms

The forms of a unit are namespaces, `(namespace name form...)`, and definitions, `(def name body)`,
where the body declares an enum, a struct or a function. Any other list is offered to the macro
expander. A form that fails does not stop the forms after it.

The forms inside a namespace form start with all expansions left, so an expansion to a namespace
form is not counted against its contents. The nesting of namespaces is therefore bounded by itself.
-/

namespace FormCompiler.Lower

variable {σ : Type}

/-- The greatest depth of namespace forms inside each other. -/
def maxNamespaceDepth : Nat := Nat.pow 2 32

/-- Processes every form and fails if one of them failed. -/
def every (step : NodeId → Lower σ PUnit) : List NodeId → Lower σ PUnit
  | [] => return ⟨⟩
  | node :: nodes => fun u =>
    match step node u with
    | .ok _ u => every step nodes u
    | .error .unfinished u => .error .unfinished u
    | .error .reported u =>
      match every step nodes u with
      | .ok _ u => .error .reported u
      | .error e u => .error e u

/-- Processes a namespace form: its forms by `inner`, inside the namespace. -/
def namespaceForm (inner : List NodeId → Lower σ PUnit) (node : NodeId)
    (arguments : List NodeId) : Lower σ PUnit := do
  match arguments with
  | [] => fail (Report.tooFewArguments (← span node) "namespace" 1 0)
  | nameNode :: nodes => do
    let name ← expectSymbol nameNode "namespace name"
    let _ ← onState (Context.enter name)
    ensuring (inner nodes) Context.leave

/-- Processes a definition. -/
def definition (node : NodeId) (arguments : List NodeId) : Lower σ PUnit := do
  match arguments with
  | [nameNode, body] => do
    let name ← expectSymbol nameNode "declaration name"
    let items ← expectList body "declaration body"
    let word? ←
      match items with
      | [] => pure none
      | head :: _ => symbol? head
    if word? = some "enum" then defineEnum nameNode name body items.tail
    else if word? = some "struct" then defineStruct nameNode name body items.tail
    else if word? = some "fn" then defineFunction nameNode name body items.tail
    else
      fail (Report.unexpectedElement (← span body) "`enum`, `struct` or `fn`" "declaration"
        (← display body))
  | _ => fail (Report.incorrectArgumentCount (← span node) "def" 2 arguments.length)

/-- Processes a top-level form. `left` is the number of expansions left, `again` processes the form
that an expansion gives, and `inner` the forms of a namespace. -/
def topForm (inner : List NodeId → Lower σ PUnit) (left : Nat) (again : NodeId → Lower σ PUnit)
    (node : NodeId) : Lower σ PUnit := do
  let items ← expectList node "top-level form"
  match items with
  | [] => fail (Report.emptyList (← span node))
  | head :: arguments => do
    let word? ← symbol? head
    if word? = some "namespace" then namespaceForm inner node arguments
    else if word? = some "def" then definition node arguments
    else
      match ← tryExpand left node with
      | some result => again result
      | none =>
        fail (Report.unexpectedElement (← span head) "`namespace` or `def`" "top-level form"
          (← display head))

/-- Processes a top-level form with a number of expansions left. -/
def topFormWith (inner : List NodeId → Lower σ PUnit) : (left : Nat) → NodeId → Lower σ PUnit
  | 0 => topForm inner 0 fun _ => throw .unfinished
  | left + 1 => topForm inner (left + 1) (topFormWith inner left)

/-- Processes a top-level form in which namespace forms nest less than `depth` deep. -/
def topFormBelow : (depth : Nat) → NodeId → Lower σ PUnit
  | 0, _ => throw .unfinished
  | depth + 1, node => do
    let limit := (← get).maxExpansions
    topFormWith (every (topFormBelow depth)) limit node

/-- Processes one top-level form. -/
def processTopLevel (node : NodeId) : Lower σ PUnit := topFormBelow maxNamespaceDepth node

/-- Processes top-level forms in order and fails if one of them failed. -/
def processAll (nodes : List NodeId) : Lower σ PUnit := every processTopLevel nodes

/-- Processes a definition of an enum. Whatever word begins its body, the body is taken for that
of an enum. -/
def declareEnum (node : NodeId) : Lower σ PUnit := do
  let items ← expectList node "enum declaration"
  let word? ←
    match items with
    | [] => pure none
    | head :: _ => symbol? head
  if word? = some "def" then
    match items.tail with
    | [nameNode, body] => do
      let name ← expectSymbol nameNode "enum name"
      let parts ← expectList body "enum declaration body"
      defineEnum nameNode name body parts.tail
    | arguments =>
      fail (Report.incorrectArgumentCount (← span node) "def" 2 arguments.length)
  else
    fail (Report.unexpectedElement (← span node) "`def`" "enum declaration" (← display node))

end FormCompiler.Lower
