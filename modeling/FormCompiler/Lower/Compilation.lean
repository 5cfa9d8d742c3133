import FormCompiler.Context.Declare
import FormCompiler.Lower.CoreForm
import FormCompiler.Tree.Forest

/-!
# The Compilation of a Unit

The state of a unit under compilation: its forms, its context and the macro expander. The expander
is offered list forms and may replace them; it has a memory of its own and may add nodes to the
forest.
-/

namespace FormCompiler

/-- The answer of an expander to an offered form. -/
inductive Expansion where
  /-- The form stands for the tree at a node. -/
  | expanded (node : NodeId)
  /-- The form is no macro call. -/
  | notApplicable
  /-- The form is a macro call that has no meaning. -/
  | failed (detail : String)
deriving DecidableEq, Repr

/-- A macro expander with a memory of type `σ`: from its memory, the forest and an offered node it
answers, with its new memory and the forest with any nodes added. -/
def Expander (σ : Type) := σ → Forest → NodeId → Expansion × σ × Forest

/-- The expander that knows no macros. -/
def Expander.none {σ : Type} : Expander σ := fun memory forest _ =>
  (.notApplicable, memory, forest)

/-- A unit under compilation. -/
structure Compilation (σ : Type) where
  forest : Forest
  context : Context
  memory : σ
  expander : Expander σ
  /-- Greatest number of expansions applied one after the other to one form. -/
  maxExpansions : Nat

/-- A step on a unit that may stop. -/
abbrev Lower (σ : Type) := EStateM Halt (Compilation σ)

namespace Compilation

/-- A unit in which nothing is declared. -/
def start {σ : Type} (options : Options) (expander : Expander σ) (memory : σ) : Compilation σ :=
  ⟨.empty, .start options, memory, expander, options.maxExpansions⟩

end Compilation

namespace Lower

variable {σ : Type}

/-- A step on the context alone. -/
def onContext {α : Type} (step : Check α) : Lower σ α := fun u =>
  match u with
  | ⟨forest, context, memory, expander, maxExpansions⟩ =>
    match step context with
    | .ok a context => .ok a ⟨forest, context, memory, expander, maxExpansions⟩
    | .error e context => .error e ⟨forest, context, memory, expander, maxExpansions⟩

/-- A step on the context alone that never stops. -/
def onState {α : Type} (step : StateM Context α) : Lower σ α := onContext (Context.always step)

/-- A step on the module alone that never stops. -/
def onModule {α : Type} (step : StateM Ir.Module α) : Lower σ α :=
  onState (Context.onModule step)

/-- The context. -/
def context : Lower σ Context := fun u => .ok u.context u

/-- The forest. -/
def forest : Lower σ Forest := fun u => .ok u.forest u

/-- The place of a node. -/
def span (node : NodeId) : Lower σ Span := fun u => .ok (u.forest.span node) u

/-- The text of the tree at a node. -/
def display (node : NodeId) : Lower σ String := fun u => .ok (u.forest.display node) u

/-- The word for the shape of a node. -/
def describe (node : NodeId) : Lower σ String := fun u => .ok (u.forest.describe node) u

/-- The text of a symbol. -/
def symbol? (node : NodeId) : Lower σ (Option String) := fun u => .ok (u.forest.symbol? node) u

/-- The items of a list. -/
def items? (node : NodeId) : Lower σ (Option (List NodeId)) := fun u =>
  .ok (u.forest.items? node) u

/-- Printable form of a type. -/
def typeName (t : TypeId) : Lower σ String := fun u => .ok (u.context.typeName t) u

/-- Reports an error and stops. -/
def fail {α : Type} (d : Diagnostic) : Lower σ α := onContext (Context.fail d)

/-- Runs an operation on the module; its refusal is reported at a node. -/
def emit {α : Type} (node : NodeId) (op : Ir.Build α) : Lower σ α := do
  let span ← span node
  onContext (Context.emit span op)

/-! ## Shapes of forms -/

/-- Requires a node to be a list. -/
def expectList (node : NodeId) (what : String) : Lower σ (List NodeId) := do
  match ← items? node with
  | some items => return items
  | none => fail (Report.incorrectArgumentShape (← span node) "list" what (← describe node))

/-- Requires a node to be a symbol. -/
def expectSymbol (node : NodeId) (what : String) : Lower σ String := do
  match ← symbol? node with
  | some name => return name
  | none => fail (Report.unexpectedElement (← span node) "symbol" what (← describe node))

/-- Requires a node to be a linkage word. -/
def expectLinkage (node : NodeId) : Lower σ Ir.Linkage := do
  match (← symbol? node).bind Ir.Linkage.ofKeyword? with
  | some linkage => return linkage
  | none => fail (Report.invalidLinkage (← span node) (← display node))

/-! ## Expansion -/

/-- Asks the expander about a node. -/
def offer (node : NodeId) : Lower σ Expansion := fun u =>
  match u with
  | ⟨forest, context, memory, expander, maxExpansions⟩ =>
    let (expansion, memory, forest) := expander memory forest node
    .ok expansion ⟨forest, context, memory, expander, maxExpansions⟩

/-- The text of the failure to expand a form once more. -/
def limitText (limit : Nat) : String :=
  "expansion depth limit of " ++ toString limit ++ " reached"

/-- Offers a node to the expander, with a number of expansions left. Without any left nothing is
offered. -/
def tryExpand (left : Nat) (node : NodeId) : Lower σ (Option NodeId) := do
  if left = 0 then
    let limit := (← get).maxExpansions
    fail (Report.expansionFailed (← span node) (limitText limit))
  else
    match ← offer node with
    | .expanded result => return some result
    | .notApplicable => return none
    | .failed detail => fail (Report.expansionFailed (← span node) detail)

/-! ## Types -/

/-- The type a form names, for nodes whose id is below `bound`. -/
def resolveTypeBelow : (bound : Nat) → NodeId → Lower σ TypeId
  | 0, _ => throw .unfinished
  | bound + 1, node => do
    match (← forest).kind node with
    | .token token =>
      if token.kind = .symbol then
        let name := (← forest).names.text token.text
        match (← context).lookupType? name with
        | some t => return t
        | none => fail (Report.typeNotInScope (← span node) name)
      else
        fail (Report.unexpectedElement (← span node) "type" "type position" (← describe node))
    | .list [head, pointee] => do
      let name? ← symbol? head
      if name? = some "p" ∨ name? = some "pointer" then
        let pointee ← resolveTypeBelow bound pointee
        onState (Context.onPool (·.pointerTo pointee))
      else
        fail (Report.typeNotInScope (← span node) (← display node))
    | .list _ => fail (Report.typeNotInScope (← span node) (← display node))

/-- The type a form names: a primitive or declared name, or `p` or `pointer` and a type. -/
def resolveType (node : NodeId) : Lower σ TypeId := resolveTypeBelow (node.index + 1) node

end Lower

end FormCompiler
