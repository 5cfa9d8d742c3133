import FormCompiler.Tree.Builder

/-!
# Templates of Trees

A description of a tree to be added to a forest. Besides tokens and lists it may hold arguments:
existing nodes that the new tree takes over. Parts are added before the lists that hold them,
from left to right.

The nodes of a single template stand at consecutive places, whatever places it names. So do those
of several templates added together, unless some node of theirs has a place of its own; then no
node gets a consecutive place, a token without a place has the dummy span and a list without one
covers its items.
-/

namespace FormCompiler

/-- A tree to be built. -/
inductive Template where
  /-- A token with this text, perhaps at a given place. -/
  | token (kind : TokenKind) (text : String) (place : Option Span)
  /-- A list, perhaps at a given place. -/
  | list (items : List Template) (place : Option Span)
  /-- The tree inside `count` lists, each of which holds the leading items and the next list. -/
  | nest (leading : List Template) (count : Nat) (inner : Template)
  /-- The argument at an index. -/
  | argument (index : Nat)
  /-- All arguments from an index on, as items of the list this stands in. -/
  | rest (index : Nat)
deriving Inhabited

namespace Template

mutual

/-- Some node of the description has a place of its own. -/
def isPlaced : Template → Bool
  | token _ _ place => place.isSome
  | list items place => place.isSome || anyPlaced items
  | nest leading _ inner => anyPlaced leading || inner.isPlaced
  | argument _ => false
  | rest _ => false

/-- Some node of the descriptions has a place of its own. -/
def anyPlaced : List Template → Bool
  | [] => false
  | t :: ts => t.isPlaced || anyPlaced ts

end

/-- The argument that a template asks for and that was not given. -/
structure MissingArgument where
  index : Nat
deriving DecidableEq, Repr

/-- Building adds nodes and may miss an argument. -/
abbrev Build := EStateM MissingArgument Builder

namespace Build

/-- Runs a step that adds one node. -/
def adding (step : Builder → NodeId × Builder) : Build NodeId := fun b =>
  let (id, b) := step b
  .ok id b

/-- Adds a token, at consecutive places or at its own. -/
def token (consecutive : Bool) (kind : TokenKind) (text : String) (place : Option Span) :
    Build NodeId :=
  if consecutive then adding (·.token kind text)
  else adding (·.tokenAt kind text (place.getD Span.dummy))

/-- Adds a list, at consecutive places or at its own. -/
def list (consecutive : Bool) (items : List NodeId) (place : Option Span) : Build NodeId :=
  if consecutive then adding (·.list items)
  else adding fun b =>
    let covering := (Span.mergeAll? (items.map b.forest.span)).getD Span.dummy
    b.listAt items (place.getD covering)

/-- Runs a step a number of times; the results come in reverse order before those of `done`. -/
def repeated (step : Build (List NodeId)) : Nat → List (List NodeId) → Build (List (List NodeId))
  | 0, done => pure done
  | count + 1, done => do
    let items ← step
    repeated step count (items :: done)

/-- Wraps nodes into one list per level, the first level innermost. -/
def wrapAll (consecutive : Bool) : List (List NodeId) → List NodeId → Build (List NodeId)
  | [], inner => pure inner
  | level :: levels, inner => do
    let id ← list consecutive (level ++ inner) none
    wrapAll consecutive levels [id]

end Build

mutual

/-- Adds the nodes of a template and returns the nodes that stand for it in a list: one, or for
`rest` any number. -/
def build (consecutive : Bool) (arguments : List NodeId) : Template → Build (List NodeId)
  | token kind text place => do
    let id ← Build.token consecutive kind text place
    return [id]
  | list items place => do
    let ids ← buildAll consecutive arguments items
    let id ← Build.list consecutive ids place
    return [id]
  | nest leading count inner => do
    let levels ← Build.repeated (buildAll consecutive arguments leading) count []
    let ids ← build consecutive arguments inner
    Build.wrapAll consecutive levels ids
  | argument index =>
    match arguments[index]? with
    | some id => pure [id]
    | none => throw ⟨index⟩
  | rest index => pure (arguments.drop index)

/-- Adds the nodes of several templates, from left to right. -/
def buildAll (consecutive : Bool) (arguments : List NodeId) :
    List Template → Build (List NodeId)
  | [] => pure []
  | t :: ts => do
    let ids ← build consecutive arguments t
    let others ← buildAll consecutive arguments ts
    return ids ++ others

end

/-- Adds the trees of several templates to a forest, all with one builder. The nodes added before
an argument is missed stay in the forest. Places count here. -/
def addAll (arguments : List NodeId) (templates : List Template) :
    EStateM MissingArgument Forest (List NodeId) := fun forest =>
  match buildAll (!anyPlaced templates) arguments templates (Builder.start forest) with
  | .ok ids b => .ok ids b.forest
  | .error missing b => .error missing b.forest

/-- Adds the tree of one template to a forest, at consecutive places. A template that stands for
no node gives an empty list. -/
def add (arguments : List NodeId) (template : Template) :
    EStateM MissingArgument Forest NodeId := fun forest =>
  match build true arguments template (Builder.start forest) with
  | .ok (id :: _) b => .ok id b.forest
  | .ok [] b =>
    let (id, forest) := b.forest.pushList [] Span.dummy
    .ok id forest
  | .error missing b => .error missing b.forest

end Template

end FormCompiler
