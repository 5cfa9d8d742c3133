import FormCompiler.Tree.Names
import FormCompiler.Tree.Span

/-!
# Forests of Forms

The nodes of a unit: tokens and lists of earlier nodes, each at the index of its id, together with
the names of their texts. Nodes are only ever added, so an id stands for the same tree for ever.

In a forest built by adding parts before the lists that hold them, every item of a list has a
smaller id than the list. Walks over a tree descend along this order.
-/

namespace FormCompiler

/-- Id of a node: its index in the forest. -/
structure NodeId where
  index : Nat
deriving DecidableEq, Repr, Inhabited

/-- Lexical class of a token. -/
inductive TokenKind where
  | symbol
  | string
  | integer
  | float
deriving DecidableEq, Repr

/-- Word for the class in diagnostics. -/
def TokenKind.describe : TokenKind → String
  | symbol => "symbol"
  | string => "string"
  | integer => "integer"
  | float => "floating-point number"

/-- A leaf: its class and the name of its text. -/
structure Token where
  kind : TokenKind
  text : Name
deriving DecidableEq, Repr

/-- A node is a token or a list of nodes. -/
inductive NodeKind where
  | token (token : Token)
  | list (items : List NodeId)
deriving DecidableEq, Repr

/-- A node and where it stands in the source. -/
structure Node where
  kind : NodeKind
  span : Span
deriving DecidableEq, Repr

instance : Inhabited Node := ⟨⟨.list [], Span.dummy⟩⟩

/-- The nodes of a unit and the names of their texts. -/
structure Forest where
  nodes : Array Node
  names : Names
deriving Repr

namespace Forest

/-- The forest without nodes. -/
def empty : Forest := ⟨#[], Names.empty⟩

instance : Inhabited Forest := ⟨empty⟩

/-- Number of nodes. -/
def size (f : Forest) : Nat := f.nodes.size

/-- The node of an id. An id of no node reads as an empty list without a place. -/
def node (f : Forest) (id : NodeId) : Node := f.nodes.getD id.index default

/-- Token or list. -/
def kind (f : Forest) (id : NodeId) : NodeKind := (f.node id).kind

/-- Where the node stands. -/
def span (f : Forest) (id : NodeId) : Span := (f.node id).span

/-- Adds a node. -/
def push (f : Forest) (node : Node) : NodeId × Forest :=
  (⟨f.size⟩, { f with nodes := f.nodes.push node })

/-- Adds a token with this text. -/
def pushToken (f : Forest) (kind : TokenKind) (text : String) (span : Span) : NodeId × Forest :=
  let (name, names) := f.names.intern text
  push ⟨f.nodes, names⟩ ⟨.token ⟨kind, name⟩, span⟩

/-- Adds a list of nodes. -/
def pushList (f : Forest) (items : List NodeId) (span : Span) : NodeId × Forest :=
  f.push ⟨.list items, span⟩

/-- Every item of a list has a smaller id than the list. -/
def WellBuilt (f : Forest) : Prop :=
  ∀ (id : NodeId) (items : List NodeId), f.kind id = .list items →
    ∀ item ∈ items, item.index < id.index

/-- The token of a node, if it is one. -/
def token? (f : Forest) (id : NodeId) : Option Token :=
  match f.kind id with
  | .token token => some token
  | .list _ => none

/-- The items of a list, if the node is one. -/
def items? (f : Forest) (id : NodeId) : Option (List NodeId) :=
  match f.kind id with
  | .token _ => none
  | .list items => some items

/-- The node is a list. -/
def isList (f : Forest) (id : NodeId) : Bool := (f.items? id).isSome

/-- The text of any token. -/
def text? (f : Forest) (id : NodeId) : Option String :=
  (f.token? id).map fun token => f.names.text token.text

/-- The text of a symbol; other tokens and lists have none. -/
def symbol? (f : Forest) (id : NodeId) : Option String :=
  match f.kind id with
  | .token ⟨.symbol, text⟩ => some (f.names.text text)
  | _ => none

/-- Word for the shape of a node in diagnostics. -/
def describe (f : Forest) (id : NodeId) : String :=
  match f.kind id with
  | .token token => token.kind.describe
  | .list _ => "list"

/-- Text of the tree at a node whose id is below `bound`. -/
def displayBelow (f : Forest) : (bound : Nat) → NodeId → String
  | 0, _ => ""
  | bound + 1, id =>
    match f.kind id with
    | .token ⟨.string, text⟩ => "\"" ++ f.names.text text ++ "\""
    | .token ⟨_, text⟩ => f.names.text text
    | .list items => "(" ++ " ".intercalate (items.map (f.displayBelow bound)) ++ ")"

/-- Text of the tree at a node: tokens as they are, strings between quotes, lists in
parentheses. -/
def display (f : Forest) (id : NodeId) : String := f.displayBelow (id.index + 1) id

end Forest

end FormCompiler
