import FormCompiler.Tree.Forest

/-!
# Building Trees

Trees made in code get consecutive spans: the tokens of one builder have disjoint spans in the
order they were made, a list covers its items, and an empty list takes the place of a token of two
bytes. Diagnostics on built trees therefore sort in the order of construction.
-/

namespace FormCompiler

/-- A forest under construction and the place of the next token. -/
structure Builder where
  forest : Forest
  cursor : Nat
deriving Repr, Inhabited

namespace Builder

/-- A builder on a forest. The first token starts at 1. -/
def start (forest : Forest) : Builder := ⟨forest, 1⟩

/-- The span of a token of this many bytes at the cursor. -/
def nextSpan (b : Builder) (length : Nat) : Span := ⟨b.cursor, b.cursor + length⟩

/-- Adds a token at the cursor, which moves past it and one byte further. -/
def token (b : Builder) (kind : TokenKind) (text : String) : NodeId × Builder :=
  let span := b.nextSpan text.utf8ByteSize
  let (id, forest) := b.forest.pushToken kind text span
  (id, ⟨forest, span.stop + 1⟩)

/-- Adds a list that covers its items; an empty one stands at the cursor. -/
def list (b : Builder) (items : List NodeId) : NodeId × Builder :=
  match Span.mergeAll? (items.map b.forest.span) with
  | some span =>
    let (id, forest) := b.forest.pushList items span
    (id, ⟨forest, b.cursor⟩)
  | none =>
    let span := b.nextSpan 2
    let (id, forest) := b.forest.pushList items span
    (id, ⟨forest, span.stop + 1⟩)

/-- Adds a token at a given place. The cursor stays. -/
def tokenAt (b : Builder) (kind : TokenKind) (text : String) (span : Span) : NodeId × Builder :=
  let (id, forest) := b.forest.pushToken kind text span
  (id, ⟨forest, b.cursor⟩)

/-- Adds a list at a given place. The cursor stays. -/
def listAt (b : Builder) (items : List NodeId) (span : Span) : NodeId × Builder :=
  let (id, forest) := b.forest.pushList items span
  (id, ⟨forest, b.cursor⟩)

end Builder

end FormCompiler
