/-!
# Interned Names

A table that gives every text a handle. Two handles are equal exactly when the texts they were
made from are equal, and a handle keeps its text for ever. The empty text always has handle 0.
-/

namespace FormCompiler

/-- Handle of an interned text. -/
structure Name where
  index : Nat
deriving DecidableEq, Repr, Inhabited

/-- The texts interned so far, each at the index of its handle. -/
structure Names where
  texts : Array String
deriving Repr

namespace Names

/-- The table that holds the empty text only. -/
def empty : Names := ⟨#[""]⟩

instance : Inhabited Names := ⟨empty⟩

/-- Number of distinct texts. -/
def size (names : Names) : Nat := names.texts.size

/-- The handle of a text that is in the table. -/
def find? (names : Names) (text : String) : Option Name :=
  (names.texts.findIdx? (· == text)).map Name.mk

/-- The handle of a text, which is added to the table if it is new. -/
def intern (names : Names) (text : String) : Name × Names :=
  match names.find? text with
  | some name => (name, names)
  | none => (⟨names.size⟩, ⟨names.texts.push text⟩)

/-- The text of a handle; a handle of another table may read as the empty text. -/
def text (names : Names) (name : Name) : String := names.texts.getD name.index ""

end Names

end FormCompiler
