import FormCompiler.Diagnostic.Code
import FormCompiler.Tree.Span

/-!
# Diagnostics

What went wrong, where, and what was expected: a code, a severity, a message, labelled places and
notes. The first primary label tells where the diagnostic belongs.
-/

namespace FormCompiler

/-- How serious a diagnostic is. -/
inductive Severity where
  | error
  | warning
  | note
deriving DecidableEq, Repr, Inhabited

/-- The word for a severity. -/
def Severity.text : Severity → String
  | error => "error"
  | warning => "warning"
  | note => "note"

/-- A place with a message. -/
structure Label where
  span : Span
  message : String
  /-- The label marks the place of the problem and not some context of it. -/
  isPrimary : Bool
deriving DecidableEq, Repr, Inhabited

/-- A diagnostic. -/
structure Diagnostic where
  code : Code
  severity : Severity
  message : String
  labels : List Label
  notes : List String
deriving DecidableEq, Repr, Inhabited

namespace Diagnostic

/-- An error with a message and one primary label. -/
def errorAt (code : Code) (message : String) (span : Span) (label : String) : Diagnostic :=
  { code, severity := .error, message, labels := [⟨span, label, true⟩], notes := [] }

/-- Adds a note at the end. -/
def withNote (d : Diagnostic) (note : String) : Diagnostic :=
  { d with notes := d.notes ++ [note] }

/-- The diagnostic is an error. -/
def isError (d : Diagnostic) : Bool := d.severity == .error

/-- The place of the first primary label. -/
def primarySpan? (d : Diagnostic) : Option Span :=
  (d.labels.find? (·.isPrimary)).map (·.span)

/-- Two diagnostics say the same: they agree in code, primary place and message. -/
def repeats (d other : Diagnostic) : Bool :=
  other.code == d.code && other.primarySpan? == d.primarySpan? && other.message == d.message

/-- The text of a diagnostic: a head line, a line for each label and a line for each note. -/
def text (d : Diagnostic) : String :=
  let message := if d.message.isEmpty then d.code.description else d.message
  let head := d.severity.text ++ "[" ++ d.code.text ++ "]: " ++ message
  let labels := d.labels.map fun l => "\n  --> " ++ l.span.text ++ ": " ++ l.message
  let notes := d.notes.map fun note => "\n  = note: " ++ note
  head ++ String.join labels ++ String.join notes

end Diagnostic

end FormCompiler
