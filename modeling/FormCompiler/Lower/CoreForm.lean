/-!
# Core Forms

The forms that are built in. The set is closed; every other list is a call.
-/

namespace FormCompiler

/-- The core forms. -/
inductive CoreForm where
  /-- Reads through a pointer. -/
  | deref
  /-- The address of the storage of an lvalue. -/
  | addressOf
  /-- Assigns through a pointer. -/
  | setf
  /-- A sequence that yields the last value. -/
  | sequence
  /-- A conditional. -/
  | conditional
  /-- Marks a core form that a function may not shadow. -/
  | core
deriving DecidableEq, Repr

namespace CoreForm

/-- All core forms. -/
def all : List CoreForm := [deref, addressOf, setf, sequence, conditional, core]

/-- The name of a core form. -/
def name : CoreForm → String
  | deref => "@"
  | addressOf => "#"
  | setf => "setf"
  | sequence => "do"
  | conditional => "if"
  | core => "core"

/-- The core form of a name. -/
def ofName? (text : String) : Option CoreForm := all.find? fun form => form.name == text

end CoreForm

end FormCompiler
