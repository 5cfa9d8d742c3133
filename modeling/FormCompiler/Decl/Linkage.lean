import FormCompiler.Ir.Basic

/-!
# Linkage Words

The words by which a declaration says whether other units see it.
-/

namespace FormCompiler.Ir.Linkage

/-- The linkage of a word. -/
def ofKeyword? (text : String) : Option Linkage :=
  if text = "intern" then some internal
  else if text = "extern" then some external
  else none

/-- The word for a linkage. -/
def keyword : Linkage → String
  | internal => "intern"
  | external => "extern"

end FormCompiler.Ir.Linkage
