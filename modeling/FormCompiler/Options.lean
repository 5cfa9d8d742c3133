import FormCompiler.Diagnostic.Queue
import FormCompiler.Types.Primitive

/-!
# Options

What can be chosen for the compilation of a unit.
-/

namespace FormCompiler

/-- The options of a unit. -/
structure Options where
  /-- Name of the module. -/
  moduleName : String
  target : Target
  diagnostics : QueueConfig
  /-- Key recorded on the enums and structs of the unit, by which others find repeats of them. -/
  onceTag : Option String
  /-- Greatest number of expansions applied one after the other to one form. -/
  maxExpansions : Nat
deriving Repr

namespace Options

/-- The options of a unit for which nothing was chosen. -/
def standard : Options := ⟨"main", .standard, .standard, none, 128⟩

instance : Inhabited Options := ⟨standard⟩

end Options

end FormCompiler
