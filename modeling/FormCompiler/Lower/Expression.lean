import FormCompiler.Lower.Forms

/-!
# Expressions

The processing of expressions to any depth. A list is processed by way of its items, which have
smaller ids, and an expansion uses up one of a limited number; so the recursion descends in the
number of expansions left and, among forms with the same number left, in the id.
-/

namespace FormCompiler.Lower

variable {σ : Type}

/-- Processes a form whose id is below `bound`, with a number of expansions left. `again` processes
the form that an expansion gives. -/
def expressionBelow (frame : Frame) (left : Nat) (again : Sub σ) : (bound : Nat) → Sub σ
  | 0 => fun _ _ => throw .unfinished
  | bound + 1 => form frame left (expressionBelow frame left again bound) again

/-- Processes a form with a number of expansions left. -/
def expression (frame : Frame) : (left : Nat) → Sub σ
  | 0 => fun b node =>
    expressionBelow frame 0 (fun _ _ => throw .unfinished) (node.index + 1) b node
  | left + 1 => fun b node =>
    expressionBelow frame (left + 1) (expression frame left) (node.index + 1) b node

/-- Processes the form at a node, emitting into a block. -/
def process (frame : Frame) : Sub σ := fun b node => do
  let limit := (← get).maxExpansions
  expression frame limit b node

end FormCompiler.Lower
