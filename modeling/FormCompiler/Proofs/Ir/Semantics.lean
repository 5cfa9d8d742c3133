import FormCompiler.Proofs.Ir.Flow
import Mathlib.Logic.Relation

/-!
# Execution of Modules

A small-step semantics of the code of a module. What the values and the memory are, and what the
operations on them do, is left to a `Machine`; so is the effect of a call, which may depend on the
callee, the arguments and the memory.

A value of type `void` carries no information: it reads as the one value `unit`.
-/

namespace FormCompiler.Ir

/-- An interpretation of values of `V` and memories of `M`. -/
structure Machine (V M : Type) where
  /-- The value of type `void`. -/
  unit : V
  /-- A constant of a type, a text or an undefined value. -/
  constant : TyId → ValueKind → V
  /-- The truth of a condition. -/
  truth : V → Bool
  /-- The address of a new slot for a value of a type. -/
  alloca : TyId → M → V × M
  /-- The value of a type at an address. -/
  load : TyId → M → V → V
  /-- The memory with a value of a type at an address. -/
  store : TyId → M → V → V → M
  /-- What a function returns for arguments, and the memory it leaves. -/
  call : FuncId → List V → M → V × M
  extract : V → Nat → V
  insert : V → V → Nat → V
  compare : IntPredicate → V → V → V

/-- A call with its arguments. -/
abbrev Call (V : Type) := FuncId × List V

/-- Where execution stands. -/
structure State (V M : Type) where
  block : BlockId
  /-- Number of the instructions of the block that were executed. -/
  index : Nat
  /-- The block control came from. -/
  previous : Option BlockId
  /-- Parameters and results of instructions. -/
  values : ValueId → V
  memory : M
  /-- The calls made, in order. -/
  calls : List (Call V)

namespace Machine

variable {V M : Type} (machine : Machine V M) (m : Module)

/-- What a value of the module stands for. -/
def operand (values : ValueId → V) (v : ValueId) : V :=
  if m.type (m.valueType v) = .void then machine.unit
  else
    match m.valueKind v with
    | .param _ _ | .result => values v
    | kind => machine.constant (m.valueType v) kind

/-- The values with another one at an id. -/
def set (values : ValueId → V) (v : ValueId) (x : V) : ValueId → V :=
  fun w => if w = v then x else values w

/-- Executes an instruction. A `phi` without a value for where control came from is stuck. -/
def execute (s : State V M) : Instr → Option (State V M)
  | .alloca dst ty =>
    let (address, memory) := machine.alloca ty s.memory
    some { s with index := s.index + 1, values := set s.values dst address, memory }
  | .load dst pointer =>
    let x := machine.load (m.valueType dst) s.memory (machine.operand m s.values pointer)
    some { s with index := s.index + 1, values := set s.values dst x }
  | .store value pointer =>
    let memory := machine.store (m.valueType value) s.memory
      (machine.operand m s.values value) (machine.operand m s.values pointer)
    some { s with index := s.index + 1, memory }
  | .call dst callee arguments =>
    let xs := arguments.map (machine.operand m s.values)
    let (x, memory) := machine.call callee xs s.memory
    let values :=
      match dst with
      | some v => set s.values v x
      | none => s.values
    some { s with index := s.index + 1, values, memory, calls := s.calls ++ [(callee, xs)] }
  | .extractValue dst aggregate index =>
    let x := machine.extract (machine.operand m s.values aggregate) index
    some { s with index := s.index + 1, values := set s.values dst x }
  | .insertValue dst aggregate value index =>
    let x := machine.insert (machine.operand m s.values aggregate)
      (machine.operand m s.values value) index
    some { s with index := s.index + 1, values := set s.values dst x }
  | .icmp dst predicate lhs rhs =>
    let x := machine.compare predicate (machine.operand m s.values lhs)
      (machine.operand m s.values rhs)
    some { s with index := s.index + 1, values := set s.values dst x }
  | .phi dst incoming =>
    match incoming.find? fun entry => some entry.2 == s.previous with
    | some (v, _) =>
      let x := machine.operand m s.values v
      some { s with index := s.index + 1, values := set s.values dst x }
    | none => none

/-- The state at the start of a block that control goes to. -/
def enter (s : State V M) (target : BlockId) : State V M :=
  { s with block := target, index := 0, previous := some s.block }

/-- Executes the next instruction or, after the last one, goes to the next block. At the end of a
function and of an open block there is no next step. -/
def step? (s : State V M) : Option (State V M) :=
  match (m.block s.block).instrs[s.index]? with
  | some i => machine.execute m s i
  | none =>
    match (m.block s.block).terminator with
    | some (.br target) => some (enter s target)
    | some (.condBr condition onTrue onFalse) =>
      some (enter s (if machine.truth (machine.operand m s.values condition) then onTrue
        else onFalse))
    | _ => none

/-- Any number of steps lead from one state to the other. -/
def Runs : State V M → State V M → Prop :=
  Relation.ReflTransGen fun s s' => machine.step? m s = some s'

end Machine

end FormCompiler.Ir
