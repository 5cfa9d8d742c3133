import FormCompiler.Ir.Literal
import FormCompiler.Ir.Module
import FormCompiler.Number.IntLiteral

/-!
# Operations on Modules

Every way to add to a module. The block an instruction goes to is an argument of each operation.

Operations that cannot be refused are state transformers; the others may fail with an `Error`, and
one that fails adds no value, block, function or instruction, at most an unnamed type. An operand
of the wrong type is reported before a block that is already closed.
-/

namespace FormCompiler.Ir

/-- An operation that may be refused. -/
abbrev Build := EStateM Error Module

namespace Module

/-! ## Types -/

/-- The id of an unnamed type, which is entered if it is new. -/
def internType (ty : Ty) : StateM Module TyId := fun m =>
  match m.findType? ty with
  | some t => (t, m)
  | none => (⟨m.types.size⟩, { m with types := m.types.push ty })

/-- The type without values. -/
def voidType : StateM Module TyId := internType .void

/-- The integer type of a width. -/
def intType (bits : Nat) : StateM Module TyId := internType (.int bits)

/-- The floating-point type of a width. -/
def floatType (bits : Nat) : StateM Module TyId := internType (.float bits)

/-- The type of pointers to a type. -/
def pointerTo (pointee : TyId) : StateM Module TyId := internType (.pointer pointee)

/-- The unnamed struct type of these fields. -/
def literalStruct (fields : List TyId) : StateM Module TyId := internType (.struct none fields)

/-- Enters a named struct. A second struct of one name is refused, whatever its fields. -/
def namedStruct (name : String) (fields : List TyId) : Build TyId := fun m =>
  match m.lookupStruct? name with
  | some _ => .error (.duplicateSymbol name) m
  | none => .ok ⟨m.types.size⟩ { m with types := m.types.push (.struct (some name) fields) }

/-- The type of the field of an aggregate type at an index. -/
def fieldType (aggregate : TyId) (index : Nat) (m : Module) : Except Error TyId :=
  match m.type aggregate with
  | .struct _ fields =>
    match fields[index]? with
    | some field => .ok field
    | none => .error (.indexOutOfRange index (m.typeName aggregate))
  | _ => .error (.indexOutOfRange index (m.typeName aggregate))

/-! ## Values -/

/-- Adds a value. -/
def newValue (ty : TyId) (kind : ValueKind) : StateM Module ValueId := fun m =>
  (⟨m.values.size⟩, { m with values := m.values.push ⟨ty, kind⟩ })

/-- The width at which a constant of a type is held; types that are no integer types hold 128
bits. -/
def constWidth (m : Module) (ty : TyId) : Nat := min ((m.intWidth? ty).getD 128) 128

/-- An integer constant, cut to the width of its type. -/
def constInt (ty : TyId) (v : Int) : StateM Module ValueId := fun m =>
  newValue ty (.constInt (Number.wrap (m.constWidth ty) v)) m

/-- The integer constant a literal denotes at an integer type. -/
def constIntOfText (ty : TyId) (signed : Bool) (text : String) : Build ValueId := fun m =>
  match m.intWidth? ty with
  | none => .error (.typeMismatch "integer type" (m.typeName ty)) m
  | some bits =>
    match parseIntLiteral text bits signed with
    | .error e => .error e m
    | .ok raw =>
      let (v, m) := newValue ty (.constInt raw) m
      .ok v m

/-- The integer that a constant stands for in two's complement. -/
def constIntValue? (m : Module) (v : ValueId) : Option Int :=
  match m.valueKind v with
  | .constInt raw => some (Number.signed (m.constWidth (m.valueType v)) raw)
  | _ => none

/-- The bit pattern of an integer constant. -/
def constRaw? (m : Module) (v : ValueId) : Option Nat :=
  match m.valueKind v with
  | .constInt raw => some raw
  | _ => none

/-- A floating-point constant. -/
def constFloat (ty : TyId) (value : Number.Binary64) : StateM Module ValueId :=
  newValue ty (.constFloat value)

/-- A value about which nothing is known. -/
def undefined (ty : TyId) : StateM Module ValueId := newValue ty .undefined

/-- A pointer to the bytes of a constant text. -/
def globalText (text : String) : StateM Module ValueId := do
  let byte ← intType 8
  let ty ← pointerTo byte
  newValue ty (.text text)

/-! ## Functions and blocks -/

/-- Adds a value for each parameter of a function, counted from an index on. -/
def newParams (func : FuncId) : (index : Nat) → List TyId → StateM Module (List ValueId)
  | _, [] => pure []
  | index, ty :: tys => do
    let v ← newValue ty (.param func index)
    let vs ← newParams func (index + 1) tys
    return v :: vs

/-- Declares a function. A second function of one symbol is refused. -/
def declareFunction (symbol : String) (params : List TyId) (ret : TyId) (linkage : Linkage) :
    Build FuncId := fun m =>
  match m.lookupFunction? symbol with
  | some _ => .error (.duplicateSymbol symbol) m
  | none =>
    let func : FuncId := ⟨m.functions.size⟩
    let (params, m) := newParams func 0 params m
    .ok func { m with functions := m.functions.push ⟨symbol, params, ret, linkage, #[]⟩ }

/-- Appends an empty block to a function. -/
def appendBlock (func : FuncId) (label : String) : StateM Module BlockId := fun m =>
  let b : BlockId := ⟨m.blocks.size⟩
  (b, { m with
    blocks := m.blocks.push ⟨func, label, #[], none⟩
    functions := m.functions.modify func.index fun f => { f with blocks := f.blocks.push b } })

/-- The block with its end made unreachable if it is open. -/
def closeBlock (b : Block) : Block := { b with terminator := b.terminator <|> some .unreachable }

/-- Closes every open block of a function as unreachable and returns how many there were. -/
def finishFunction (func : FuncId) : StateM Module Nat := fun m =>
  let ids := (m.function func).blocks
  let repaired := (ids.filter fun b => !m.isTerminated b).size
  (repaired, ids.foldl
    (fun m b => { m with blocks := m.blocks.modify b.index closeBlock }) m)

/-! ## Instructions -/

/-- Requires a block to be open. -/
def expectOpen (b : BlockId) : Build PUnit := fun m =>
  if m.isTerminated b then .error (.blockTerminated b) m else .ok ⟨⟩ m

/-- Requires a type to be the expected one. -/
def expectType (expected found : TyId) : Build PUnit := fun m =>
  if expected = found then .ok ⟨⟩ m
  else .error (.typeMismatch (m.typeName expected) (m.typeName found)) m

/-- Requires a value to be a pointer and returns what it points to. -/
def expectPointer (pointer : ValueId) : Build TyId := fun m =>
  match m.pointee? (m.valueType pointer) with
  | some pointee => .ok pointee m
  | none => .error (.notAPointer (m.typeName (m.valueType pointer))) m

/-- Requires an aggregate type to have a field at an index and returns its type. -/
def expectField (aggregate : TyId) (index : Nat) : Build TyId := fun m =>
  match fieldType aggregate index m with
  | .ok field => .ok field m
  | .error e => .error e m

/-- Requires values to have the types of other values, one by one. -/
def expectTypes : List ValueId → List ValueId → Build PUnit
  | expected :: es, found :: fs => fun m =>
    match expectType (m.valueType expected) (m.valueType found) m with
    | .ok _ m => expectTypes es fs m
    | .error e m => .error e m
  | _, _ => fun m => .ok ⟨⟩ m

/-- Adds an instruction at the end of a block. -/
def pushInstr (b : BlockId) (instr : Instr) : StateM Module PUnit := fun m =>
  (⟨⟩, { m with blocks := m.blocks.modify b.index fun data =>
    { data with instrs := data.instrs.push instr } })

/-- Adds an instruction that defines a new value of a type. -/
def define (b : BlockId) (ty : TyId) (instr : ValueId → Instr) : StateM Module ValueId := do
  let dst ← newValue ty .result
  pushInstr b (instr dst)
  return dst

/-- Closes an open block. -/
def terminate (b : BlockId) (terminator : Terminator) : Build PUnit := fun m =>
  if m.isTerminated b then .error (.blockTerminated b) m
  else .ok ⟨⟩ { m with blocks := m.blocks.modify b.index fun data =>
    { data with terminator := some terminator } }

/-- An operation that is never refused. -/
def always {α : Type} (op : StateM Module α) : Build α := fun m =>
  let (a, m) := op m
  .ok a m

/-- A stack slot for one value of a type. -/
def alloca (b : BlockId) (ty : TyId) : Build ValueId := do
  expectOpen b
  let pointer ← always (pointerTo ty)
  always (define b pointer fun dst => .alloca dst ty)

/-- Reads what a pointer points to. -/
def load (b : BlockId) (pointer : ValueId) : Build ValueId := do
  let pointee ← expectPointer pointer
  expectOpen b
  always (define b pointee fun dst => .load dst pointer)

/-- Writes a value to where a pointer points. -/
def store (b : BlockId) (value pointer : ValueId) : Build PUnit := do
  let pointee ← expectPointer pointer
  let found ← EStateM.get
  expectType pointee (found.valueType value)
  expectOpen b
  always (pushInstr b (.store value pointer))

/-- Calls a function. A function that returns `void` gives no value. -/
def call (b : BlockId) (callee : FuncId) (arguments : List ValueId) : Build (Option ValueId) :=
  fun m =>
    let func := m.function callee
    if func.params.length ≠ arguments.length then
      .error (.argumentCount func.symbol func.params.length arguments.length) m
    else
      let emit : Build (Option ValueId) := do
        expectTypes func.params arguments
        expectOpen b
        if m.type func.ret = .void then
          always (pushInstr b (.call none callee arguments))
          return none
        else
          let dst ← always (define b func.ret fun dst => .call (some dst) callee arguments)
          return some dst
      emit m

/-- Takes the field of an aggregate at an index. -/
def extractValue (b : BlockId) (aggregate : ValueId) (index : Nat) : Build ValueId := do
  let m ← EStateM.get
  let field ← expectField (m.valueType aggregate) index
  expectOpen b
  always (define b field fun dst => .extractValue dst aggregate index)

/-- An aggregate with another value as its field at an index. -/
def insertValue (b : BlockId) (aggregate value : ValueId) (index : Nat) : Build ValueId := do
  let m ← EStateM.get
  let field ← expectField (m.valueType aggregate) index
  expectType field (m.valueType value)
  expectOpen b
  always (define b (m.valueType aggregate) fun dst => .insertValue dst aggregate value index)

/-- Compares two integers of one type. -/
def icmp (b : BlockId) (predicate : IntPredicate) (lhs rhs : ValueId) : Build ValueId := fun m =>
  let lhsTy := m.valueType lhs
  if (m.intWidth? lhsTy).isNone then
    .error (.typeMismatch "integer type" (m.typeName lhsTy)) m
  else
    let emit : Build ValueId := do
      expectType lhsTy (m.valueType rhs)
      expectOpen b
      let bit ← always (intType 1)
      always (define b bit fun dst => .icmp dst predicate lhs rhs)
    emit m

/-- Merges one value per block that control may come from. All have one type. -/
def phi (b : BlockId) (incoming : List (ValueId × BlockId)) : Build ValueId :=
  match incoming with
  | [] => throw (.argumentCount "phi" 1 0)
  | (first, _) :: others => do
    expectTypes (others.map fun _ => first) (others.map (·.1))
    expectOpen b
    let m ← EStateM.get
    always (define b (m.valueType first) fun dst => .phi dst incoming)

/-! ## Terminators -/

/-- Returns a value of the function's return type, or nothing from one that returns `void`. -/
def ret (b : BlockId) (value : Option ValueId) : Build PUnit := do
  let m ← EStateM.get
  let expected := (m.function (m.block b).func).ret
  match value with
  | some v => expectType expected (m.valueType v)
  | none => do
    let void ← always voidType
    expectType expected void
  terminate b (.ret value)

/-- Goes to a block. -/
def br (b : BlockId) (target : BlockId) : Build PUnit := terminate b (.br target)

/-- Goes to one of two blocks, by a condition of one bit. -/
def condBr (b : BlockId) (condition : ValueId) (onTrue onFalse : BlockId) : Build PUnit := do
  let bit ← always (intType 1)
  let m ← EStateM.get
  expectType bit (m.valueType condition)
  terminate b (.condBr condition onTrue onFalse)

/-- Marks the end of a block as one that control never reaches. -/
def unreachable (b : BlockId) : Build PUnit := terminate b .unreachable

end Module

end FormCompiler.Ir
