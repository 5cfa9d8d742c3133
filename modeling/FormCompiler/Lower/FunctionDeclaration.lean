import FormCompiler.Lower.Expression
import FormCompiler.Lower.StructDeclaration

/-!
# Function Declarations

`(def name (fn linkage type ((parameter type)...) form...))` declares an overload of a function
and, if there are forms, defines it by them. The parameters are stored in stack slots on entry, so
the body can take their addresses. The last form gives the value that is returned.

A function stays declared if its body fails; every block of it is closed in any case.
-/

namespace FormCompiler.Lower

variable {σ : Type}

/-- The instructions that store a value in a new slot. -/
def spillInstrs (b : Ir.BlockId) (ty : Ir.TyId) (value : Ir.ValueId) : Ir.Build Ir.ValueId := do
  let slot ← Ir.Module.alloca b ty
  Ir.Module.store b value slot
  return slot

/-- Stores the parameters of a function in slots, counted from an index on, and binds their
names. -/
def spillParams (b : Ir.BlockId) : (index : Nat) → Frame → List (Param × Span) →
    Lower σ Frame
  | _, frame, [] => return frame
  | index, frame, (param, place) :: rest => do
    match (← context).ir.param? frame.func index with
    | none => fail (Report.internalError place "parameter index out of range")
    | some value => do
      let ty ← onState (Context.backendType param.ty)
      let slot ← onContext (Context.emit place (spillInstrs b ty value))
      let (_, scope) := frame.scope.bind param.name ⟨param.ty, .slot slot⟩
      spillParams b (index + 1) { frame with scope } rest

/-- Processes the forms of a body and returns the last of them with its result. -/
def bodyForms (frame : Frame) : Ir.BlockId → NodeId → List NodeId → Lower σ (NodeId × Result)
  | b, last, [] => do
    let r ← process frame b last
    return (last, r)
  | b, node, next :: rest => do
    let r ← process frame b node
    let b ← drop r
    bodyForms frame b next rest

/-- Returns the result of a body from its function. A function that returns `void` drops it. -/
def returnResult (returnType : TypeId) (last : NodeId) (r : Result) : Lower σ PUnit := do
  if (← context).pool.isVoid returnType then
    let b ← drop r
    emit last (Ir.Module.ret b none)
  else if r.ty ≠ returnType then
    fail (Report.returnTypeMismatch (← span last) (← typeName returnType) (← typeName r.ty))
  else
    emit last (Ir.Module.ret r.block (some r.value))

/-- Emits the body of a function. -/
def body (func : Ir.FuncId) (params : List (Param × Span)) (returnType : TypeId)
    (first : NodeId) (rest : List NodeId) : Lower σ PUnit := do
  let entry ← onModule (Ir.Module.appendBlock func "entry")
  let frame ← spillParams entry 0 ⟨func, .empty⟩ params
  let (last, r) ← bodyForms frame entry first rest
  returnResult returnType last r

/-- Runs a step and then another one that never stops, whether the first one stopped or not. -/
def ensuring {α β : Type} (step : Lower σ α) (after : StateM Context β) : Lower σ α := fun u =>
  match step u with
  | .ok a u =>
    match onState after u with
    | .ok _ u => .ok a u
    | .error e u => .error e u
  | .error e u =>
    match onState after u with
    | .ok _ u => .error e u
    | .error _ u => .error e u

/-- Declares a function from its linkage, return type, parameters and body. -/
def defineFunction (nameNode : NodeId) (name : String) (bodyNode : NodeId)
    (parts : List NodeId) : Lower σ PUnit := do
  match parts with
  | linkageNode :: tyNode :: paramsNode :: forms => do
    let linkage ← expectLinkage linkageNode
    let returnType ← resolveType tyNode
    let paramNodes ← expectList paramsNode "parameter list"
    let named ← typedNames "parameter" [] paramNodes
    let params := named.map fun (name, t) => Param.mk name t
    let nameSpan ← span nameNode
    let func ← onContext (Context.declareFunction name params returnType linkage nameSpan)
    match forms with
    | [] => return ⟨⟩
    | first :: rest => do
      let f ← forest
      ensuring (body func (params.zip (paramNodes.map f.span)) returnType first rest)
        (Context.onModule (Ir.Module.finishFunction func))
  | _ => fail (Report.tooFewArguments (← span bodyNode) "fn" 3 parts.length)

end FormCompiler.Lower
