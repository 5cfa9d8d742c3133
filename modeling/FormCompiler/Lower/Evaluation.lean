import FormCompiler.Lower.Expression

/-!
# Evaluation Sessions

Forms evaluated one after the other in a function made for them. The session keeps the block that
the next form is emitted into: a form that succeeds moves it, a form that fails leaves it.
-/

namespace FormCompiler

/-- A parameter of the function of a session. -/
structure SessionParam where
  name : String
  ty : TypeId
  /-- The parameter is the address of a slot with a value of the type. -/
  inSlot : Bool
deriving DecidableEq, Repr, Inhabited

namespace SessionParam

/-- The type of what the parameter holds. -/
def heldType (param : SessionParam) (pool : Pool) : TypeId × Pool :=
  if param.inSlot then pool.pointerTo param.ty else (param.ty, pool)

/-- The variable of a parameter with its value. -/
def toVariable (param : SessionParam) (value : Ir.ValueId) : Variable :=
  ⟨param.ty, if param.inSlot then .slot value else .value value⟩

end SessionParam

/-- What became of a form: its result, and that of the cleanup after it if there was one. -/
structure Evaluated where
  outcome : Except Halt Result
  cleanup : Option (Except Halt Result)
deriving Inhabited

namespace Context

/-- The types of what several parameters hold, in order. -/
def heldTypes : List SessionParam → StateM Context (List TypeId)
  | [] => pure []
  | param :: params => do
    let t ← onPool param.heldType
    let ts ← heldTypes params
    return t :: ts

/-- Declares the function of a session and appends its first block. -/
def openSession (symbol : String) (params : List SessionParam) (returnType : TypeId)
    (linkage : Ir.Linkage) : StateM Context (Except Ir.Error (Frame × Ir.BlockId)) := do
  let held ← heldTypes params
  let backendParams ← backendTypes held
  let ret ← backendType returnType
  match ← attempt (Ir.Module.declareFunction symbol backendParams ret linkage) with
  | .error e => return .error e
  | .ok func =>
    let entry ← onModule (Ir.Module.appendBlock func "entry")
    let values := ((← get).ir.function func).params
    let scope := (params.zip values).foldl
      (fun scope (param, value) => (scope.bind param.name (param.toVariable value)).2) Scope.empty
    return .ok (⟨func, scope⟩, entry)

end Context

namespace Lower

variable {σ : Type}

/-- Cleans up after a result. The block to go on from is that of the cleanup if it succeeds, and
else the one given. -/
def cleanUpAfter (b : Ir.BlockId) (r : Result) :
    StateM (Compilation σ) (Except Halt Result × Ir.BlockId) := fun u =>
  match onContext (Context.destruct r) u with
  | .ok after u => ((.ok after, after.block), u)
  | .error e u => ((.error e, b), u)

/-- Evaluates a form, with the cleanup of its result if that is asked for. -/
def evaluate (frame : Frame) (cleanUp : Bool) (b : Ir.BlockId) (node : NodeId) :
    StateM (Compilation σ) (Evaluated × Ir.BlockId) := fun u =>
  match process frame b node u with
  | .error e u => ((⟨.error e, none⟩, b), u)
  | .ok r u =>
    if cleanUp then
      let ((after, b), u) := cleanUpAfter r.block r u
      ((⟨.ok r, some after⟩, b), u)
    else ((⟨.ok r, none⟩, r.block), u)

/-- Evaluates forms one after the other. -/
def evaluateAll (frame : Frame) (cleanUp : Bool) : Ir.BlockId → List NodeId →
    StateM (Compilation σ) (List Evaluated × Ir.BlockId)
  | b, [] => pure ([], b)
  | b, node :: nodes => do
    let (first, b) ← evaluate frame cleanUp b node
    let (rest, b) ← evaluateAll frame cleanUp b nodes
    return (first :: rest, b)

end Lower

end FormCompiler
