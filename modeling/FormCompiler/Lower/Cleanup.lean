import FormCompiler.Context.Declare
import FormCompiler.Lower.Result

/-!
# Cleanup of Values

A type owns resources if a `destroy` overload on pointers to it is in scope. A struct without one
is cleaned up member by member, as far as its members own resources; other types need nothing.
Every value that is dropped goes through `destruct`.

The member types of a declared struct have smaller ids than the struct, so both walks over a type
descend.
-/

namespace FormCompiler.Context

/-- The name of destructors: `destroy` takes a pointer to the value it cleans up. -/
def destroyName : String := "destroy"

/-- The name of copy functions: `setf-copy-assign` takes the destination and the source. -/
def copyAssignName : String := "setf-copy-assign"

/-- The function of a name in scope whose parameters are this many pointers to a type. The type of
the pointers is only looked for: no function takes pointers of a type that is not in the pool. -/
def pointerFunction? (c : Context) (name : String) (t : TypeId) (count : Nat) :
    Option Ir.FuncId :=
  match c.pool.pointerTo? t with
  | some pointer => (c.lookupFunction? name (List.replicate count pointer)).map (·.backend)
  | none => none

/-- The destructor of a type. There is none for `void`. -/
def destructor? (c : Context) (t : TypeId) : Option Ir.FuncId :=
  if c.pool.isVoid t then none else c.pointerFunction? destroyName t 1

/-- Whether a type whose id is below `bound` owns resources. -/
def ownsResourcesBelow (c : Context) : (bound : Nat) → TypeId → Bool
  | 0, _ => false
  | bound + 1, t =>
    (c.destructor? t).isSome ||
      match c.structOfType? t with
      | some s => s.memberTypes.any (c.ownsResourcesBelow bound)
      | none => false

/-- Whether dropping a value of the type takes any cleanup. -/
def ownsResources (c : Context) (t : TypeId) : Bool := c.ownsResourcesBelow (t.index + 1) t

/-- Emits the call of a destructor on a slot that holds the value. -/
def callDestructor (b : Ir.BlockId) (ty : Ir.TyId) (value : Ir.ValueId) (destructor : Ir.FuncId) :
    Ir.Build PUnit := do
  let slot ← Ir.Module.alloca b ty
  Ir.Module.store b value slot
  let _ ← Ir.Module.call b destructor [slot]

/-- The diagnostic of a cleanup that was refused. -/
def cleanupRefused (e : Ir.Error) : Diagnostic := Report.destructorFailed e.message

/-- Cleans up the members of an aggregate that own resources, counted from an index on. -/
def cleanUpMembers (cleanUp : Ir.BlockId → TypeId → Ir.ValueId → Check Ir.BlockId)
    (aggregate : Ir.ValueId) : Ir.BlockId → (index : Nat) → List TypeId → Check Ir.BlockId
  | b, _, [] => pure b
  | b, index, member :: members => do
    if (← get).ownsResources member then
      let field ← emitOr cleanupRefused (Ir.Module.extractValue b aggregate index)
      let b ← cleanUp b member field
      cleanUpMembers cleanUp aggregate b (index + 1) members
    else
      cleanUpMembers cleanUp aggregate b (index + 1) members

/-- Cleans up a value of a type whose id is below `bound` and returns the block to go on from. -/
def cleanUpBelow : (bound : Nat) → Ir.BlockId → TypeId → Ir.ValueId → Check Ir.BlockId
  | 0, _, _, _ => throw .unfinished
  | bound + 1, b, t, value => do
    match (← get).destructor? t with
    | some destructor =>
      let ty ← always (backendType t)
      emitOr cleanupRefused (callDestructor b ty value destructor)
      return b
    | none =>
      match (← get).structOfType? t with
      | some s => cleanUpMembers (cleanUpBelow bound) value b 0 s.memberTypes
      | none => return b

/-- Cleans up a result that is not needed any more, unless it is owned elsewhere. -/
def destruct (r : Result) : Check Result := do
  if r.borrowed then
    return r
  else
    let b ← cleanUpBelow (r.ty.index + 1) r.block r.ty r.value
    return r.inBlock b

end FormCompiler.Context
