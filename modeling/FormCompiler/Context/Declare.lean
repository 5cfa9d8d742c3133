import FormCompiler.Context.Basic

/-!
# Backend Types and Function Declarations

How the types of the source are represented in the module, and the declaration of a function in
both: the module gets the function under its mangled symbol, the current namespace the overload.
-/

namespace FormCompiler.Context

/-- The backend type of a primitive type: `bool` is an integer of one bit. -/
def primitiveBackend (target : Target) (p : Primitive) : Ir.Ty :=
  match p.intWidth? target, p.floatWidth? target with
  | some bits, _ => .int bits
  | none, some bits => .float bits
  | none, none => if p = .bool then .int 1 else .void

/-- The backend type of a type whose id is below `bound`. -/
def backendTypeBelow : (bound : Nat) → TypeId → StateM Context Ir.TyId
  | 0, _ => onModule (Ir.Module.literalStruct [])
  | bound + 1, t => fun c =>
    match c.pool.type t with
    | .primitive p => onModule (Ir.Module.internType (primitiveBackend c.pool.target p)) c
    | .pointer pointee =>
      if c.pool.isVoid pointee then
        (do let byte ← onModule (Ir.Module.intType 8)
            onModule (Ir.Module.pointerTo byte)) c
      else
        (do let inner ← backendTypeBelow bound pointee
            onModule (Ir.Module.pointerTo inner)) c
    | .struct _ _ | .enum _ _ =>
      match c.layouts.lookup t with
      | some backend => (backend, c)
      | none => onModule (Ir.Module.literalStruct []) c

/-- The backend type of a type. A pointer to `void` points to bytes, and a struct or enum has the
layout it got when it was declared. -/
def backendType (t : TypeId) : StateM Context Ir.TyId := backendTypeBelow (t.index + 1) t

/-- The backend types of several types, in order. -/
def backendTypes : List TypeId → StateM Context (List Ir.TyId)
  | [] => pure []
  | t :: ts => do
    let b ← backendType t
    let bs ← backendTypes ts
    return b :: bs

/-- The value that stands for the result of forms of type `void`. -/
def voidValue : StateM Context Ir.ValueId := do
  let void ← onModule Ir.Module.voidType
  onModule (Ir.Module.undefined void)

/-- Declares an overload in the module and in the current namespace. It is refused if the namespace
has an overload with the same parameter types, or if its symbol is taken. -/
def declareFunction (name : String) (params : List Param) (returnType : TypeId)
    (linkage : Ir.Linkage) (span : Span) : Check Ir.FuncId := do
  let redeclared := Report.redeclaration .functionRedeclared span name
  let paramTypes := params.map (·.ty)
  let taken := ((← get).current.overload? name paramTypes).isSome
  if taken then
    fail redeclared
  else
    let symbol := (← get).functionSymbol name paramTypes
    let backendParams ← always (backendTypes paramTypes)
    let ret ← always (backendType returnType)
    let refusal (e : Ir.Error) : Diagnostic :=
      match e with
      | .duplicateSymbol _ => redeclared
      | e => Report.backendError span e.message
    let backend ←
      emitOr refusal (Ir.Module.declareFunction symbol backendParams ret linkage)
    let _ ← always (addFunction ⟨name, params, returnType, linkage, symbol, backend⟩)
    return backend

end FormCompiler.Context
