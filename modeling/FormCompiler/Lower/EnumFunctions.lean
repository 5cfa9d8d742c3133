import FormCompiler.Context.Declare

/-!
# Functions of Enums

The functions every enum gets when it is declared, all with the linkage of the enum:

* a constructor, named as the enum, that wraps a value of the type under the enum;
* a conversion, named as the type under the enum, that takes it out again;
* the six comparisons, which compare the wrapped values as signed or unsigned integers, as the
  type under the enum is.
-/

namespace FormCompiler.Context

/-- A comparison operator and its predicates for signed and unsigned integers. -/
structure Comparison where
  operator : String
  signed : Ir.IntPredicate
  unsigned : Ir.IntPredicate
deriving Repr, DecidableEq

/-- The comparisons of enums, in the order of declaration. -/
def comparisons : List Comparison :=
  [⟨"=", .eq, .eq⟩, ⟨"!=", .ne, .ne⟩, ⟨"<", .slt, .ult⟩, ⟨"<=", .sle, .ule⟩, ⟨">", .sgt, .ugt⟩,
   ⟨">=", .sge, .uge⟩]

/-- Declares a function and gives it one block that returns what the body computes from the
parameters. If the body is refused, its block is closed and the refusal reported. -/
def defineOneBlock (name : String) (params : List Param) (returnType : TypeId)
    (linkage : Ir.Linkage) (span : Span)
    (body : Ir.BlockId → List Ir.ValueId → Ir.Build Ir.ValueId) : Check PUnit := do
  let func ← declareFunction name params returnType linkage span
  let entry ← always (onModule (Ir.Module.appendBlock func "entry"))
  let arguments := ((← get).ir.function func).params
  let computeAndReturn : Ir.Build PUnit := do
    let v ← body entry arguments
    Ir.Module.ret entry (some v)
  match ← always (attempt computeAndReturn) with
  | .ok _ => return ⟨⟩
  | .error e => do
    let _ ← always (onModule (Ir.Module.finishFunction func))
    fail (Report.backendError span e.message)

/-- The body of the constructor: an aggregate that holds the argument. -/
def constructorBody (backing : Ir.TyId) (b : Ir.BlockId) :
    List Ir.ValueId → Ir.Build Ir.ValueId
  | value :: _ => do
    let blank ← Ir.Module.always (Ir.Module.undefined backing)
    Ir.Module.insertValue b blank value 0
  | [] => throw (.argumentCount "enum" 1 0)

/-- The body of the conversion: what the argument holds. -/
def conversionBody (b : Ir.BlockId) : List Ir.ValueId → Ir.Build Ir.ValueId
  | value :: _ => Ir.Module.extractValue b value 0
  | [] => throw (.argumentCount "enum" 1 0)

/-- The body of a comparison: what the arguments hold, compared. -/
def comparisonBody (predicate : Ir.IntPredicate) (b : Ir.BlockId) :
    List Ir.ValueId → Ir.Build Ir.ValueId
  | first :: second :: _ => do
    let lhs ← Ir.Module.extractValue b first 0
    let rhs ← Ir.Module.extractValue b second 0
    Ir.Module.icmp b predicate lhs rhs
  | _ => throw (.argumentCount "enum" 2 0)

/-- Declares comparisons of an enum type. -/
def defineComparisons (enumTy : TypeId) (signed : Bool) (linkage : Ir.Linkage) (span : Span) :
    List Comparison → Check PUnit
  | [] => return ⟨⟩
  | comparison :: rest => do
    let predicate := if signed then comparison.signed else comparison.unsigned
    defineOneBlock comparison.operator [⟨"a", enumTy⟩, ⟨"b", enumTy⟩] .bool linkage span
      (comparisonBody predicate)
    defineComparisons enumTy signed linkage span rest

/-- Declares the functions of an enum in the current namespace. -/
def defineEnumFunctions (name : String) (enumTy underlying : TypeId) (linkage : Ir.Linkage)
    (span : Span) : Check PUnit := do
  let backing ← always (backendType enumTy)
  defineOneBlock name [⟨"value", underlying⟩] enumTy linkage span (constructorBody backing)
  let conversion := (← get).typeName underlying
  defineOneBlock conversion [⟨"value", enumTy⟩] underlying linkage span conversionBody
  let signed := (← get).pool.isSigned underlying
  defineComparisons enumTy signed linkage span comparisons

end FormCompiler.Context
