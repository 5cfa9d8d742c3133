import FormCompiler.Types.Primitive

/-!
# The Type Pool

The types of a unit, each at the index of its id. A type is entered once, so two types are the
same exactly when their ids are equal. The primitive types come first, at fixed ids; pointers,
structs and enums follow as they are asked for.

The pointee of a pointer is entered before the pointer, so it has a smaller id. Only the id that
stands for no type, which is in no pool, may be a pointee without being entered.
-/

namespace FormCompiler

/-- Id of a type: its index in the pool. -/
structure TypeId where
  index : Nat
deriving DecidableEq, Repr, Inhabited

namespace TypeId

/-- The id of a primitive type. -/
def ofPrimitive (p : Primitive) : TypeId := ⟨p.index⟩

/-- The id that stands for no type: the largest 32-bit index. -/
def none : TypeId := ⟨Nat.pow 2 32 - 1⟩

/-- The id stands for no type. -/
def isNone (t : TypeId) : Bool := t == none

/-- The primitive type of an id, if it is one. -/
def primitive? (t : TypeId) : Option Primitive := Primitive.all[t.index]?

/-- The id is one of a primitive type. -/
def isPrimitive (t : TypeId) : Bool := t.primitive?.isSome

/-- The source name of a primitive type's id. -/
def name? (t : TypeId) : Option String := t.primitive?.map Primitive.name

/-- The id of the primitive type with this source name. -/
def ofPrimitiveName? (text : String) : Option TypeId := (Primitive.ofName? text).map ofPrimitive

/-- Text of an id by itself: the name of a primitive type, otherwise the index. -/
def describe (t : TypeId) : String :=
  if t.isNone then "Idx::NONE" else "Idx(" ++ t.name?.getD (toString t.index) ++ ")"

/-- The type of integer literals. -/
def int : TypeId := ofPrimitive .int

/-- The type of truth values. -/
def bool : TypeId := ofPrimitive .bool

/-- The type of floating-point literals. -/
def float : TypeId := ofPrimitive .float

/-- The type of the characters of a string. -/
def char : TypeId := ofPrimitive .char

/-- The type without values. -/
def void : TypeId := ofPrimitive .void

end TypeId

/-- What a type is. A struct or an enum is known by its name and the path of the namespace that
declares it. -/
inductive SourceType where
  | primitive (p : Primitive)
  | pointer (pointee : TypeId)
  | struct (name : String) (path : List String)
  | enum (name : String) (path : List String)
deriving DecidableEq, Repr

instance : Inhabited SourceType := ⟨.primitive .void⟩

/-- Properties of types, in the order of their bits. -/
inductive TypeFlag where
  | isPrimitive
  | isVoid
  | isInteger
  | isSigned
  | isFloat
  | isPointer
  | isAggregate
  | isNamed
deriving DecidableEq, Repr

/-- All properties, in the order of their bits. -/
def TypeFlag.all : List TypeFlag :=
  [isPrimitive, isVoid, isInteger, isSigned, isFloat, isPointer, isAggregate, isNamed]

namespace SourceType

/-- Whether a type has a property. -/
def has : SourceType → TypeFlag → Bool
  | primitive p, flag =>
    match flag with
    | .isPrimitive => true
    | .isVoid => p == .void
    | .isInteger => p.isInteger
    | .isSigned => p.isSigned
    | .isFloat => p.isFloat
    | .isPointer | .isAggregate | .isNamed => false
  | pointer _, flag => flag == .isPointer
  | struct _ _, flag => flag == .isAggregate || flag == .isNamed
  | enum _ _, flag => flag == .isAggregate || flag == .isNamed

/-- The properties of a type, in the order of their bits. -/
def flags (t : SourceType) : List TypeFlag := TypeFlag.all.filter t.has

/-- The properties of a type as one number, a bit for each. -/
def flagBits (t : SourceType) : Nat :=
  TypeFlag.all.zipIdx.foldl
    (fun bits (flag, bit) => if t.has flag then bits + Nat.pow 2 bit else bits) 0

/-- Integer and floating-point types are numeric. -/
def isNumeric (t : SourceType) : Bool := t.has .isInteger || t.has .isFloat

end SourceType

/-- The types of a unit and the target that fixes their widths. -/
structure Pool where
  types : Array SourceType
  target : Target
deriving Repr

namespace Pool

/-- The pool that holds the primitive types only. -/
def start (target : Target) : Pool :=
  ⟨(Primitive.all.map SourceType.primitive).toArray, target⟩

instance : Inhabited Pool := ⟨start default⟩

/-- Number of types. -/
def size (p : Pool) : Nat := p.types.size

/-- The type of an id; an id of no type reads as `void`. -/
def type (p : Pool) (t : TypeId) : SourceType := p.types.getD t.index default

/-- The id of a type that is in the pool. -/
def find? (p : Pool) (type : SourceType) : Option TypeId :=
  (p.types.findIdx? (· == type)).map TypeId.mk

/-- The id of a type, which is entered if it is new. -/
def intern (p : Pool) (type : SourceType) : TypeId × Pool :=
  match p.find? type with
  | some t => (t, p)
  | none => (⟨p.size⟩, { p with types := p.types.push type })

/-- The type of pointers to a type. -/
def pointerTo (p : Pool) (pointee : TypeId) : TypeId × Pool := p.intern (.pointer pointee)

/-- The type of pointers to a type, if it is in the pool. -/
def pointerTo? (p : Pool) (pointee : TypeId) : Option TypeId := p.find? (.pointer pointee)

/-- The struct type of a name declared under a namespace path. -/
def namedStruct (p : Pool) (name : String) (path : List String) : TypeId × Pool :=
  p.intern (.struct name path)

/-- The enum type of a name declared under a namespace path. -/
def namedEnum (p : Pool) (name : String) (path : List String) : TypeId × Pool :=
  p.intern (.enum name path)

/-- The pointee of a pointer type; other types have none. -/
def pointee? (p : Pool) (t : TypeId) : Option TypeId :=
  match p.type t with
  | .pointer pointee => some pointee
  | _ => none

/-- The type is a pointer type. -/
def isPointer (p : Pool) (t : TypeId) : Bool := (p.type t).has .isPointer

/-- The type is `void`. -/
def isVoid (p : Pool) (t : TypeId) : Bool := (p.type t).has .isVoid

/-- The type is an integer type. -/
def isInteger (p : Pool) (t : TypeId) : Bool := (p.type t).has .isInteger

/-- The type is an integer type with negative values. -/
def isSigned (p : Pool) (t : TypeId) : Bool := (p.type t).has .isSigned

/-- The type is a floating-point type. -/
def isFloat (p : Pool) (t : TypeId) : Bool := (p.type t).has .isFloat

/-- Width of an integer type on the pool's target. -/
def intWidth? (p : Pool) (t : TypeId) : Option Nat :=
  match p.type t with
  | .primitive q => q.intWidth? p.target
  | _ => none

/-- Width of a floating-point type on the pool's target. -/
def floatWidth? (p : Pool) (t : TypeId) : Option Nat :=
  match p.type t with
  | .primitive q => q.floatWidth? p.target
  | _ => none

/-- The name and the namespace path of a struct or enum type. -/
def namedParts? (p : Pool) (t : TypeId) : Option (String × List String) :=
  match p.type t with
  | .struct name path => some (name, path)
  | .enum name path => some (name, path)
  | _ => none

/-- Printable form of a type whose id is below `bound`, or of the absent type, which may stand
behind a pointer too. -/
def formatBelow (p : Pool) : (bound : Nat) → TypeId → String
  | 0, t => if t.isNone then "<none>" else ""
  | bound + 1, t =>
    if t.isNone then "<none>" else
    match p.type t with
    | .primitive q => q.name
    | .pointer pointee => "(p " ++ p.formatBelow bound pointee ++ ")"
    | .struct name path => String.join (path.map (· ++ ".")) ++ name
    | .enum name path => String.join (path.map (· ++ ".")) ++ name

/-- Printable form of a type: `int`, `(p int)`, `outer.inner.Colour`. -/
def format (p : Pool) (t : TypeId) : String :=
  p.formatBelow (t.index + 1) t

end Pool

end FormCompiler
