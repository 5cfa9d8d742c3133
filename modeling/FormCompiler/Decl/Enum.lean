import FormCompiler.Decl.Linkage
import FormCompiler.Types.Pool

/-!
# Enums

An enum has named members with integer values in the range of the type under it. A member without
a value of its own is one above the member before it, the first one zero.

A declaration collects its members in an `EnumBuilder`. A member that is refused leaves the builder
as it was, and only a finished builder becomes an enum.
-/

namespace FormCompiler

/-- Why a member is refused. -/
inductive MemberError where
  /-- The name is a member already. -/
  | duplicate
  /-- The value is not one of the type under the enum. -/
  | outOfRange (value : Int)
deriving DecidableEq, Repr

/-- The largest value a member can have: that of a signed integer of 128 bits. -/
def maxMember : Int := Int.pow 2 127 - 1

/-- The smallest value a member can have. -/
def minMember : Int := -Int.pow 2 127

/-- The least and the greatest value of an integer type, as far as members can have them. -/
def memberRange (bits : Nat) (signed : Bool) : Int × Int :=
  if signed then
    if 128 ≤ bits then (minMember, maxMember)
    else (-Int.pow 2 (bits - 1), Int.pow 2 (bits - 1) - 1)
  else if 127 ≤ bits then (0, maxMember) else (0, Int.pow 2 bits - 1)

/-- The members of an enum under construction. -/
structure EnumBuilder where
  members : Array (String × Int)
  /-- The value of the next member without one of its own. -/
  next : Int
  least : Int
  greatest : Int
deriving Repr, Inhabited

namespace EnumBuilder

/-- The builder without members for an enum over an integer type. -/
def start (bits : Nat) (signed : Bool) : EnumBuilder :=
  let (least, greatest) := memberRange bits signed
  ⟨#[], 0, least, greatest⟩

/-- Number of members. -/
def size (b : EnumBuilder) : Nat := b.members.size

/-- The name is a member. -/
def contains (b : EnumBuilder) (name : String) : Bool := b.members.any fun m => m.1 == name

/-- Adds a member. Past the largest value the next one stays there, where it is refused or taken
for a second time. -/
def add (b : EnumBuilder) (name : String) (value : Int) : Except MemberError EnumBuilder :=
  if b.contains name then .error .duplicate
  else if value < b.least ∨ b.greatest < value then .error (.outOfRange value)
  else .ok { b with members := b.members.push (name, value), next := min (value + 1) maxMember }

/-- Adds a member valued one above the member before it. -/
def addAuto (b : EnumBuilder) (name : String) : Except MemberError EnumBuilder :=
  b.add name b.next

end EnumBuilder

/-- A registered enum. -/
structure Enum where
  linkage : Ir.Linkage
  onceTag : Option String
  /-- The type of the enum. -/
  ty : TypeId
  /-- The integer type under it. -/
  underlying : TypeId
  members : Array (String × Int)
deriving Repr, Inhabited, DecidableEq

/-- The enum of a finished builder. -/
def EnumBuilder.finish (b : EnumBuilder) (linkage : Ir.Linkage) (onceTag : Option String)
    (ty underlying : TypeId) : Enum :=
  ⟨linkage, onceTag, ty, underlying, b.members⟩

/-- The value of a member. -/
def Enum.memberValue? (e : Enum) (name : String) : Option Int :=
  (e.members.find? fun m => m.1 == name).map (·.2)

end FormCompiler
