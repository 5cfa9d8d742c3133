import FormCompiler.Ir.Basic
import FormCompiler.Types.Pool

/-!
# Results of Forms

What processing a form gives: a typed value, the block to go on from, and where the value comes
from. A value read from storage is an lvalue and knows the address of that storage; a value whose
storage is owned elsewhere is borrowed and must not be cleaned up.
-/

namespace FormCompiler

/-- The result of a form. -/
structure Result where
  ty : TypeId
  value : Ir.ValueId
  /-- The block to go on from; a form that branches leaves another one than it was given. -/
  block : Ir.BlockId
  isLvalue : Bool
  /-- The address the value was read from. -/
  address : Option Ir.ValueId
  /-- The type of that address: pointers to the type of the value. -/
  addressTy : Option TypeId
  /-- Assignment takes the value as it is and does not copy it. -/
  noCopy : Bool
  /-- The value is owned elsewhere. -/
  borrowed : Bool
deriving DecidableEq, Repr, Inhabited

namespace Result

/-- An owned value without storage. -/
def new (block : Ir.BlockId) (ty : TypeId) (value : Ir.ValueId) : Result :=
  ⟨ty, value, block, false, none, none, false, false⟩

/-- The value as read from an address. -/
def withLvalue (r : Result) (address : Ir.ValueId) (addressTy : TypeId) : Result :=
  { r with isLvalue := true, address := some address, addressTy := some addressTy }

/-- The value as owned elsewhere. -/
def ownedElsewhere (r : Result) : Result := { r with borrowed := true }

/-- The value with another block to go on from. -/
def inBlock (r : Result) (block : Ir.BlockId) : Result := { r with block }

/-- The address fields agree with each other and with the type of the value. -/
def isConsistent (r : Result) (pool : Pool) : Bool :=
  match r.address, r.addressTy with
  | some _, some addressTy => r.isLvalue && pool.pointee? addressTy == some r.ty
  | none, none => !r.isLvalue
  | _, _ => false

end Result

end FormCompiler
