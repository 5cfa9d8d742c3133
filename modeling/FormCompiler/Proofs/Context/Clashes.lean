import FormCompiler.Proofs.Context.Valid
import FormCompiler.Proofs.Ir.Refusals
import FormCompiler.Proofs.Lower.Reports

/-!
# Where Backend Types Clash

The source has pointers to `void`, for which the backend has pointers to bytes. A parameter of type
`void` lives in a slot all the same, and the address of that slot is a pointer to `void` in the
backend: the one value of a source type that does not have its backend type (`Stands.stray`). So a
value of a pointer type may stand for bytes where nothing was expected, or the other way round, and
what is written through a pointer to `void` may be nothing where bytes were expected.

`Clash` lists the pairs of backend types that differ in this way, `Stands.agree` says that there are
no others, and `Clashes` is said of the reports of such pairs. They need a unit that has the type of
pointers to `void`.
-/

namespace FormCompiler.Context

open Relation

/-- In a unit with pointers to `void`, the types are one that the backend uses for them, or points
to by them, and one of nothing in its place. -/
inductive Clash (c : Context) : Ir.TyId → Ir.TyId → Prop
  /-- Nothing was found where a byte was expected. -/
  | value {byte void : Ir.TyId} (type : .pointer .void ∈ c.pool.types)
      (foundByte : c.ir.findType? (.int 8) = some byte)
      (foundVoid : c.ir.findType? .void = some void) : Clash c byte void
  /-- A pointer to nothing was found where one to bytes was expected. -/
  | bytes {byte void bytes voids : Ir.TyId} (type : .pointer .void ∈ c.pool.types)
      (foundByte : c.ir.findType? (.int 8) = some byte)
      (foundVoid : c.ir.findType? .void = some void)
      (foundBytes : c.ir.findType? (.pointer byte) = some bytes)
      (foundVoids : c.ir.findType? (.pointer void) = some voids) : Clash c bytes voids
  /-- A pointer to bytes was found where one to nothing was expected. -/
  | voids {byte void bytes voids : Ir.TyId} (type : .pointer .void ∈ c.pool.types)
      (foundByte : c.ir.findType? (.int 8) = some byte)
      (foundVoid : c.ir.findType? .void = some void)
      (foundBytes : c.ir.findType? (.pointer byte) = some bytes)
      (foundVoids : c.ir.findType? (.pointer void) = some voids) : Clash c voids bytes

/-- The diagnostic reports that the backend refused types that clash. -/
def Clashes (c : Context) (d : Diagnostic) : Prop :=
  ∃ span expected found, c.Clash expected found ∧ d = Report.backendError span
    (Ir.Error.typeMismatch (c.ir.typeName expected) (c.ir.typeName found)).message

variable {c c' : Context}

/-! ## Names of types that clash -/

/-- The name of nothing or of an integer type does not depend on the module. -/
theorem typeNameBelow_of_leaf {m m' : Ir.Module} {t : Ir.TyId} {ty : Ir.Ty} (bound : Nat)
    (hty : ty = .void ∨ ∃ bits, ty = .int bits) (htype : m.type t = ty) (htype' : m'.type t = ty) :
    m'.typeNameBelow bound t = m.typeNameBelow bound t := by
  cases bound with
  | zero => rfl
  | succ bound =>
    unfold Ir.Module.typeNameBelow
    rw [htype, htype']
    obtain rfl | ⟨bits, rfl⟩ := hty <;> rfl

/-- Nor does that of a pointer to such a type. -/
theorem typeNameBelow_of_pointer {m m' : Ir.Module} {t pointee : Ir.TyId} {ty : Ir.Ty} (bound : Nat)
    (hty : ty = .void ∨ ∃ bits, ty = .int bits) (htype : m.type t = .pointer pointee)
    (htype' : m'.type t = .pointer pointee) (hpointee : m.type pointee = ty)
    (hpointee' : m'.type pointee = ty) :
    m'.typeNameBelow bound t = m.typeNameBelow bound t := by
  cases bound with
  | zero => rfl
  | succ bound =>
    unfold Ir.Module.typeNameBelow
    rw [htype, htype']
    exact congrArg (· ++ "*") (typeNameBelow_of_leaf bound hty hpointee hpointee')

/-- Types that clash do so later, too, and have the same names. -/
theorem Clash.mono {expected found : Ir.TyId} (h : c.Clash expected found) (hc : c.Steady c') :
    c'.Clash expected found ∧ c'.ir.typeName expected = c.ir.typeName expected ∧
      c'.ir.typeName found = c.ir.typeName found := by
  have htype : ∀ {ty : Ir.Ty} {t : Ir.TyId}, c.ir.findType? ty = some t →
      c.ir.type t = ty ∧ c'.ir.type t = ty := fun hfound =>
    ⟨Ir.Module.type_of_getElem? (Ir.Module.type_of_find hfound),
      Ir.Module.type_of_getElem? (Ir.Module.type_of_find (hc.findType? hfound))⟩
  have hleaf : ∀ {ty : Ir.Ty} {t : Ir.TyId}, (ty = .void ∨ ∃ bits, ty = .int bits) →
      c.ir.findType? ty = some t → c'.ir.typeName t = c.ir.typeName t := fun hty hfound =>
    typeNameBelow_of_leaf _ hty (htype hfound).1 (htype hfound).2
  have hpointer : ∀ {ty : Ir.Ty} {t pointee : Ir.TyId}, (ty = .void ∨ ∃ bits, ty = .int bits) →
      c.ir.findType? ty = some pointee → c.ir.findType? (.pointer pointee) = some t →
      c'.ir.typeName t = c.ir.typeName t := fun hty hfound hfound' =>
    typeNameBelow_of_pointer _ hty (htype hfound').1 (htype hfound').2 (htype hfound).1
      (htype hfound).2
  have hmem : ∀ {type : SourceType}, type ∈ c.pool.types → type ∈ c'.pool.types := by
    intro type h
    obtain ⟨i, hi⟩ := Array.mem_iff_getElem?.1 h
    exact Array.mem_of_getElem? (hc.pool.types.getElem?_some hi)
  cases h with
  | value type foundByte foundVoid =>
    exact ⟨.value (hmem type) (hc.findType? foundByte) (hc.findType? foundVoid),
      hleaf (.inr ⟨8, rfl⟩) foundByte, hleaf (.inl rfl) foundVoid⟩
  | bytes type foundByte foundVoid foundBytes foundVoids =>
    exact ⟨.bytes (hmem type) (hc.findType? foundByte) (hc.findType? foundVoid)
      (hc.findType? foundBytes) (hc.findType? foundVoids),
      hpointer (.inr ⟨8, rfl⟩) foundByte foundBytes, hpointer (.inl rfl) foundVoid foundVoids⟩
  | voids type foundByte foundVoid foundBytes foundVoids =>
    exact ⟨.voids (hmem type) (hc.findType? foundByte) (hc.findType? foundVoid)
      (hc.findType? foundBytes) (hc.findType? foundVoids), hpointer (.inl rfl) foundVoid foundVoids,
      hpointer (.inr ⟨8, rfl⟩) foundByte foundBytes⟩

/-- A report of a clash is one later, too. -/
theorem Clashes.mono {d : Diagnostic} (h : c.Clashes d) (hc : c.Steady c') : c'.Clashes d := by
  obtain ⟨span, expected, found, hclash, rfl⟩ := h
  obtain ⟨hclash', hexpected, hfound⟩ := hclash.mono hc
  exact ⟨span, expected, found, hclash', by rw [hexpected, hfound]⟩

/-! ## Backend types of values -/

/-- A value of the source type may have the backend type: it is that of the type or, for a pointer
to `void` that is the address of a slot, a pointer to nothing. -/
inductive Stands (c : Context) (t : TypeId) (ty : Ir.TyId) : Prop
  | backs (backs : c.Backs t ty)
  | stray {void : Ir.TyId} (type : c.pool.types[t.index]? = some (.pointer .void))
      (foundVoid : c.ir.findType? .void = some void)
      (found : c.ir.findType? (.pointer void) = some ty)

variable {t : TypeId} {ty ty' : Ir.TyId}

/-- A backend type of values stays one. -/
theorem Stands.mono (h : c.Stands t ty) (hc : c.Steady c') : c'.Stands t ty := by
  cases h with
  | backs backs => exact .backs (backs.mono hc)
  | stray type foundVoid found =>
    exact .stray (hc.pool.types.getElem?_some type) (hc.findType? foundVoid) (hc.findType? found)

/-- Only `void` is `void`. -/
theorem eq_void_of_isVoid (hc : c.pool.Sound) (ht : t.index < c.pool.types.size)
    (h : c.pool.isVoid t = true) : t = .void := by
  have hvoid : c.pool.types[t.index]? = some (.primitive .void) := by
    rw [Pool.getElem?_type ht, Pool.type_of_isVoid h]
  have hindex := hc.distinct _ _ _ hvoid (hc.primitives .void)
  cases t
  exact congrArg TypeId.mk hindex

/-- `void` is `void`. -/
theorem isVoid_void (hc : c.pool.Sound) : c.pool.isVoid .void = true := by
  rw [Pool.isVoid, Pool.type_of_getElem? (t := .void) (hc.primitives .void)]
  rfl

/-- A pointer to `void` is backed by a pointer to bytes. -/
theorem Backs.of_pointerVoid (h : c.Backs t ty) (hc : c.pool.Sound)
    (htype : c.pool.types[t.index]? = some (.pointer .void)) :
    ∃ byte, c.ir.findType? (.int 8) = some byte ∧ c.ir.findType? (.pointer byte) = some ty := by
  cases h with
  | primitive type => cases htype.symm.trans type
  | voidPointer type below isVoid foundByte found => exact ⟨_, foundByte, found⟩
  | pointer type below isVoid backs found =>
    cases htype.symm.trans type
    rw [isVoid_void hc] at isVoid
    cases isVoid
  | named type isNamed layout =>
    cases htype.symm.trans type
    cases isNamed

/-- What can be read through a pointer has a backend type to which the backend type of the pointer
points. -/
theorem Stands.of_pointee? (h : c.Stands t ty) (hc : c.pool.Sound) {pointee : TypeId}
    (hpointee : c.pool.pointee? t = some pointee) (hvoid : c.pool.isVoid pointee = false) :
    c.Backs t ty := by
  cases h with
  | backs backs => exact backs
  | stray type foundVoid found =>
    rw [Pool.pointee?, Pool.type_of_getElem? type] at hpointee
    cases hpointee
    rw [isVoid_void hc] at hvoid
    cases hvoid

/-- A type that is no pointer is backed by the backend type of its values. -/
theorem Stands.of_not_pointer (h : c.Stands t ty)
    (ht : c.pool.types[t.index]? ≠ some (.pointer .void)) : c.Backs t ty := by
  cases h with
  | backs backs => exact backs
  | stray type => exact absurd type ht

/-- The address of a slot is one of a pointer to what is in the slot. -/
theorem stands_slot {pointer : TypeId} {inner : Ir.TyId} (hc : c.pool.Sound)
    (htype : c.pool.types[pointer.index]? = some (.pointer t)) (hinner : c.Backs t inner)
    (hfound : c.ir.findType? (.pointer inner) = some ty) : c.Stands pointer ty := by
  cases hvoid : c.pool.isVoid t with
  | false => exact .backs (.pointer htype (hc.pointees _ _ htype) hvoid hinner hfound)
  | true =>
    obtain rfl := eq_void_of_isVoid hc hinner.index_lt hvoid
    exact .stray htype (hinner.of_primitive (p := .void) (hc.primitives .void)) hfound

/-- **Backend types of one source type agree or clash.** -/
theorem Stands.agree (h : c.Stands t ty) (hc : c.pool.Sound) (h' : c.Stands t ty') :
    ReflGen c.Clash ty ty' := by
  cases h with
  | backs backs =>
    cases h' with
    | backs backs' => exact backs.unique backs' ▸ .refl
    | stray type foundVoid found =>
      obtain ⟨byte, foundByte, foundBytes⟩ := backs.of_pointerVoid hc type
      exact .single (.bytes (Array.mem_of_getElem? type) foundByte foundVoid foundBytes found)
  | stray type foundVoid found =>
    cases h' with
    | backs backs' =>
      obtain ⟨byte, foundByte, foundBytes⟩ := backs'.of_pointerVoid hc type
      exact .single (.voids (Array.mem_of_getElem? type) foundByte foundVoid foundBytes found)
    | stray type' foundVoid' found' =>
      obtain rfl := Option.some_inj.1 (foundVoid.symm.trans foundVoid')
      exact Option.some_inj.1 (found.symm.trans found') ▸ .refl

/-- A value that is written through a pointer has the type that the pointer points to, or clashes
with it. -/
theorem Stands.pointee_agree {pointee : TypeId} (h : c.Stands t ty) (hc : c.pool.Sound)
    (hpointee : c.pool.pointee? t = some pointee) (h' : c.Stands pointee ty') :
    ∃ inner, c.ir.pointee? ty = some inner ∧ ReflGen c.Clash inner ty' := by
  have htype := Pool.getElem?_of_pointee? hpointee
  -- through a pointer to `void` only nothing is written
  have hnothing : pointee = .void → c.ir.findType? .void = some ty' := by
    rintro rfl
    have hprimitive := hc.primitives .void
    have hbacks := h'.of_not_pointer fun htype => by cases htype.symm.trans hprimitive
    exact hbacks.of_primitive (p := .void) hprimitive
  cases h with
  | stray type foundVoid found =>
    cases htype.symm.trans type
    obtain rfl := Option.some_inj.1 (foundVoid.symm.trans (hnothing rfl))
    exact ⟨_, Lower.pointee?_of_find found, .refl⟩
  | backs backs =>
    cases backs with
    | primitive type => cases htype.symm.trans type
    | named type isNamed =>
      cases htype.symm.trans type
      cases isNamed
    | voidPointer type below isVoid foundByte found =>
      cases htype.symm.trans type
      obtain rfl := eq_void_of_isVoid hc
        (Nat.lt_trans below (Array.getElem?_eq_some_iff.1 htype).1) isVoid
      exact ⟨_, Lower.pointee?_of_find found,
        .single (.value (Array.mem_of_getElem? htype) foundByte (hnothing rfl))⟩
    | pointer type below isVoid backs found =>
      cases htype.symm.trans type
      exact ⟨_, Lower.pointee?_of_find found, (Stands.backs backs).agree hc h'⟩

end FormCompiler.Context
