import FormCompiler.Proofs.Context.Growth
import Mathlib.Data.List.Forall2

/-!
# Types and their Backend Types

`Backs c t ty` says that the backend type of the type `t` is in the module under the id `ty`, so
that `backendType` returns it without entering anything. Backend types are canonical, so a type has
one at most, and it keeps it while the context grows (`Steady`).

`Grounded c t` says that `t` is made of declared types and so has a backend type, which may have to
be entered yet.
-/

namespace FormCompiler.Context

/-- Types were entered at most, and no layout has changed. -/
structure Steady (c c' : Context) : Prop where
  pool : c.pool.Extends c'.pool
  types : Grown c.ir.types c'.ir.types
  layouts : ∀ t b, c.layouts.lookup t = some b → c'.layouts.lookup t = some b

namespace Steady

variable {c c' c'' : Context}

/-- A context is steady with itself. -/
theorem refl (c : Context) : Steady c c := ⟨.refl _, .refl _, fun _ _ h => h⟩

/-- Types may be entered several times. -/
theorem trans (h : Steady c c') (h' : Steady c' c'') : Steady c c'' :=
  ⟨h.pool.trans h'.pool, h.types.trans h'.types, fun t b ht => h'.layouts t b (h.layouts t b ht)⟩

/-- Nothing is declared. -/
theorem of_within {P : Pool → Pool → Prop} {R : Ir.Module → Ir.Module → Prop}
    (h : Within P R c c') (hP : P c.pool c'.pool → c.pool.Extends c'.pool)
    (hR : R c.ir c'.ir → Grown c.ir.types c'.ir.types) : Steady c c' :=
  ⟨hP h.pool, hR h.ir, fun t b ht => by rwa [h.layouts]⟩

/-- Only backend types and values were entered. -/
theorem of_still (h : Within (· = ·) Ir.Module.Still c c') : Steady c c' :=
  of_within h (fun hp => hp ▸ .refl _) fun hm => hm.types.grown

/-- Only the module has grown. -/
theorem of_extends (h : Within (· = ·) Ir.Module.Extends c c') : Steady c c' :=
  of_within h (fun hp => hp ▸ .refl _) fun hm => hm.types

/-- Another module that extends the one before. -/
theorem of_ir {m : Ir.Module} (h : c.ir.Extends m) : Steady c (c.withIr m) := of_extends (.of_ir h)

/-- A backend type that was found is found again. -/
theorem findType? (h : Steady c c') {ty : Ir.Ty} {t : Ir.TyId}
    (ht : c.ir.findType? ty = some t) : c'.ir.findType? ty = some t := by
  rw [Ir.Module.findType?, Option.map_eq_some_iff] at ht ⊢
  obtain ⟨i, hi, rfl⟩ := ht
  exact ⟨i, h.types.findIdx? hi, rfl⟩

/-- Whether a type of the first pool is `void`. -/
theorem isVoid (h : Steady c c') {t : TypeId} (ht : t.index < c.pool.types.size) :
    c'.pool.isVoid t = c.pool.isVoid t := by
  rw [Pool.isVoid, h.pool.type ht, Pool.isVoid]

end Steady

/-! ## The relations -/

/-- The type is made of declared types. -/
inductive Grounded (c : Context) : TypeId → Prop
  | primitive {t : TypeId} {p : Primitive}
      (type : c.pool.types[t.index]? = some (.primitive p)) : Grounded c t
  | pointer {t pointee : TypeId} (type : c.pool.types[t.index]? = some (.pointer pointee))
      (below : pointee.index < t.index) (inner : Grounded c pointee) : Grounded c t
  | named {t : TypeId} {declared : SourceType} {ty : Ir.TyId}
      (type : c.pool.types[t.index]? = some declared) (isNamed : declared.has .isNamed = true)
      (layout : c.layouts.lookup t = some ty) : Grounded c t

/-- The backend type of the type is in the module under this id. -/
inductive Backs (c : Context) : TypeId → Ir.TyId → Prop
  | primitive {t : TypeId} {p : Primitive} {ty : Ir.TyId}
      (type : c.pool.types[t.index]? = some (.primitive p))
      (found : c.ir.findType? (primitiveBackend c.pool.target p) = some ty) : Backs c t ty
  | voidPointer {t pointee : TypeId} {byte ty : Ir.TyId}
      (type : c.pool.types[t.index]? = some (.pointer pointee))
      (below : pointee.index < t.index) (isVoid : c.pool.isVoid pointee = true)
      (foundByte : c.ir.findType? (.int 8) = some byte)
      (found : c.ir.findType? (.pointer byte) = some ty) : Backs c t ty
  | pointer {t pointee : TypeId} {inner ty : Ir.TyId}
      (type : c.pool.types[t.index]? = some (.pointer pointee))
      (below : pointee.index < t.index) (isVoid : c.pool.isVoid pointee = false)
      (backs : Backs c pointee inner)
      (found : c.ir.findType? (.pointer inner) = some ty) : Backs c t ty
  | named {t : TypeId} {declared : SourceType} {ty : Ir.TyId}
      (type : c.pool.types[t.index]? = some declared) (isNamed : declared.has .isNamed = true)
      (layout : c.layouts.lookup t = some ty) : Backs c t ty

variable {c c' : Context} {t : TypeId} {ty ty' : Ir.TyId}

/-- A grounded type is in the pool. -/
theorem Grounded.index_lt (h : Grounded c t) : t.index < c.pool.types.size := by
  cases h with
  | primitive type => exact (Array.getElem?_eq_some_iff.1 type).1
  | pointer type => exact (Array.getElem?_eq_some_iff.1 type).1
  | named type => exact (Array.getElem?_eq_some_iff.1 type).1

/-- A type stays grounded. -/
theorem Grounded.mono (h : Grounded c t) (hc : Steady c c') : Grounded c' t := by
  induction h with
  | primitive type => exact .primitive (hc.pool.types.getElem?_some type)
  | pointer type below _ ih => exact .pointer (hc.pool.types.getElem?_some type) below ih
  | named type isNamed layout =>
    exact .named (hc.pool.types.getElem?_some type) isNamed (hc.layouts _ _ layout)

namespace Backs

/-- A type with a backend type is in the pool. -/
theorem index_lt (h : Backs c t ty) : t.index < c.pool.types.size := by
  cases h with
  | primitive type => exact (Array.getElem?_eq_some_iff.1 type).1
  | voidPointer type => exact (Array.getElem?_eq_some_iff.1 type).1
  | pointer type => exact (Array.getElem?_eq_some_iff.1 type).1
  | named type => exact (Array.getElem?_eq_some_iff.1 type).1

/-- A type keeps its backend type. -/
theorem mono (h : Backs c t ty) (hc : Steady c c') : Backs c' t ty := by
  induction h with
  | primitive type found =>
    refine .primitive (hc.pool.types.getElem?_some type) ?_
    rw [hc.pool.target]
    exact hc.findType? found
  | voidPointer type below isVoid foundByte found =>
    have hlt := Nat.lt_trans below (Array.getElem?_eq_some_iff.1 type).1
    exact .voidPointer (hc.pool.types.getElem?_some type) below
      (by rwa [hc.isVoid hlt]) (hc.findType? foundByte) (hc.findType? found)
  | pointer type below isVoid backs found ih =>
    exact .pointer (hc.pool.types.getElem?_some type) below
      (by rwa [hc.isVoid backs.index_lt]) ih (hc.findType? found)
  | named type isNamed layout =>
    exact .named (hc.pool.types.getElem?_some type) isNamed (hc.layouts _ _ layout)

/-- The backend type is entered already, so asking for it changes nothing. -/
theorem backendTypeBelow (h : Backs c t ty) {bound : Nat} (hbound : t.index < bound) :
    backendTypeBelow bound t c = (ty, c) := by
  -- the induction is on how the type came to be backed, with a bound that the index of the type
  -- leaves room for
  induction h generalizing bound with
  | @primitive t p ty type found =>
    obtain ⟨bound, rfl⟩ := Nat.exists_eq_succ_of_ne_zero (Nat.ne_zero_of_lt hbound)
    unfold Context.backendTypeBelow
    rw [Pool.type_of_getElem? type]
    dsimp only
    rw [onModule_run, Ir.Module.internType_of_find found]
    rfl
  | @voidPointer t pointee byte ty type below isVoid foundByte found =>
    obtain ⟨bound, rfl⟩ := Nat.exists_eq_succ_of_ne_zero (Nat.ne_zero_of_lt hbound)
    unfold Context.backendTypeBelow
    rw [Pool.type_of_getElem? type]
    dsimp only
    rw [if_pos isVoid]
    -- a pointer to nothing is entered as a pointer to bytes, and both entries are there
    have hbyte : onModule (Ir.Module.intType 8) c = (byte, c) := by
      rw [onModule_run, Ir.Module.intType, Ir.Module.internType_of_find foundByte]
      rfl
    have hpointer : onModule (Ir.Module.pointerTo byte) c = (ty, c) := by
      rw [onModule_run, Ir.Module.pointerTo, Ir.Module.internType_of_find found]
      rfl
    rw [state_bind_run hbyte]
    exact hpointer
  | @pointer t pointee inner ty type below isVoid backs found ih =>
    obtain ⟨bound, rfl⟩ := Nat.exists_eq_succ_of_ne_zero (Nat.ne_zero_of_lt hbound)
    unfold Context.backendTypeBelow
    rw [Pool.type_of_getElem? type]
    dsimp only
    rw [if_neg (by simp [isVoid])]
    have hpointer : onModule (Ir.Module.pointerTo inner) c = (ty, c) := by
      rw [onModule_run, Ir.Module.pointerTo, Ir.Module.internType_of_find found]
      rfl
    rw [state_bind_run (ih (Nat.lt_of_lt_of_le below (Nat.le_of_lt_succ hbound)))]
    exact hpointer
  | @named t declared ty type isNamed layout =>
    obtain ⟨bound, rfl⟩ := Nat.exists_eq_succ_of_ne_zero (Nat.ne_zero_of_lt hbound)
    unfold Context.backendTypeBelow
    rw [Pool.type_of_getElem? type]
    cases declared with
    | primitive p => cases isNamed
    | pointer pointee => cases isNamed
    | struct name path =>
      dsimp only
      rw [layout]
    | enum name path =>
      dsimp only
      rw [layout]

/-- The backend type is entered already, so asking for it changes nothing. -/
theorem backendType (h : Backs c t ty) : backendType t c = (ty, c) :=
  h.backendTypeBelow (Nat.lt_succ_self _)

/-- A type has one backend type. -/
theorem unique (h : Backs c t ty) (h' : Backs c t ty') : ty = ty' :=
  congrArg Prod.fst (h.backendType.symm.trans h'.backendType)

/-- The backend type of a primitive type. -/
theorem of_primitive (h : Backs c t ty) {p : Primitive}
    (hp : c.pool.types[t.index]? = some (.primitive p)) :
    c.ir.findType? (primitiveBackend c.pool.target p) = some ty := by
  cases h with
  | primitive type found =>
    rw [hp] at type
    cases type
    exact found
  | voidPointer type =>
    rw [hp] at type
    cases type
  | pointer type =>
    rw [hp] at type
    cases type
  | named type isNamed =>
    rw [hp] at type
    cases type
    cases isNamed

/-- The backend type of a pointer to another type than `void` is a pointer to its backend type. -/
theorem of_pointee? (h : Backs c t ty) {pointee : TypeId}
    (hpointee : c.pool.pointee? t = some pointee) (hvoid : c.pool.isVoid pointee = false) :
    ∃ inner, Backs c pointee inner ∧ c.ir.findType? (.pointer inner) = some ty := by
  rw [Pool.pointee?] at hpointee
  cases h with
  | primitive type =>
    rw [Pool.type_of_getElem? type] at hpointee
    cases hpointee
  | voidPointer type below isVoid =>
    rw [Pool.type_of_getElem? type] at hpointee
    cases hpointee
    rw [isVoid] at hvoid
    cases hvoid
  | @pointer _ _ inner _ type below isVoid backs found =>
    rw [Pool.type_of_getElem? type] at hpointee
    cases hpointee
    exact ⟨inner, backs, found⟩
  | @named _ declared _ type isNamed =>
    rw [Pool.type_of_getElem? type] at hpointee
    cases declared <;> simp [SourceType.has] at hpointee isNamed

end Backs

/-- The backend type of a grounded type can be entered. -/
theorem Grounded.backs (h : Grounded c t) {bound : Nat} (hbound : t.index < bound) :
    Backs (backendTypeBelow bound t c).2 t (backendTypeBelow bound t c).1 := by
  induction h generalizing bound with
  | @primitive t p type =>
    obtain ⟨bound, rfl⟩ := Nat.exists_eq_succ_of_ne_zero (Nat.ne_zero_of_lt hbound)
    unfold backendTypeBelow
    rw [Pool.type_of_getElem? type]
    exact .primitive type
      (Ir.Module.internType_spec _ (primitiveBackend_isNamed c.pool.target p) c.ir).2
  | @pointer t pointee type below inner ih =>
    obtain ⟨bound, rfl⟩ := Nat.exists_eq_succ_of_ne_zero (Nat.ne_zero_of_lt hbound)
    unfold backendTypeBelow
    rw [Pool.type_of_getElem? type]
    dsimp only
    by_cases isVoid : c.pool.isVoid pointee = true
    · rw [if_pos isVoid]
      have hbyte := Ir.Module.internType_spec (.int 8) rfl c.ir
      have hpointer := Ir.Module.internType_spec
        (.pointer (Ir.Module.internType (.int 8) c.ir).1) rfl
        (Ir.Module.internType (.int 8) c.ir).2
      exact .voidPointer type below isVoid (hpointer.1.toExtends.findType? hbyte.2) hpointer.2
    · rw [if_neg isVoid]
      have hbacks := ih (Nat.lt_of_lt_of_le below (Nat.le_of_lt_succ hbound))
      have hwithin := backendTypeBelow_moves bound pointee c
      have hpointer := Ir.Module.internType_spec
        (.pointer (backendTypeBelow bound pointee c).1) rfl
        (backendTypeBelow bound pointee c).2.ir
      -- the pointer is entered after its pointee, which must stay backed
      have hsteady : Steady (backendTypeBelow bound pointee c).2
          ((backendTypeBelow bound pointee c).2.withIr (Ir.Module.internType
            (.pointer (backendTypeBelow bound pointee c).1)
            (backendTypeBelow bound pointee c).2.ir).2) :=
        .of_still (.of_ir hpointer.1)
      have hpool : (backendTypeBelow bound pointee c).2.pool = c.pool := hwithin.pool.symm
      refine Backs.pointer ?_ below ?_ (hbacks.mono hsteady) hpointer.2
      · change (backendTypeBelow bound pointee c).2.pool.types[t.index]? = _
        rwa [hpool]
      · change (backendTypeBelow bound pointee c).2.pool.isVoid pointee = false
        rw [hpool]
        simpa using isVoid
  | @named t declared ty type isNamed layout =>
    obtain ⟨bound, rfl⟩ := Nat.exists_eq_succ_of_ne_zero (Nat.ne_zero_of_lt hbound)
    have hbacks : Backs c t ty := .named type isNamed layout
    rw [hbacks.backendTypeBelow hbound]
    exact hbacks

/-- Entering the backend type of a grounded type. -/
theorem Grounded.backendType_spec (h : Grounded c t) :
    Within (· = ·) Ir.Module.Still c (backendType t c).2 ∧
      Backs (backendType t c).2 t (backendType t c).1 :=
  ⟨backendType_moves t c, h.backs (Nat.lt_succ_self _)⟩

/-- Entering the backend types of grounded types. -/
theorem backendTypes_spec {ts : List TypeId} (h : ∀ t ∈ ts, Grounded c t) :
    Within (· = ·) Ir.Module.Still c (backendTypes ts c).2 ∧
      List.Forall₂ (Backs (backendTypes ts c).2) ts (backendTypes ts c).1 := by
  induction ts generalizing c with
  | nil => exact ⟨Std.Refl.refl c, .nil⟩
  | cons t ts ih =>
    obtain ⟨hwithin, hbacks⟩ := (h t List.mem_cons_self).backendType_spec
    obtain ⟨hwithin', hbacks'⟩ := ih (c := (backendType t c).2) fun t' ht' =>
      (h t' (List.mem_cons_of_mem t ht')).mono (.of_still hwithin)
    exact ⟨IsTrans.trans _ _ _ hwithin hwithin', .cons (hbacks.mono (.of_still hwithin')) hbacks'⟩

/-- The backend type of a primitive type is `void` only for `void`. -/
theorem primitiveBackend_eq_void {target : Target} {p : Primitive} :
    primitiveBackend target p = .void ↔ p = .void := by
  cases p <;> simp [primitiveBackend, Primitive.intWidth?, Primitive.floatWidth?]

/-- Layouts are named structs. -/
def LayoutsNamed (c : Context) : Prop :=
  ∀ t ty, c.layouts.lookup t = some ty →
    ∃ name fields, c.ir.types[ty.index]? = some (.struct (some name) fields)

/-- The backend type is `void` only for `void`. -/
theorem Backs.void_iff (h : Backs c t ty) (hc : c.LayoutsNamed) :
    c.ir.type ty = .void ↔ c.pool.isVoid t = true := by
  have htype : ∀ {backend}, c.ir.types[ty.index]? = some backend → c.ir.type ty = backend :=
    Ir.Module.type_of_getElem?
  rw [Pool.isVoid]
  cases h with
  | @primitive _ p _ type found =>
    rw [htype (Ir.Module.type_of_find found), primitiveBackend_eq_void,
      Pool.type_of_getElem? type]
    simp [SourceType.has]
  | voidPointer type below isVoid foundByte found =>
    rw [htype (Ir.Module.type_of_find found), Pool.type_of_getElem? type]
    simp [SourceType.has]
  | pointer type below isVoid backs found =>
    rw [htype (Ir.Module.type_of_find found), Pool.type_of_getElem? type]
    simp [SourceType.has]
  | @named _ declared _ type isNamed layout =>
    obtain ⟨name, fields, hbackend⟩ := hc t ty layout
    rw [htype hbackend, Pool.type_of_getElem? type]
    cases declared <;> simp [SourceType.has] at isNamed ⊢

end FormCompiler.Context
