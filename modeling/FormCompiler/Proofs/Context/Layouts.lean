import FormCompiler.Proofs.Run

/-!
# Structs, Enums and their Layouts

A declaration of a struct is recorded in the namespace, in the pool, among the layouts and in the
module, and so is one of an enum, which has a struct of its own name.

* `Context.BackedBy`: the layout of an enum is that of a struct of one integer.
* `Context.Laid`: the module has each struct under its backend name, and each enum has its struct.
* `Change.laid`, `Run.laid`: every change of a context keeps it so, and so does every run.
-/

namespace FormCompiler

namespace Ir.Module

variable {m m' : Module} {name : String}

/-- A struct that was found is found when there are more types. -/
theorem lookupStruct?_mono (h : Grown m.types m'.types) {t : TyId}
    (ht : m.lookupStruct? name = some t) : m'.lookupStruct? name = some t := by
  rw [lookupStruct?, Option.map_eq_some_iff] at ht ⊢
  obtain ⟨i, hi, rfl⟩ := ht
  exact ⟨i, h.findIdx? hi, rfl⟩

/-- A struct of a free name is found under it. -/
theorem lookupStruct?_push (h : m.lookupStruct? name = none) (fields : List TyId) :
    ({ m with types := m.types.push (.struct (some name) fields) } : Module).lookupStruct? name =
      some ⟨m.types.size⟩ := by
  rw [lookupStruct?, Option.map_eq_none_iff] at h
  rw [lookupStruct?, Array.findIdx?_push, h]
  simp [isStructNamed]

end Ir.Module

namespace Context

variable {c c' : Context} {id : NamespaceId}

/-- The enum is the type of a name declared under a path, over an integer type, and its layout is
that of the struct, which has one member of that type. -/
structure BackedBy (c : Context) (path : List String) (name : String) (e : Enum) (s : Struct) :
    Prop where
  type : c.pool.types[e.ty.index]? = some (.enum name path)
  integer : c.pool.isInteger e.underlying = true
  layout : c.layouts.lookup e.ty = some s.backend
  members : s.memberTypes = [e.underlying]

/-- An enum keeps its layout. -/
theorem BackedBy.mono {path : List String} {name : String} {e : Enum} {s : Struct}
    (h : c.BackedBy path name e s) (hc : c.Steady c') : c'.BackedBy path name e s where
  type := hc.pool.types.getElem?_some h.type
  integer := hc.pool.isInteger h.integer
  layout := hc.layouts _ _ h.layout
  members := h.members

/-- The module has each struct under its backend name, and each enum has its struct. -/
structure Laid (c : Context) : Prop where
  structs : ∀ id name s, (c.namespaceOf id).struct? name = some s →
    c.ir.lookupStruct? s.symbol = some s.backend
  enums : ∀ id name e, (c.namespaceOf id).enum? name = some e →
    ∃ s, (c.namespaceOf id).struct? name = some s ∧
      c.BackedBy (c.namespaceOf id).path name e s

/-- A namespace of the context has every struct there is. -/
theorem lt_of_struct? {name : String} {s : Struct} (h : (c.namespaceOf id).struct? name = some s) :
    id.index < c.namespaces.size := by
  by_contra hid
  rw [namespaceOf_of_ge (Nat.le_of_not_lt hid)] at h
  cases h

/-- A namespace of the context has every enum there is. -/
theorem lt_of_enum? {name : String} {e : Enum} (h : (c.namespaceOf id).enum? name = some e) :
    id.index < c.namespaces.size := by
  by_contra hid
  rw [namespaceOf_of_ge (Nat.le_of_not_lt hid)] at h
  cases h

/-- An enum and a struct that are entered one after the other with the same layout. -/
theorem backedBy_withLayout {path : List String} {name : String} {ty : Ir.TyId} {e : Enum}
    {s : Struct} (hinteger : c.pool.isInteger e.underlying = true)
    (he : e.ty = (c.pool.intern (.enum name path)).1) (hbackend : s.backend = ty)
    (hmembers : s.memberTypes = [e.underlying]) :
    ((c.withLayout (.enum name path) ty).withLayout (.struct name path) ty).BackedBy path name e
      s := by
  have hpool : c.pool.Extends (c.withLayout (.enum name path) ty).pool :=
    (Pool.intern_spec _ _).1
  have hpool' : (c.withLayout (.enum name path) ty).pool.Extends
      ((c.withLayout (.enum name path) ty).withLayout (.struct name path) ty).pool :=
    (Pool.intern_spec _ _).1
  refine ⟨?_, hpool'.isInteger (hpool.isInteger hinteger), ?_, hmembers⟩
  · rw [he]
    exact hpool'.types.getElem?_some (type_withLayout c _ ty)
  · -- the layout of the struct is the same one, should both have the same id
    rw [he, hbackend, withLayout, List.lookup_cons]
    split
    · rfl
    · exact List.lookup_cons_self

/-- A struct that was registered is in the module under its backend name, and only the current
namespace has changed. -/
theorem StructRegistered.namespaceOf {name : String} {members : List (String × TypeId)}
    {linkage : Ir.Linkage} (h : Lower.StructRegistered name members linkage c c') :
    ∃ s, c'.ir.lookupStruct? s.symbol = some s.backend ∧ ∀ id,
      c'.namespaceOf id = c.namespaceOf id ∨ id = c.currentId ∧
        c'.namespaceOf id = { c.current with structs := (name, s) :: c.current.structs } := by
  obtain ⟨-, c₁, c₂, layout, hwithin, -, hfree, rfl, rfl⟩ := h
  refine ⟨_, ?_, fun id => namespaceOf_replaced _ hwithin.namespaces hwithin.entered id⟩
  exact Ir.Module.lookupStruct?_push hfree layout

/-- So it is of an enum and its struct. -/
theorem EnumRegistered.namespaceOf {name : String} {builder : EnumBuilder} {linkage : Ir.Linkage}
    {underlying enumTy : TypeId}
    (h : Lower.EnumRegistered name builder linkage underlying enumTy c c')
    (hinteger : c.pool.isInteger underlying = true) :
    ∃ e s, c'.ir.lookupStruct? s.symbol = some s.backend ∧ c'.BackedBy c.path name e s ∧ ∀ id,
      c'.namespaceOf id = c.namespaceOf id ∨ id = c.currentId ∧
        c'.namespaceOf id = { c.current with
          enums := (name, e) :: c.current.enums
          structs := (name, s) :: c.current.structs } := by
  obtain ⟨-, -, c₁, c₂, c₃, member, hwithin, -, hfree, rfl, henumTy, rfl, rfl⟩ := h
  rw [withLayout_withCurrent, withCurrent_withCurrent]
  refine ⟨_, _, ?_, ?_, fun id => namespaceOf_replaced _ hwithin.namespaces hwithin.entered id⟩
  · exact Ir.Module.lookupStruct?_push hfree [member]
  · -- the layouts are entered before the declarations, which change none
    refine BackedBy.mono (backedBy_withLayout ?_ henumTy rfl rfl) (steady_withCurrent _ _)
    exact hwithin.pool ▸ hinteger

/-- A change registers a struct, or an enum over an integer type, or it leaves all namespaces with
the structs and the enums they have. -/
theorem Change.registered_cases (h : Change c c') (hc : c.Valid) :
    (∃ name members linkage, Lower.StructRegistered name members linkage c c') ∨
      (∃ name builder linkage underlying enumTy,
        Lower.EnumRegistered name builder linkage underlying enumTy c c' ∧
          c.pool.isInteger underlying = true) ∨
      ∀ id, (c'.namespaceOf id).structs = (c.namespaceOf id).structs ∧
        (c'.namespaceOf id).enums = (c.namespaceOf id).enums := by
  cases h with
  | struct name members linkage h _ => exact .inl ⟨name, members, linkage, h⟩
  | enum name builder linkage underlying enumTy h _ hinteger =>
    exact .inr (.inl ⟨name, builder, linkage, underlying, enumTy, h, hinteger⟩)
  | checked within _ =>
    refine .inr (.inr fun id => ?_)
    rw [within.namespaceOf]
    exact ⟨rfl, rfl⟩
  | body func within _ _ =>
    refine .inr (.inr fun id => ?_)
    rw [within.namespaceOf]
    exact ⟨rfl, rfl⟩
  | leave h =>
    subst h
    exact .inr (.inr fun id => ⟨rfl, rfl⟩)
  | enter name h =>
    subst h
    exact .inr (.inr fun id =>
      ⟨hc.map_namespaceOf_enter Namespace.structs (fun _ _ _ => rfl) (fun _ _ _ => rfl) name id,
        hc.map_namespaceOf_enter Namespace.enums (fun _ _ _ => rfl) (fun _ _ _ => rfl) name id⟩)
  | function name params returnType linkage func h _ _ =>
    obtain ⟨-, c₁, tys, ret, ir, hwithin, -, -, -, rfl⟩ := h
    have hns : (c₁.withIr ir).namespaces = c.namespaces := hwithin.namespaces
    exact .inr (.inr fun id =>
      ⟨map_namespaceOf_replaced Namespace.structs hns hwithin.entered (by rfl) id,
        map_namespaceOf_replaced Namespace.enums hns hwithin.entered (by rfl) id⟩)

/-- What is found under a key in a table was there before the last entry, or it is the last entry
and has its key. -/
theorem lookup_cons_cases {β : Type} {entries : List (String × β)} {new key : String}
    {value found : β} (h : ((new, value) :: entries).lookup key = some found) :
    entries.lookup key = some found ∨ key = new ∧ found = value := by
  rw [List.lookup_cons] at h
  split at h
  next heq => exact .inr ⟨eq_of_beq heq, (Option.some_inj.1 h).symm⟩
  next => exact .inl h

/-- Each struct of a changed context was there before, or the module has it under its backend
name. -/
theorem Change.struct_cases (h : Change c c') (hc : c.Valid) {name : String} {s : Struct}
    (hs : (c'.namespaceOf id).struct? name = some s) :
    (c.namespaceOf id).struct? name = some s ∨ c'.ir.lookupStruct? s.symbol = some s.backend := by
  rcases h.registered_cases hc with
    ⟨_, _, _, hstruct⟩ | ⟨_, _, _, _, _, henum, hinteger⟩ | hsame
  · obtain ⟨new, hnew, hnamespaces⟩ := StructRegistered.namespaceOf hstruct
    rcases hnamespaces id with heq | ⟨rfl, heq⟩
    · exact .inl (heq ▸ hs)
    · rw [heq] at hs
      obtain hold | ⟨-, rfl⟩ := lookup_cons_cases hs
      · exact .inl hold
      · exact .inr hnew
  · obtain ⟨e, new, hnew, -, hnamespaces⟩ := EnumRegistered.namespaceOf henum hinteger
    rcases hnamespaces id with heq | ⟨rfl, heq⟩
    · exact .inl (heq ▸ hs)
    · rw [heq] at hs
      obtain hold | ⟨-, rfl⟩ := lookup_cons_cases hs
      · exact .inl hold
      · exact .inr hnew
  · rw [Namespace.struct?, (hsame id).1] at hs
    exact .inl hs

/-- Each enum of a changed context was there before, or has a struct in its namespace. -/
theorem Change.enum_cases (h : Change c c') (hc : c.Valid) {name : String} {e : Enum}
    (he : (c'.namespaceOf id).enum? name = some e) :
    (c.namespaceOf id).enum? name = some e ∨ ∃ s, (c'.namespaceOf id).struct? name = some s ∧
      c'.BackedBy (c'.namespaceOf id).path name e s := by
  rcases h.registered_cases hc with
    ⟨_, _, _, hstruct⟩ | ⟨_, _, _, _, _, henum, hinteger⟩ | hsame
  · obtain ⟨new, -, hnamespaces⟩ := StructRegistered.namespaceOf hstruct
    rcases hnamespaces id with heq | ⟨rfl, heq⟩
    · exact .inl (heq ▸ he)
    · rw [heq] at he
      exact .inl he
  · obtain ⟨new, s, -, hbacked, hnamespaces⟩ := EnumRegistered.namespaceOf henum hinteger
    rcases hnamespaces id with heq | ⟨rfl, heq⟩
    · exact .inl (heq ▸ he)
    · -- in the current namespace the enum and its struct are found under the same new name
      rw [heq] at he ⊢
      obtain hold | ⟨rfl, rfl⟩ := lookup_cons_cases he
      · exact .inl hold
      · exact .inr ⟨s, List.lookup_cons_self, hbacked⟩
  · rw [Namespace.enum?, (hsame id).2] at he
    exact .inl he

/-- Every change of a context keeps structs and enums in the module. -/
theorem Change.laid (h : Change c c') (hc : c.Valid) (hl : c.Laid) : c'.Laid := by
  have hretains := h.retains hc
  constructor
  case structs =>
    intro id name s hs
    rcases h.struct_cases hc hs with hs | hs
    · exact Ir.Module.lookupStruct?_mono hretains.ir.types (hl.structs id name s hs)
    · exact hs
  case enums =>
    intro id name e he
    rcases h.enum_cases hc he with he | he
    · obtain ⟨s, hs, hbacked⟩ := hl.enums id name e he
      have hns := hretains.namespaces id (lt_of_enum? he)
      exact ⟨s, hns.struct? name s hs, hns.path ▸ hbacked.mono hretains.steady⟩
    · exact he

/-- Where nothing is declared, there is no struct and no enum. -/
theorem laid_start (options : Options) : (start options).Laid := by
  constructor
  case structs =>
    intro id name s hs
    rcases namespaceOf_start options id with heq | heq <;> rw [heq] at hs <;> cases hs
  case enums =>
    intro id name e he
    rcases namespaceOf_start options id with heq | heq <;> rw [heq] at he <;> cases he

end Context

/-- After a run the module has each struct under its backend name, and each enum has its struct. -/
theorem Run.laid {σ : Type} {u : Compilation σ} {options : Options} {expander : Expander σ}
    {memory : σ} (h : Run (.start options expander memory) u) : u.context.Laid :=
  h.invariant (Context.laid_start options) fun _ _ hc hchange => hchange.laid hc

end FormCompiler
