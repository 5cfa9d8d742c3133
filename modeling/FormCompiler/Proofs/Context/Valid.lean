import FormCompiler.Proofs.Context.Backing
import FormCompiler.Proofs.Lower.Growth

/-!
# Valid Contexts

What holds of the context of every unit that is reached by declarations and expressions.

* The pool holds the primitive types, and each pointee before its pointer.
* The namespaces form a tree, and a path leads to one namespace at most.
* Structs and enums have a layout if they are in the pool, and every layout is that of one that is
  registered. The fields of the layout of a struct are the backend types of its members.
* A registered function has a function of the module whose parameters and return type are the
  backend types of its own.

A step is `Safe` if it keeps contexts valid and steady.
-/

namespace FormCompiler

/-- What is looked up in a list is in it. -/
theorem mem_of_lookup {α β : Type} [BEq α] [LawfulBEq α] {entries : List (α × β)} {key : α}
    {value : β} (h : entries.lookup key = some value) : (key, value) ∈ entries := by
  obtain ⟨before, after, rfl, -⟩ := List.lookup_eq_some_iff.1 h
  exact List.mem_append_right before List.mem_cons_self

/-- The namespace has the enum or struct that the type stands for. -/
def Namespace.Declares (ns : Namespace) : SourceType → Prop
  | .enum name _ => (ns.enum? name).isSome = true
  | .struct name _ => (ns.struct? name).isSome = true
  | _ => False

/-- The namespace path of a struct or enum type. -/
def SourceType.path? : SourceType → Option (List String)
  | .struct _ path => some path
  | .enum _ path => some path
  | _ => none

namespace Context

/-- The function of the module has the parameter and return types of the overload. -/
structure Implements (c : Context) (f : Function) : Prop where
  backend : f.backend.index < c.ir.functions.size
  params : List.Forall₂ (fun (p : Param) v => v.index < c.ir.values.size ∧
    c.Backs p.ty (c.ir.valueType v)) f.params (c.ir.function f.backend).params
  ret : c.Backs f.returnType (c.ir.function f.backend).ret

/-- The struct is the type of a name declared under a path, and its layout has the backend types of
its members. -/
structure LaysOut (c : Context) (path : List String) (name : String) (s : Struct) : Prop where
  type : c.pool.types[s.ty.index]? = some (.struct name path)
  layout : c.layouts.lookup s.ty = some s.backend
  fields : ∃ symbol fields, c.ir.types[s.backend.index]? = some (.struct (some symbol) fields) ∧
    List.Forall₂ c.Backs s.memberTypes fields

/-- What holds of the contexts of units, but for the layouts of what is being declared. -/
structure Formed (c : Context) : Prop where
  pool : c.pool.Sound
  /-- There is a root. -/
  rooted : 0 < c.namespaces.size
  entered : ∀ id ∈ c.entered, id.index < c.namespaces.size
  /-- A path leads to one namespace at most. -/
  paths : ∀ i j : NamespaceId, i.index < c.namespaces.size → j.index < c.namespaces.size →
    (c.namespaceOf i).chain = (c.namespaceOf j).chain → i = j
  /-- A namespace inside another one is a child of it. -/
  parents : ∀ j : NamespaceId, j.index < c.namespaces.size → ∀ name rest,
    (c.namespaceOf j).chain = name :: rest →
      ∃ i : NamespaceId, i.index < c.namespaces.size ∧ (c.namespaceOf i).chain = rest ∧
        (c.namespaceOf i).child? name = some j
  children : ∀ i : NamespaceId, i.index < c.namespaces.size → ∀ name j,
    (c.namespaceOf i).child? name = some j →
      j.index < c.namespaces.size ∧ (c.namespaceOf j).chain = name :: (c.namespaceOf i).chain
  enums : ∀ i : NamespaceId, i.index < c.namespaces.size → ∀ e ∈ (c.namespaceOf i).enums,
    c.Grounded e.2.ty
  structs : ∀ i : NamespaceId, i.index < c.namespaces.size → ∀ s ∈ (c.namespaceOf i).structs,
    c.LaysOut (c.namespaceOf i).path s.1 s.2
  functions : ∀ i : NamespaceId, i.index < c.namespaces.size →
    ∀ f ∈ (c.namespaceOf i).functions, c.Implements f
  layouts : c.LayoutsNamed
  /-- Structs and enums of the pool have a layout. -/
  named : ∀ (t : TypeId) (type : SourceType), c.pool.types[t.index]? = some type →
    type.has .isNamed = true → (c.layouts.lookup t).isSome = true

/-- The struct or enum is registered in the namespace of its path. -/
def Registered (c : Context) (type : SourceType) : Prop :=
  ∃ i : NamespaceId, i.index < c.namespaces.size ∧ type.path? = some (c.namespaceOf i).path ∧
    (c.namespaceOf i).Declares type

/-- What holds of the contexts of units. -/
structure Valid (c : Context) : Prop extends Formed c where
  /-- What has a layout is registered. -/
  declared : ∀ t ty, c.layouts.lookup t = some ty →
    ∃ type, c.pool.types[t.index]? = some type ∧ c.Registered type

variable {c c' : Context}

/-- A namespace of an id out of range has no declarations. -/
theorem namespaceOf_of_ge {id : NamespaceId} (h : c.namespaces.size ≤ id.index) :
    c.namespaceOf id = default := by
  rw [namespaceOf, Array.getD_eq_getD_getElem?, Array.getElem?_eq_none h, Option.getD_none]

/-- A function keeps its types. -/
theorem Implements.mono {f : Function} (h : c.Implements f) (hc : Steady c c')
    (hir : c.ir.Extends c'.ir) : c'.Implements f where
  backend := Nat.lt_of_lt_of_le h.backend hir.functions
  params := by
    rw [(hir.function _ h.backend).params]
    exact h.params.imp fun p v hv => ⟨Nat.lt_of_lt_of_le hv.1 hir.values.size_le, by
      rw [hir.valueType hv.1]
      exact hv.2.mono hc⟩
  ret := by
    rw [(hir.function _ h.backend).ret]
    exact h.ret.mono hc

/-- The types that a function takes are in the pool. -/
theorem Implements.index_lt {f : Function} (h : c.Implements f) {t : TypeId}
    (ht : t ∈ f.paramTypes) : t.index < c.pool.types.size := by
  rw [Function.paramTypes, List.mem_map] at ht
  obtain ⟨p, hp, rfl⟩ := ht
  obtain ⟨i, hi, rfl⟩ := List.getElem_of_mem hp
  exact (h.params.get hi (h.params.length_eq ▸ hi)).2.index_lt

/-- A struct keeps its layout. -/
theorem LaysOut.mono {path : List String} {name : String} {s : Struct}
    (h : c.LaysOut path name s) (hc : Steady c c') : c'.LaysOut path name s where
  type := hc.pool.types.getElem?_some h.type
  layout := hc.layouts _ _ h.layout
  fields := by
    obtain ⟨symbol, fields, htype, hfields⟩ := h.fields
    exact ⟨symbol, fields, hc.types.getElem?_some htype, hfields.imp fun _ _ hb => hb.mono hc⟩

/-- The type of a struct is grounded. -/
theorem LaysOut.grounded {path : List String} {name : String} {s : Struct}
    (h : c.LaysOut path name s) : c.Grounded s.ty := .named h.type rfl h.layout

/-- Layouts stay named structs. -/
theorem LayoutsNamed.mono (h : c.LayoutsNamed) (htypes : Grown c.ir.types c'.ir.types)
    (hlayouts : c'.layouts = c.layouts) : c'.LayoutsNamed := by
  intro t ty hty
  rw [hlayouts] at hty
  obtain ⟨name, fields, hfields⟩ := h t ty hty
  exact ⟨name, fields, htypes.getElem?_some hfields⟩

/-- The current namespace is one of the context. -/
theorem Formed.currentId_lt (h : c.Formed) : c.currentId.index < c.namespaces.size := by
  unfold currentId
  cases hentered : c.entered with
  | nil => exact h.rooted
  | cons id rest => exact h.entered id (by rw [hentered]; exact List.mem_cons_self)

/-- An overload that was looked up takes the arguments it was looked up for. -/
theorem paramTypes_of_lookup {name : String} {arguments : List TypeId} {f : Function}
    (hf : c.lookupFunction? name arguments = some f) : f.paramTypes = arguments := by
  rw [lookupFunction?, List.findSome?_eq_some_iff] at hf
  obtain ⟨_, ns, _, -, hf, -⟩ := hf
  have haccepts := Array.find?_some hf
  rw [Bool.and_eq_true] at haccepts
  exact eq_of_beq haccepts.2

namespace Valid

/-- The primitive types are grounded. -/
theorem grounded_primitive (h : c.Valid) (p : Primitive) : c.Grounded (.ofPrimitive p) :=
  .primitive (h.pool.primitives p)

/-- A context in which nothing was declared since. -/
theorem of_within {P : Pool → Pool → Prop} {R : Ir.Module → Ir.Module → Prop} (h : c.Valid)
    (hc : Within P R c c') (hP : c.pool.Extends c'.pool) (hR : c.ir.Extends c'.ir)
    (hsound : c'.pool.Sound) (hunnamed : c.pool.Unnamed c'.pool) : c'.Valid := by
  have hsteady : Steady c c' := .of_within hc (fun _ => hP) fun _ => hR.types
  have hsize : c'.namespaces.size = c.namespaces.size := congrArg _ hc.namespaces
  refine ⟨?_, ?declared⟩
  constructor
  case pool => exact hsound
  case rooted => rw [hsize]; exact h.rooted
  case entered =>
    rw [hc.entered, hsize]
    exact h.entered
  case paths =>
    intro i j hi hj
    rw [hsize] at hi hj
    rw [hc.namespaceOf, hc.namespaceOf]
    exact h.paths i j hi hj
  case parents =>
    intro j hj name rest hchain
    rw [hsize] at hj
    rw [hc.namespaceOf] at hchain
    obtain ⟨i, hi, hrest, hchild⟩ := h.parents j hj name rest hchain
    exact ⟨i, by rwa [hsize], by rwa [hc.namespaceOf], by rwa [hc.namespaceOf]⟩
  case children =>
    intro i hi name j hj
    rw [hsize] at hi ⊢
    rw [hc.namespaceOf] at hj ⊢
    rw [hc.namespaceOf]
    exact h.children i hi name j hj
  case enums =>
    intro i hi e he
    rw [hsize] at hi
    rw [hc.namespaceOf] at he
    exact (h.enums i hi e he).mono hsteady
  case structs =>
    intro i hi s hs
    rw [hsize] at hi
    rw [hc.namespaceOf] at hs ⊢
    exact (h.structs i hi s hs).mono hsteady
  case functions =>
    intro i hi f hf
    rw [hsize] at hi
    rw [hc.namespaceOf] at hf
    exact (h.functions i hi f hf).mono hsteady hR
  case layouts => exact h.layouts.mono hR.types hc.layouts
  case named =>
    intro t type htype hnamed
    -- types that were entered since have no name
    by_cases hlt : t.index < c.pool.types.size
    · rw [hP.types.getElem? hlt] at htype
      rw [hc.layouts]
      exact h.named t type htype hnamed
    · rw [hunnamed _ _ (Nat.le_of_not_lt hlt) htype] at hnamed
      cases hnamed
  case declared =>
    intro t ty hty
    rw [hc.layouts] at hty
    obtain ⟨type, htype, i, hi, hpath, hdeclares⟩ := h.declared t ty hty
    exact ⟨type, hP.types.getElem?_some htype, i, by rwa [hsize], by rwa [hc.namespaceOf],
      by rwa [hc.namespaceOf]⟩

/-- Only backend types and values were entered. -/
theorem of_still (h : c.Valid) (hc : Within (· = ·) Ir.Module.Still c c') : c'.Valid :=
  h.of_within hc (hc.pool ▸ .refl _) hc.ir.toExtends (hc.pool ▸ h.pool) (hc.pool ▸ .refl _)

/-- Every type of the pool is grounded. -/
theorem grounded (h : c.Valid) {t : TypeId} (ht : t.index < c.pool.types.size) :
    c.Grounded t := by
  -- pointees have smaller ids
  obtain ⟨i⟩ := t
  induction i using Nat.strongRecOn with
  | ind i ih =>
    obtain ⟨type, htype⟩ : ∃ type, c.pool.types[i]? = some type :=
      ⟨_, Array.getElem?_eq_getElem ht⟩
    have hnamed := h.named ⟨i⟩ type htype
    cases type with
    | primitive p => exact .primitive htype
    | pointer pointee =>
      have hbelow := h.pool.pointees i pointee htype
      exact .pointer htype hbelow (ih _ hbelow (Nat.lt_trans hbelow ht))
    | struct name path =>
      obtain ⟨ty, hty⟩ := Option.isSome_iff_exists.1 (hnamed rfl)
      exact .named htype rfl hty
    | enum name path =>
      obtain ⟨ty, hty⟩ := Option.isSome_iff_exists.1 (hnamed rfl)
      exact .named htype rfl hty

/-- Functions of the chain have their types. -/
theorem implements_of_lookup (h : c.Valid) {name : String} {arguments : List TypeId}
    {f : Function} (hf : c.lookupFunction? name arguments = some f) : c.Implements f := by
  rw [lookupFunction?, chain, List.findSome?_map, List.findSome?_eq_some_iff] at hf
  obtain ⟨_, id, _, hids, hf, -⟩ := hf
  have hmem : f ∈ (c.namespaceOf id).functions := Array.mem_of_find?_eq_some hf
  by_cases hid : id.index < c.namespaces.size
  · exact h.functions id hid f hmem
  · rw [namespaceOf_of_ge (Nat.le_of_not_lt hid)] at hmem
    exact absurd hmem (Array.not_mem_empty f)

/-- The types that an overload in scope takes are in the pool. -/
theorem index_lt_of_lookup (h : c.Valid) {name : String} {arguments : List TypeId} {f : Function}
    (hf : c.lookupFunction? name arguments = some f) {t : TypeId} (ht : t ∈ arguments) :
    t.index < c.pool.types.size :=
  (h.implements_of_lookup hf).index_lt (by rwa [paramTypes_of_lookup hf])

/-- A name that is looked up as a type stands for a grounded one. -/
theorem grounded_of_lookup (h : c.Valid) {name : String} {t : TypeId}
    (ht : c.lookupType? name = some t) : c.Grounded t := by
  unfold lookupType? at ht
  cases hprimitive : TypeId.ofPrimitiveName? name with
  | some t' =>
    rw [hprimitive] at ht
    cases ht
    rw [TypeId.ofPrimitiveName?, Option.map_eq_some_iff] at hprimitive
    obtain ⟨p, -, rfl⟩ := hprimitive
    exact h.grounded_primitive p
  | none =>
    rw [hprimitive] at ht
    dsimp only at ht
    rw [chain, List.findSome?_map, List.findSome?_eq_some_iff] at ht
    obtain ⟨_, id, _, hids, ht, -⟩ := ht
    -- an id of no namespace stands for one without declarations
    by_cases hid : id.index < c.namespaces.size
    · dsimp only [Function.comp] at ht
      cases henum : (c.namespaceOf id).enum? name with
      | some e =>
        rw [henum] at ht
        cases ht
        exact h.enums id hid (name, e) (mem_of_lookup henum)
      | none =>
        rw [henum] at ht
        cases hstruct : (c.namespaceOf id).struct? name with
        | none =>
          rw [hstruct] at ht
          cases ht
        | some s =>
          rw [hstruct] at ht
          cases ht
          exact (h.structs id hid (name, s) (mem_of_lookup hstruct)).grounded
    · dsimp only [Function.comp] at ht
      rw [namespaceOf_of_ge (Nat.le_of_not_lt hid)] at ht
      cases ht

/-- A declared type that is not registered yet has no layout. -/
theorem layout_none (h : c.Valid) (type : SourceType) {t : TypeId}
    (htype : ∀ type', c.pool.types[t.index]? = some type' → type' = type)
    (hpath : type.path? = some c.path) (hnew : ¬ c.current.Declares type) :
    c.layouts.lookup t = none := by
  cases hlayout : c.layouts.lookup t with
  | none => rfl
  | some ty =>
    obtain ⟨type', htype', i, hi, hpath', hdeclares⟩ := h.declared t ty hlayout
    obtain rfl := htype type' htype'
    rw [hpath, Option.some_inj] at hpath'
    have hchain : c.current.chain = (c.namespaceOf i).chain := List.reverse_injective hpath'
    obtain rfl := h.paths _ i h.currentId_lt hi hchain
    exact absurd hdeclares hnew

end Valid

/-! ## Namespaces replaced -/

/-- The context with another namespace in the place of the current one. -/
def withCurrent (c : Context) (ns : Namespace) : Context :=
  { c with namespaces := c.namespaces.setIfInBounds c.currentId.index ns }

/-- Replacing the current namespace changes neither types nor layouts. -/
theorem steady_withCurrent (c : Context) (ns : Namespace) : Steady c (c.withCurrent ns) :=
  ⟨.refl _, .refl _, fun _ _ h => h⟩

/-- The namespaces after the current one was replaced. -/
theorem namespaceOf_withCurrent (c : Context) (ns : Namespace) (id : NamespaceId)
    (hid : id.index < c.namespaces.size) :
    (c.withCurrent ns).namespaceOf id = if id = c.currentId then ns else c.namespaceOf id := by
  rw [namespaceOf, withCurrent, Array.getD_eq_getD_getElem?]
  by_cases h : id = c.currentId
  · rw [if_pos h, h, Array.getElem?_setIfInBounds_self, if_pos (h ▸ hid), Option.getD_some]
  · have hindex : c.currentId.index ≠ id.index := fun hi => h (by
      cases id
      exact (congrArg NamespaceId.mk hi).symm)
    rw [if_neg h, Array.getElem?_setIfInBounds_ne hindex, namespaceOf,
      Array.getD_eq_getD_getElem?]

/-- What is in the current namespace after it was replaced. -/
theorem current_withCurrent (h : c.currentId.index < c.namespaces.size) (ns : Namespace) :
    (c.withCurrent ns).current = ns := by
  rw [current, show (c.withCurrent ns).currentId = c.currentId from rfl,
    namespaceOf_withCurrent c ns _ h, if_pos rfl]

/-- The second namespace has the declarations of the first and perhaps further ones. -/
structure Richer (c : Context) (ns ns' : Namespace) : Prop where
  chain : ns'.chain = ns.chain
  children : ns'.children = ns.children
  declares : ∀ type, ns.Declares type → ns'.Declares type
  enums : ∀ e ∈ ns'.enums, e ∈ ns.enums ∨ c.Grounded e.2.ty
  structs : ∀ s ∈ ns'.structs, s ∈ ns.structs ∨ c.LaysOut ns.path s.1 s.2
  functions : ∀ f ∈ ns'.functions, f ∈ ns.functions ∨ c.Implements f

/-- Replacing the current namespace adds no namespace. -/
theorem size_withCurrent (c : Context) (ns : Namespace) :
    (c.withCurrent ns).namespaces.size = c.namespaces.size := by
  simp [Context.withCurrent]

/-- The current namespace may get further declarations. -/
theorem Formed.withCurrent (h : c.Formed) {ns : Namespace} (hns : c.Richer c.current ns) :
    (c.withCurrent ns).Formed := by
  have hsize := size_withCurrent c ns
  have hchain : ∀ id : NamespaceId, id.index < c.namespaces.size →
      ((c.withCurrent ns).namespaceOf id).chain = (c.namespaceOf id).chain := by
    intro id hid
    rw [namespaceOf_withCurrent c ns id hid]
    split
    next heq => rw [hns.chain, heq, current]
    next => rfl
  have hchild : ∀ id : NamespaceId, id.index < c.namespaces.size → ∀ name,
      ((c.withCurrent ns).namespaceOf id).child? name = (c.namespaceOf id).child? name := by
    intro id hid name
    rw [namespaceOf_withCurrent c ns id hid]
    split
    next heq => rw [Namespace.child?, hns.children, heq, current, Namespace.child?]
    next => rfl
  have hsteady : Steady c (c.withCurrent ns) := steady_withCurrent c ns
  -- only the declarations of the current namespace may be new, and those are well formed
  constructor
  case pool => exact h.pool
  case rooted => rw [hsize]; exact h.rooted
  case entered =>
    rw [hsize]
    exact h.entered
  case paths =>
    intro i j hi hj
    rw [hsize] at hi hj
    rw [hchain i hi, hchain j hj]
    exact h.paths i j hi hj
  case parents =>
    intro j hj name rest hj'
    rw [hsize] at hj
    rw [hchain j hj] at hj'
    obtain ⟨i, hi, hrest, hname⟩ := h.parents j hj name rest hj'
    exact ⟨i, by rwa [hsize], by rwa [hchain i hi], by rwa [hchild i hi]⟩
  case children =>
    intro i hi name j hj
    rw [hsize] at hi ⊢
    rw [hchild i hi] at hj
    obtain ⟨hlt, hj'⟩ := h.children i hi name j hj
    exact ⟨hlt, by rw [hchain j hlt, hchain i hi, hj']⟩
  case enums =>
    intro i hi e he
    rw [hsize] at hi
    rw [namespaceOf_withCurrent c ns i hi] at he
    refine Grounded.mono ?_ hsteady
    split at he
    next heq =>
      rcases hns.enums e he with he | he
      · exact h.enums _ h.currentId_lt e he
      · exact he
    next => exact h.enums i hi e he
  case structs =>
    intro i hi s hs
    rw [hsize] at hi
    rw [Namespace.path, hchain i hi, ← Namespace.path]
    rw [namespaceOf_withCurrent c ns i hi] at hs
    refine LaysOut.mono ?_ hsteady
    split at hs
    next heq =>
      subst heq
      rcases hns.structs s hs with hs | hs
      · exact h.structs _ h.currentId_lt s hs
      · exact hs
    next => exact h.structs i hi s hs
  case functions =>
    intro i hi f hf
    rw [hsize] at hi
    rw [namespaceOf_withCurrent c ns i hi] at hf
    refine Implements.mono ?_ hsteady (.refl _)
    split at hf
    next heq =>
      rcases hns.functions f hf with hf | hf
      · exact h.functions _ h.currentId_lt f hf
      · exact hf
    next => exact h.functions i hi f hf
  case layouts => exact h.layouts
  case named => exact h.named

/-- What is registered stays so. -/
theorem registered_withCurrent {ns : Namespace} (hns : c.Richer c.current ns) {type : SourceType}
    (htype : c.Registered type) : (c.withCurrent ns).Registered type := by
  obtain ⟨i, hi, hpath, hdeclares⟩ := htype
  refine ⟨i, by rwa [size_withCurrent], ?_, ?_⟩
  · rw [namespaceOf_withCurrent c ns i hi]
    split
    next heq => rw [Namespace.path, hns.chain, current, ← heq, hpath, Namespace.path]
    next => exact hpath
  · rw [namespaceOf_withCurrent c ns i hi]
    split
    next heq => exact hns.declares type (by rwa [current, ← heq])
    next => exact hdeclares

/-- The current namespace may get further declarations. -/
theorem Valid.withCurrent (h : c.Valid) {ns : Namespace} (hns : c.Richer c.current ns) :
    (c.withCurrent ns).Valid where
  toFormed := h.toFormed.withCurrent hns
  declared t ty hty := by
    obtain ⟨type, htype, hregistered⟩ := h.declared t ty hty
    exact ⟨type, htype, registered_withCurrent hns hregistered⟩

/-! ## Types declared -/

/-- The context with a type entered that has this layout. -/
def withLayout (c : Context) (type : SourceType) (ty : Ir.TyId) : Context :=
  { c with pool := (c.pool.intern type).2, layouts := ((c.pool.intern type).1, ty) :: c.layouts }

/-- The id of a type that is entered stands for it. -/
theorem type_withLayout (c : Context) (type : SourceType) (ty : Ir.TyId) :
    (c.withLayout type ty).pool.types[(c.pool.intern type).1.index]? = some type :=
  Pool.type_of_find (Pool.intern_spec c.pool type).2

/-- Entering a type without a layout changes no layout. -/
theorem steady_withLayout {type : SourceType} {ty : Ir.TyId}
    (hnone : c.layouts.lookup (c.pool.intern type).1 = none) :
    Steady c (c.withLayout type ty) := by
  refine ⟨(Pool.intern_spec c.pool type).1, .refl _, fun t b ht => ?_⟩
  have hne : t ≠ (c.pool.intern type).1 := by
    rintro rfl
    rw [hnone] at ht
    cases ht
  rw [withLayout, List.lookup_cons, beq_false_of_ne hne]
  exact ht

/-- A struct or enum is entered with its layout. -/
theorem Formed.withLayout (h : c.Formed) {type : SourceType} {ty : Ir.TyId}
    (hpath : type.path?.isSome = true)
    (hnone : c.layouts.lookup (c.pool.intern type).1 = none)
    (hty : ∃ name fields, c.ir.types[ty.index]? = some (.struct (some name) fields)) :
    (c.withLayout type ty).Formed := by
  have hsteady : Steady c (c.withLayout type ty) := steady_withLayout hnone
  constructor
  case pool =>
    -- a type with a path is no pointer, so it has no pointee that could be missing
    refine h.pool.intern ?_
    rintro pointee rfl
    cases hpath
  case rooted => exact h.rooted
  case entered => exact h.entered
  case paths => exact h.paths
  case parents => exact h.parents
  case children => exact h.children
  case enums => exact fun i hi e he => (h.enums i hi e he).mono hsteady
  case structs => exact fun i hi s hs => (h.structs i hi s hs).mono hsteady
  case functions => exact fun i hi f hf => (h.functions i hi f hf).mono hsteady (.refl _)
  case layouts =>
    intro t b hb
    rw [Context.withLayout, List.lookup_cons] at hb
    split at hb
    next =>
      cases hb
      exact hty
    next => exact h.layouts t b hb
  case named =>
    intro t other hother hnamed
    rw [Context.withLayout, List.lookup_cons]
    split
    next => rfl
    next hne =>
      refine h.named t other ?_ hnamed
      -- the only type that may be new is the one with the layout
      have hpool : (c.withLayout type ty).pool = (c.pool.intern type).2 := rfl
      rw [hpool] at hother
      rw [Pool.intern] at hne hother
      cases hfind : c.pool.find? type with
      | some t' =>
        rw [hfind] at hother
        exact hother
      | none =>
        rw [hfind] at hne hother
        dsimp only at hne hother
        rw [Array.getElem?_push] at hother
        split at hother
        next heq => exact absurd (congrArg TypeId.mk heq) (ne_of_beq_false hne)
        next => exact hother

/-- A struct or enum that is not registered yet may get a layout. -/
theorem Valid.steady_withLayout (h : c.Valid) {type : SourceType} (ty : Ir.TyId)
    (hpath : type.path? = some c.path) (hnew : ¬ c.current.Declares type) :
    c.layouts.lookup (c.pool.intern type).1 = none ∧ Steady c (c.withLayout type ty) := by
  have hself := type_withLayout c type ty
  have hgrown : Grown c.pool.types (c.withLayout type ty).pool.types :=
    (Pool.intern_spec c.pool type).1.types
  have hnone : c.layouts.lookup (c.pool.intern type).1 = none := by
    refine h.layout_none type (fun type' htype' => ?_) hpath hnew
    rw [hgrown.getElem?_some htype', Option.some_inj] at hself
    exact hself
  exact ⟨hnone, Context.steady_withLayout hnone⟩

/-- A struct or enum may be declared in the current namespace if it is not registered yet: it is
entered with its layout, and the namespace gets it. -/
theorem Valid.declare (h : c.Valid) {type : SourceType} {ty : Ir.TyId} {ns : Namespace}
    (hpath : type.path? = some c.path) (hnew : ¬ c.current.Declares type)
    (hty : ∃ name fields, c.ir.types[ty.index]? = some (.struct (some name) fields))
    (hns : (c.withLayout type ty).Richer c.current ns) (hdeclares : ns.Declares type) :
    ((c.withLayout type ty).withCurrent ns).Valid ∧
      Steady c ((c.withLayout type ty).withCurrent ns) := by
  have hself := type_withLayout c type ty
  have hgrown : Grown c.pool.types (c.withLayout type ty).pool.types :=
    (Pool.intern_spec c.pool type).1.types
  obtain ⟨hnone, hsteady⟩ := h.steady_withLayout ty hpath hnew
  have hformed := h.toFormed.withLayout (by rw [hpath]; rfl) hnone hty
  refine ⟨⟨hformed.withCurrent hns, fun t b hb => ?_⟩, hsteady.trans ⟨.refl _, .refl _,
    fun _ _ h => h⟩⟩
  change (c.withLayout type ty).layouts.lookup t = some b at hb
  rw [Context.withLayout, List.lookup_cons] at hb
  split at hb
  next heq =>
    obtain rfl := eq_of_beq heq
    have hcurrent := current_withCurrent hformed.currentId_lt ns
    refine ⟨type, hself, c.currentId, by rw [size_withCurrent]; exact h.currentId_lt, ?_, ?_⟩
    · change type.path? = some ((c.withLayout type ty).withCurrent ns).current.path
      rw [hcurrent, hpath, Context.path, Namespace.path, Namespace.path, hns.chain]
    · change ((c.withLayout type ty).withCurrent ns).current.Declares type
      rwa [hcurrent]
  next =>
    obtain ⟨type', htype', hregistered⟩ := h.declared t b hb
    exact ⟨type', hgrown.getElem?_some htype', registered_withCurrent hns hregistered⟩

end Context

end FormCompiler
