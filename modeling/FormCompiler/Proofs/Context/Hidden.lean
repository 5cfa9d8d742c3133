import FormCompiler.Proofs.History

/-!
# Types That Stay Hidden

An enum and the struct behind it share a name and a layout, and stand in two tables of one
namespace. A name stands for the enum, so no form of a type leads to the struct.

* `Context.Hidden`: the type of the struct behind an enum, or of pointers that lead to it.
* `Context.Visible`: a type of the pool that is not hidden. It stays so, since a struct that is
  declared by itself never becomes that of an enum (`Visible.mono`).
* `Context.Mentions`: the types in the tables of the namespaces, which are all visible in a
  `Sheltered` context.
* `Valid.lookupType?_visible`: what a name stands for is visible.
-/

namespace FormCompiler

namespace Context

variable {c c' : Context} {id : NamespaceId} {name : String} {t pointee : TypeId}

/-- The type is that of the struct behind an enum, or of pointers that lead to it. -/
inductive Hidden (c : Context) : TypeId → Prop
  | backing {id : NamespaceId} {name : String} {e : Enum} {s : Struct}
      (enum : (c.namespaceOf id).enum? name = some e)
      (struct : (c.namespaceOf id).struct? name = some s) : Hidden c s.ty
  | pointer {t pointee : TypeId} (type : c.pool.types[t.index]? = some (.pointer pointee))
      (hidden : Hidden c pointee) : Hidden c t

/-- The type is in the pool and not hidden. -/
structure Visible (c : Context) (t : TypeId) : Prop where
  inPool : t.index < c.pool.types.size
  notHidden : ¬ c.Hidden t

/-- The type is that of a member of a struct, or of a parameter or the result of a function. -/
inductive Mentions (c : Context) : TypeId → Prop
  | member {id : NamespaceId} {name : String} {s : Struct} {t : TypeId}
      (struct : (c.namespaceOf id).struct? name = some s) (member : t ∈ s.memberTypes) :
      Mentions c t
  | param {id : NamespaceId} {f : Function} {p : Param}
      (function : f ∈ (c.namespaceOf id).functions) (param : p ∈ f.params) : Mentions c p.ty
  | result {id : NamespaceId} {f : Function} (function : f ∈ (c.namespaceOf id).functions) :
      Mentions c f.returnType

/-- The types in the tables of all namespaces are visible. -/
structure Sheltered (c : Context) : Prop where
  valid : c.Valid
  laid : c.Laid
  mentions : ∀ t, c.Mentions t → c.Visible t

/-! ## What is hidden -/

/-- The type of a struct is that of its name and path. -/
theorem Valid.type_of_struct? (hc : c.Valid) {s : Struct}
    (hs : (c.namespaceOf id).struct? name = some s) :
    c.pool.types[s.ty.index]? = some (.struct name (c.namespaceOf id).path) :=
  (hc.structs id (lt_of_struct? hs) (name, s) (mem_of_lookup hs)).type

/-- A struct type that was declared is registered in the namespace of its path. -/
theorem Valid.exists_struct? (hc : c.Valid) {path : List String}
    (ht : c.pool.types[t.index]? = some (.struct name path)) :
    ∃ i s, (c.namespaceOf i).struct? name = some s ∧ (c.namespaceOf i).path = path := by
  obtain ⟨ty, hty⟩ := Option.isSome_iff_exists.1 (hc.named t _ ht rfl)
  obtain ⟨type, htype, i, -, hpath, hdeclares⟩ := hc.declared t ty hty
  obtain rfl := Option.some_inj.1 (ht.symm.trans htype)
  obtain ⟨s, hs⟩ := Option.isSome_iff_exists.1 hdeclares
  exact ⟨i, s, hs, (Option.some_inj.1 hpath).symm⟩

/-- Two namespaces that have structs are one if they have the same path. -/
theorem Valid.eq_of_path (hc : c.Valid) {i j : NamespaceId} {name name' : String} {s s' : Struct}
    (hi : (c.namespaceOf i).struct? name = some s) (hj : (c.namespaceOf j).struct? name' = some s')
    (h : (c.namespaceOf i).path = (c.namespaceOf j).path) : i = j :=
  hc.paths i j (lt_of_struct? hi) (lt_of_struct? hj) (List.reverse_injective h)

namespace Hidden

/-- Only struct types and pointers are hidden. -/
theorem shape (h : c.Hidden t) (hc : c.Valid) :
    (∃ pointee, c.pool.types[t.index]? = some (.pointer pointee) ∧ c.Hidden pointee) ∨
      ∃ name path, c.pool.types[t.index]? = some (.struct name path) := by
  cases h with
  | backing enum struct => exact .inr ⟨_, _, hc.type_of_struct? struct⟩
  | pointer type hidden => exact .inl ⟨_, type, hidden⟩

/-- Pointers are hidden with what they point to. -/
theorem pointer_iff (hc : c.Valid) (ht : c.pool.types[t.index]? = some (.pointer pointee)) :
    c.Hidden t ↔ c.Hidden pointee := by
  refine ⟨fun h => ?_, .pointer ht⟩
  rcases h.shape hc with ⟨pointee', htype, hhidden⟩ | ⟨name, path, htype⟩
  · cases ht.symm.trans htype
    exact hhidden
  · cases ht.symm.trans htype

/-- A struct is hidden if the namespace has an enum of its name. -/
theorem struct_iff (hc : c.Valid) {s : Struct} (hs : (c.namespaceOf id).struct? name = some s) :
    c.Hidden s.ty ↔ ((c.namespaceOf id).enum? name).isSome = true := by
  have htype := hc.type_of_struct? hs
  constructor
  · intro h
    generalize s.ty = t at h htype
    cases h with
    | backing enum struct =>
      -- both structs have one name and path, so they stand in the same namespace
      obtain ⟨rfl, hpath⟩ := SourceType.struct.inj
        (Option.some_inj.1 (htype.symm.trans (hc.type_of_struct? struct)))
      obtain rfl := hc.eq_of_path hs struct hpath
      exact Option.isSome_of_eq_some enum
    | pointer type hidden => cases htype.symm.trans type
  · intro h
    obtain ⟨e, he⟩ := Option.isSome_iff_exists.1 h
    exact .backing he hs

end Hidden

/-- What is hidden later on was hidden when it was entered: a struct without an enum never gets
one. -/
theorem Continues.hidden (hcc : c.Continues c') (hc : c.Valid)
    (ht : t.index < c.pool.types.size) (h : c'.Hidden t) : c.Hidden t := by
  have hpool := hcc.retains.steady.pool.types
  induction h with
  | @backing id name e s enum struct =>
    have htype := hcc.valid.type_of_struct? struct
    rw [hpool.getElem? ht] at htype
    obtain ⟨i, s₀, hs₀, hpath⟩ := hc.exists_struct? htype
    have hretained := hcc.retains.namespaces i (lt_of_struct? hs₀)
    have hkept := hretained.struct? name s₀ hs₀
    obtain rfl : i = id := hcc.valid.eq_of_path hkept struct (hretained.path.trans hpath)
    obtain rfl : s₀ = s := Option.some_inj.1 (hkept.symm.trans struct)
    rw [hcc.enum? i name s₀ hs₀] at enum
    exact .backing enum hs₀
  | @pointer t pointee type hidden ih =>
    rw [hpool.getElem? ht] at type
    exact .pointer type (ih (Nat.lt_trans (hc.pool.pointees _ _ type) ht))

/-! ## What is visible -/

namespace Visible

/-- What is visible stays so. -/
theorem mono (h : c.Visible t) (hc : c.Valid) (hcc : c.Continues c') : c'.Visible t where
  inPool := Nat.lt_of_lt_of_le h.inPool hcc.retains.steady.pool.types.size_le
  notHidden hhidden := h.notHidden (hcc.hidden hc h.inPool hhidden)

/-- A primitive type is visible. -/
theorem of_primitive {p : Primitive} (hc : c.Valid)
    (ht : c.pool.types[t.index]? = some (.primitive p)) : c.Visible t := by
  refine ⟨(Array.getElem?_eq_some_iff.1 ht).1, fun h => ?_⟩
  rcases h.shape hc with ⟨pointee, htype, -⟩ | ⟨name, path, htype⟩ <;> cases ht.symm.trans htype

/-- Enum types are visible. -/
theorem of_enum {path : List String} (hc : c.Valid)
    (ht : c.pool.types[t.index]? = some (.enum name path)) : c.Visible t := by
  refine ⟨(Array.getElem?_eq_some_iff.1 ht).1, fun h => ?_⟩
  rcases h.shape hc with ⟨pointee, htype, -⟩ | ⟨name, path, htype⟩ <;> cases ht.symm.trans htype

/-- Pointers to visible types are visible. -/
theorem pointer (h : c.Visible pointee) (hc : c.Valid)
    (ht : c.pool.types[t.index]? = some (.pointer pointee)) : c.Visible t :=
  ⟨(Array.getElem?_eq_some_iff.1 ht).1, fun hhidden =>
    h.notHidden ((Hidden.pointer_iff hc ht).1 hhidden)⟩

/-- What a visible pointer points to is visible. -/
theorem of_pointer (h : c.Visible t) (hc : c.Valid)
    (ht : c.pool.types[t.index]? = some (.pointer pointee)) : c.Visible pointee :=
  ⟨Nat.lt_trans (hc.pool.pointees _ _ ht) h.inPool, fun hhidden =>
    h.notHidden ((Hidden.pointer_iff hc ht).2 hhidden)⟩

/-- What a visible type points to is visible. -/
theorem of_pointee? (h : c.Visible t) (hc : c.Valid) (ht : c.pool.pointee? t = some pointee) :
    c.Visible pointee := h.of_pointer hc (Pool.getElem?_of_pointee? ht)

end Visible

/-- Primitive types are visible. -/
theorem Valid.visible_primitive (hc : c.Valid) (p : Primitive) : c.Visible (.ofPrimitive p) :=
  .of_primitive hc (hc.pool.primitives p)

/-- What a name stands for is visible: an enum hides its struct. -/
theorem Valid.lookupType?_visible (hc : c.Valid) (hl : c.Laid)
    (ht : c.lookupType? name = some t) : c.Visible t := by
  have hlt := (hc.grounded_of_lookup ht).index_lt
  unfold lookupType? at ht
  split at ht
  next p hprimitive =>
    cases ht
    rw [TypeId.ofPrimitiveName?, Option.map_eq_some_iff] at hprimitive
    obtain ⟨p, -, rfl⟩ := hprimitive
    exact hc.visible_primitive p
  next hprimitive =>
    rw [chain, List.findSome?_map, List.findSome?_eq_some_iff] at ht
    obtain ⟨_, id, _, -, ht, -⟩ := ht
    dsimp only [Function.comp] at ht
    cases henum : (c.namespaceOf id).enum? name with
    | some e =>
      rw [henum] at ht
      obtain ⟨s, -, hbacked⟩ := hl.enums id name e henum
      cases ht
      exact .of_enum hc hbacked.type
    | none =>
      rw [henum] at ht
      obtain ⟨s, hs, rfl⟩ := Option.map_eq_some_iff.1 ht
      refine ⟨hlt, fun hhidden => ?_⟩
      have hsome := (Hidden.struct_iff hc hs).1 hhidden
      rw [henum] at hsome
      cases hsome

/-! ## What is mentioned -/

/-- The same structs and functions mention the same types. -/
theorem Mentions.of_same (hstructs : ∀ id, (c'.namespaceOf id).structs = (c.namespaceOf id).structs)
    (hfunctions : ∀ id, (c'.namespaceOf id).functions = (c.namespaceOf id).functions)
    (h : c'.Mentions t) : c.Mentions t := by
  cases h with
  | @member id name s t struct member =>
    rw [Namespace.struct?, hstructs] at struct
    exact .member struct member
  | param function param => exact .param (hfunctions _ ▸ function) param
  | result function => exact .result (hfunctions _ ▸ function)

/-- Only the current namespace has changed in a context that has the namespaces of one in which it
was replaced. -/
theorem namespaceOf_of_withCurrent {ns : Namespace}
    (h : c'.namespaces = (c.withCurrent ns).namespaces) (id : NamespaceId) :
    c'.namespaceOf id = c.namespaceOf id ∨ id = c.currentId ∧ c'.namespaceOf id = ns := by
  have hsame : c'.namespaceOf id = (c.withCurrent ns).namespaceOf id := by
    rw [namespaceOf, h, namespaceOf]
  rw [hsame]
  exact namespaceOf_replaced ns rfl rfl id

/-- The result of a function that is found was mentioned. -/
theorem mentions_of_lookupFunction? {arguments : List TypeId} {f : Function}
    (hf : c.lookupFunction? name arguments = some f) : c.Mentions f.returnType := by
  rw [lookupFunction?, chain, List.findSome?_map, List.findSome?_eq_some_iff] at hf
  obtain ⟨_, id, _, -, hf, -⟩ := hf
  have hmem : f ∈ (c.namespaceOf id).functions := Array.mem_of_find?_eq_some hf
  exact .result hmem

namespace Sheltered

/-- A context is sheltered later on if what it mentions since then is visible. -/
theorem mono (h : c.Sheltered) (hcc : c.Continues c')
    (hnew : ∀ t, c'.Mentions t → c.Mentions t ∨ c'.Visible t) : c'.Sheltered where
  valid := hcc.valid
  laid := hcc.laid h.laid
  mentions t ht := (hnew t ht).elim (fun hold => (h.mentions t hold).mono h.valid hcc) id

/-- Nothing was declared. -/
theorem of_same (h : c.Sheltered) (hcc : c.Continues c') (hsame : c'.namespaces = c.namespaces) :
    c'.Sheltered := by
  have hns : ∀ id, c'.namespaceOf id = c.namespaceOf id := fun id => by
    rw [namespaceOf, hsame, namespaceOf]
  exact h.mono hcc fun _ ht =>
    .inl (ht.of_same (fun id => by rw [hns]) fun id => by rw [hns])

/-- The current namespace was replaced by one whose further structs and functions mention visible
types. -/
theorem replaced (h : c.Sheltered) (hcc : c.Continues c') {ns : Namespace}
    (hns : ∀ id, c'.namespaceOf id = c.namespaceOf id ∨
      id = c.currentId ∧ c'.namespaceOf id = ns)
    (hstructs : ∀ name s, ns.struct? name = some s →
      c.current.struct? name = some s ∨ ∀ t ∈ s.memberTypes, c'.Visible t)
    (hfunctions : ∀ f ∈ ns.functions,
      f ∈ c.current.functions ∨ (∀ p ∈ f.params, c'.Visible p.ty) ∧ c'.Visible f.returnType) :
    c'.Sheltered := by
  -- a function of any namespace was there before, or mentions visible types
  have hfunction : ∀ id, ∀ f ∈ (c'.namespaceOf id).functions, f ∈ (c.namespaceOf id).functions ∨
      (∀ p ∈ f.params, c'.Visible p.ty) ∧ c'.Visible f.returnType := by
    intro id f hf
    rcases hns id with heq | ⟨rfl, heq⟩
    · exact .inl (heq ▸ hf)
    · exact hfunctions f (heq ▸ hf)
  refine h.mono hcc fun t ht => ?_
  cases ht with
  | @member id name s t struct member =>
    rcases hns id with heq | ⟨rfl, heq⟩
    · exact .inl (.member (heq ▸ struct) member)
    · rw [heq] at struct
      exact (hstructs name s struct).imp (fun hold => .member hold member) fun hnew =>
        hnew t member
  | @param id f p function param =>
    exact (hfunction id f function).imp (fun hold => .param hold param) fun hnew =>
      hnew.1 p param
  | @result id f function => exact (hfunction id f function).imp .result fun hnew => hnew.2

/-- Another namespace was entered. -/
theorem enter (h : c.Sheltered) (name : String) : (Context.enter name c).2.Sheltered :=
  h.mono (Change.continues (.enter name rfl) h.valid) fun _ ht => .inl (ht.of_same
    (h.valid.map_namespaceOf_enter Namespace.structs (fun _ _ _ => rfl) (fun _ _ _ => rfl) name)
    (h.valid.map_namespaceOf_enter Namespace.functions (fun _ _ _ => rfl) (fun _ _ _ => rfl) name))

/-- The namespace was left. -/
theorem leave (h : c.Sheltered) : (Context.leave c).2.Sheltered :=
  h.of_same (Change.continues (.leave rfl) h.valid) rfl

/-- Where nothing is declared nothing is mentioned. -/
theorem start (options : Options) : (Context.start options).Sheltered := by
  refine ⟨valid_start options, laid_start options, fun t ht => ?_⟩
  cases ht with
  | @member id name s t struct =>
    rcases namespaceOf_start options id with heq | heq <;> rw [heq] at struct <;> cases struct
  | @param id f p function =>
    rcases namespaceOf_start options id with heq | heq <;> rw [heq] at function <;>
      exact absurd function (Array.not_mem_empty f)
  | @result id f function =>
    rcases namespaceOf_start options id with heq | heq <;> rw [heq] at function <;>
      exact absurd function (Array.not_mem_empty f)

end Sheltered

end Context

end FormCompiler
