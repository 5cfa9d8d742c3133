import FormCompiler.Proofs.Context.Hidden
import FormCompiler.Proofs.SymbolDecoding

/-!
# Types Told Apart by Their Texts

Two types may be printed alike: a struct that is declared in the root with the name of a primitive
type, an enum and the struct behind it, or types whose names hold dots. Where names are plain and no
struct has the name of a primitive type (`PlainTypes`), the text of a type determines the type among
those that forms can name (`Valid.typeName_inj`).
-/

namespace FormCompiler

namespace Symbol

variable {path path' : List String} {name name' : String}

/-- The text of a struct or enum type: the names of its namespaces with dots, and its own name. -/
def namedText (path : List String) (name : String) : String :=
  String.join (path.map (· ++ ".")) ++ name

/-- The text of a type inside a namespace. -/
theorem namedText_cons (segment : String) (path : List String) (name : String) :
    (namedText (segment :: path) name).toList =
      segment.toList ++ '.' :: (namedText path name).toList := by
  simp [namedText, String.toList_append]

/-- The text of a type in the root is its name. -/
theorem namedText_nil (name : String) : namedText [] name = name := rfl

/-- The text begins with a plain character. -/
theorem head_namedText (hpath : ∀ segment ∈ path, PlainName segment) (hname : PlainName name) :
    ∃ c cs, (namedText path name).toList = c :: cs ∧ isPlain c = true := by
  cases path with
  | nil =>
    obtain ⟨c, cs, hcs⟩ := List.exists_cons_of_ne_nil hname.nonempty
    exact ⟨c, cs, hcs, hname.chars c (hcs ▸ List.mem_cons_self)⟩
  | cons segment path =>
    have hsegment := hpath segment List.mem_cons_self
    obtain ⟨c, cs, hcs⟩ := List.exists_cons_of_ne_nil hsegment.nonempty
    refine ⟨c, cs ++ '.' :: (namedText path name).toList, ?_,
      hsegment.chars c (hcs ▸ List.mem_cons_self)⟩
    rw [namedText_cons, hcs, List.cons_append]

/-- The names can be read off the text, as a plain name holds no dot. -/
theorem namedText_inj (hpath : ∀ segment ∈ path, PlainName segment) (hname : PlainName name)
    (hpath' : ∀ segment ∈ path', PlainName segment) (hname' : PlainName name') :
    namedText path name = namedText path' name' ↔ path = path' ∧ name = name' := by
  refine ⟨fun h => ?_, by rintro ⟨rfl, rfl⟩; rfl⟩
  have hdot : ∀ {name : String}, PlainName name → '.' ∉ name.toList := fun h =>
    h.not_mem (by decide)
  -- a name with a dot is no plain one
  have hroot : ∀ {segment : String} {path : List String} {name name' : String}, PlainName name' →
      namedText (segment :: path) name ≠ name' := by
    intro segment path name name' hname' heq
    refine hdot hname' ?_
    rw [← heq, namedText_cons]
    exact List.mem_append_right _ List.mem_cons_self
  induction path generalizing path' with
  | nil =>
    cases path' with
    | nil => exact ⟨rfl, h⟩
    | cons segment path' => exact (hroot hname h.symm).elim
  | cons segment path ih =>
    cases path' with
    | nil => exact (hroot hname' h).elim
    | cons segment' path' =>
      have hchars := congrArg String.toList h
      rw [namedText_cons, namedText_cons] at hchars
      obtain ⟨hword, hrest⟩ := append_inj_of_ends (hdot (hpath segment List.mem_cons_self))
        (hdot (hpath' segment' List.mem_cons_self)) (by rintro c ⟨⟩; rfl) (by rintro c ⟨⟩; rfl)
        hchars
      obtain ⟨rfl, hname⟩ := ih (fun s hs => hpath s (List.mem_cons_of_mem _ hs))
        (fun s hs => hpath' s (List.mem_cons_of_mem _ hs))
        (String.toList_inj.1 (List.cons.inj hrest).2)
      exact ⟨by rw [String.toList_inj.1 hword], hname⟩

end Symbol

/-! ## Primitive types -/

/-- A primitive type is known by its name. -/
theorem Primitive.ofName?_name (p : Primitive) : ofName? p.name = some p := by
  cases p <;> decide

/-- Names of primitive types hold neither dots nor parentheses. -/
theorem Primitive.not_mem_name (p : Primitive) : '.' ∉ p.name.toList ∧ '(' ∉ p.name.toList := by
  cases p <;> decide

/-! ## Types of a pool -/

/-- The names of a struct or enum type are plain, and its own is not that of a primitive type. -/
def SourceType.Plain : SourceType → Prop
  | .struct name path | .enum name path => (∀ segment ∈ path, Symbol.PlainName segment) ∧
      Symbol.PlainName name ∧ Primitive.ofName? name = none
  | _ => True

namespace Pool

variable {p : Pool} {t : TypeId} {type : SourceType}

/-- The text of a type, by what the type is. -/
def textOf (p : Pool) : SourceType → String
  | .primitive q => q.name
  | .pointer pointee => "(p " ++ p.format pointee ++ ")"
  | .struct name path | .enum name path => Symbol.namedText path name

/-- A type is printed as what it is, and a pointee by itself, as long as no id of the pool is the
one that stands for no type. -/
theorem Sound.format_eq (hp : p.Sound) (hsize : p.size ≤ TypeId.none.index)
    (ht : t.index < p.size) : p.format t = p.textOf (p.type t) := by
  -- by induction on the id, for all bounds at once, as a pointee is printed with a smaller one
  have hbelow : ∀ (n : Nat) (t : TypeId), t.index = n → t.index < p.size → ∀ bound, n < bound →
      p.formatBelow bound t = p.textOf (p.type t) := by
    intro n
    induction n using Nat.strongRecOn with
    | ind n ih =>
      rintro t rfl ht bound hbound
      obtain ⟨bound, rfl⟩ := Nat.exists_eq_succ_of_ne_zero (Nat.ne_zero_of_lt hbound)
      have hsome : t.isNone = false := by
        refine beq_false_of_ne fun hnone => ?_
        rw [hnone] at ht
        exact absurd hsize (Nat.not_le_of_lt ht)
      have hfound := getElem?_type ht
      rw [formatBelow, hsome, if_neg Bool.false_ne_true]
      generalize p.type t = type at hfound
      cases type with
      | pointer pointee =>
        have hlt := hp.pointees _ _ hfound
        have hpointee := ih pointee.index hlt pointee rfl (Nat.lt_trans hlt ht)
        have hinner : p.formatBelow bound pointee = p.format pointee :=
          (hpointee bound (Nat.lt_of_lt_of_le hlt (Nat.le_of_lt_succ hbound))).trans
            (hpointee _ (Nat.lt_succ_self _)).symm
        exact congrArg (fun text => "(p " ++ text ++ ")") hinner
      | _ => rfl
  exact hbelow _ t rfl ht _ (Nat.lt_succ_self _)

/-- A pointer is not printed like a type with a name. -/
theorem textOf_pointer_ne {pointee : TypeId} {path : List String} {name : String}
    (hpath : ∀ segment ∈ path, Symbol.PlainName segment) (hname : Symbol.PlainName name) :
    p.textOf (.pointer pointee) ≠ Symbol.namedText path name := by
  intro h
  obtain ⟨c, cs, hcs, hplain⟩ := Symbol.head_namedText hpath hname
  have hchars := congrArg String.toList h
  rw [hcs, textOf, String.toList_append, String.toList_append] at hchars
  obtain rfl : '(' = c := (List.cons.inj hchars).1
  exact absurd hplain (by decide)

/-- Nor is a primitive type. -/
theorem textOf_primitive_ne_pointer (q : Primitive) (pointee : TypeId) :
    p.textOf (.primitive q) ≠ p.textOf (.pointer pointee) := by
  intro h
  have hmem : '(' ∈ q.name.toList := by
    change q.name = _ at h
    rw [h, textOf, String.toList_append, String.toList_append]
    exact List.mem_append_left _ (List.mem_append_left _ (by decide))
  exact q.not_mem_name.2 hmem

/-- A type whose name is not that of a primitive type is not printed like one. -/
theorem textOf_primitive_ne_named (q : Primitive) {path : List String} {name : String}
    (hname : Primitive.ofName? name = none) :
    p.textOf (.primitive q) ≠ Symbol.namedText path name := by
  intro h
  change q.name = _ at h
  cases path with
  | nil =>
    rw [Symbol.namedText_nil] at h
    rw [← h, q.ofName?_name] at hname
    cases hname
  | cons segment path =>
    refine q.not_mem_name.1 ?_
    rw [h, Symbol.namedText_cons]
    exact List.mem_append_right _ List.mem_cons_self

/-- What is printed like a primitive type is that type. -/
theorem eq_of_textOf_primitive (htype : type.Plain) {q : Primitive}
    (h : p.textOf type = p.textOf (.primitive q)) : type = .primitive q := by
  cases type with
  | primitive q' =>
    have hname : Primitive.ofName? q'.name = Primitive.ofName? q.name := congrArg _ h
    rw [q'.ofName?_name, q.ofName?_name] at hname
    cases hname
    rfl
  | pointer pointee => exact (textOf_primitive_ne_pointer q pointee h.symm).elim
  | struct name path => exact (textOf_primitive_ne_named q htype.2.2 h.symm).elim
  | enum name path => exact (textOf_primitive_ne_named q htype.2.2 h.symm).elim

/-- What is printed like a pointer is a pointer to what is printed alike. -/
theorem exists_of_textOf_pointer (htype : type.Plain) {pointee : TypeId}
    (h : p.textOf type = p.textOf (.pointer pointee)) :
    ∃ pointee', type = .pointer pointee' ∧ p.format pointee' = p.format pointee := by
  cases type with
  | primitive q => exact (textOf_primitive_ne_pointer q pointee h).elim
  | pointer pointee' =>
    have hchars := congrArg String.toList h
    simp only [textOf, String.toList_append, List.append_cancel_left_eq,
      List.append_cancel_right_eq] at hchars
    exact ⟨pointee', rfl, String.toList_inj.1 hchars⟩
  | struct name path => exact (textOf_pointer_ne htype.1 htype.2.1 h.symm).elim
  | enum name path => exact (textOf_pointer_ne htype.1 htype.2.1 h.symm).elim

/-- What is printed like a struct or enum type has its names. -/
theorem eq_of_textOf_named (htype : type.Plain) {name : String} {path : List String}
    (hpath : ∀ segment ∈ path, Symbol.PlainName segment) (hname : Symbol.PlainName name)
    (hprimitive : Primitive.ofName? name = none)
    (h : p.textOf type = Symbol.namedText path name) :
    type = .struct name path ∨ type = .enum name path := by
  cases type with
  | primitive q => exact (textOf_primitive_ne_named q hprimitive h).elim
  | pointer pointee => exact (textOf_pointer_ne hpath hname h).elim
  | struct name' path' =>
    obtain ⟨rfl, rfl⟩ := (Symbol.namedText_inj htype.1 htype.2.1 hpath hname).1 h
    exact .inl rfl
  | enum name' path' =>
    obtain ⟨rfl, rfl⟩ := (Symbol.namedText_inj htype.1 htype.2.1 hpath hname).1 h
    exact .inr rfl

end Pool

namespace Context

variable {c : Context} {t t' : TypeId} {name : String} {path : List String}

/-- The names of namespaces and types are plain, no type has the name of a primitive one, and the
ids of types are of 32 bits. -/
structure PlainTypes (c : Context) : Prop where
  paths : ∀ ns ∈ c.namespaces, ∀ segment ∈ ns.path, Symbol.PlainName segment
  structs : ∀ ns ∈ c.namespaces, ∀ s ∈ ns.structs,
    Symbol.PlainName s.1 ∧ Primitive.ofName? s.1 = none
  size : c.pool.size ≤ TypeId.none.index

instance : Decidable c.PlainTypes :=
  decidable_of_iff ((∀ ns ∈ c.namespaces, ∀ segment ∈ ns.path, Symbol.PlainName segment) ∧
      (∀ ns ∈ c.namespaces, ∀ s ∈ ns.structs,
        Symbol.PlainName s.1 ∧ Primitive.ofName? s.1 = none) ∧
      c.pool.size ≤ TypeId.none.index)
    ⟨fun h => ⟨h.1, h.2.1, h.2.2⟩, fun h => ⟨h.paths, h.structs, h.size⟩⟩

/-- A namespace of an id in range is one of the context. -/
theorem namespaceOf_mem {id : NamespaceId} (h : id.index < c.namespaces.size) :
    c.namespaceOf id ∈ c.namespaces := by
  rw [namespaceOf, Array.getD_eq_getD_getElem?, Array.getElem?_eq_getElem h, Option.getD_some]
  exact Array.getElem_mem h

/-- An enum type that was declared is registered in the namespace of its path. -/
theorem Valid.exists_enum? (hc : c.Valid)
    (ht : c.pool.types[t.index]? = some (.enum name path)) :
    ∃ i e, (c.namespaceOf i).enum? name = some e ∧ (c.namespaceOf i).path = path := by
  obtain ⟨ty, hty⟩ := Option.isSome_iff_exists.1 (hc.named t _ ht rfl)
  obtain ⟨type, htype, i, -, hpath, hdeclares⟩ := hc.declared t ty hty
  obtain rfl := Option.some_inj.1 (ht.symm.trans htype)
  obtain ⟨e, he⟩ := Option.isSome_iff_exists.1 hdeclares
  exact ⟨i, e, he, (Option.some_inj.1 hpath).symm⟩

/-- The names of a struct or enum type are plain. -/
theorem PlainTypes.names (h : c.PlainTypes) (hc : c.Valid) (hl : c.Laid)
    (ht : c.pool.types[t.index]? = some (.struct name path) ∨
      c.pool.types[t.index]? = some (.enum name path)) :
    (∀ segment ∈ path, Symbol.PlainName segment) ∧ Symbol.PlainName name ∧
      Primitive.ofName? name = none := by
  -- an enum has a struct of its name
  obtain ⟨i, s, hs, rfl⟩ : ∃ i s, (c.namespaceOf i).struct? name = some s ∧
      (c.namespaceOf i).path = path := by
    rcases ht with ht | ht
    · exact hc.exists_struct? ht
    · obtain ⟨i, e, he, hpath⟩ := hc.exists_enum? ht
      obtain ⟨s, hs, -⟩ := hl.enums i name e he
      exact ⟨i, s, hs, hpath⟩
  have hmem := namespaceOf_mem (lt_of_struct? hs)
  exact ⟨h.paths _ hmem, h.structs _ hmem (name, s) (mem_of_lookup hs)⟩

/-- Every type of the pool is one with plain names. -/
theorem PlainTypes.plain (h : c.PlainTypes) (hc : c.Valid) (hl : c.Laid) {type : SourceType}
    (ht : c.pool.types[t.index]? = some type) : type.Plain := by
  cases type with
  | primitive q => trivial
  | pointer pointee => trivial
  | struct name path => exact h.names hc hl (.inl ht)
  | enum name path => exact h.names hc hl (.inr ht)

/-- A visible struct type has not the name and the path of an enum. -/
theorem Visible.not_enum (h : c.Visible t) (hc : c.Valid) (hl : c.Laid)
    (ht : c.pool.types[t.index]? = some (.struct name path))
    (ht' : c.pool.types[t'.index]? = some (.enum name path)) : False := by
  obtain ⟨i, s, hs, hpath⟩ := hc.exists_struct? ht
  obtain ⟨j, e, he, hpath'⟩ := hc.exists_enum? ht'
  obtain ⟨s', hs', -⟩ := hl.enums j name e he
  obtain rfl := hc.eq_of_path hs hs' (hpath.trans hpath'.symm)
  have hty : t = s.ty := by
    have htype := hc.type_of_struct? hs
    rw [hpath] at htype
    exact congrArg TypeId.mk (hc.pool.distinct _ _ _ ht htype)
  exact h.notHidden (hty ▸ .backing he hs)

/-- Visible types with plain names are told apart by their texts. -/
theorem Valid.typeName_inj (hc : c.Valid) (hl : c.Laid) (hplain : c.PlainTypes)
    (ht : c.Visible t) (ht' : c.Visible t') : c.typeName t = c.typeName t' ↔ t = t' := by
  refine ⟨fun h => ?_, fun h => h ▸ rfl⟩
  have hsame : ∀ {t t' : TypeId} {type : SourceType}, c.pool.types[t.index]? = some type →
      c.pool.types[t'.index]? = some type → t = t' := fun ht ht' =>
    congrArg TypeId.mk (hc.pool.distinct _ _ _ ht ht')
  -- by induction on the id, which is smaller for a pointee
  generalize hn : t.index = n
  induction n using Nat.strongRecOn generalizing t t' with
  | ind n ih =>
    subst hn
    rw [typeName, typeName, hc.pool.format_eq hplain.size ht.inPool,
      hc.pool.format_eq hplain.size ht'.inPool] at h
    have htype := Pool.getElem?_type ht.inPool
    have htype' := Pool.getElem?_type ht'.inPool
    have hplain' := hplain.plain hc hl htype'
    generalize c.pool.type t = type at h htype
    generalize c.pool.type t' = type' at h htype' hplain'
    cases type with
    | primitive q =>
      obtain rfl := Pool.eq_of_textOf_primitive hplain' h.symm
      exact hsame htype htype'
    | pointer pointee =>
      obtain ⟨pointee', rfl, hinner⟩ := Pool.exists_of_textOf_pointer hplain' h.symm
      obtain rfl := ih pointee.index (hc.pool.pointees _ _ htype) (ht.of_pointer hc htype)
        (ht'.of_pointer hc htype') hinner.symm rfl
      exact hsame htype htype'
    | struct name path =>
      obtain ⟨hpath, hname, hprimitive⟩ := hplain.names hc hl (.inl htype)
      rcases Pool.eq_of_textOf_named hplain' hpath hname hprimitive h.symm with rfl | rfl
      · exact hsame htype htype'
      · exact (ht.not_enum hc hl htype htype').elim
    | enum name path =>
      obtain ⟨hpath, hname, hprimitive⟩ := hplain.names hc hl (.inr htype)
      rcases Pool.eq_of_textOf_named hplain' hpath hname hprimitive h.symm with rfl | rfl
      · exact (ht'.not_enum hc hl htype' htype).elim
      · exact hsame htype htype'

end Context

end FormCompiler
