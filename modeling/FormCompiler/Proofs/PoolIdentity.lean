import FormCompiler.Proofs.Bounds.Types
import FormCompiler.Proofs.Lower.Growth

/-!
# Constructed Types Are Known by Their Ids

Pointers, structs and enums are constructed one after the other, starting from the primitive types.
Two constructions are answered with the same id exactly when they ask for the same type, the id
reads back as what was asked for, and it does so after any further constructions.

* `TypeRequest`, `runAll`: constructions and sequences of them. In a sequence that is `Fit` every
  pointee is in the pool before the pointer is asked for.
* `Pool.Tables`: a pool as it is stored, in tables that are updated one by one: heads with the cells
  of names and paths, the properties of types, and the map from constructed types to their ids.
* `Pool.StoredAs`: tables and pool agree. A request is answered alike by both, and they agree after
  it (`StoredAs.request`).
* `runAll_canonical`: what holds after any sequence of requests.
-/

namespace FormCompiler

/-- A type that is asked for, with the arguments of its construction. -/
inductive TypeRequest where
  | pointer (pointee : TypeId)
  | struct (name : String) (path : List String)
  | enum (name : String) (path : List String)
deriving DecidableEq, Repr

namespace TypeRequest

/-- The type that is asked for. -/
def type : TypeRequest → SourceType
  | pointer pointee => .pointer pointee
  | struct name path => .struct name path
  | enum name path => .enum name path

/-- The pointee, if a pointer is asked for. -/
def pointee? : TypeRequest → Option TypeId
  | pointer pointee => some pointee
  | struct _ _ | enum _ _ => none

/-- The name and the path, if a struct or an enum is asked for. -/
def parts? : TypeRequest → Option (String × List String)
  | pointer _ => none
  | struct name path | enum name path => some (name, path)

/-- The properties that the new type is entered with. -/
def flags : TypeRequest → List TypeFlag
  | pointer _ => [.isPointer]
  | struct _ _ | enum _ _ => [.isAggregate, .isNamed]

/-- Asks a pool for the type. -/
def run (r : TypeRequest) (p : Pool) : TypeId × Pool :=
  match r with
  | pointer pointee => p.pointerTo pointee
  | struct name path => p.namedStruct name path
  | enum name path => p.namedEnum name path

/-- A pointee is in the pool. -/
def Fits (r : TypeRequest) (p : Pool) : Prop := ∀ pointee ∈ r.pointee?, p.Has pointee

instance (r : TypeRequest) (p : Pool) : Decidable (r.Fits p) :=
  inferInstanceAs (Decidable (∀ pointee ∈ r.pointee?, p.Has pointee))

/-- Asks for one type after the other. -/
def runAll : List TypeRequest → Pool → List TypeId × Pool
  | [], p => ([], p)
  | r :: rest, p =>
    let (t, p') := r.run p
    let (ids, p'') := runAll rest p'
    (t :: ids, p'')

/-- Each pointee is in the pool when the pointer to it is asked for. -/
def Fit : List TypeRequest → Pool → Prop
  | [], _ => True
  | r :: rest, p => r.Fits p ∧ Fit rest (r.run p).2

instance decidableFit : (requests : List TypeRequest) → (p : Pool) → Decidable (Fit requests p)
  | [], _ => isTrue trivial
  | r :: rest, p =>
    have := decidableFit rest (r.run p).2
    inferInstanceAs (Decidable (r.Fits p ∧ Fit rest (r.run p).2))

/-- Requests that ask for the same type are the same. -/
theorem type_inj {r s : TypeRequest} : r.type = s.type ↔ r = s := by
  cases r <;> cases s <;> simp [type]

/-- Every request enters its type, if it is new. -/
theorem run_eq (r : TypeRequest) (p : Pool) : r.run p = p.intern r.type := by
  cases r <;> rfl

/-- The properties of a constructed type. -/
theorem flags_type (r : TypeRequest) : r.type.flags = r.flags := by
  cases r <;> rfl

/-- Primitive types are not asked for. -/
@[simp]
theorem has_isPrimitive (r : TypeRequest) : r.type.has .isPrimitive = false := by
  cases r <;> rfl

/-- A request whose pointee is in the pool leaves the pool sound. -/
theorem Fits.sound {r : TypeRequest} {p : Pool} (h : r.Fits p) (hp : p.Sound) :
    (r.run p).2.Sound := by
  rw [run_eq]
  refine hp.intern fun pointee hpointee => h pointee ?_
  cases r with
  | pointer pointee' => exact congrArg some (SourceType.pointer.inj hpointee)
  | struct name path => cases hpointee
  | enum name path => cases hpointee

/-- Requests are made in two stretches. -/
theorem runAll_append (before after : List TypeRequest) (p : Pool) :
    (runAll (before ++ after) p).2 = (runAll after (runAll before p).2).2 := by
  induction before generalizing p with
  | nil => rfl
  | cons r before ih => exact ih (r.run p).2

/-- The types asked for stand at the ids of the answers, in a pool that extends the first one. -/
theorem runAll_answers (requests : List TypeRequest) (p : Pool) :
    p.Extends (runAll requests p).2 ∧
      requests.Forall₂ (fun r t => (runAll requests p).2.types[t.index]? = some r.type)
        (runAll requests p).1 := by
  induction requests generalizing p with
  | nil => exact ⟨.refl p, .nil⟩
  | cons r rest ih =>
    obtain ⟨hgrown, hanswers⟩ := ih (r.run p).2
    obtain ⟨hintern, hfind⟩ := p.intern_spec r.type
    rw [← run_eq] at hintern hfind
    -- what was answered now is not moved by the requests that follow
    exact ⟨hintern.trans hgrown, .cons (hgrown.types.getElem?_some (Pool.type_of_find hfind))
      hanswers⟩

/-- A pool stays sound. -/
theorem runAll_sound {requests : List TypeRequest} {p : Pool} (hfit : Fit requests p)
    (hp : p.Sound) : (runAll requests p).2.Sound := by
  induction requests generalizing p with
  | nil => exact hp
  | cons r rest ih => exact ih hfit.2 (hfit.1.sound hp)

end TypeRequest

/-! ## Tables -/

/-- What a pool is stored as: the heads of its types, with the cells of their names and paths; the
properties of each type; and the ids of the types that were constructed, the latest one first. -/
structure Pool.Tables where
  packed : Packed StoredType RecordCell
  flags : Array (List TypeFlag)
  ids : List (SourceType × TypeId)

namespace Pool.Tables

/-- The tables of the primitive types. They are in no map: they are never constructed. -/
def start : Tables :=
  ⟨⟨(Primitive.all.map StoredType.primitive).toArray, #[]⟩,
    (Primitive.all.map fun q => (SourceType.primitive q).flags).toArray, []⟩

/-- Asks for a type: its id if it has one, otherwise it gets the next one, and every table one
entry more. -/
def request (tables : Tables) (r : TypeRequest) : TypeId × Tables :=
  match tables.ids.lookup r.type with
  | some t => (t, tables)
  | none =>
    let t : TypeId := ⟨tables.packed.heads.size⟩
    (t, ⟨tables.packed.push r.type.head r.type.cells, tables.flags.push r.flags,
      (r.type, t) :: tables.ids⟩)

/-- Asks for one type after the other. -/
def requestAll : List TypeRequest → Tables → List TypeId × Tables
  | [], tables => ([], tables)
  | r :: rest, tables =>
    let (t, tables') := tables.request r
    let (ids, tables'') := requestAll rest tables'
    (t :: ids, tables'')

end Pool.Tables

/-- The tables are those of the pool: each head and record is that of its type, the properties are
the type's, and the map has the constructed types alone, with their ids. -/
structure Pool.StoredAs (p : Pool) (tables : Pool.Tables) : Prop where
  packed : tables.packed = p.packed
  flags : tables.flags = p.types.map SourceType.flags
  ids : ∀ type, tables.ids.lookup type = if type.has .isPrimitive then none else p.find? type

namespace Pool

/-- A type is found at the one id that it stands at. -/
theorem Sound.find?_eq_some_iff {p : Pool} (hp : p.Sound) {type : SourceType} {t : TypeId} :
    p.find? type = some t ↔ p.types[t.index]? = some type := by
  have hdistinct : Distinct p.types := hp.distinct
  rw [find?, Option.map_eq_some_iff]
  constructor
  · rintro ⟨i, hi, rfl⟩
    exact hdistinct.findIdx?_eq_some_iff.1 hi
  · intro htype
    exact ⟨t.index, hdistinct.findIdx?_eq_some_iff.2 htype, rfl⟩

/-- What is found after a new type was entered. -/
theorem find?_intern {p : Pool} {type : SourceType} (hnew : p.find? type = none)
    (other : SourceType) :
    (p.intern type).2.find? other = if other = type then some ⟨p.size⟩ else p.find? other := by
  have hpush : (p.intern type).2.types = p.types.push type := by rw [intern, hnew]
  rw [find?, hpush, findIdx?_push_of_ne (Option.map_eq_none_iff.1 hnew), find?, size]
  split <;> rfl

/-- Primitive types have no cells. -/
theorem packed_start (target : Target) : (start target).packed = Tables.start.packed := by
  simp [packed, start, Tables.start, pack, Primitive.all, Packed.push, SourceType.head,
    SourceType.cells]

namespace StoredAs

/-- The primitive types are stored as primitive heads without cells. -/
theorem start (target : Target) : (Pool.start target).StoredAs .start := by
  refine ⟨(packed_start target).symm, by simp [Tables.start, Pool.start], fun type => ?_⟩
  split
  next => rfl
  next hprimitive =>
    -- a type that is not primitive is not among the first ones
    have hnone : (Pool.start target).find? type = none := by
      rw [find?, Option.map_eq_none_iff, Array.findIdx?_eq_none_iff]
      intro other hother
      obtain ⟨q, -, rfl⟩ := List.mem_map.1 (List.mem_toArray.1 hother)
      exact beq_eq_false_iff_ne.2 fun heq => hprimitive (heq ▸ rfl)
    exact hnone.symm

variable {p : Pool} {tables : Tables}

/-- Pool and tables answer a request alike, and agree after it. -/
theorem request (h : p.StoredAs tables) (r : TypeRequest) :
    (tables.request r).1 = (r.run p).1 ∧ (r.run p).2.StoredAs (tables.request r).2 := by
  have hlookup : tables.ids.lookup r.type = p.find? r.type := by simp [h.ids]
  have hsize : tables.packed.heads.size = p.size := by
    rw [h.packed]
    exact size_pack _ _ p.types.toList
  unfold Tables.request
  rw [TypeRequest.run_eq, hlookup]
  cases hfind : p.find? r.type with
  | some t =>
    have hsame : p.intern r.type = (t, p) := by rw [intern, hfind]
    rw [hsame]
    exact ⟨rfl, h⟩
  | none =>
    have hnew : p.intern r.type = (⟨p.size⟩, { p with types := p.types.push r.type }) := by
      rw [intern, hfind]
    refine ⟨by rw [hnew, hsize], ?_, ?_, fun other => ?_⟩
    · rw [packed_intern hfind, h.packed]
    · rw [hnew, h.flags, Array.map_push, TypeRequest.flags_type]
    · rw [find?_intern hfind, hsize, List.lookup_cons, h.ids other]
      by_cases heq : other = r.type
      · subst heq
        simp
      · simp [heq, beq_eq_false_iff_ne.2 heq]

/-- They do so for any sequence of requests. -/
theorem requestAll (requests : List TypeRequest) {p : Pool} {tables : Tables}
    (h : p.StoredAs tables) :
    (Tables.requestAll requests tables).1 = (TypeRequest.runAll requests p).1 ∧
      (TypeRequest.runAll requests p).2.StoredAs (Tables.requestAll requests tables).2 := by
  induction requests generalizing p tables with
  | nil => exact ⟨rfl, h⟩
  | cons r rest ih =>
    obtain ⟨hid, hr⟩ := h.request r
    obtain ⟨hids, hrest⟩ := ih hr
    exact ⟨congrArg₂ List.cons hid hids, hrest⟩

end StoredAs

/-! ## What stays and what is read -/

/-- The ids of the first pool stand in the second one for what they stood for in the first. -/
structure Keeps (p p' : Pool) : Prop where
  has : ∀ t, p.Has t → p'.Has t
  type : ∀ t, p.Has t → p'.type t = p.type t
  flags : ∀ t, p.Has t → (p'.type t).flags = (p.type t).flags
  pointee : ∀ t, p.Has t → p'.pointee? t = p.pointee? t
  parts : ∀ t, p.Has t → p'.namedParts? t = p.namedParts? t

/-- A pool keeps what it is extended from. -/
theorem Extends.keeps {p p' : Pool} (h : p.Extends p') : p.Keeps p' where
  has _ ht := h.has ht
  type _ ht := h.type ht
  flags _ ht := by rw [h.type ht]
  pointee _ ht := by rw [Pool.pointee?, h.type ht, Pool.pointee?]
  parts _ ht := by rw [Pool.namedParts?, h.type ht, Pool.namedParts?]

/-- The tests on types agree with what is read of them, and a pointee stands before its pointer. -/
structure Classified (p : Pool) : Prop where
  pointer : ∀ t, p.isPointer t = true ↔ ∃ pointee, p.pointee? t = some pointee
  integer : ∀ t, p.isInteger t = true ↔ ∃ width, p.intWidth? t = some width
  lt : ∀ t pointee, p.pointee? t = some pointee → pointee.index < t.index

/-- A sound pool is classified. -/
theorem Sound.classified {p : Pool} (h : p.Sound) : p.Classified where
  pointer t := by
    unfold isPointer pointee?
    cases p.type t <;> simp [SourceType.has]
  integer t := by
    unfold isInteger intWidth?
    cases p.type t with
    | primitive q =>
      rw [← Option.isSome_iff_exists, Primitive.isSome_intWidth?]
      exact Iff.rfl
    | pointer pointee => simp [SourceType.has]
    | struct name path => simp [SourceType.has]
    | enum name path => simp [SourceType.has]
  lt t pointee hpointee := by
    exact h.pointees t.index pointee (getElem?_of_pointee? hpointee)

/-- Whether a type has a property, read from the table of properties. -/
def Tables.has (tables : Tables) (t : TypeId) (flag : TypeFlag) : Bool :=
  (tables.flags.getD t.index []).contains flag

/-- The tables and the pool say the same of every type, and the map has each constructed type with
the one id that stands for it. -/
structure ReadsFrom (p : Pool) (tables : Tables) : Prop where
  stored : p.StoredAs tables
  type : ∀ t, p.Has t → Checked.type p t = .ok (p.type t)
  has : ∀ t, p.Has t → ∀ flag, tables.has t flag = (p.type t).has flag
  ids : ∀ type t, tables.ids.lookup type = some t ↔
    p.Has t ∧ p.type t = type ∧ type.has .isPrimitive = false

/-- A sound pool is read from its tables. -/
theorem StoredAs.readsFrom {p : Pool} {tables : Tables} (h : p.StoredAs tables) (hp : p.Sound) :
    p.ReadsFrom tables where
  stored := h
  type _ ht := Checked.type_eq ht
  has t ht flag := by
    have hall : flag ∈ TypeFlag.all := by cases flag <;> decide
    have hread : tables.flags.getD t.index [] = (p.type t).flags := by
      simp [h.flags, Array.getD_eq_getD_getElem?, getElem?_type ht]
    rw [Tables.has, hread, SourceType.flags, Bool.eq_iff_iff, List.contains_iff_mem,
      List.mem_filter]
    exact and_iff_right hall
  ids type t := by
    rw [h.ids]
    split
    next hprimitive => simp [hprimitive]
    next hconstructed =>
      rw [hp.find?_eq_some_iff]
      constructor
      · intro htype
        exact ⟨(Array.getElem?_eq_some_iff.1 htype).1, type_of_getElem? htype,
          Bool.eq_false_iff.2 hconstructed⟩
      · rintro ⟨ht, rfl, -⟩
        exact getElem?_type ht

end Pool

namespace TypeRequest

/-- What a sequence of requests leaves, and what its answers say. -/
structure Canonical (target : Target) (requests : List TypeRequest) (ids : List TypeId) (p : Pool)
    (tables : Pool.Tables) : Prop where
  length : ids.length = requests.length
  /-- Two requests have the same answer exactly if they are the same. -/
  same : ∀ a ∈ requests.zip ids, ∀ b ∈ requests.zip ids, a.2 = b.2 ↔ a.1 = b.1
  /-- What is read of an answer is what was asked for. -/
  answers : ∀ a ∈ requests.zip ids, p.Has a.2 ∧ p.type a.2 = a.1.type ∧
    p.pointee? a.2 = a.1.pointee? ∧ p.namedParts? a.2 = a.1.parts?
  /-- Every pool on the way is kept. -/
  keeps : ∀ before after, requests = before ++ after → (runAll before (.start target)).2.Keeps p
  classified : p.Classified
  tables : p.ReadsFrom tables

/-- After any sequence of requests from the primitive types on, each for a type whose pointee is in
the pool, two requests have got the same id exactly if they ask for the same type; each id reads
back as what was asked for; no id has changed its meaning on the way; and the tables that the same
requests fill give the same answers and say the same of every type. -/
theorem runAll_canonical (target : Target) (requests : List TypeRequest)
    (hfit : Fit requests (.start target)) :
    (Pool.Tables.requestAll requests .start).1 = (runAll requests (.start target)).1 ∧
      Canonical target requests (runAll requests (.start target)).1
        (runAll requests (.start target)).2 (Pool.Tables.requestAll requests .start).2 := by
  obtain ⟨hsame, hstored⟩ := (Pool.StoredAs.start target).requestAll requests
  have hsound := runAll_sound hfit (Pool.sound_start target)
  have hanswers := (runAll_answers requests (.start target)).2
  have hzip := @(List.forall₂_iff_zip.1 hanswers).2
  refine ⟨hsame, hanswers.length_eq.symm, ?_, ?_, ?_, hsound.classified,
    hstored.readsFrom hsound⟩
  · rintro ⟨r, t⟩ hr ⟨s, u⟩ hs
    have ht := hzip hr
    have hu := hzip hs
    constructor
    · rintro rfl
      exact type_inj.1 (Option.some.inj (ht.symm.trans hu))
    · rintro rfl
      exact congrArg TypeId.mk (hsound.distinct _ _ _ ht hu)
  · rintro ⟨r, t⟩ hr
    have ht := hzip hr
    have htype := Pool.type_of_getElem? ht
    refine ⟨(Array.getElem?_eq_some_iff.1 ht).1, htype, ?_, ?_⟩
    · rw [Pool.pointee?, htype]
      cases r <;> rfl
    · rw [Pool.namedParts?, htype]
      cases r <;> rfl
  · rintro before after rfl
    rw [runAll_append]
    exact (runAll_answers after _).1.keeps

/-- A struct and an enum of one name and path, the same name under a path, a pointer to a pointer,
and the pointer and the struct again: the last two are answered as they were before. -/
theorem canonical_boxes :
    let requests := [.pointer .int, .struct "Box" [], .enum "Box" [], .struct "Box" ["outer", "in"],
      .pointer ⟨21⟩, .pointer .int, .struct "Box" []]
    Fit requests (.start .standard) ∧
      (runAll requests (.start .standard)).1 = [⟨21⟩, ⟨22⟩, ⟨23⟩, ⟨24⟩, ⟨25⟩, ⟨21⟩, ⟨22⟩] ∧
      Canonical .standard requests (runAll requests (.start .standard)).1
        (runAll requests (.start .standard)).2 (Pool.Tables.requestAll requests .start).2 :=
  ⟨by decide +kernel, by decide +kernel, (runAll_canonical .standard _ (by decide +kernel)).2⟩

end TypeRequest

end FormCompiler
