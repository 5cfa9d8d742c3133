import FormCompiler.Proofs.Bounds.Packing
import FormCompiler.Proofs.Context.Growth
import Mathlib.Tactic.MkIffOfInductiveProp

/-!
# Reading Types Stays in Bounds

A struct or enum type is stored as a record of cells: its name, the length of its path, and the
path. In a pool in bounds a type is read from its head and, if it is named, from the cells of its
record alone.

* `Pool.packed`: the types as they are stored. Entering a named type adds its record.
* `Pool.InBounds`: pointees are in the pool, and integers have 1 to 128 bits on the target.
* `Pool.Checked`: reading, checked. In bounds it gives what reading gives.
-/

namespace FormCompiler

/-- A type as it is stored; the name and path of a named type are in a record. -/
inductive StoredType where
  | primitive (p : Primitive)
  | pointer (pointee : TypeId)
  | struct (record : Nat)
  | enum (record : Nat)
deriving DecidableEq, Repr

/-- A cell of a record. -/
inductive RecordCell where
  | name (text : String)
  | count (number : Nat)
deriving DecidableEq, Repr

namespace RecordCell

/-- Reads the cell as a name. -/
def asName : RecordCell → Except Fault String
  | name text => .ok text
  | count _ => .error .misread

/-- Reads the cell as a number. -/
def asCount : RecordCell → Except Fault Nat
  | name _ => .error .misread
  | count number => .ok number

end RecordCell

namespace SourceType

/-- The record of a named type. -/
def namedCells (name : String) (path : List String) : List RecordCell :=
  .name name :: .count path.length :: path.map .name

/-- The head of a type whose record starts at an index. -/
def head (type : SourceType) (record : Nat) : StoredType :=
  match type with
  | primitive p => .primitive p
  | pointer pointee => .pointer pointee
  | struct _ _ => .struct record
  | enum _ _ => .enum record

/-- The cells of a type: the record of a named type. -/
def cells : SourceType → List RecordCell
  | primitive _ | pointer _ => []
  | struct name path | enum name path => namedCells name path

end SourceType

namespace Pool

/-- The types as they are stored. -/
def packed (p : Pool) : Packed StoredType RecordCell :=
  pack SourceType.head SourceType.cells p.types

/-- A type that is new is stored by adding its record to the cells. -/
theorem packed_intern {p : Pool} {type : SourceType} (hnew : p.find? type = none) :
    (p.intern type).2.packed = p.packed.push type.head type.cells := by
  unfold intern
  rw [hnew]
  exact pack_push SourceType.head SourceType.cells p.types type

/-- The id of a type is in range. -/
def Has (p : Pool) (t : TypeId) : Prop := t.index < p.size

instance (p : Pool) (t : TypeId) : Decidable (p.Has t) := inferInstanceAs (Decidable (_ < _))

/-- The primitive types are in the pool, and so is every pointee; an integer of the target has 1 to
128 bits. -/
@[mk_iff]
structure InBounds (p : Pool) : Prop where
  primitives : Primitive.all.length ≤ p.size
  pointees : ∀ type ∈ p.types, ∀ pointee, type = .pointer pointee → p.Has pointee
  intWidth : 1 ≤ p.target.intWidth ∧ p.target.intWidth ≤ 128
  pointerWidth : 1 ≤ p.target.pointerWidth ∧ p.target.pointerWidth ≤ 128

instance (p : Pool) : Decidable p.InBounds :=
  have (type : SourceType) : Decidable (∀ pointee, type = .pointer pointee → p.Has pointee) :=
    match type with
    | .pointer pointee => decidable_of_iff (p.Has pointee) (by simp)
    | .primitive _ | .struct _ _ | .enum _ _ => isTrue (by simp)
  decidable_of_iff _ (inBounds_iff p).symm

/-- A type stays in range. -/
theorem Extends.has {p p' : Pool} {t : TypeId} (h : p.Extends p') (ht : p.Has t) : p'.Has t :=
  Nat.lt_of_lt_of_le ht h.types.size_le

/-- The pool of the primitive types alone is in bounds on a target with such widths. -/
theorem inBounds_start {target : Target}
    (hint : 1 ≤ target.intWidth ∧ target.intWidth ≤ 128)
    (hpointer : 1 ≤ target.pointerWidth ∧ target.pointerWidth ≤ 128) : (start target).InBounds := by
  refine ⟨by simp [start, size], fun type htype pointee hpointee => ?_, hint, hpointer⟩
  obtain ⟨q, -, rfl⟩ := List.mem_map.1 (List.mem_toArray.1 htype)
  cases hpointee

namespace InBounds

variable {p : Pool} {t : TypeId}

/-- A primitive type is in the pool. -/
theorem has_primitive (h : p.InBounds) (q : Primitive) : p.Has (.ofPrimitive q) :=
  Nat.lt_of_lt_of_le (List.getElem?_eq_some_iff.1 q.getElem?_all_index).1 h.primitives

/-- The pointee of a type of the pool is in the pool. -/
theorem has_pointee (h : p.InBounds) {pointee : TypeId} (ht : p.Has t)
    (htype : p.type t = .pointer pointee) : p.Has pointee :=
  h.pointees _ (Array.mem_of_getElem? (getElem?_type ht)) pointee htype

/-- The pointee of a pointer type of the pool is in the pool. -/
theorem has_of_pointee? (h : p.InBounds) {pointee : TypeId} (ht : p.Has t)
    (hpointee : p.pointee? t = some pointee) : p.Has pointee :=
  h.has_pointee ht (type_of_pointee? hpointee)

/-- An integer type has 1 to 128 bits. -/
theorem width (h : p.InBounds) (q : Primitive) {bits : Nat}
    (hbits : q.intWidth? p.target = some bits) : 1 ≤ bits ∧ bits ≤ 128 := by
  have hint := h.intWidth
  have hpointer := h.pointerWidth
  cases q <;> cases hbits <;> first | assumption | decide

/-- An integer type of the pool has a bit. -/
theorem one_le_intWidth (h : p.InBounds) {bits : Nat} (hbits : p.intWidth? t = some bits) :
    1 ≤ bits := by
  unfold intWidth? at hbits
  split at hbits
  next q _ => exact (h.width q hbits).1
  next => cases hbits

/-- The type of a find is in range. -/
theorem has_of_find {type : SourceType} (hfind : p.find? type = some t) : p.Has t := by
  obtain ⟨i, hi, rfl⟩ := Option.map_eq_some_iff.1 hfind
  exact (Array.findIdx?_eq_some_iff_getElem.1 hi).1

/-- A type may be entered if its pointee is in the pool. -/
theorem intern (h : p.InBounds) {type : SourceType}
    (htype : ∀ pointee, type = .pointer pointee → p.Has pointee) :
    (p.intern type).2.InBounds ∧ (p.intern type).2.Has (p.intern type).1 := by
  unfold Pool.intern
  cases hfind : p.find? type with
  | some t => exact ⟨h, has_of_find hfind⟩
  | none =>
    have hsize : p.size ≤ (p.types.push type).size := by simp [size]
    refine ⟨⟨Nat.le_trans h.primitives hsize, fun type' htype' pointee hpointee => ?_,
      h.intWidth, h.pointerWidth⟩, by simp [Has, size]⟩
    refine Nat.lt_of_lt_of_le ?_ hsize
    rcases Array.mem_push.1 htype' with hmem | rfl
    · exact h.pointees type' hmem pointee hpointee
    · exact htype pointee hpointee

end InBounds

/-! ## Reading -/

namespace Checked

/-- What is stored of a type. -/
def stored (p : Pool) (t : TypeId) : Except Fault StoredType := readAt p.packed.heads t.index

/-- The name and path in the record at an index. -/
def namedAt (p : Pool) (record : Nat) : Except Fault (String × List String) := do
  let name ← (← readAt p.packed.cells record).asName
  let count ← (← readAt p.packed.cells (record + 1)).asCount
  let path ← (← cellsAt p.packed.cells (record + 1 + 1) count).mapM RecordCell.asName
  return (name, path)

/-- The type of an id. -/
def type (p : Pool) (t : TypeId) : Except Fault SourceType := do
  match ← stored p t with
  | .primitive q => return .primitive q
  | .pointer pointee => return .pointer pointee
  | .struct record => return (fun (name, path) => .struct name path) (← namedAt p record)
  | .enum record => return (fun (name, path) => .enum name path) (← namedAt p record)

/-- The pointee of a pointer type; other types have none. -/
def pointee? (p : Pool) (t : TypeId) : Except Fault (Option TypeId) := do
  match ← type p t with
  | .pointer pointee => return some pointee
  | _ => return none

/-- The type has a property. -/
def has (p : Pool) (t : TypeId) (flag : TypeFlag) : Except Fault Bool :=
  (type p t).map (·.has flag)

/-- Width of an integer type on the pool's target. -/
def intWidth? (p : Pool) (t : TypeId) : Except Fault (Option Nat) := do
  match ← type p t with
  | .primitive q => return q.intWidth? p.target
  | _ => return none

/-- Printable form of a type whose id is below `bound`, or of the absent type. -/
def formatBelow (p : Pool) : (bound : Nat) → TypeId → Except Fault String
  | 0, t => return if t.isNone then "<none>" else ""
  | bound + 1, t => do
    if t.isNone then return "<none>" else
    match ← type p t with
    | .primitive q => return q.name
    | .pointer pointee => return "(p " ++ (← formatBelow p bound pointee) ++ ")"
    | .struct name path => return String.join (path.map (· ++ ".")) ++ name
    | .enum name path => return String.join (path.map (· ++ ".")) ++ name

/-- Printable form of a type. -/
def format (p : Pool) (t : TypeId) : Except Fault String := formatBelow p (t.index + 1) t

section

variable {p : Pool} {t : TypeId}

/-- A record is read back from its cells. -/
theorem namedAt_eq {record : Nat} {name : String} {path : List String}
    (h : Stores p.packed.cells record (SourceType.namedCells name path)) :
    namedAt p record = .ok (name, path) := by
  -- first the name, then the length of the path, then the path
  obtain ⟨hname, hrest⟩ := h.tail
  obtain ⟨hcount, hpath⟩ := hrest.tail
  have hcells := hpath.cellsAt
  rw [List.length_map] at hcells
  have hread : (path.map RecordCell.name).mapM RecordCell.asName = .ok path := by
    rw [List.mapM_map]
    exact (mapM_eq fun _ _ => rfl).trans (congrArg Except.ok (List.map_id path))
  simp only [namedAt, hname, bind, Except.bind, RecordCell.asName, hcount, RecordCell.asCount,
    hcells]
  rw [hread]
  rfl

theorem type_eq (ht : p.Has t) : type p t = .ok (p.type t) := by
  obtain ⟨record, hread, hcells⟩ :=
    pack_stores SourceType.head SourceType.cells (getElem?_type ht)
  unfold type stored
  rw [show readAt p.packed.heads t.index = _ from hread]
  cases htype : p.type t with
  | primitive q => rfl
  | pointer pointee => rfl
  | struct name path =>
    rw [htype] at hcells
    simp only [SourceType.head, bind, Except.bind, namedAt_eq hcells]
    rfl
  | enum name path =>
    rw [htype] at hcells
    simp only [SourceType.head, bind, Except.bind, namedAt_eq hcells]
    rfl

theorem pointee?_eq (ht : p.Has t) : pointee? p t = .ok (p.pointee? t) := by
  rw [pointee?, type_eq ht, Pool.pointee?]
  cases p.type t <;> rfl

theorem has_eq (ht : p.Has t) (flag : TypeFlag) : has p t flag = .ok ((p.type t).has flag) := by
  rw [has, type_eq ht]
  rfl

theorem intWidth?_eq (ht : p.Has t) : intWidth? p t = .ok (p.intWidth? t) := by
  rw [intWidth?, type_eq ht, Pool.intWidth?]
  cases p.type t <;> rfl

theorem formatBelow_eq (hp : p.InBounds) (bound : Nat) (ht : p.Has t) :
    formatBelow p bound t = .ok (p.formatBelow bound t) := by
  induction bound generalizing t with
  | zero => rfl
  | succ bound ih =>
    unfold formatBelow Pool.formatBelow
    rw [type_eq ht]
    split
    · rfl
    · cases htype : p.type t with
      | pointer pointee =>
        have hpointee := ih (hp.has_pointee ht htype)
        simp [bind, Except.bind, hpointee, pure, Except.pure]
      | _ => rfl

theorem format_eq (hp : p.InBounds) (ht : p.Has t) : format p t = .ok (p.format t) :=
  formatBelow_eq hp (t.index + 1) ht

end

end Checked

end Pool

end FormCompiler
