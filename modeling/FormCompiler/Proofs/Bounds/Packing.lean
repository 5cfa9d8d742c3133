import FormCompiler.Proofs.Bounds.Access
import Mathlib.Data.List.Induction

/-!
# Packed Tables

The entries of two tables have parts of any number: the items of a list form, and the name and path
of a struct or an enum. They are stored with heads of one size, and all parts stand one after the
other in an array of cells; a head knows where its cells start. Reading an entry reads these cells.

* `Packed`, `pack`: heads and cells, and those of a table.
* `Stores`: a record stands in the cells from an index on. Every entry of a packed table is stored
  (`pack_stores`), so reading it stays inside of the cells.
-/

namespace FormCompiler

/-- Heads of entries, and the cells of all of them. -/
structure Packed (ι κ : Type) where
  heads : Array ι
  cells : Array κ

section

variable {α ι κ : Type}

/-- Adds an entry. Its cells start after those of the others. -/
def Packed.push (p : Packed ι κ) (head : Nat → ι) (record : List κ) : Packed ι κ :=
  ⟨p.heads.push (head p.cells.size), p.cells ++ record.toArray⟩

/-- The entries of a table, packed. -/
def pack (head : α → Nat → ι) (record : α → List κ) (table : Array α) : Packed ι κ :=
  table.foldl (fun p entry => p.push (head entry) (record entry)) ⟨#[], #[]⟩

/-- A record stands in the cells from an index on. -/
def Stores (cells : Array κ) (start : Nat) (record : List κ) : Prop :=
  ∃ before after, cells.toList = before ++ record ++ after ∧ before.length = start

namespace Stores

variable {cells more : Array κ} {start : Nat} {record : List κ}

/-- Cells may be added. -/
theorem append (h : Stores cells start record) : Stores (cells ++ more) start record := by
  obtain ⟨before, after, hcells, hstart⟩ := h
  exact ⟨before, after ++ more.toList, by simp [hcells], hstart⟩

/-- A record of several cells has its first one where it starts, and the others behind it. -/
theorem tail {cell : κ} (h : Stores cells start (cell :: record)) :
    readAt cells start = .ok cell ∧ Stores cells (start + 1) record := by
  obtain ⟨before, after, hcells, rfl⟩ := h
  refine ⟨?_, before ++ [cell], after, by simp [hcells], by simp⟩
  rw [readAt_ok_iff, ← Array.getElem?_toList, hcells]
  simp

/-- The cells of a record are in the array. -/
theorem cellsAt (h : Stores cells start record) :
    cellsAt cells start record.length = .ok record := by
  obtain ⟨before, after, hcells, rfl⟩ := h
  have hsize : cells.size = before.length + record.length + after.length := by
    rw [← Array.length_toList, hcells]
    simp [Nat.add_assoc]
  rw [FormCompiler.cellsAt, if_pos (by omega), hcells]
  simp

end Stores

/-- Packing after an entry was added. -/
theorem pack_push (head : α → Nat → ι) (record : α → List κ) (table : Array α) (a : α) :
    pack head record (table.push a) = (pack head record table).push (head a) (record a) := by
  simp [pack]

/-- There is one head for every entry. -/
theorem size_pack (head : α → Nat → ι) (record : α → List κ) (entries : List α) :
    (pack head record entries.toArray).heads.size = entries.length := by
  induction entries using List.reverseRecOn with
  | nil => rfl
  | append_singleton entries a ih =>
    rw [← List.push_toArray, pack_push, Packed.push, Array.size_push, ih, List.length_append]
    rfl

/-- The cells of every entry are stored from where its head says. -/
theorem pack_stores (head : α → Nat → ι) (record : α → List κ) {table : Array α} {i : Nat} {a : α}
    (h : table[i]? = some a) :
    ∃ start, readAt (pack head record table).heads i = .ok (head a start) ∧
      Stores (pack head record table).cells start (record a) := by
  obtain ⟨entries⟩ := table
  rw [List.getElem?_toArray] at h
  induction entries using List.reverseRecOn with
  | nil => cases h
  | append_singleton entries b ih =>
    have hsize := size_pack head record entries
    simp only [← List.push_toArray, pack_push, Packed.push, readAt_ok_iff, Array.getElem?_push,
      hsize]
    -- the last entry was stored at the end of the cells; the others keep their places
    rcases Nat.lt_trichotomy i entries.length with hlt | rfl | hgt
    · rw [List.getElem?_append_left hlt] at h
      obtain ⟨start, hread, hstores⟩ := ih h
      refine ⟨start, ?_, hstores.append⟩
      rw [if_neg (Nat.ne_of_lt hlt)]
      exact readAt_ok_iff.1 hread
    · rw [List.getElem?_concat_length] at h
      obtain rfl := Option.some.inj h
      refine ⟨_, by rw [if_pos rfl], _, [], ?_, Array.length_toList⟩
      simp
    · have hend := (List.getElem?_eq_some_iff.1 h).1
      rw [List.length_append] at hend
      exact absurd (Nat.lt_succ_iff.1 hend) (Nat.not_le.2 hgt)

end

end FormCompiler
