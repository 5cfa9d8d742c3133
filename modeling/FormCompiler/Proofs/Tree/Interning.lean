import FormCompiler.Tree.Names
import FormCompiler.Proofs.Grown

/-!
# Handles and Their Texts

A table of names has no text twice, so a text is found at the one handle that reads back as it.
Entering texts only adds to the table: no handle changes its text.

* `Names.find?_eq_some_iff`: what is found is what is read.
* `Names.intern_grown`, `Names.intern_stands`: entering a text.
* `Names.find?_intern`: what is found after a new text was entered.
-/

namespace FormCompiler

namespace Names

variable {names names' : Names} {text : String} {name : Name}

/-- The handle stands for a text of the table. -/
def Has (names : Names) (name : Name) : Prop := name.index < names.size

/-- A text stands in the table where its handle says. -/
theorem getElem?_eq_some_iff :
    names.texts[name.index]? = some text ↔ names.Has name ∧ names.text name = text := by
  rw [Names.text, Array.getD_eq_getD_getElem?, Has, size]
  by_cases hname : name.index < names.texts.size <;> simp [hname]

/-- Handles of the smaller table read in the larger one as they did. -/
theorem text_of_grown (h : Grown names.texts names'.texts) (hname : names.Has name) :
    names'.Has name ∧ names'.text name = names.text name :=
  getElem?_eq_some_iff.1 (h.getElem?_some (getElem?_eq_some_iff.2 ⟨hname, rfl⟩))

/-- A text is found at the one handle that reads back as it. -/
theorem find?_eq_some_iff (h : Distinct names.texts) :
    names.find? text = some name ↔ names.Has name ∧ names.text name = text := by
  rw [← getElem?_eq_some_iff, ← h.findIdx?_eq_some_iff, find?, Option.map_eq_some_iff]
  constructor
  · rintro ⟨index, hindex, rfl⟩
    exact hindex
  · intro hindex
    exact ⟨name.index, hindex, rfl⟩

/-- Two handles of one text are the same. -/
theorem text_inj (h : Distinct names.texts) {m n : Name} (hm : names.Has m) (hn : names.Has n) :
    names.text m = names.text n ↔ m = n := by
  constructor
  · intro htext
    have hfind := (find?_eq_some_iff h).2 ⟨hm, htext⟩
    rw [(find?_eq_some_iff h).2 ⟨hn, rfl⟩] at hfind
    exact (Option.some.inj hfind).symm
  · rintro rfl
    rfl

/-! ## Entering a text -/

/-- The texts of the table keep their handles. -/
theorem intern_grown (names : Names) (text : String) :
    Grown names.texts (names.intern text).2.texts := by
  unfold intern
  split
  · exact .refl _
  · exact .push _ _

/-- The handle that a text is answered with reads back as the text. -/
theorem intern_stands (names : Names) (text : String) :
    (names.intern text).2.Has (names.intern text).1 ∧
      (names.intern text).2.text (names.intern text).1 = text := by
  rw [← getElem?_eq_some_iff]
  unfold intern
  cases hfind : names.find? text with
  | some name =>
    obtain ⟨index, hindex, rfl⟩ := Option.map_eq_some_iff.1 hfind
    obtain ⟨hlt, heq, -⟩ := Array.findIdx?_eq_some_iff_getElem.1 hindex
    exact Array.getElem?_eq_some_iff.2 ⟨hlt, eq_of_beq heq⟩
  | none => simp [size]

/-- A text is entered once. -/
theorem distinct_intern (h : Distinct names.texts) (text : String) :
    Distinct (names.intern text).2.texts := by
  unfold intern
  cases hfind : names.find? text with
  | some name => exact h
  | none => exact h.push (ne_of_findIdx?_eq_none (Option.map_eq_none_iff.1 hfind))

/-- What is found after a new text was entered. -/
theorem find?_intern (hnew : names.find? text = none) (other : String) :
    (names.intern text).2.find? other =
      if other = text then some ⟨names.size⟩ else names.find? other := by
  have hpush : (names.intern text).2.texts = names.texts.push text := by rw [intern, hnew]
  rw [find?, hpush, findIdx?_push_of_ne (Option.map_eq_none_iff.1 hnew), find?, size]
  split <;> rfl

end Names

end FormCompiler
