import FormCompiler.Symbol
import Mathlib.Data.List.Basic

/-!
# Which Symbols Differ

A symbol flattens a path, a name and the printed types of parameters. Escapes, the ends of
namespaces and the separators of types all begin with a dollar sign, so symbols of different
declarations may meet. Of names without escapes they do not: from the symbol the path, the name and
the written form of each type can be read (`ofFunction_inj`), as no escape continues like a
separator (`Escaped`).
-/

namespace FormCompiler.Symbol

/-- A name of letters, digits and underscores. -/
structure PlainName (name : String) : Prop where
  nonempty : name.toList ≠ []
  chars : ∀ c ∈ name.toList, isPlain c = true

instance {name : String} : Decidable (PlainName name) :=
  decidable_of_iff ((!name.toList.isEmpty && name.toList.all isPlain) = true)
    ⟨fun h => by
      rw [Bool.and_eq_true, Bool.not_eq_true', List.isEmpty_eq_false_iff, List.all_eq_true] at h
      exact ⟨h.1, h.2⟩,
    fun h => by
      rw [Bool.and_eq_true, Bool.not_eq_true', List.isEmpty_eq_false_iff, List.all_eq_true]
      exact ⟨h.nonempty, h.chars⟩⟩

/-- Every dollar sign is followed by a character by which no separator goes on. -/
def Escaped : List Char → Prop
  | [] => True
  | c :: cs => (c = '$' → ∃ d ∈ cs.head?, d ≠ 'C' ∧ d ≠ '$') ∧ Escaped cs

/-- A plain character stands for itself. -/
theorem encodeChar_of_plain {c : Char} (h : isPlain c = true) : encodeChar c = [c] := if_pos h

/-- Plain characters stand for themselves. -/
theorem encode_of_plain {cs : List Char} (h : ∀ c ∈ cs, isPlain c = true) : encode cs = cs := by
  induction cs with
  | nil => rfl
  | cons c cs ih =>
    rw [encode, List.flatMap_cons, encodeChar_of_plain (h c List.mem_cons_self), ← encode,
      ih fun d hd => h d (List.mem_cons_of_mem c hd)]
    rfl

/-! ## Words -/

namespace PlainName

variable {name : String}

/-- A plain name stands for itself. -/
theorem encode_eq (h : PlainName name) : encode name.toList = name.toList :=
  encode_of_plain h.chars

/-- A plain name has no other characters. -/
theorem not_mem (h : PlainName name) {c : Char} (hc : isPlain c = false) : c ∉ name.toList :=
  fun hmem => Bool.false_ne_true (hc.symm.trans (h.chars c hmem))

/-- A plain name has no dollar sign. -/
theorem dollar_not_mem (h : PlainName name) : '$' ∉ name.toList := h.not_mem (by decide)

end PlainName

/-- The end of a word is found where a character first stands that ends words. -/
theorem append_inj_of_ends {e : Char} {w w' r r' : List Char} (hw : e ∉ w) (hw' : e ∉ w')
    (hr : ∀ c ∈ r.head?, c = e) (hr' : ∀ c ∈ r'.head?, c = e) (h : w ++ r = w' ++ r') :
    w = w' ∧ r = r' := by
  induction w generalizing w' with
  | nil =>
    cases w' with
    | nil => exact ⟨rfl, h⟩
    | cons c w' =>
      rw [List.nil_append] at h
      -- one word ends where the other goes on, so the other holds the character
      obtain rfl : c = e := hr c (by rw [h]; rfl)
      exact absurd List.mem_cons_self hw'
  | cons c w ih =>
    cases w' with
    | nil =>
      rw [List.nil_append] at h
      obtain rfl : c = e := hr' c (by rw [← h]; rfl)
      exact absurd List.mem_cons_self hw
    | cons d w' =>
      obtain ⟨rfl, htail⟩ := List.cons.inj h
      obtain ⟨rfl, hrest⟩ := ih (fun hmem => hw (List.mem_cons_of_mem _ hmem))
        (fun hmem => hw' (List.mem_cons_of_mem _ hmem)) htail
      exact ⟨rfl, hrest⟩

/-! ## Escapes -/

namespace Escaped

variable {cs ds : List Char}

/-- What has no dollar sign is escaped. -/
theorem of_not_mem (h : '$' ∉ cs) : Escaped cs := by
  induction cs with
  | nil => trivial
  | cons c cs ih =>
    rw [List.mem_cons, not_or] at h
    exact ⟨fun hc => absurd hc.symm h.1, ih h.2⟩

/-- Escaped texts may stand one after the other. -/
theorem append (h : Escaped cs) (h' : Escaped ds) : Escaped (cs ++ ds) := by
  induction cs with
  | nil => exact h'
  | cons c cs ih =>
    refine ⟨fun hc => ?_, ih h.2⟩
    obtain ⟨d, hd, hne⟩ := h.1 hc
    obtain ⟨rest, rfl⟩ := List.head?_eq_some_iff.1 hd
    exact ⟨d, rfl, hne⟩

/-- An escape of characters that are no dollar sign. -/
theorem cons {d : Char} (hd : d ≠ 'C') (h : '$' ∉ d :: cs) : Escaped ('$' :: d :: cs) :=
  ⟨fun _ => ⟨d, rfl, hd, fun hdollar => h (hdollar ▸ List.mem_cons_self)⟩, of_not_mem h⟩

end Escaped

/-- The digits of code points are no dollar signs, and no capital letters. -/
theorem mem_toDigits {n : Nat} {c : Char} (h : c ∈ Nat.toDigits 16 n) : c ≠ '$' ∧ c ≠ 'C' := by
  have hdigit : ∀ d < 16, Nat.digitChar d ≠ '$' ∧ Nat.digitChar d ≠ 'C' := by decide
  induction n using Nat.strongRecOn with
  | ind n ih =>
    rw [Nat.toDigits_eq_if (by decide)] at h
    split at h
    next hlt =>
      rw [List.mem_singleton.1 h]
      exact hdigit n hlt
    next hge =>
      rcases List.mem_append.1 h with h | h
      · exact ih (n / 16) (by omega) h
      · rw [List.mem_singleton.1 h]
        exact hdigit _ (Nat.mod_lt _ (by decide))

/-- The digits of a code point are no dollar signs, and no capital letters. -/
theorem mem_codeDigits {n : Nat} {c : Char} (h : c ∈ codeDigits n) : c ≠ '$' ∧ c ≠ 'C' := by
  rcases List.mem_append.1 h with h | h
  · rw [List.eq_of_mem_replicate h]
    decide
  · exact mem_toDigits h

/-- A code point has digits. -/
theorem codeDigits_ne_nil (n : Nat) : codeDigits n ≠ [] := by
  intro h
  obtain ⟨hzeros, hdigits⟩ := List.append_eq_nil_iff.1 h
  rw [hdigits] at hzeros
  cases hzeros

/-- The written form of a character is escaped. -/
theorem escaped_encodeChar (c : Char) : Escaped (encodeChar c) := by
  unfold encodeChar
  split
  next hplain =>
    refine .of_not_mem fun h => ?_
    rw [← List.mem_singleton.1 h] at hplain
    exact absurd hplain (by decide)
  next =>
    split
    case h_12 =>
      cases hdigits : codeDigits c.toNat with
      | nil => exact absurd hdigits (codeDigits_ne_nil _)
      | cons d ds =>
        have hmem := fun e he => mem_codeDigits (n := c.toNat) (c := e) (hdigits ▸ he)
        exact .cons (hmem d List.mem_cons_self).2 fun h => (hmem _ h).1 rfl
    case h_1 => exact .of_not_mem (by decide)
    all_goals exact .cons (by decide) (by decide)

/-- The written form of a text is escaped. -/
theorem escaped_encode (cs : List Char) : Escaped (encode cs) := by
  induction cs with
  | nil => trivial
  | cons c cs ih => exact (escaped_encodeChar c).append ih

/-- The end of an escaped text is found where a separator stands: a dollar sign and a capital C, or
a second dollar sign. -/
theorem append_inj_of_separator {e e' r r' : List Char} {s : Char} (hs : s = 'C' ∨ s = '$')
    (he : Escaped e) (he' : Escaped e') (hr : r = [] ∨ ∃ t, r = '$' :: s :: t)
    (hr' : r' = [] ∨ ∃ t, r' = '$' :: s :: t) (h : e ++ r = e' ++ r') : e = e' ∧ r = r' := by
  -- a separator cannot stand where an escaped text goes on
  have hclash : ∀ {c : Char} {cs t r : List Char}, Escaped (c :: cs) →
      ¬ '$' :: s :: t = c :: cs ++ r := by
    intro c cs t r hcs heq
    obtain ⟨rfl, htail⟩ := List.cons.inj heq
    obtain ⟨d, hd, hneC, hne⟩ := hcs.1 rfl
    obtain ⟨ds, rfl⟩ := List.head?_eq_some_iff.1 hd
    obtain rfl := (List.cons.inj htail).1
    exact hs.elim hneC hne
  induction e generalizing e' with
  | nil =>
    cases e' with
    | nil => exact ⟨rfl, h⟩
    | cons c cs =>
      rcases hr with rfl | ⟨t, rfl⟩
      · cases h
      · exact (hclash he' h).elim
  | cons c cs ih =>
    cases e' with
    | nil =>
      rcases hr' with rfl | ⟨t, rfl⟩
      · cases h
      · exact (hclash he h.symm).elim
    | cons d ds =>
      obtain ⟨rfl, htail⟩ := List.cons.inj h
      obtain ⟨rfl, hrest⟩ := ih he.2 he'.2 htail
      exact ⟨rfl, hrest⟩

/-! ## Parameters -/

/-- The types after the first one, each after a separator. -/
theorem separated_cases (params : List String) :
    (params.flatMap fun param => ['$', 'C'] ++ encode param.toList) = [] ∨
      ∃ t, (params.flatMap fun param => ['$', 'C'] ++ encode param.toList) = '$' :: 'C' :: t := by
  cases params with
  | nil => exact .inl rfl
  | cons param params => exact .inr ⟨_, rfl⟩

/-- Types can be read off their written forms, up to these. -/
theorem separated_inj {param param' : String} {params params' : List String}
    (h : encode param.toList ++ (params.flatMap fun param => ['$', 'C'] ++ encode param.toList) =
      encode param'.toList ++ params'.flatMap fun param => ['$', 'C'] ++ encode param.toList) :
    (param :: params).map (encode ·.toList) = (param' :: params').map (encode ·.toList) := by
  induction params generalizing param param' params' with
  | nil =>
    obtain ⟨hfirst, hrest⟩ := append_inj_of_separator (.inl rfl) (escaped_encode _)
      (escaped_encode _) (.inl rfl) (separated_cases params') h
    cases params' with
    | nil => exact congrArg (fun e => [e]) hfirst
    | cons _ _ => cases hrest
  | cons next params ih =>
    obtain ⟨hfirst, hrest⟩ := append_inj_of_separator (.inl rfl) (escaped_encode _)
      (escaped_encode _) (separated_cases (next :: params)) (separated_cases params') h
    cases params' with
    | nil => cases hrest
    | cons next' params' =>
      rw [List.map_cons, List.map_cons (l := next' :: params'), hfirst]
      rw [List.flatMap_cons, List.flatMap_cons, List.append_assoc, List.append_assoc] at hrest
      exact congrArg _ (ih (List.append_cancel_left hrest))

/-- The parameters of a function that has some. -/
theorem encodeParams_cons (param : String) (params : List String) :
    encodeParams (param :: params) = ['$', '$'] ++ (encode param.toList ++
      params.flatMap fun param => ['$', 'C'] ++ encode param.toList) := List.append_assoc _ _ _

/-- Parameter types are written the same if each of them is. -/
theorem encodeParams_congr {params params' : List String}
    (h : params.map (encode ·.toList) = params'.map (encode ·.toList)) :
    encodeParams params = encodeParams params' := by
  have hrest : ∀ params : List String,
      (params.flatMap fun param => ['$', 'C'] ++ encode param.toList) =
        (params.map (encode ·.toList)).flatMap (['$', 'C'] ++ ·) := fun params => by
    rw [List.flatMap_map]
  cases params with
  | nil =>
    cases params' with
    | nil => rfl
    | cons _ _ => cases h
  | cons param params =>
    cases params' with
    | nil => cases h
    | cons param' params' =>
      obtain ⟨hfirst, htail⟩ := List.cons.inj h
      rw [encodeParams_cons, encodeParams_cons, hrest, hrest, htail]
      exact congrArg (fun e => _ ++ (e ++ _)) hfirst

/-- Parameter types are written the same only if each of them is. -/
theorem encodeParams_inj {params params' : List String} :
    encodeParams params = encodeParams params' ↔
      params.map (encode ·.toList) = params'.map (encode ·.toList) := by
  refine ⟨fun h => ?_, encodeParams_congr⟩
  cases params with
  | nil =>
    cases params' with
    | nil => rfl
    | cons _ _ => cases h
  | cons param params =>
    cases params' with
    | nil => cases h
    | cons param' params' =>
      rw [encodeParams_cons, encodeParams_cons] at h
      exact separated_inj (List.append_cancel_left h)

/-! ## Declarations with plain names -/

section

variable {path path' : List String} {name name' : String} {params params' : List String}

/-- The parameters begin with a dollar sign, and with a second one. -/
theorem head_encodeParams (params : List String) : ∀ c ∈ (encodeParams params).head?, c = '$' := by
  cases params with
  | nil => exact nofun
  | cons param params =>
    rintro c ⟨⟩
    rfl

/-- After the name of a declaration in the root no namespace follows. -/
theorem encodeParams_ne_cons (params : List String) {c : Char} (cs : List Char) (hc : c ≠ '$') :
    encodeParams params ≠ '$' :: c :: cs := by
  cases params with
  | nil => exact nofun
  | cons param params => exact fun h => hc (List.cons.inj (List.cons.inj h).2).1.symm

/-- What stands in a namespace begins with a plain character. -/
theorem exists_plain_head (hpath : ∀ segment ∈ path, PlainName segment) (hname : PlainName name)
    (rest : List Char) :
    ∃ c cs, encodePath path ++ encode name.toList ++ rest = c :: cs ∧ c ≠ '$' := by
  have hword : ∀ {word : String} (tail : List Char), PlainName word →
      ∃ c cs, encode word.toList ++ tail = c :: cs ∧ c ≠ '$' := by
    intro word tail hword
    obtain ⟨c, cs, hcs⟩ := List.exists_cons_of_ne_nil hword.nonempty
    refine ⟨c, cs ++ tail, by rw [hword.encode_eq, hcs]; rfl, ?_⟩
    rintro rfl
    exact hword.dollar_not_mem (by rw [hcs]; exact List.mem_cons_self)
  cases path with
  | nil => exact hword rest hname
  | cons segment path =>
    rw [encodePath, List.flatMap_cons, List.append_assoc, List.append_assoc, List.append_assoc]
    exact hword _ (hpath segment List.mem_cons_self)

/-- What is written of a declaration inside a namespace. -/
theorem written_cons (segment : String) (path : List String) (name : String) (rest : List Char) :
    encodePath (segment :: path) ++ encode name.toList ++ rest =
      encode segment.toList ++ ('$' :: (encodePath path ++ encode name.toList ++ rest)) := by
  simp [encodePath]

/-- A declaration in the root is not written like one in a namespace: a namespace ends with a single
dollar sign. -/
theorem root_ne_namespace {segment : String} (hname : PlainName name)
    (hsegment : PlainName segment) (hpath : ∀ segment ∈ path, PlainName segment)
    (hname' : PlainName name') (rest : List Char) :
    encode name.toList ++ encodeParams params ≠
      encode segment.toList ++ ('$' :: (encodePath path ++ encode name'.toList ++ rest)) := by
  intro heq
  obtain ⟨c, cs, hcs, hc⟩ := exists_plain_head hpath hname' rest
  rw [hname.encode_eq, hsegment.encode_eq, hcs] at heq
  exact encodeParams_ne_cons params cs hc (append_inj_of_ends hname.dollar_not_mem
    hsegment.dollar_not_mem (head_encodeParams params) (by rintro d ⟨⟩; rfl) heq).2

/-- The path, the name and the parameters can be read off what follows the mark of a symbol. -/
theorem written_inj (hpath : ∀ segment ∈ path, PlainName segment) (hname : PlainName name)
    (hpath' : ∀ segment ∈ path', PlainName segment) (hname' : PlainName name')
    (h : encodePath path ++ encode name.toList ++ encodeParams params =
      encodePath path' ++ encode name'.toList ++ encodeParams params') :
    path = path' ∧ name = name' ∧ encodeParams params = encodeParams params' := by
  -- the paths are compared from the outside in, and the name only once both have ended
  induction path generalizing path' with
  | nil =>
    cases path' with
    | nil =>
      change encode name.toList ++ _ = encode name'.toList ++ _ at h
      rw [hname.encode_eq, hname'.encode_eq] at h
      obtain ⟨hword, hrest⟩ := append_inj_of_ends hname.dollar_not_mem hname'.dollar_not_mem
        (head_encodeParams params) (head_encodeParams params') h
      exact ⟨rfl, String.toList_inj.1 hword, hrest⟩
    | cons segment path' =>
      rw [written_cons] at h
      exact (root_ne_namespace hname (hpath' segment List.mem_cons_self)
        (fun s hs => hpath' s (List.mem_cons_of_mem _ hs)) hname' _ h).elim
  | cons segment path ih =>
    have hsegment := hpath segment List.mem_cons_self
    have hrest := fun s hs => hpath s (List.mem_cons_of_mem _ hs)
    rw [written_cons] at h
    cases path' with
    | nil => exact (root_ne_namespace hname' hsegment hrest hname _ h.symm).elim
    | cons segment' path' =>
      have hsegment' := hpath' segment' List.mem_cons_self
      rw [written_cons, hsegment.encode_eq, hsegment'.encode_eq] at h
      obtain ⟨hword, hafter⟩ := append_inj_of_ends hsegment.dollar_not_mem
        hsegment'.dollar_not_mem (by rintro d ⟨⟩; rfl) (by rintro d ⟨⟩; rfl) h
      obtain ⟨rfl, hname, hparams⟩ := ih hrest
        (fun s hs => hpath' s (List.mem_cons_of_mem _ hs)) (List.cons.inj hafter).2
      exact ⟨by rw [String.toList_inj.1 hword], hname, hparams⟩

/-- Functions with plain names have one symbol only if they stand in one namespace, have one name
and the written forms of their parameter types agree. -/
theorem ofFunction_inj (hpath : ∀ segment ∈ path, PlainName segment) (hname : PlainName name)
    (hpath' : ∀ segment ∈ path', PlainName segment) (hname' : PlainName name') :
    ofFunction path name params = ofFunction path' name' params' ↔
      path = path' ∧ name = name' ∧
        params.map (encode ·.toList) = params'.map (encode ·.toList) := by
  rw [← encodeParams_inj]
  refine ⟨fun h => ?_, by rintro ⟨rfl, rfl, hparams⟩; rw [ofFunction, hparams, ofFunction]⟩
  have hchars := String.ofList_injective h
  rw [nameChars, nameChars, List.append_assoc mark.toList, List.append_assoc mark.toList,
    List.append_assoc mark.toList, List.append_assoc mark.toList] at hchars
  exact written_inj hpath hname hpath' hname' (List.append_cancel_left hchars)

/-- Structs with plain names have one symbol only if they stand in one namespace and have one
name. -/
theorem ofStruct_inj (hpath : ∀ segment ∈ path, PlainName segment) (hname : PlainName name)
    (hpath' : ∀ segment ∈ path', PlainName segment) (hname' : PlainName name') :
    ofStruct path name = ofStruct path' name' ↔ path = path' ∧ name = name' := by
  refine ⟨fun h => ?_, by rintro ⟨rfl, rfl⟩; rfl⟩
  have hwithout : ∀ path name, ofFunction path name [] = ofName path name := fun path name => by
    rw [ofFunction, encodeParams, List.append_nil, ofName]
  have hsymbol : ofName path name = ofName path' name' := by
    have hchars := congrArg String.toList h
    rw [ofStruct, ofStruct, String.toList_append, String.toList_append] at hchars
    exact String.toList_inj.1 (List.append_cancel_left hchars)
  rw [← hwithout, ← hwithout, ofFunction_inj hpath hname hpath' hname'] at hsymbol
  exact ⟨hsymbol.1, hsymbol.2.1⟩

end

end FormCompiler.Symbol
