import FormCompiler.Proofs.SymbolDecoding
import Mathlib.Data.List.TakeWhile

/-!
# Names That Keep Symbols Apart

The name of a function may hold characters that are escaped, and its symbol can still be told from
that of any other function. Three things must not happen, as in each of them two declarations may be
written the same:

* the written form of the name is that of another name, too (`Readable`);
* the name begins like that of a namespace and goes on with an escape: `a-b` is written like `Db` in
  a namespace `a` (`Outside`);
* the name begins with an escape, and there are no parameters: `<` in a namespace `f` is written
  like `f` with a parameter of a type `LT`.

Among functions for which none of them happens the symbol determines the declaration
(`ofFunction_inj_of_readable`). Names of namespaces and types are plain here.
-/

namespace FormCompiler.Symbol

/-- The characters can be told from their written forms: they are those of ASCII without the space,
and no hyphen stands before a capital T, with which its escape would be that of a dot. -/
def Readable : List Char → Prop
  | [] => True
  | c :: cs => (c.toNat < 128 ∧ c ≠ ' ' ∧ (c = '-' → cs.head? ≠ some 'T')) ∧ Readable cs

instance decidableReadable : (cs : List Char) → Decidable (Readable cs)
  | [] => isTrue trivial
  | c :: cs =>
    have := decidableReadable cs
    inferInstanceAs (Decidable
      ((c.toNat < 128 ∧ c ≠ ' ' ∧ (c = '-' → cs.head? ≠ some 'T')) ∧ Readable cs))

/-! ## Reading escapes -/

/-- A character is written with something. -/
theorem encodeChar_ne_nil (c : Char) : encodeChar c ≠ [] := by
  unfold encodeChar
  split
  · exact List.cons_ne_nil _ _
  · split <;> exact List.cons_ne_nil _ _

/-- The character that is written as a dollar sign and these two characters. -/
def unescape : Char → Char → Char
  | 'L', 'T' => '<'
  | 'G', 'T' => '>'
  | 'E', 'Q' => '='
  | 'B', 'G' => '!'
  | 'A', 'T' => '@'
  | 'H', 'S' => '#'
  | 'L', 'P' => '('
  | 'R', 'P' => ')'
  | 'D', 'T' => '.'
  | x, y =>
    let digit (d : Char) : Nat :=
      if d.isDigit then d.toNat - '0'.toNat else d.toNat - 'a'.toNat + 10
    .ofNat (16 * digit x + digit y)

/-- The character can be told from its written form, and only the escape of the dot begins like that
of the hyphen. -/
def isReadBack (c : Char) : Bool :=
  match encodeChar c with
  | [d] => d == c && c != '$'
  | [dollar, x] => dollar == '$' && x == 'D' && c == '-'
  | [dollar, x, y] => dollar == '$' && c == unescape x y && (x != 'D' || c == '.')
  | _ => false

/-- A character of ASCII stands for itself, or has an escape from which it can be read. That of the
hyphen is short, and only that of the dot begins with it. -/
theorem encodeChar_cases {c : Char} (hc : c.toNat < 128) (hspace : c ≠ ' ') :
    encodeChar c = [c] ∧ c ≠ '$' ∨ encodeChar c = ['$', 'D'] ∧ c = '-' ∨
      ∃ x y, encodeChar c = ['$', x, y] ∧ c = unescape x y ∧ (x = 'D' → c = '.') := by
  have hall :
      ((List.range 128).all fun i => Char.ofNat i == ' ' || isReadBack (.ofNat i)) = true := by
    decide +kernel
  have hread := List.all_eq_true.1 hall c.toNat (List.mem_range.2 hc)
  rw [Char.ofNat_toNat, Bool.or_eq_true, beq_iff_eq] at hread
  replace hread := hread.resolve_left hspace
  rw [isReadBack] at hread
  split at hread
  case h_1 d hcode =>
    simp only [Bool.and_eq_true, beq_iff_eq, bne_iff_ne] at hread
    exact .inl ⟨hread.1 ▸ hcode, hread.2⟩
  case h_2 dollar x hcode =>
    simp only [Bool.and_eq_true, beq_iff_eq] at hread
    obtain ⟨⟨rfl, rfl⟩, hhyphen⟩ := hread
    exact .inr (.inl ⟨hcode, hhyphen⟩)
  case h_3 dollar x y hcode =>
    simp only [Bool.and_eq_true, Bool.or_eq_true, beq_iff_eq, bne_iff_ne] at hread
    obtain ⟨⟨rfl, hself⟩, hdot⟩ := hread
    exact .inr (.inr ⟨x, y, hcode, hself, fun hx => hdot.resolve_left (absurd hx)⟩)
  case h_4 => cases hread

/-- The written form of a character of ASCII begins that of another one only if they are a hyphen
and a dot. -/
theorem encodeChar_prefix {c d : Char} (hc : c.toNat < 128) (hd : d.toNat < 128) (hc' : c ≠ ' ')
    (hd' : d ≠ ' ') (h : encodeChar c <+: encodeChar d) : c = d ∨ c = '-' ∧ d = '.' := by
  rcases encodeChar_cases hc hc' with ⟨hcode, hself⟩ | ⟨hcode, hhyphen⟩ |
    ⟨x, y, hcode, hread, -⟩ <;>
  rcases encodeChar_cases hd hd' with ⟨hcode', hself'⟩ | ⟨hcode', hhyphen'⟩ |
    ⟨x', y', hcode', hread', hdot⟩ <;>
  rw [hcode, hcode'] at h <;>
  simp only [List.cons_prefix_cons, List.prefix_nil, List.nil_prefix, and_true, true_and] at h
  -- the character is plain
  · exact .inl h
  · exact absurd h hself
  · exact absurd h hself
  -- it is the hyphen
  · exact absurd h.1.symm hself'
  · exact .inl (hhyphen.trans hhyphen'.symm)
  · exact .inr ⟨hhyphen, hdot h.symm⟩
  -- it has a long escape
  · exact absurd h.1.symm hself'
  · cases h.2
  · rw [h.1, h.2] at hread
    exact .inl (hread.trans hread'.symm)

/-- What stands after the escape of a hyphen begins with a capital T only if the name goes on so. -/
theorem head_encode {cs : List Char} (h : (encode cs).head? = some 'T') : cs.head? = some 'T' := by
  cases cs with
  | nil => cases h
  | cons c cs =>
    rw [encode, List.flatMap_cons] at h
    by_cases hplain : isPlain c = true
    · rwa [encodeChar_of_plain hplain] at h
    · -- an escape begins with a dollar sign, and a space is written as an underscore
      exfalso
      unfold encodeChar at h
      rw [if_neg hplain] at h
      split at h <;> cases h

/-- A readable name is determined by its written form. -/
theorem Readable.encode_inj {cs ds : List Char} (h : Readable cs) (h' : Readable ds) :
    encode cs = encode ds ↔ cs = ds := by
  refine ⟨fun heq => ?_, congrArg encode⟩
  -- a hyphen is no dot, as no capital T comes after it
  have hdot : ∀ {cs ds : List Char}, Readable ('-' :: cs) →
      encode ('-' :: cs) ≠ encode ('.' :: ds) := by
    intro cs ds hcs heq
    have hwritten : ['$', 'D'] ++ encode cs = ['$', 'D'] ++ 'T' :: encode ds := heq
    have hrest : encode cs = 'T' :: encode ds := List.append_cancel_left hwritten
    exact hcs.1.2.2 rfl (head_encode (by rw [hrest]; rfl))
  induction cs generalizing ds with
  | nil =>
    cases ds with
    | nil => rfl
    | cons d ds => exact absurd (List.append_eq_nil_iff.1 heq.symm).1 (encodeChar_ne_nil d)
  | cons c cs ih =>
    cases ds with
    | nil => exact absurd (List.append_eq_nil_iff.1 heq).1 (encodeChar_ne_nil c)
    | cons d ds =>
      obtain ⟨⟨hc, hc', -⟩, hcs⟩ := id h
      obtain ⟨⟨hd, hd', -⟩, hds⟩ := id h'
      obtain rfl : c = d := by
        -- one of the two written forms begins the other one
        have heq' : encodeChar c ++ encode cs = encodeChar d ++ encode ds := heq
        rcases List.append_eq_append_iff.1 heq' with ⟨t, ht, -⟩ | ⟨t, ht, -⟩
        · rcases encodeChar_prefix hc hd hc' hd' ⟨t, ht.symm⟩ with hcd | ⟨rfl, rfl⟩
          · exact hcd
          · exact (hdot h heq).elim
        · rcases encodeChar_prefix hd hc hd' hc' ⟨t, ht.symm⟩ with hdc | ⟨rfl, rfl⟩
          · exact hdc.symm
          · exact (hdot h' heq.symm).elim
      rw [ih hcs hds (List.append_cancel_left heq)]

/-! ## The beginning of a name -/

/-- A name is a stretch of plain characters, and nothing or an escape after it. -/
theorem Readable.encode_start {cs : List Char} (h : Readable cs) :
    encode cs = cs.takeWhile isPlain ++ encode (cs.dropWhile isPlain) ∧
      ∀ c ∈ (encode (cs.dropWhile isPlain)).head?, c = '$' := by
  induction cs with
  | nil => exact ⟨rfl, nofun⟩
  | cons c cs ih =>
    by_cases hplain : isPlain c = true
    · rw [List.takeWhile_cons_of_pos hplain, List.dropWhile_cons_of_pos hplain]
      obtain ⟨heq, hhead⟩ := ih h.2
      refine ⟨?_, hhead⟩
      rw [encode, List.flatMap_cons, encodeChar_of_plain hplain, ← encode, heq]
      rfl
    · rw [List.takeWhile_cons_of_neg hplain, List.dropWhile_cons_of_neg hplain]
      refine ⟨rfl, fun d hd => ?_⟩
      rw [encode, List.flatMap_cons] at hd
      unfold encodeChar at hd
      rw [if_neg hplain] at hd
      split at hd
      case h_1 => exact absurd rfl h.1.2.1
      all_goals exact (Option.some_inj.1 hd).symm

/-- The plain characters at the beginning of a name have no dollar sign among them. -/
theorem dollar_not_mem_takeWhile (cs : List Char) : '$' ∉ cs.takeWhile isPlain := fun h =>
  absurd (List.all_eq_true.1 List.all_takeWhile _ h) (by decide)

/-! ## Doubled dollar signs -/

/-- No dollar sign is followed by another one, and none ends the text. -/
def Single : List Char → Prop
  | [] => True
  | c :: cs => (c = '$' → ∃ d ∈ cs.head?, d ≠ '$') ∧ Single cs

namespace Single

variable {cs ds : List Char}

/-- Texts may stand one after the other. -/
theorem append (h : Single cs) (h' : Single ds) : Single (cs ++ ds) := by
  induction cs with
  | nil => exact h'
  | cons c cs ih =>
    refine ⟨fun hc => ?_, ih h.2⟩
    obtain ⟨d, hd, hne⟩ := h.1 hc
    obtain ⟨rest, rfl⟩ := List.head?_eq_some_iff.1 hd
    exact ⟨d, rfl, hne⟩

/-- An escaped text has no doubled dollar signs. -/
theorem of_escaped (h : Escaped cs) : Single cs := by
  induction cs with
  | nil => trivial
  | cons c cs ih =>
    refine ⟨fun hc => ?_, ih h.2⟩
    obtain ⟨d, hd, -, hne⟩ := h.1 hc
    exact ⟨d, hd, hne⟩

/-- Two dollar signs do not stand side by side. -/
theorem not_double (cs ds : List Char) : ¬ Single (cs ++ '$' :: '$' :: ds) := by
  induction cs with
  | nil =>
    rintro ⟨hfirst, -⟩
    obtain ⟨d, hd, hne⟩ := hfirst rfl
    exact hne (Option.some_inj.1 hd).symm
  | cons c cs ih => exact fun h => ih h.2

/-- The types of parameters, with their separators. -/
theorem params (first : String) (rest : List String) :
    Single (encode first.toList ++
      rest.flatMap fun param => ['$', 'C'] ++ encode param.toList) := by
  refine (of_escaped (escaped_encode _)).append ?_
  induction rest with
  | nil => trivial
  | cons param rest ih =>
    rw [List.flatMap_cons]
    have hseparator : Single (['$', 'C'] ++ encode param.toList) :=
      ⟨fun _ => ⟨'C', rfl, by decide⟩, fun h => absurd h (by decide),
        of_escaped (escaped_encode _)⟩
    exact hseparator.append ih

end Single

/-! ## Declarations with readable names -/

/-- A function with a readable name, in namespaces with plain names and with parameters of types
with plain names. If its name begins with an escape, it has parameters. -/
structure ReadableFunction (path : List String) (name : String) (params : List String) : Prop where
  path : ∀ segment ∈ path, PlainName segment
  nonempty : name.toList ≠ []
  takes : name.toList.takeWhile isPlain = [] → params ≠ []
  name : Readable name.toList
  params : ∀ param ∈ params, TypeText param

/-- No namespace of the path is named as the plain characters at the beginning of the name, unless
there are no other characters in the name. -/
def Outside (name : String) (path : List String) : Prop :=
  ∀ segment ∈ path, segment.toList = name.toList.takeWhile isPlain → PlainName name

instance {name : String} {path : List String} : Decidable (Outside name path) :=
  inferInstanceAs (Decidable (∀ segment ∈ path,
    segment.toList = name.toList.takeWhile isPlain → PlainName name))

section

variable {path path' : List String} {name name' : String} {params params' : List String}

/-- The parameters are nothing, or two dollar signs and their types. -/
theorem encodeParams_cases (params : List String) :
    params = [] ∧ encodeParams params = [] ∨
      ∃ t, encodeParams params = '$' :: '$' :: t ∧ Single t := by
  cases params with
  | nil => exact .inl ⟨rfl, rfl⟩
  | cons first rest => exact .inr ⟨_, encodeParams_cons first rest, .params first rest⟩

/-- What stands in a namespace and begins with a dollar sign is a function with parameters in this
very namespace, so two dollar signs stand somewhere after its name. -/
theorem ReadableFunction.of_head (h : ReadableFunction path name params) {rest : List Char}
    (hrest : encodePath path ++ encode name.toList ++ encodeParams params = '$' :: rest) :
    path = [] ∧ ∃ t, encode name.toList ++ '$' :: '$' :: t = '$' :: rest := by
  obtain ⟨hstart, -⟩ := h.name.encode_start
  cases path with
  | nil =>
    refine ⟨rfl, ?_⟩
    change encode name.toList ++ encodeParams params = '$' :: rest at hrest
    have hnone : name.toList.takeWhile isPlain = [] := by
      cases htake : name.toList.takeWhile isPlain with
      | nil => rfl
      | cons c cs =>
        rw [hstart, htake] at hrest
        have hdollar := dollar_not_mem_takeWhile name.toList
        rw [htake, show c = '$' from (List.cons.inj hrest).1] at hdollar
        exact absurd List.mem_cons_self hdollar
    rcases encodeParams_cases params with ⟨hempty, -⟩ | ⟨t, hparams, -⟩
    · exact absurd hempty (h.takes hnone)
    · exact ⟨t, hparams ▸ hrest⟩
  | cons segment path =>
    rw [written_cons, (h.path segment List.mem_cons_self).encode_eq] at hrest
    have hsegment := h.path segment List.mem_cons_self
    obtain ⟨c, cs, hcs⟩ := List.exists_cons_of_ne_nil hsegment.nonempty
    rw [hcs] at hrest
    have hdollar := hsegment.dollar_not_mem
    rw [hcs, show c = '$' from (List.cons.inj hrest).1] at hdollar
    exact absurd List.mem_cons_self hdollar

/-- A function in the root is not written like one in a namespace that is not named as the beginning
of its name. -/
theorem ReadableFunction.root_ne_namespace {segment : String}
    (h : ReadableFunction [] name params) (h' : ReadableFunction path' name' params')
    (hsegment : PlainName segment)
    (houtside : segment.toList = name.toList.takeWhile isPlain → PlainName name) :
    encode name.toList ++ encodeParams params ≠ encode segment.toList ++
      ('$' :: (encodePath path' ++ encode name'.toList ++ encodeParams params')) := by
  intro heq
  obtain ⟨hstart, hhead⟩ := h.name.encode_start
  rw [hstart, List.append_assoc, hsegment.encode_eq] at heq
  have hhead' : ∀ c ∈ (encode (name.toList.dropWhile isPlain) ++ encodeParams params).head?,
      c = '$' := by
    cases hdrop : encode (name.toList.dropWhile isPlain) with
    | nil => exact head_encodeParams params
    | cons c cs =>
      rw [hdrop] at hhead
      exact hhead
  obtain ⟨hword, hrest⟩ := append_inj_of_ends (dollar_not_mem_takeWhile _)
    hsegment.dollar_not_mem hhead' (by rintro d ⟨⟩; rfl) heq
  -- the namespace is named as the whole function, so its dollar sign is the first one of two
  have hplain := houtside hword.symm
  have hnone : name.toList.dropWhile isPlain = [] :=
    List.dropWhile_eq_nil_iff.2 hplain.chars
  rw [hnone] at hrest
  rcases encodeParams_cases params with ⟨-, hparams⟩ | ⟨t, hparams, hsingle⟩
  · rw [hparams] at hrest
    cases hrest
  · rw [hparams] at hrest
    have hinner := (List.cons.inj hrest).2.symm
    obtain ⟨-, t', ht'⟩ := h'.of_head hinner
    -- the second one begins the name, which has no two dollar signs side by side
    cases t with
    | nil =>
      have hlength := congrArg List.length ht'
      rw [List.length_append, List.length_cons, List.length_cons, List.length_singleton] at hlength
      omega
    | cons c cs =>
      by_cases hc : c = '$'
      · subst hc
        cases hname : encode name'.toList with
        | nil =>
          obtain ⟨d, ds, hds⟩ := List.exists_cons_of_ne_nil h'.nonempty
          rw [hds] at hname
          exact encodeChar_ne_nil d (List.append_eq_nil_iff.1 hname).1
        | cons d ds =>
          have hescaped := escaped_encode name'.toList
          rw [hname] at ht' hescaped
          obtain ⟨rfl, htail⟩ := List.cons.inj ht'
          obtain ⟨e, he, -, hne⟩ := hescaped.1 rfl
          obtain ⟨es, rfl⟩ := List.head?_eq_some_iff.1 he
          exact hne (List.cons.inj htail).1
      · have hsingle' : Single ('$' :: c :: cs) := ⟨fun _ => ⟨c, rfl, hc⟩, hsingle⟩
        rw [← ht'] at hsingle'
        exact Single.not_double _ _ hsingle'

/-- The path, the name and the parameters can be read off what follows the mark of a symbol. -/
theorem ReadableFunction.written_inj (h : ReadableFunction path name params)
    (h' : ReadableFunction path' name' params') (houtside : Outside name path')
    (houtside' : Outside name' path)
    (heq : encodePath path ++ encode name.toList ++ encodeParams params =
      encodePath path' ++ encode name'.toList ++ encodeParams params') :
    path = path' ∧ name = name' ∧ encodeParams params = encodeParams params' := by
  -- the paths are compared from the outside in, and the name only once both have ended
  induction path generalizing path' with
  | nil =>
    cases path' with
    | nil =>
      change encode name.toList ++ _ = encode name'.toList ++ _ at heq
      have hmarks : ∀ params,
          encodeParams params = [] ∨ ∃ t, encodeParams params = '$' :: '$' :: t :=
        fun params => (encodeParams_cases params).imp (·.2) fun ⟨t, ht, _⟩ => ⟨t, ht⟩
      obtain ⟨hname, hparams⟩ := append_inj_of_separator (.inr rfl) (escaped_encode _)
        (escaped_encode _) (hmarks params) (hmarks params') heq
      exact ⟨rfl, String.toList_inj.1 ((h.name.encode_inj h'.name).1 hname), hparams⟩
    | cons segment path' =>
      rw [written_cons] at heq
      have hinner : ReadableFunction path' name' params' :=
        ⟨fun s hs => h'.path s (List.mem_cons_of_mem _ hs), h'.nonempty, h'.takes, h'.name,
          h'.params⟩
      exact (h.root_ne_namespace hinner (h'.path segment List.mem_cons_self)
        (houtside segment List.mem_cons_self) heq).elim
  | cons segment path ih =>
    have hsegment := h.path segment List.mem_cons_self
    have hinner : ReadableFunction path name params :=
      ⟨fun s hs => h.path s (List.mem_cons_of_mem _ hs), h.nonempty, h.takes, h.name, h.params⟩
    rw [written_cons] at heq
    cases path' with
    | nil =>
      exact (h'.root_ne_namespace hinner hsegment (houtside' segment List.mem_cons_self)
        heq.symm).elim
    | cons segment' path' =>
      have hsegment' := h'.path segment' List.mem_cons_self
      have hinner' : ReadableFunction path' name' params' :=
        ⟨fun s hs => h'.path s (List.mem_cons_of_mem _ hs), h'.nonempty, h'.takes, h'.name,
          h'.params⟩
      rw [written_cons, hsegment.encode_eq, hsegment'.encode_eq] at heq
      obtain ⟨hword, hafter⟩ := append_inj_of_ends hsegment.dollar_not_mem
        hsegment'.dollar_not_mem (by rintro d ⟨⟩; rfl) (by rintro d ⟨⟩; rfl) heq
      obtain ⟨rfl, hname, hparams⟩ := ih hinner hinner'
        (fun s hs => houtside s (List.mem_cons_of_mem _ hs))
        (fun s hs => houtside' s (List.mem_cons_of_mem _ hs)) (List.cons.inj hafter).2
      exact ⟨by rw [String.toList_inj.1 hword], hname, hparams⟩

/-- Functions with readable names have one symbol only if they stand in one namespace, have one name
and parameters of the same printed types. -/
theorem ofFunction_inj_of_readable (h : ReadableFunction path name params)
    (h' : ReadableFunction path' name' params') (houtside : Outside name path')
    (houtside' : Outside name' path) :
    ofFunction path name params = ofFunction path' name' params' ↔
      path = path' ∧ name = name' ∧ params = params' := by
  refine ⟨fun heq => ?_, by rintro ⟨rfl, rfl, rfl⟩; rfl⟩
  have hchars := String.ofList_injective heq
  rw [nameChars, nameChars, List.append_assoc mark.toList, List.append_assoc mark.toList,
    List.append_assoc mark.toList, List.append_assoc mark.toList] at hchars
  obtain ⟨hpath, hname, hparams⟩ :=
    h.written_inj h' houtside houtside' (List.append_cancel_left hchars)
  exact ⟨hpath, hname, (encode_params_inj h.params h'.params).1 (encodeParams_inj.1 hparams)⟩

end

end FormCompiler.Symbol
