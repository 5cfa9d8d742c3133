import FormCompiler.Proofs.Lower.Growth
import FormCompiler.Proofs.SymbolSeparation

/-!
# What a Symbol Stands For

Where names are plain, a symbol stands for one declaration: its path, its name and the printed types
of its parameters are determined by it (`declaration_of_symbol`).

The end of a type in a symbol is known from the separators. What is written inside it can be decoded
from left to right: only a printed pointer holds a space, always in the same place, and the one
hyphen in a printed type is not followed by a capital letter, so its escape is not mistaken for that
of a dot (`decodeType_encode`).

* `TypeText`: the texts of types, which are those that a pool with plain names prints
  (`typeText_format`).
* `PlainDeclaration`: a declaration of plain names.
-/

namespace FormCompiler.Symbol

/-- The text is that of a type with plain names. -/
inductive TypeText : String → Prop
  | primitive (p : Primitive) : TypeText p.name
  | pointer {pointee : String} (inner : TypeText pointee) : TypeText ("(p " ++ pointee ++ ")")
  | named {path : List String} {name : String} (segments : ∀ segment ∈ path, PlainName segment)
      (plain : PlainName name) : TypeText (String.join (path.map (· ++ ".")) ++ name)

/-- The names of a struct or enum type are plain. -/
def PlainType : SourceType → Prop
  | .primitive _ | .pointer _ => True
  | .struct name path | .enum name path => (∀ segment ∈ path, PlainName segment) ∧ PlainName name

/-- What a pool of types with plain names prints is the text of a type, as long as no id of the pool
is the one that stands for no type. -/
theorem typeText_format {p : Pool} (hp : p.Sound) (hplain : ∀ type ∈ p.types, PlainType type)
    (hsize : p.size ≤ TypeId.none.index) {t : TypeId} (ht : t.index < p.size) :
    TypeText (p.format t) := by
  have hbelow : ∀ (bound : Nat) (t : TypeId), t.index < bound → t.index < p.size →
      TypeText (p.formatBelow bound t) := by
    intro bound
    induction bound with
    | zero => exact fun t hbound _ => absurd hbound (Nat.not_lt_zero _)
    | succ bound ih =>
      intro t hbound ht
      have hsome : t.isNone = false := by
        refine beq_false_of_ne fun hnone => ?_
        rw [hnone] at ht
        exact absurd hsize (Nat.not_le_of_lt ht)
      have hfound := Pool.getElem?_type ht
      have hnames := hplain _ (Array.mem_of_getElem? hfound)
      rw [Pool.formatBelow, hsome, if_neg Bool.false_ne_true]
      generalize p.type t = type at hfound hnames
      cases type with
      | primitive q => exact .primitive q
      | pointer pointee =>
        -- a pointee has a smaller id than its pointer
        have hlt := hp.pointees _ _ hfound
        exact .pointer (ih pointee (Nat.lt_of_lt_of_le hlt (Nat.le_of_lt_succ hbound))
          (Nat.lt_trans hlt ht))
      | struct name path => exact .named hnames.1 hnames.2
      | enum name path => exact .named hnames.1 hnames.2
  exact hbelow _ t (Nat.lt_succ_self _) ht

/-- The text of a type from its written form. -/
def decodeType : List Char → List Char
  | '$' :: 'L' :: 'P' :: 'p' :: '_' :: cs => '(' :: 'p' :: ' ' :: decodeType cs
  | '$' :: 'R' :: 'P' :: cs => ')' :: decodeType cs
  | '$' :: 'D' :: 'T' :: cs => '.' :: decodeType cs
  | '$' :: 'D' :: cs => '-' :: decodeType cs
  | c :: cs => c :: decodeType cs
  | [] => []

/-- A character that begins no escape stands for itself. -/
theorem decodeType_cons {c : Char} (hc : c ≠ '$') (rest : List Char) :
    decodeType (c :: rest) = c :: decodeType rest := by
  rw [decodeType] <;> simp [hc]

/-- Texts are written one after the other. -/
theorem encode_append (cs ds : List Char) : encode (cs ++ ds) = encode cs ++ encode ds :=
  List.flatMap_append

/-- A plain name is decoded to itself. -/
theorem PlainName.decodeType_encode {name : String} (h : PlainName name) (rest : List Char) :
    decodeType (encode name.toList ++ rest) = name.toList ++ decodeType rest := by
  rw [h.encode_eq]
  have hdollar := h.dollar_not_mem
  generalize name.toList = cs at hdollar
  induction cs with
  | nil => rfl
  | cons c cs ih =>
    rw [List.mem_cons, not_or] at hdollar
    rw [List.cons_append, decodeType_cons (Ne.symm hdollar.1), ih hdollar.2, List.cons_append]

/-- The names before the last one of a declared type are decoded to themselves. -/
theorem decodeType_encode_path {path : List String} (h : ∀ segment ∈ path, PlainName segment)
    (rest : List Char) :
    decodeType (encode (String.join (path.map (· ++ "."))).toList ++ rest) =
      (String.join (path.map (· ++ "."))).toList ++ decodeType rest := by
  induction path with
  | nil => rfl
  | cons segment path ih =>
    have hwritten : encode (String.join ((segment :: path).map (· ++ "."))).toList ++ rest =
        encode segment.toList ++ ('$' :: 'D' :: 'T' ::
          (encode (String.join (path.map (· ++ "."))).toList ++ rest)) := by
      rw [List.map_cons, String.join_cons, String.toList_append, String.toList_append,
        encode_append, encode_append, List.append_assoc, List.append_assoc]
      rfl
    rw [hwritten, (h segment List.mem_cons_self).decodeType_encode, decodeType,
      ih fun s hs => h s (List.mem_cons_of_mem _ hs), List.map_cons, String.join_cons,
      String.toList_append, String.toList_append, List.append_assoc, List.append_assoc]
    rfl

/-- The text of a type can be decoded from its written form, whatever follows. -/
theorem decodeType_encode {text : String} (h : TypeText text) (rest : List Char) :
    decodeType (encode text.toList ++ rest) = text.toList ++ decodeType rest := by
  induction h generalizing rest with
  | primitive p => cases p <;> rfl
  | @pointer pointee inner ih =>
    have hwritten : encode ("(p " ++ pointee ++ ")").toList ++ rest =
        '$' :: 'L' :: 'P' :: 'p' :: '_' ::
          (encode pointee.toList ++ ('$' :: 'R' :: 'P' :: rest)) := by
      rw [String.toList_append, String.toList_append, encode_append, encode_append,
        List.append_assoc, List.append_assoc]
      rfl
    rw [hwritten, decodeType, ih, decodeType, String.toList_append, String.toList_append,
      List.append_assoc, List.append_assoc]
    rfl
  | @named path name segments plain =>
    rw [String.toList_append, encode_append, List.append_assoc, List.append_assoc,
      decodeType_encode_path segments, plain.decodeType_encode]

/-- The texts of types are told apart by their written forms. -/
theorem TypeText.encode_inj {text text' : String} (h : TypeText text) (h' : TypeText text') :
    encode text.toList = encode text'.toList ↔ text = text' := by
  refine ⟨fun heq => ?_, fun heq => heq ▸ rfl⟩
  have hdecoded := decodeType_encode h []
  rw [heq, decodeType_encode h', List.append_cancel_right_eq] at hdecoded
  exact (String.toList_inj.1 hdecoded).symm

/-- So are lists of them. -/
theorem encode_params_inj {params params' : List String} (h : ∀ text ∈ params, TypeText text)
    (h' : ∀ text ∈ params', TypeText text) :
    params.map (encode ·.toList) = params'.map (encode ·.toList) ↔ params = params' := by
  refine ⟨fun heq => ?_, fun heq => heq ▸ rfl⟩
  induction params generalizing params' with
  | nil => exact (List.map_eq_nil_iff.1 heq.symm).symm
  | cons text params ih =>
    cases params' with
    | nil => cases heq
    | cons text' params' =>
      obtain ⟨hfirst, hrest⟩ := List.cons.inj heq
      rw [((h _ List.mem_cons_self).encode_inj (h' _ List.mem_cons_self)).1 hfirst,
        ih (fun t ht => h t (List.mem_cons_of_mem _ ht))
          (fun t ht => h' t (List.mem_cons_of_mem _ ht)) hrest]

/-- A declaration of plain names, with parameters of types with plain names. -/
structure PlainDeclaration (path : List String) (name : String) (params : List String) : Prop where
  path : ∀ segment ∈ path, PlainName segment
  name : PlainName name
  params : ∀ param ∈ params, TypeText param

/-- The symbol of a function with plain names determines its path, its name and the types of its
parameters; without parameters it is the symbol of the name alone; and the name of a struct type
determines the path and the name of the struct. -/
theorem declaration_of_symbol {path path' : List String} {name name' : String}
    {params params' : List String} (h : PlainDeclaration path name params)
    (h' : PlainDeclaration path' name' params') :
    (ofFunction path name params = ofFunction path' name' params' ↔
      path = path' ∧ name = name' ∧ params = params') ∧
    ofFunction path name [] = ofName path name ∧
    (ofStruct path name = ofStruct path' name' ↔ path = path' ∧ name = name') := by
  refine ⟨?_, ?_, ofStruct_inj h.path h.name h'.path h'.name⟩
  · rw [ofFunction_inj h.path h.name h'.path h'.name, encode_params_inj h.params h'.params]
  · rw [ofFunction, encodeParams, List.append_nil, ofName]

/-- Names that look like escapes and separators: the first type is written
`$LPp_$LPp_LP$DTC$RP$RP`. -/
theorem declaration_of_symbol_escapes :
    PlainDeclaration ["D"] "C" ["(p (p LP.C))", "long-double"] ∧
      PlainDeclaration ["D"] "C" ["(p (p LP))", "C", "long-double"] ∧
      ofFunction ["D"] "C" ["(p (p LP.C))", "long-double"] ≠
        ofFunction ["D"] "C" ["(p (p LP))", "C", "long-double"] ∧
      ofFunction ["D"] "C" [] = ofName ["D"] "C" := by
  have hC : PlainName "C" := ⟨by decide, List.all_eq_true.1 (by decide)⟩
  have hLP : PlainName "LP" := ⟨by decide, List.all_eq_true.1 (by decide)⟩
  have hpath : ∀ segment ∈ ["D"], PlainName segment :=
    List.forall_mem_singleton.2 ⟨by decide, List.all_eq_true.1 (by decide)⟩
  have hdouble : ∀ text ∈ ["long-double"], TypeText text :=
    List.forall_mem_singleton.2 (.primitive .longDouble)
  have hinner : ∀ segment ∈ ["LP"], PlainName segment := List.forall_mem_singleton.2 hLP
  have h : PlainDeclaration ["D"] "C" ["(p (p LP.C))", "long-double"] :=
    ⟨hpath, hC, List.forall_mem_cons.2 ⟨.pointer (.pointer (.named hinner hC)), hdouble⟩⟩
  have h' : PlainDeclaration ["D"] "C" ["(p (p LP))", "C", "long-double"] :=
    ⟨hpath, hC, List.forall_mem_cons.2 ⟨.pointer (.pointer (@TypeText.named [] _ nofun hLP)),
      List.forall_mem_cons.2 ⟨@TypeText.named [] _ nofun hC, hdouble⟩⟩⟩
  have hsymbols := declaration_of_symbol h h'
  exact ⟨h, h', fun heq => absurd (hsymbols.1.1 heq).2.2 (by decide), hsymbols.2.1⟩

end FormCompiler.Symbol
