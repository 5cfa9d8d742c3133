import FormCompiler.Proofs.InsertionBlocks

/-!
# Symbols and Declarations

A symbol is taken in the module exactly if a function of some namespace has it, and a backend name
of a struct exactly if a struct of some namespace has it (`Accounted`). So what the module refuses
as declared already can be told from the declarations of the namespaces.

* `FunctionTaken`, `StructTaken`: a function or struct of some namespace has the symbol.
* `Change.accounted`: every change of a context keeps the account.
-/

namespace FormCompiler

/-- A type of a sound pool keeps its printable form. -/
theorem Pool.Sound.format {p p' : Pool} (hp : p.Sound) (h : p.Extends p') {t : TypeId}
    (ht : t.index < p.types.size) : p'.format t = p.format t := by
  suffices hbelow : ∀ (bound : Nat) (t : TypeId), t.index < p.types.size →
      p'.formatBelow bound t = p.formatBelow bound t from hbelow _ t ht
  intro bound
  induction bound with
  | zero => exact fun _ _ => rfl
  | succ bound ih =>
    intro t ht
    rw [formatBelow, formatBelow, h.type ht]
    cases htype : p.type t with
    | primitive q => rfl
    | struct name path => rfl
    | enum name path => rfl
    | pointer pointee =>
      have hfound : p.types[t.index]? = some (.pointer pointee) := by
        rw [← htype, Pool.type, Array.getD_eq_getD_getElem?, Array.getElem?_eq_getElem ht,
          Option.getD_some]
      dsimp only
      rw [ih pointee (Nat.lt_trans (hp.pointees _ _ hfound) ht)]

namespace Ir.Module

variable {m m' : Module}

/-- A struct is found exactly if there is one of the name. -/
theorem isSome_lookupStruct? (m : Module) (name : String) :
    (m.lookupStruct? name).isSome = m.types.any (isStructNamed name) := by
  rw [lookupStruct?, Option.isSome_map, Array.findIdx?_isSome]

/-- A function is found exactly if there is one of the symbol. -/
theorem isSome_lookupFunction? (m : Module) (symbol : String) :
    (m.lookupFunction? symbol).isSome = m.functions.any (·.symbol == symbol) := by
  rw [lookupFunction?, Option.isSome_map, Array.findIdx?_isSome]

/-- The second module has the named structs and the functions of the first one. -/
structure SameNames (m m' : Module) : Prop where
  structs : ∀ name, m'.lookupStruct? name = m.lookupStruct? name
  functions : ∀ symbol, m'.lookupFunction? symbol = m.lookupFunction? symbol

/-- Looking up types and values declares nothing. -/
theorem Still.sameNames (h : Still m m') : SameNames m m' where
  structs := h.types.lookupStruct?
  functions symbol := by rw [lookupFunction?, h.functions, lookupFunction?]

/-- Functions that are not declared anew keep their symbols. -/
theorem Extends.lookupFunction? (h : m.Extends m') (hsize : m'.functions.size = m.functions.size)
    (symbol : String) : m'.lookupFunction? symbol = m.lookupFunction? symbol := by
  have hsymbols : m'.functions.map (·.symbol) = m.functions.map (·.symbol) := by
    refine Array.ext (by simpa using hsize) fun i hi hi' => ?_
    rw [Array.size_map] at hi hi'
    have hsymbol := (h.function ⟨i⟩ hi').symbol
    rw [Module.function, Module.function, Array.getD_eq_getD_getElem?, Array.getD_eq_getD_getElem?,
      Array.getElem?_eq_getElem hi, Array.getElem?_eq_getElem hi'] at hsymbol
    simpa using hsymbol
  have hlookup : ∀ m : Module, m.lookupFunction? symbol =
      ((m.functions.map (·.symbol)).findIdx? (· == symbol)).map FuncId.mk := fun m => by
    rw [Array.findIdx?_map]
    rfl
  rw [hlookup, hsymbols, ← hlookup]

/-- A declared function is found besides the others. -/
theorem Declared.isSome_lookupFunction? {symbol : String} {tys : List TyId} {ret : TyId}
    {linkage : Linkage} {func : FuncId} (h : Declared symbol tys ret linkage func m m')
    (other : String) : (m'.lookupFunction? other).isSome = true ↔
      (m.lookupFunction? other).isSome = true ∨ symbol = other := by
  obtain ⟨params, hfunctions, -⟩ := h.functions
  rw [Module.isSome_lookupFunction?, Module.isSome_lookupFunction?, hfunctions, Array.any_push,
    Bool.or_eq_true, beq_iff_eq]

/-- The code of a body declares nothing. -/
theorem Bodied.sameNames {func : FuncId} (h : Bodied func m m') : SameNames m m' := by
  obtain ⟨entry, m₂, -, hgrows, hm'⟩ := h.grows
  have hsame : SameNames m m₂ :=
    ⟨hgrows.named.lookupStruct?, hgrows.extended.lookupFunction? hgrows.functions⟩
  rcases hm' with ⟨rfl, -⟩ | rfl
  · exact hsame
  · have hfinished := finishFunction_finished func m₂
    refine ⟨fun name => ?_, fun symbol => ?_⟩
    · rw [lookupStruct?, hfinished.types, ← lookupStruct?, hsame.structs]
    · rw [lookupFunction?, hfinished.functions, ← lookupFunction?, hsame.functions]

end Ir.Module

namespace Context

variable {c c' : Context} {P Q : Namespace → Prop} {q : Prop}

/-! ## Namespaces -/

/-- Some namespace has the property. -/
def Somewhere (c : Context) (P : Namespace → Prop) : Prop :=
  ∃ id : NamespaceId, id.index < c.namespaces.size ∧ P (c.namespaceOf id)

/-- The namespaces decide. -/
theorem somewhere_congr (h : c'.namespaces = c.namespaces)
    (hPQ : ∀ id : NamespaceId, id.index < c.namespaces.size →
      (P (c.namespaceOf id) ↔ Q (c.namespaceOf id))) :
    c'.Somewhere Q ↔ c.Somewhere P := by
  unfold Somewhere namespaceOf
  rw [h]
  exact exists_congr fun id => and_congr_right fun hid => (hPQ id hid).symm

/-- The current namespace was replaced by one that has the property as well or for a further
reason. -/
theorem somewhere_withCurrent {ns : Namespace} (hlt : c.currentId.index < c.namespaces.size)
    (hns : P ns ↔ P c.current ∨ q) :
    (c.withCurrent ns).Somewhere P ↔ c.Somewhere P ∨ q := by
  constructor
  · rintro ⟨id, hid, hP⟩
    rw [size_withCurrent] at hid
    rw [namespaceOf_withCurrent c ns id hid] at hP
    split at hP
    next => exact (hns.1 hP).imp_left fun hP => ⟨c.currentId, hlt, hP⟩
    next => exact .inl ⟨id, hid, hP⟩
  · intro h
    -- the current namespace has it, or another one that is the same
    by_cases hP : P ns
    · refine ⟨c.currentId, by rwa [size_withCurrent], ?_⟩
      rwa [namespaceOf_withCurrent c ns _ hlt, if_pos rfl]
    · rw [hns, not_or] at hP
      obtain ⟨id, hid, hid'⟩ := h.resolve_right hP.2
      refine ⟨id, by rwa [size_withCurrent], ?_⟩
      rw [namespaceOf_withCurrent c ns id hid, if_neg]
      · exact hid'
      · rintro rfl
        exact hP.1 hid'

/-- A new namespace has no declarations. -/
theorem Valid.somewhere_withChild (hc : c.Valid) (name : String)
    (hnew : ∀ parent chain, ¬ P (.child name parent chain))
    (hadd : P (c.current.addChild name ⟨c.namespaces.size⟩) ↔ P c.current) :
    (c.withChild name).Somewhere P ↔ c.Somewhere P := by
  have hsize := size_withChild c name
  constructor
  · rintro ⟨id, hid, hP⟩
    rw [hc.namespaceOf_withChild] at hP
    split at hP
    next => exact absurd hP (hnew _ _)
    next hne =>
      split at hP
      next => exact ⟨c.currentId, hc.currentId_lt, hadd.1 hP⟩
      next => exact ⟨id, by omega, hP⟩
  · rintro ⟨id, hid, hP⟩
    refine ⟨id, by omega, ?_⟩
    rw [hc.namespaceOf_withChild, if_neg (Nat.ne_of_lt hid)]
    split
    next heq =>
      subst heq
      exact hadd.2 hP
    next => exact hP

/-- Entering a namespace registers nothing, also if it is new. -/
theorem Valid.somewhere_enter (hc : c.Valid) (name : String)
    (hnew : ∀ parent chain, ¬ P (.child name parent chain))
    (hadd : ∀ id, P (c.current.addChild name id) ↔ P c.current) :
    (enter name c).2.Somewhere P ↔ c.Somewhere P := by
  unfold enter
  split
  next => exact Iff.rfl
  next => exact hc.somewhere_withChild name hnew (hadd _)

/-! ## Symbols -/

/-- The namespace has a function with the symbol. -/
def HasFunctionSymbol (c : Context) (symbol : String) (ns : Namespace) : Prop :=
  ∃ f ∈ ns.functions,
    Symbol.ofFunction ns.path f.name (f.paramTypes.map c.typeName) = symbol

/-- The namespace has a struct with the backend name. -/
def HasStructSymbol (symbol : String) (ns : Namespace) : Prop :=
  ∃ s ∈ ns.structs, Symbol.ofStruct ns.path s.1 = symbol

/-- A function of some namespace has the symbol. -/
def FunctionTaken (c : Context) (symbol : String) : Prop :=
  c.Somewhere (c.HasFunctionSymbol symbol)

/-- A struct of some namespace has the backend name. -/
def StructTaken (c : Context) (symbol : String) : Prop := c.Somewhere (HasStructSymbol symbol)

/-- The module has the functions and the named structs of the namespaces, and no others. -/
structure Accounted (c : Context) : Prop where
  functions : ∀ symbol, (c.ir.lookupFunction? symbol).isSome = true ↔ c.FunctionTaken symbol
  structs : ∀ symbol, (c.ir.lookupStruct? symbol).isSome = true ↔ c.StructTaken symbol

/-- Functions keep their symbols, as the types of parameters keep their printable forms. -/
theorem Valid.functionTaken_iff (hc : c.Valid) (h : c'.namespaces = c.namespaces)
    (hpool : c.pool.Extends c'.pool) (symbol : String) :
    c'.FunctionTaken symbol ↔ c.FunctionTaken symbol := by
  refine somewhere_congr h fun id hid => exists_congr fun f => and_congr_right fun hf => ?_
  have hparams : f.paramTypes.map c'.typeName = f.paramTypes.map c.typeName := by
    refine List.map_congr_left fun t ht => hc.pool.format hpool ?_
    exact (hc.functions id hid f hf).index_lt ht
  rw [hparams]

/-- Structs keep their backend names. -/
theorem structTaken_iff (h : c'.namespaces = c.namespaces) (symbol : String) :
    c'.StructTaken symbol ↔ c.StructTaken symbol :=
  somewhere_congr h fun _ _ => Iff.rfl

namespace Accounted

/-- What declares nothing keeps the account. -/
theorem of_sameNames (h : c.Accounted) (hc : c.Valid) (hnames : c.ir.SameNames c'.ir)
    (hnamespaces : c'.namespaces = c.namespaces) (hpool : c.pool.Extends c'.pool) :
    c'.Accounted where
  functions symbol := by
    rw [hnames.functions, h.functions, hc.functionTaken_iff hnamespaces hpool]
  structs symbol := by
    rw [hnames.structs, h.structs, structTaken_iff hnamespaces]

/-- What declares in the current namespace and in the module alike keeps the account. -/
theorem declare {ns : Namespace} (newFunction newStruct : String → Prop) (h : c.Accounted)
    (hc : c.Valid) (hnamespaces : c'.namespaces = c.namespaces) (hentered : c'.entered = c.entered)
    (hpool : c.pool.Extends c'.pool)
    (hfunctions : ∀ symbol, (c'.ir.lookupFunction? symbol).isSome = true ↔
      (c.ir.lookupFunction? symbol).isSome = true ∨ newFunction symbol)
    (hstructs : ∀ symbol, (c'.ir.lookupStruct? symbol).isSome = true ↔
      (c.ir.lookupStruct? symbol).isSome = true ∨ newStruct symbol)
    (hnsFunctions : ∀ symbol, c'.HasFunctionSymbol symbol ns ↔
      c'.HasFunctionSymbol symbol c.current ∨ newFunction symbol)
    (hnsStructs : ∀ symbol, HasStructSymbol symbol ns ↔
      HasStructSymbol symbol c.current ∨ newStruct symbol) :
    (c'.withCurrent ns).Accounted := by
  have hcurrentId : c'.currentId = c.currentId := by
    rw [Context.currentId, hentered, Context.currentId]
  have hcurrent : c'.current = c.current := by
    rw [Context.current, namespaceOf, hcurrentId, hnamespaces]
    rfl
  have hlt : c'.currentId.index < c'.namespaces.size := by
    rw [hcurrentId, hnamespaces]
    exact hc.currentId_lt
  constructor
  case functions =>
    intro symbol
    change (c'.ir.lookupFunction? symbol).isSome = true ↔
      (c'.withCurrent ns).Somewhere (c'.HasFunctionSymbol symbol)
    rw [hfunctions, h.functions, somewhere_withCurrent hlt (hcurrent ▸ hnsFunctions symbol),
      ← FunctionTaken, hc.functionTaken_iff hnamespaces hpool]
  case structs =>
    intro symbol
    change (c'.ir.lookupStruct? symbol).isSome = true ↔ _
    rw [hstructs, h.structs, StructTaken, StructTaken,
      somewhere_withCurrent hlt (hcurrent ▸ hnsStructs symbol), ← StructTaken, ← StructTaken,
      structTaken_iff hnamespaces]

end Accounted

/-! ## Changes -/

/-- A namespace with one further struct. -/
theorem hasStructSymbol_cons {symbol name : String} {s : Struct} {ns : Namespace}
    {enums : List (String × Enum)} :
    HasStructSymbol symbol { ns with enums, structs := (name, s) :: ns.structs } ↔
      HasStructSymbol symbol ns ∨ Symbol.ofStruct ns.path name = symbol := by
  unfold HasStructSymbol
  simp only [List.mem_cons, or_and_right, exists_or, exists_eq_left]
  exact or_comm

/-- A namespace with one further function. -/
theorem hasFunctionSymbol_push {symbol : String} {f : Function} {ns : Namespace} :
    c.HasFunctionSymbol symbol { ns with functions := ns.functions.push f } ↔
      c.HasFunctionSymbol symbol ns ∨
        Symbol.ofFunction ns.path f.name (f.paramTypes.map c.typeName) = symbol := by
  unfold HasFunctionSymbol
  simp only [Array.mem_push, or_and_right, exists_or, exists_eq_left]
  rfl

/-- A struct entered in the module is found besides the others. -/
theorem isSome_lookupStruct?_push (m : Ir.Module) (name symbol : String) (fields : List Ir.TyId) :
    (({ m with types := m.types.push (.struct (some name) fields) } : Ir.Module).lookupStruct?
      symbol).isSome = true ↔ (m.lookupStruct? symbol).isSome = true ∨ name = symbol := by
  rw [Ir.Module.isSome_lookupStruct?, Ir.Module.isSome_lookupStruct?, Array.any_push,
    Bool.or_eq_true, Ir.Module.isStructNamed, beq_iff_eq]

/-- The current namespace may be replaced twice. -/
theorem withCurrent_withCurrent (c : Context) (ns ns' : Namespace) :
    (c.withCurrent ns).withCurrent ns' = c.withCurrent ns' := by
  unfold withCurrent
  simp only [Context.mk.injEq, and_true, true_and]
  exact Array.setIfInBounds_setIfInBounds ..

/-- A type may be entered before or after the current namespace is replaced. -/
theorem withLayout_withCurrent (c : Context) (ns : Namespace) (type : SourceType) (ty : Ir.TyId) :
    (c.withCurrent ns).withLayout type ty = (c.withLayout type ty).withCurrent ns := rfl

/-- A change of a context keeps the account. -/
theorem Change.accounted (h : Change c c') (hc : c.Valid) (ha : c.Accounted) : c'.Accounted := by
  cases h with
  | checked within _ => exact ha.of_sameNames hc within.ir.sameNames within.namespaces within.pool
  | body func within _ h => exact ha.of_sameNames hc h.sameNames within.namespaces within.pool
  | leave h => exact h ▸ ⟨ha.functions, ha.structs⟩
  -- entering a namespace adds at most an empty one, and nothing is declared in that
  | enter name h =>
    subst h
    have hpool : (Context.enter name c).2.pool = c.pool := by
      unfold Context.enter
      split <;> rfl
    constructor
    case functions =>
      intro symbol
      rw [enter_ir, ha.functions, FunctionTaken, FunctionTaken]
      unfold HasFunctionSymbol typeName
      rw [hpool]
      refine (hc.somewhere_enter name ?_ fun _ => Iff.rfl).symm
      rintro parent chain ⟨f, hf, -⟩
      exact absurd hf (Array.not_mem_empty f)
    case structs =>
      intro symbol
      rw [enter_ir, ha.structs]
      refine (hc.somewhere_enter name ?_ fun _ => Iff.rfl).symm
      rintro parent chain ⟨s, hs, -⟩
      cases hs
  -- a struct adds one symbol for a type, and the functions keep theirs
  | struct name members linkage h _ =>
    obtain ⟨-, c₁, c₂, layout, hwithin, -, -, rfl, rfl⟩ := h
    refine ha.declare (fun _ => False) (c.structSymbol name = ·) hc hwithin.namespaces
      hwithin.entered ?_ ?_ ?_ ?_ ?_
    · change c.pool.Extends (c₁.pool.intern _).2
      rw [← hwithin.pool]
      exact (Pool.intern_spec _ _).1
    · intro symbol
      change (c₁.ir.lookupFunction? symbol).isSome = true ↔ _
      rw [hwithin.ir.sameNames.functions, or_false]
    · intro symbol
      rw [← hwithin.ir.sameNames.structs]
      exact isSome_lookupStruct?_push c₁.ir _ _ _
    · exact fun _ => (or_false _).symm ▸ Iff.rfl
    · exact fun _ => hasStructSymbol_cons
  -- an enum adds the symbol of its backing struct in the same way, after two types
  | enum name builder linkage underlying enumTy h _ _ =>
    obtain ⟨-, -, c₁, c₂, c₃, member, hwithin, -, -, rfl, -, rfl, rfl⟩ := h
    rw [withLayout_withCurrent, withCurrent_withCurrent]
    refine ha.declare (fun _ => False) (c.structSymbol name = ·) hc hwithin.namespaces
      hwithin.entered ?_ ?_ ?_ ?_ ?_
    · have hfirst : c.pool.Extends (c₁.pool.intern (.enum name c.path)).2 := by
        rw [← hwithin.pool]
        exact (Pool.intern_spec _ _).1
      exact hfirst.trans (Pool.intern_spec _ _).1
    · intro symbol
      change (c₁.ir.lookupFunction? symbol).isSome = true ↔ _
      rw [hwithin.ir.sameNames.functions, or_false]
    · intro symbol
      rw [← hwithin.ir.sameNames.structs]
      exact isSome_lookupStruct?_push c₁.ir _ _ _
    · exact fun _ => (or_false _).symm ▸ Iff.rfl
    · exact fun _ => hasStructSymbol_cons
  -- a function adds one symbol for a function, and the types keep theirs
  | function name params returnType linkage func h _ _ =>
    obtain ⟨-, c₁, tys, ret, ir, hwithin, -, -, hdeclared, rfl⟩ := h
    refine ha.declare (c.functionSymbol name (params.map (·.ty)) = ·) (fun _ => False) hc
      hwithin.namespaces hwithin.entered (hwithin.pool ▸ .refl _) ?_ ?_ ?_ ?_
    · intro symbol
      rw [← hwithin.ir.sameNames.functions]
      exact hdeclared.isSome_lookupFunction? symbol
    · intro symbol
      rw [or_false, ← hwithin.ir.sameNames.structs]
      change (ir.lookupStruct? symbol).isSome = true ↔ _
      rw [Ir.Module.lookupStruct?, hdeclared.types, ← Ir.Module.lookupStruct?]
    · intro symbol
      -- the symbol is written with the types of the context in which the function was declared
      have htypeName : c.typeName = (c₁.withIr ir).typeName :=
        funext fun t => congrArg (Pool.format · t) hwithin.pool
      rw [functionSymbol, htypeName]
      exact hasFunctionSymbol_push
    · exact fun _ => (or_false _).symm ▸ Iff.rfl

/-- Where nothing is declared no symbol is taken. -/
theorem accounted_start (options : Options) : (start options).Accounted := by
  have hroot : ∀ P : Namespace → Prop, ¬ P .root → ¬ (start options).Somewhere P := by
    rintro P hP ⟨⟨index⟩, hid, hroot⟩
    obtain rfl : index = 0 := Nat.lt_one_iff.1 hid
    exact hP hroot
  constructor
  case functions =>
    intro symbol
    rw [Ir.Module.isSome_lookupFunction?, show (start options).ir.functions = #[] from rfl]
    refine iff_of_false (by simp) (hroot _ ?_)
    rintro ⟨f, hf, -⟩
    exact absurd hf (Array.not_mem_empty f)
  case structs =>
    intro symbol
    rw [Ir.Module.isSome_lookupStruct?, show (start options).ir.types = #[] from rfl]
    refine iff_of_false (by simp) (hroot _ ?_)
    rintro ⟨s, hs, -⟩
    cases hs

/-- Development keeps the account. -/
theorem Develops.accounted (h : c.Develops c') (hc : c.Valid) (ha : c.Accounted) :
    c'.Accounted := by
  have hchanges := h hc
  clear h
  have hboth : c'.Valid ∧ c'.Accounted := by
    induction hchanges with
    | refl => exact ⟨hc, ha⟩
    | tail _ hchange ih => exact ⟨(hchange.safe ih.1).1, hchange.accounted ih.1 ih.2⟩
  exact hboth.2

end Context

/-- What forms build accounts for its symbols. -/
theorem Built.accounted {σ : Type} {u : Compilation σ} (h : Built u) : u.context.Accounted := by
  obtain ⟨options, hdevelops⟩ := h.develops
  exact hdevelops.accounted (Context.valid_start options) (Context.accounted_start options)

end FormCompiler
