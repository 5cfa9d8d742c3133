import FormCompiler.Proofs.Lower.Development

/-!
# When the Functions of an Enum Can Be Declared

The functions of an enum are declared one after the other, so they can all be declared exactly if
none of their signatures and symbols is taken and no two of them have one symbol (`AllFree`). Their
bodies are never refused: the backend type of an enum is a struct around the one of the integer type
under it (`Wraps`).
-/

namespace FormCompiler

/-- What a function is declared as: its name, the types of its parameters and of its result. -/
structure Signature where
  name : String
  params : List TypeId
  returnType : TypeId

namespace Signature

/-- The symbol of a function that is declared in the current namespace with this signature. -/
def symbol (s : Signature) (c : Context) : String := c.functionSymbol s.name s.params

/-- The overload is declared with this signature and symbol. -/
structure Describes (s : Signature) (c : Context) (f : Function) : Prop where
  name : f.name = s.name
  params : f.paramTypes = s.params
  returnType : f.returnType = s.returnType
  symbol : f.symbol = s.symbol c

end Signature

namespace Context

variable {c c' c'' : Context} {s r : Signature} {sigs : List Signature}

/-- The signatures of the functions of an enum, in the order of declaration. -/
def enumSignatures (c : Context) (name : String) (enumTy underlying : TypeId) : List Signature :=
  ⟨name, [underlying], enumTy⟩ :: ⟨c.typeName underlying, [enumTy], underlying⟩ ::
    comparisons.map fun comparison => ⟨comparison.operator, [enumTy, enumTy], .bool⟩

/-- Neither the parameter types nor the symbol of the signature is taken. -/
structure Free (c : Context) (s : Signature) : Prop where
  overload : c.current.overload? s.name s.params = none
  symbol : c.ir.lookupFunction? (s.symbol c) = none

/-- Functions of these signatures can be declared one after the other. -/
structure AllFree (c : Context) (sigs : List Signature) : Prop where
  free : ∀ s ∈ sigs, c.Free s
  distinct : (sigs.map (·.symbol c)).Nodup

instance : Decidable (c.Free s) :=
  decidable_of_iff (c.current.overload? s.name s.params = none ∧
      c.ir.lookupFunction? (s.symbol c) = none)
    ⟨fun h => ⟨h.1, h.2⟩, fun h => ⟨h.overload, h.symbol⟩⟩

instance : Decidable (c.AllFree sigs) :=
  decidable_of_iff ((∀ s ∈ sigs, c.Free s) ∧ (sigs.map (·.symbol c)).Nodup)
    ⟨fun h => ⟨h.1, h.2⟩, fun h => ⟨h.free, h.distinct⟩⟩

/-- Functions of these signatures were declared in the current namespace, and nothing else. -/
structure FunctionsAdded (sigs : List Signature) (c c' : Context) : Prop where
  pool : c'.pool = c.pool
  entered : c'.entered = c.entered
  size : c'.namespaces.size = c.namespaces.size
  others : ∀ id, id ≠ c.currentId → c'.namespaceOf id = c.namespaceOf id
  current : ∃ fs : List Function,
    c'.current = { c.current with functions := c.current.functions ++ fs.toArray } ∧
      List.Forall₂ (·.Describes c) sigs fs
  symbols : c'.ir.functions.toList.map (·.symbol) =
    c.ir.functions.toList.map (·.symbol) ++ sigs.map (·.symbol c)

/-- A symbol is free exactly if no function of the module has it. -/
theorem lookupFunction?_eq_none {m : Ir.Module} {symbol : String} :
    m.lookupFunction? symbol = none ↔ symbol ∉ m.functions.toList.map (·.symbol) := by
  rw [Ir.Module.lookupFunction?, Option.map_eq_none_iff, Array.findIdx?_eq_none_iff, List.mem_map]
  simp only [Array.mem_toList_iff, beq_eq_false_iff_ne, ne_eq, not_exists, not_and]

/-- Parameter types are free exactly if no overload of the name has them. -/
theorem overload?_eq_none {ns : Namespace} {name : String} {arguments : List TypeId} :
    ns.overload? name arguments = none ↔
      ∀ f ∈ ns.functions, ¬ (f.name = name ∧ f.paramTypes = arguments) := by
  rw [Namespace.overload?, Array.find?_eq_none]
  simp [Function.accepts]

namespace FunctionsAdded

/-- The path of the current namespace is the same. -/
theorem path (h : FunctionsAdded sigs c c') : c'.path = c.path := by
  obtain ⟨fs, hcurrent, -⟩ := h.current
  rw [Context.path, hcurrent]
  rfl

/-- A signature has the symbol that it had. -/
theorem symbol (h : FunctionsAdded sigs c c') (s : Signature) : s.symbol c' = s.symbol c := by
  unfold Signature.symbol functionSymbol typeName
  rw [h.path, h.pool]

/-- The functions of an enum have the signatures that they had. -/
theorem enumSignatures (h : FunctionsAdded sigs c c') (name : String)
    (enumTy underlying : TypeId) :
    c'.enumSignatures name enumTy underlying = c.enumSignatures name enumTy underlying := by
  unfold Context.enumSignatures typeName
  rw [h.pool]

/-- Every signature has a function in the current namespace. -/
theorem exists_function (h : FunctionsAdded sigs c c') (hs : s ∈ sigs) :
    ∃ f ∈ c'.current.functions, s.Describes c' f := by
  obtain ⟨fs, hcurrent, hfs⟩ := h.current
  have hexists : ∃ f ∈ fs, s.Describes c f := by
    clear hcurrent h
    induction hfs with
    | nil => cases hs
    | cons hfirst _ ih =>
      rcases List.mem_cons.1 hs with rfl | hs
      · exact ⟨_, List.mem_cons_self, hfirst⟩
      · obtain ⟨f, hf, hdescribes⟩ := ih hs
        exact ⟨f, List.mem_cons_of_mem _ hf, hdescribes⟩
  obtain ⟨f, hf, hdescribes⟩ := hexists
  refine ⟨f, ?_, hdescribes.name, hdescribes.params, hdescribes.returnType,
    hdescribes.symbol.trans (h.symbol s).symm⟩
  rw [hcurrent]
  exact Array.mem_append_right _ (List.mem_toArray.2 hf)

/-- The same namespace is current. -/
theorem currentId (h : FunctionsAdded sigs c c') : c'.currentId = c.currentId := by
  rw [Context.currentId, h.entered, Context.currentId]

/-- No function need be declared. -/
theorem of_still (h : Within (· = ·) Ir.Module.Still c c') : FunctionsAdded [] c c' where
  pool := h.pool.symm
  entered := h.entered
  size := congrArg _ h.namespaces
  others id _ := h.namespaceOf id
  current := ⟨[], by rw [h.current]; simp, .nil⟩
  symbols := by rw [h.ir.functions]; simp

/-- Functions may be declared several times. -/
theorem trans {sigs' : List Signature} (h : FunctionsAdded sigs c c')
    (h' : FunctionsAdded sigs' c' c'') : FunctionsAdded (sigs ++ sigs') c c'' where
  pool := h'.pool.trans h.pool
  entered := h'.entered.trans h.entered
  size := h'.size.trans h.size
  others id hid := (h'.others id (by rwa [h.currentId])).trans (h.others id hid)
  current := by
    obtain ⟨fs, hcurrent, hfs⟩ := h.current
    obtain ⟨fs', hcurrent', hfs'⟩ := h'.current
    refine ⟨fs ++ fs', by rw [hcurrent', hcurrent]; simp, List.rel_append hfs ?_⟩
    exact hfs'.imp fun s f hf => ⟨hf.name, hf.params, hf.returnType, hf.symbol.trans (h.symbol s)⟩
  symbols := by
    rw [h'.symbols, h.symbols, List.map_append, List.append_assoc]
    congr 2
    exact List.map_congr_left fun s _ => h.symbol s

/-- Code may be added to the functions. -/
theorem within (h : FunctionsAdded sigs c c') (h' : Within (· = ·) Ir.Module.Extends c' c'')
    (hsize : c''.ir.functions.size = c'.ir.functions.size) : FunctionsAdded sigs c c'' where
  pool := h'.pool.symm.trans h.pool
  entered := h'.entered.trans h.entered
  size := (congrArg _ h'.namespaces).trans h.size
  others id hid := (h'.namespaceOf id).trans (h.others id hid)
  current := by
    rw [h'.current]
    exact h.current
  symbols := by
    rw [← h.symbols]
    refine List.ext_getElem (by simpa using hsize) fun i hi hi' => ?_
    have hlt : i < c'.ir.functions.size := by simpa using hi'
    have hlt' : i < c''.ir.functions.size := hsize ▸ hlt
    have hsymbol := (h'.ir.function ⟨i⟩ hlt).symbol
    rw [Ir.Module.function, Ir.Module.function, Array.getD_eq_getD_getElem?,
      Array.getD_eq_getD_getElem?, Array.getElem?_eq_getElem hlt,
      Array.getElem?_eq_getElem hlt'] at hsymbol
    simpa using hsymbol

/-- A declared function. -/
theorem of_declared {name : String} {params : List Param} {returnType : TypeId}
    {linkage : Ir.Linkage} {func : Ir.FuncId}
    (h : Declared name params returnType linkage func c c') (hc : c.Valid) :
    FunctionsAdded [⟨name, params.map (·.ty), returnType⟩] c c' := by
  obtain ⟨hfree, c₁, tys, ret, ir, hwithin, -, -, hdeclared, rfl⟩ := h
  have hlt : (c₁.withIr ir).currentId.index < (c₁.withIr ir).namespaces.size :=
    (hc.of_still hwithin).currentId_lt
  obtain ⟨values, hfunctions, -⟩ := hdeclared.functions
  constructor
  case pool => exact hwithin.pool.symm
  case entered => exact hwithin.entered
  case size =>
    rw [size_withCurrent]
    exact congrArg _ hwithin.namespaces
  case others =>
    intro id hid
    have hid' : id ≠ (c₁.withIr ir).currentId := by
      change id ≠ c₁.entered.headD .root
      rwa [hwithin.entered]
    rw [← hwithin.namespaceOf]
    change (Array.setIfInBounds _ _ _).getD _ _ = _
    rw [Array.getD_eq_getD_getElem?, Array.getElem?_setIfInBounds_ne, namespaceOf,
      Array.getD_eq_getD_getElem?]
    · rfl
    · exact fun hindex => hid' (by cases id; exact (congrArg NamespaceId.mk hindex).symm)
  case current =>
    rw [current_withCurrent hlt]
    refine ⟨[⟨name, params, returnType, linkage,
      c.functionSymbol name (params.map (·.ty)), func⟩], by simp, .cons ?_ .nil⟩
    constructor
    case name => rfl
    case params => rfl
    case returnType => rfl
    case symbol => rw [Signature.symbol]
  case symbols =>
    change (ir.functions).toList.map _ = _
    rw [hfunctions, hwithin.ir.functions]
    simp [Signature.symbol]

/-- What is free after a function was declared. -/
theorem free_iff (h : FunctionsAdded [s] c c') :
    c'.Free r ↔ c.Free r ∧ s.symbol c ≠ r.symbol c := by
  obtain ⟨fs, hcurrent, hfs⟩ := h.current
  obtain ⟨f, rfl⟩ : ∃ f, fs = [f] := by
    cases hfs with
    | cons _ hnil =>
      cases hnil
      exact ⟨_, rfl⟩
  have hf : s.Describes c f := by
    cases hfs
    assumption
  have hoverload : c'.current.overload? r.name r.params = none ↔
      c.current.overload? r.name r.params = none ∧ ¬ (s.name = r.name ∧ s.params = r.params) := by
    rw [hcurrent, overload?_eq_none, overload?_eq_none]
    simp only [Array.mem_append, List.mem_toArray, List.mem_singleton, or_imp, forall_and,
      forall_eq]
    rw [hf.name, hf.params]
  have hsymbol : c'.ir.lookupFunction? (r.symbol c') = none ↔
      c.ir.lookupFunction? (r.symbol c) = none ∧ s.symbol c ≠ r.symbol c := by
    rw [lookupFunction?_eq_none, lookupFunction?_eq_none, h.symbols, h.symbol]
    simp only [List.mem_append, List.map_cons, List.map_nil, List.mem_singleton, not_or, ne_eq,
      eq_comm (a := s.symbol c)]
  constructor
  · rintro ⟨ho, hs⟩
    exact ⟨⟨(hoverload.1 ho).1, (hsymbol.1 hs).1⟩, (hsymbol.1 hs).2⟩
  · rintro ⟨⟨ho, hs⟩, hne⟩
    refine ⟨hoverload.2 ⟨ho, ?_⟩, hsymbol.2 ⟨hs, hne⟩⟩
    rintro ⟨hname, hparams⟩
    exact hne (by rw [Signature.symbol, hname, hparams, Signature.symbol])

/-- The first function was declared, so all can be declared if the others can. -/
theorem allFree_iff (h : FunctionsAdded [s] c c') (hs : c.Free s) :
    c.AllFree (s :: sigs) ↔ c'.AllFree sigs := by
  have hmap : sigs.map (·.symbol c') = sigs.map (·.symbol c) :=
    List.map_congr_left fun r _ => h.symbol r
  constructor
  · rintro ⟨hfree, hdistinct⟩
    rw [List.map_cons, List.nodup_cons, List.mem_map] at hdistinct
    refine ⟨fun r hr => h.free_iff.2 ⟨hfree r (List.mem_cons_of_mem s hr), fun heq => ?_⟩,
      by rw [hmap]; exact hdistinct.2⟩
    exact hdistinct.1 ⟨r, hr, heq.symm⟩
  · rintro ⟨hfree, hdistinct⟩
    refine ⟨fun r hr => ?_, ?_⟩
    · rcases List.mem_cons.1 hr with rfl | hr
      · exact hs
      · exact (h.free_iff.1 (hfree r hr)).1
    · rw [List.map_cons, List.nodup_cons, List.mem_map, ← hmap]
      refine ⟨?_, hdistinct⟩
      rintro ⟨r, hr, heq⟩
      exact (h.free_iff.1 (hfree r hr)).2 heq.symm

end FunctionsAdded

/-! ## One function -/

/-- The block is an open one of a function whose parameters and result have these types. -/
structure Entry (m : Ir.Module) (entry : Ir.BlockId) (values : List Ir.ValueId)
    (tys : List Ir.TyId) (ret : Ir.TyId) : Prop where
  isOpen : m.isTerminated entry = false
  lt : entry.index < m.blocks.size
  ret : (m.function (m.block entry).func).ret = ret
  values : List.Forall₂ (fun ty v => v.index < m.values.size ∧ m.valueType v = ty) tys values

/-- What was declared was free. -/
theorem Declared.signature_free {name : String} {params : List Param} {returnType : TypeId}
    {linkage : Ir.Linkage} {func : Ir.FuncId}
    (h : Declared name params returnType linkage func c c') :
    c.Free ⟨name, params.map (·.ty), returnType⟩ := by
  obtain ⟨hoverload, c₁, tys, ret, ir, hwithin, -, -, hdeclared, -⟩ := h
  refine ⟨hoverload, ?_⟩
  rw [Ir.Module.lookupFunction?, ← hwithin.ir.functions]
  exact hdeclared.free

/-- The first block of a declared function. -/
theorem Declared.entry {name : String} {params : List Param} {returnType : TypeId}
    {linkage : Ir.Linkage} {func : Ir.FuncId}
    (h : Declared name params returnType linkage func c c')
    (hparams : ∀ p ∈ params, c.Grounded p.ty) (hret : c.Grounded returnType) (label : String) :
    ∃ tys ret, List.Forall₂ (Backs c') (params.map (·.ty)) tys ∧ Backs c' returnType ret ∧
      Entry (Ir.Module.appendBlock func label c'.ir).2 ⟨c'.ir.blocks.size⟩
        ((Ir.Module.appendBlock func label c'.ir).2.function func).params tys ret := by
  obtain ⟨-, c₁, tys, ret, ir, hwithin, hbacks, hbacksRet, hdeclared, rfl⟩ := h
  obtain ⟨values, hfunction, hvalues⟩ := hdeclared.function_self
  have hsteady : Steady c₁ (c₁.withIr ir) := .of_ir hdeclared.toExtends
  have happended := Ir.Module.appendBlock_function_self ir func label hdeclared.func_lt
  refine ⟨tys, ret, (hbacks hparams).imp fun _ _ hb => hb.mono (hsteady.trans
      (steady_withCurrent _ _)),
    (hbacksRet hret).mono (hsteady.trans (steady_withCurrent _ _)), ?_, ?_, ?_, ?_⟩
  · change ((Ir.Module.appendBlock func label ir).2.block ⟨ir.blocks.size⟩).terminator.isSome = _
    rw [Ir.Module.appendBlock_block_self]
    rfl
  · change ir.blocks.size < (Ir.Module.appendBlock func label ir).2.blocks.size
    rw [Ir.Module.appendBlock_size]
    exact Nat.lt_succ_self _
  · change ((Ir.Module.appendBlock func label ir).2.function
      ((Ir.Module.appendBlock func label ir).2.block ⟨ir.blocks.size⟩).func).ret = ret
    rw [Ir.Module.appendBlock_block_self, happended, hfunction]
  · change List.Forall₂ _ tys ((Ir.Module.appendBlock func label ir).2.function func).params
    rw [happended, hfunction]
    refine hvalues.imp fun ty v hv => ?_
    obtain ⟨i, hi⟩ := hv
    exact ⟨(Array.getElem?_eq_some_iff.1 hi).1, Ir.Module.valueType_of_getElem? hi⟩

/-- The body computes a value of the result type in any context after `c`. -/
def Computes (c : Context) (body : Ir.BlockId → List Ir.ValueId → Ir.Build Ir.ValueId)
    (s : Signature) : Prop :=
  ∀ (c' : Context) (m : Ir.Module) (entry : Ir.BlockId) (values : List Ir.ValueId)
    (tys : List Ir.TyId) (ret : Ir.TyId), Steady c c' → c'.ir.types = m.types →
    List.Forall₂ (Backs c') s.params tys → Backs c' s.returnType ret →
    Entry m entry values tys ret →
    Ends (body entry values) m
      (fun v m' => m.Extends m' ∧ m'.functions = m.functions ∧ m'.isTerminated entry = false ∧
        (m'.block entry).func = (m.block entry).func ∧ m'.valueType v = ret) fun _ => False

/-- A function whose body computes its result is declared exactly if it can be. -/
theorem defineOneBlock_outcome (name : String) (params : List Param) {returnType : TypeId}
    (linkage : Ir.Linkage) (span : Span)
    {body : Ir.BlockId → List Ir.ValueId → Ir.Build Ir.ValueId} (hc : c.Valid)
    (hparams : ∀ p ∈ params, c.Grounded p.ty) (hret : c.Grounded returnType)
    (hbody : c.Computes body ⟨name, params.map (·.ty), returnType⟩) :
    Ends (defineOneBlock name params returnType linkage span body) c
      (fun _ c' => c.Free ⟨name, params.map (·.ty), returnType⟩ ∧
        FunctionsAdded [⟨name, params.map (·.ty), returnType⟩] c c')
      fun c' => ¬ c.Free ⟨name, params.map (·.ty), returnType⟩ ∧ FunctionsAdded [] c c' := by
  refine (declareFunction_ends name params returnType linkage span c).andThen ?_ ?_
  · rintro c' ⟨hwithin, htaken⟩
    refine ⟨fun hfree => ?_, .of_still hwithin⟩
    rcases htaken with htaken | htaken
    · rw [hfree.overload] at htaken
      cases htaken
    · have hsymbol := hfree.symbol
      rw [Signature.symbol] at hsymbol
      rw [hsymbol] at htaken
      cases htaken
  -- once declared, nothing is in the way: the body computes a value of the type to return
  intro func c₁ hdeclared
  obtain ⟨-, hsteady⟩ := hdeclared.safe hc hparams hret
  have hadded := FunctionsAdded.of_declared hdeclared hc
  have hfree := hdeclared.signature_free
  obtain ⟨tys, ret, hbacks, hbacksRet, hentry⟩ := hdeclared.entry hparams hret "entry"
  generalize hm : (Ir.Module.appendBlock func "entry" c₁.ir).2 = m at hentry
  have hm' : c₁.ir.Extends m := hm ▸ Ir.Module.appendBlock_extends _ _ _
  have hsize : m.functions.size = c₁.ir.functions.size := by
    rw [← hm]
    simp [Ir.Module.appendBlock]
  have hcompute := hbody c₁ m ⟨c₁.ir.blocks.size⟩ (m.function func).params tys ret hsteady
    (by rw [← hm]; rfl) hbacks hbacksRet hentry
  refine (always_ends _ c₁).andThen (fun _ h => h.elim) fun entry c₂ hrun => ?_
  obtain rfl : (⟨c₁.ir.blocks.size⟩ : Ir.BlockId) = entry := congrArg Prod.fst hrun
  obtain rfl : c₁.withIr m = c₂ := by
    rw [← hm]
    exact congrArg Prod.snd hrun
  refine .next rfl ?_
  refine (always_ends _ _).andThen (fun _ h => h.elim) fun outcome c₃ hrun => ?_
  -- the block is still open after the body, so the return is accepted
  have hreturn : Ends (do
      let v ← body ⟨c₁.ir.blocks.size⟩ (m.function func).params
      Ir.Module.ret ⟨c₁.ir.blocks.size⟩ (some v) : Ir.Build PUnit) m
      (fun _ m' => m.Extends m' ∧ m'.functions = m.functions) fun _ => False := by
    refine hcompute.bind ?_
    rintro v m₁ ⟨hextends, hfunctions, hopen, hfunc, hty⟩
    refine (Ir.Module.ret_accepted ?_ hopen).mono (fun _ m₂ hclosed =>
      ⟨hextends.trans hclosed.toExtends, hclosed.functions.trans hfunctions⟩) fun _ h => h
    rw [hfunc, Ir.Module.function, hfunctions, hty]
    exact hentry.ret
  rw [attempt_run] at hrun
  unfold Ends at hreturn
  dsimp only [withIr] at hrun
  split at hrun
  next hok =>
    rw [hok] at hreturn
    obtain ⟨rfl, rfl⟩ := Prod.mk.inj hrun
    refine .pure ⟨hfree, hadded.within (.of_ir (hm'.trans hreturn.1)) ?_⟩
    rw [← hsize, ← hreturn.2]
  next herror =>
    rw [herror] at hreturn
    exact hreturn.elim

/-! ## The functions of an enum -/

/-- The backend type of the enum is a struct around the one of the integer type under it. -/
structure Wraps (c : Context) (enumTy underlying : TypeId) (backing member : Ir.TyId) :
    Prop where
  enum : Backs c enumTy backing
  under : Backs c underlying member
  struct : ∃ name, c.ir.types[backing.index]? = some (.struct name [member])
  integer : ∃ bits, c.ir.types[member.index]? = some (.int bits)

section

variable {enumTy underlying : TypeId} {backing member : Ir.TyId}

/-- An enum keeps its backend type. -/
theorem Wraps.mono (h : Wraps c enumTy underlying backing member) (hc : Steady c c') :
    Wraps c' enumTy underlying backing member where
  enum := h.enum.mono hc
  under := h.under.mono hc
  struct := h.struct.imp fun _ hname => hc.types.getElem?_some hname
  integer := h.integer.imp fun _ hbits => hc.types.getElem?_some hbits

/-- The only field of the backend type of an enum. -/
theorem Wraps.fieldType (h : Wraps c enumTy underlying backing member) {m : Ir.Module}
    (hm : Grown c.ir.types m.types) : Ir.Module.fieldType backing 0 m = .ok member := by
  obtain ⟨name, hname⟩ := h.struct
  rw [Ir.Module.fieldType, Ir.Module.type_of_getElem? (hm.getElem?_some hname)]
  rfl

/-- The type under an enum is an integer type of the module. -/
theorem Wraps.intWidth? (h : Wraps c enumTy underlying backing member) {m : Ir.Module}
    (hm : Grown c.ir.types m.types) : (m.intWidth? member).isSome = true := by
  obtain ⟨bits, hbits⟩ := h.integer
  rw [Ir.Module.intWidth?, Ir.Module.type_of_getElem? (hm.getElem?_some hbits)]
  rfl

/-- What an instruction leaves of the block of a body. -/
theorem entry_of_emitted {m m' : Ir.Module} {entry : Ir.BlockId} {i : Ir.Instr}
    (h : Ir.Module.Emitted entry i m m') (hlt : entry.index < m.blocks.size) :
    m.Extends m' ∧ m'.functions = m.functions ∧ m'.isTerminated entry = false ∧
      (m'.block entry).func = (m.block entry).func :=
  ⟨h.toExtends, h.functions, h.isTerminated hlt, by rw [h.block_self hlt]⟩

/-- The constructor computes a value of the enum. -/
theorem Wraps.constructor (h : Wraps c enumTy underlying backing member) (name : String) :
    c.Computes (constructorBody backing) ⟨name, [underlying], enumTy⟩ := by
  rintro c' m entry values tys ret hsteady htypes hparams hret ⟨hopen, hlt, -, hvalues⟩
  have hwraps := h.mono hsteady
  obtain rfl := hwraps.enum.unique hret
  rcases hparams with _ | ⟨hmember, _ | _⟩
  obtain rfl := hwraps.under.unique hmember
  rcases hvalues with _ | ⟨⟨hvalue, hty⟩, _ | _⟩
  rename_i value
  have hgrown : Grown c'.ir.types m.types := htypes ▸ .refl _
  refine (Ir.Module.always_ends (Ir.Module.undefined backing) m).andThen (fun _ h => h.elim)
    fun blank m₁ hrun => ?_
  have hfresh := Ir.Module.newValue_fresh backing .undefined m
  have hrun' : Ir.Module.newValue backing .undefined m = (blank, m₁) := hrun
  rw [hrun'] at hfresh
  have hblank : m₁.valueType blank = backing := Ir.Module.valueType_of_getElem? hfresh.value
  have hlt₁ : entry.index < m₁.blocks.size := by rwa [hfresh.still.blocks]
  refine (Ir.Module.insertValue_accepted (m := m₁) (b := entry) ?_ ?_).mono
    (fun v m' hv => ?_) fun _ h => h
  · rw [hblank, hfresh.still.toExtends.valueType hvalue, hty]
    exact hwraps.fieldType (hgrown.trans hfresh.still.types.grown)
  · rw [hfresh.still.isTerminated, hopen]
  · obtain ⟨hextends, hfunctions, hopen', hfunc⟩ := entry_of_emitted hv.1 hlt₁
    exact ⟨hfresh.still.toExtends.trans hextends, hfunctions.trans hfresh.still.functions, hopen',
      hfunc.trans (by rw [hfresh.still.block]), hv.2.trans hblank⟩

/-- The conversion computes what the value of the enum holds. -/
theorem Wraps.conversion (h : Wraps c enumTy underlying backing member) (name : String) :
    c.Computes conversionBody ⟨name, [enumTy], underlying⟩ := by
  rintro c' m entry values tys ret hsteady htypes hparams hret ⟨hopen, hlt, -, hvalues⟩
  have hwraps := h.mono hsteady
  obtain rfl := hwraps.under.unique hret
  rcases hparams with _ | ⟨hbacking, _ | _⟩
  obtain rfl := hwraps.enum.unique hbacking
  rcases hvalues with _ | ⟨⟨-, hty⟩, _ | _⟩
  have hgrown : Grown c'.ir.types m.types := htypes ▸ .refl _
  refine (Ir.Module.extractValue_accepted (by rw [hty]; exact hwraps.fieldType hgrown)
    hopen).mono (fun v m' hv => ?_) fun _ h => h
  obtain ⟨hextends, hfunctions, hopen', hfunc⟩ := entry_of_emitted hv.1 hlt
  exact ⟨hextends, hfunctions, hopen', hfunc, hv.2⟩

/-- A comparison computes a truth value. -/
theorem Wraps.comparison (h : Wraps c enumTy underlying backing member) (hc : c.Valid)
    (name : String) (predicate : Ir.IntPredicate) :
    c.Computes (comparisonBody predicate) ⟨name, [enumTy, enumTy], .bool⟩ := by
  rintro c' m entry values tys ret hsteady htypes hparams hret ⟨hopen, hlt, -, hvalues⟩
  have hwraps := h.mono hsteady
  rcases hparams with _ | ⟨hfirst, _ | ⟨hsecond, _ | _⟩⟩
  obtain rfl := hwraps.enum.unique hfirst
  obtain rfl := hwraps.enum.unique hsecond
  rcases hvalues with _ | ⟨⟨-, hty⟩, _ | ⟨⟨hvalue', hty'⟩, _ | _⟩⟩
  rename_i second
  have hgrown : Grown c'.ir.types m.types := htypes ▸ .refl _
  refine (Ir.Module.extractValue_accepted (by rw [hty]; exact hwraps.fieldType hgrown)
    hopen).bind ?_
  rintro lhs m₁ ⟨hemitted₁, hlhs⟩
  obtain ⟨hextends₁, hfunctions₁, hopen₁, hfunc₁⟩ := entry_of_emitted hemitted₁ hlt
  have hlt₁ := Nat.lt_of_lt_of_le hlt hextends₁.blocks
  -- the second argument and its field are as before the first instruction
  have hfield : Ir.Module.fieldType (m₁.valueType second) 0 m₁ = .ok member := by
    rw [hextends₁.valueType hvalue', hty']
    exact hwraps.fieldType (hgrown.trans hextends₁.types)
  refine (Ir.Module.extractValue_accepted hfield hopen₁).bind ?_
  rintro rhs m₂ ⟨hemitted₂, hrhs⟩
  obtain ⟨hextends₂, hfunctions₂, hopen₂, hfunc₂⟩ := entry_of_emitted hemitted₂ hlt₁
  have hlt₂ := Nat.lt_of_lt_of_le hlt₁ hextends₂.blocks
  have hlhs' : m₂.valueType lhs = member := by
    have hindex := (hemitted₁.fresh lhs rfl).2
    obtain ⟨ty, hindex⟩ := hindex
    rw [hextends₂.valueType (Array.getElem?_eq_some_iff.1 hindex).1, hlhs]
  refine (Ir.Module.icmp_accepted predicate ?_ (hlhs'.trans hrhs.symm) hopen₂).mono
    (fun v m' hv => ?_) fun _ h => h
  · rw [hlhs']
    exact hwraps.intWidth? ((hgrown.trans hextends₁.types).trans hextends₂.types)
  · obtain ⟨hextends, hfunctions, hopen', hfunc⟩ := entry_of_emitted hv.1 hlt₂
    refine ⟨(hextends₁.trans hextends₂).trans hextends,
      (hfunctions.trans hfunctions₂).trans hfunctions₁, hopen',
      (hfunc.trans hfunc₂).trans hfunc₁, ?_⟩
    -- the result of a comparison has one bit, and so has `bool`
    have hbool : c'.ir.findType? (.int 1) = some ret :=
      hret.of_primitive (hsteady.pool.types.getElem?_some (hc.pool.primitives .bool))
    rw [Ir.Module.findType?, htypes] at hbool
    have hfound := ((hextends₁.trans hextends₂).trans hextends).findType? hbool
    rw [hv.2, Option.some_inj] at hfound
    exact hfound

/-- The comparisons are declared exactly if they can be; else some of them are. -/
theorem defineComparisons_outcome {signed : Bool} {linkage : Ir.Linkage} {span : Span}
    (comparisons : List Comparison) (hc : c.Valid) (henum : c.Grounded enumTy)
    (hwraps : Wraps c enumTy underlying backing member) :
    Ends (defineComparisons enumTy signed linkage span comparisons) c
      (fun _ c' => c.AllFree (comparisons.map fun comparison =>
          ⟨comparison.operator, [enumTy, enumTy], .bool⟩) ∧
        FunctionsAdded (comparisons.map fun comparison =>
          ⟨comparison.operator, [enumTy, enumTy], .bool⟩) c c')
      fun c' => ¬ c.AllFree (comparisons.map fun comparison =>
          ⟨comparison.operator, [enumTy, enumTy], .bool⟩) ∧
        ∃ done ⊆ comparisons.map (fun comparison =>
          ⟨comparison.operator, [enumTy, enumTy], .bool⟩), FunctionsAdded done c c' := by
  induction comparisons generalizing c with
  | nil => exact .pure ⟨⟨fun _ h => absurd h List.not_mem_nil, .nil⟩, .of_still (Std.Refl.refl c)⟩
  | cons comparison rest ih =>
    have hparams : ∀ p ∈ [(⟨"a", enumTy⟩ : Param), ⟨"b", enumTy⟩], c.Grounded p.ty := by
      simpa using henum
    have hbool := hc.grounded_primitive .bool
    have hfirst := (defineOneBlock_outcome _ _ linkage span hc hparams hbool
      (hwraps.comparison hc comparison.operator
        (if signed then comparison.signed else comparison.unsigned)))
    have hbody := covered_comparisonBody
      (if signed then comparison.signed else comparison.unsigned)
    refine Ends.andThen
      (hfirst.and (defineOneBlock_develops comparison.operator _ hbody hparams hbool)) ?_ ?_
    · -- the first one is taken: nothing was added
      rintro c' ⟨⟨htaken, hadded⟩, -⟩
      exact ⟨fun hall => htaken (hall.free _ List.mem_cons_self), [], List.nil_subset _, hadded⟩
    · -- the others are free before the first is added exactly if they are afterwards
      rintro _ c₁ ⟨⟨hfree, hadded⟩, hchanged⟩
      obtain ⟨hvalid, hsteady⟩ := hchanged.safe hc
      refine (ih hvalid (henum.mono hsteady) (hwraps.mono hsteady)).mono ?_ ?_
      · rintro _ c' ⟨hall, hadded'⟩
        exact ⟨(hadded.allFree_iff hfree).2 hall, hadded.trans hadded'⟩
      · rintro c' ⟨hall, done, hdone, hadded'⟩
        exact ⟨fun h => hall ((hadded.allFree_iff hfree).1 h), _, List.cons_subset_cons _ hdone,
          hadded.trans hadded'⟩

/-- The functions of an enum are declared exactly if they can be; else some of them are. -/
theorem defineEnumFunctions_outcome (name : String) (linkage : Ir.Linkage) (span : Span)
    (hc : c.Valid) (henum : c.Grounded enumTy) (hunder : c.Grounded underlying)
    (hwraps : Wraps c enumTy underlying backing member) :
    Ends (defineEnumFunctions name enumTy underlying linkage span) c
      (fun _ c' => c.AllFree (c.enumSignatures name enumTy underlying) ∧
        FunctionsAdded (c.enumSignatures name enumTy underlying) c c')
      fun c' => ¬ c.AllFree (c.enumSignatures name enumTy underlying) ∧
        ∃ done ⊆ c.enumSignatures name enumTy underlying, FunctionsAdded done c c' := by
  unfold defineEnumFunctions
  refine (always_ends _ c).andThen (fun _ h => h.elim) fun ty c₁ hrun => ?_
  rw [hwraps.enum.backendType] at hrun
  obtain ⟨rfl, rfl⟩ := Prod.mk.inj hrun
  have hvalue : ∀ p ∈ [(⟨"value", underlying⟩ : Param)], c.Grounded p.ty := by simpa using hunder
  have hconstructor := defineOneBlock_outcome _ _ linkage span hc hvalue henum
    (hwraps.constructor name)
  refine Ends.andThen (hconstructor.and
    (defineOneBlock_develops name _ (covered_constructorBody backing) hvalue henum)) ?_ ?_
  · rintro c' ⟨⟨htaken, hadded⟩, -⟩
    exact ⟨fun hall => htaken (hall.free _ List.mem_cons_self), [], List.nil_subset _, hadded⟩
  rintro _ c₁ ⟨⟨hfree, hadded⟩, hchanged⟩
  obtain ⟨hvalid, hsteady⟩ := hchanged.safe hc
  refine .next rfl ?_
  -- the name of the conversion is that of the underlying type, which the constructor left alone
  have htypeName : c₁.typeName underlying = c.typeName underlying := by
    rw [typeName, hadded.pool, typeName]
  dsimp only
  rw [htypeName]
  have hvalue : ∀ p ∈ [(⟨"value", enumTy⟩ : Param)], c₁.Grounded p.ty := by
    simpa using henum.mono hsteady
  have hconversion := defineOneBlock_outcome _ _ linkage span hvalid hvalue
    (hunder.mono hsteady) ((hwraps.mono hsteady).conversion (c.typeName underlying))
  refine Ends.andThen (hconversion.and
    (defineOneBlock_develops _ _ covered_conversionBody hvalue (hunder.mono hsteady))) ?_ ?_
  · rintro c' ⟨⟨htaken, hadded'⟩, -⟩
    exact ⟨fun hall => htaken (((hadded.allFree_iff hfree).1 hall).free _ List.mem_cons_self), _,
      List.cons_subset_cons _ (List.nil_subset _), hadded.trans hadded'⟩
  rintro _ c₂ ⟨⟨hfree', hadded'⟩, hchanged'⟩
  obtain ⟨hvalid', hsteady'⟩ := hchanged'.safe hvalid
  refine .next rfl ?_
  -- what is free after the two functions was free before them, and they were free themselves
  have hsteady₂ := hsteady.trans hsteady'
  refine (defineComparisons_outcome comparisons hvalid' (henum.mono hsteady₂)
    (hwraps.mono hsteady₂)).mono ?_ ?_
  · rintro _ c' ⟨hall, hadded''⟩
    exact ⟨(hadded.allFree_iff hfree).2 ((hadded'.allFree_iff hfree').2 hall),
      hadded.trans (hadded'.trans hadded'')⟩
  · rintro c' ⟨hall, done, hdone, hadded''⟩
    exact ⟨fun h => hall ((hadded'.allFree_iff hfree').1 ((hadded.allFree_iff hfree).1 h)), _,
      List.cons_subset_cons _ (List.cons_subset_cons _ hdone),
      hadded.trans (hadded'.trans hadded'')⟩

end

end Context

end FormCompiler
