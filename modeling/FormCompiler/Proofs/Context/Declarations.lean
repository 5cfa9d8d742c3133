import FormCompiler.Lower.EnumFunctions
import FormCompiler.Lower.Evaluation
import FormCompiler.Proofs.Context.Valid

/-!
# Declarations

What declaring a function, entering a namespace and opening a session do to the context. A step is
`Safe` if it keeps contexts valid and steady.

A function that is refused leaves the context within `Still`; one that is accepted is `Declared`,
which says everything about the context after it.
-/

namespace FormCompiler.Context

/-- Valid contexts stay valid, with their types and layouts. -/
def Safe (c c' : Context) : Prop := c.Valid → c'.Valid ∧ Steady c c'

instance : Std.Refl Safe := ⟨fun c hc => ⟨hc, .refl c⟩⟩

instance : IsTrans Context Safe where
  trans _ _ _ h h' hc :=
    have ⟨hvalid, hsteady⟩ := h hc
    have ⟨hvalid', hsteady'⟩ := h' hvalid
    ⟨hvalid', hsteady.trans hsteady'⟩

variable {c c' : Context}

/-- What relates two lists to a third one, entry by entry. -/
theorem forall₂_comp {α β γ : Type} {r : α → β → Prop} {s : β → γ → Prop} {q : α → γ → Prop}
    (h : ∀ x y z, r x y → s y z → q x z) {xs : List α} {ys : List β} {zs : List γ}
    (hr : List.Forall₂ r xs ys) (hs : List.Forall₂ s ys zs) : List.Forall₂ q xs zs := by
  induction hr generalizing zs with
  | nil =>
    cases hs
    exact .nil
  | cons hxy _ ih =>
    cases hs with
    | cons hyz hs => exact .cons (h _ _ _ hxy hyz) (ih hs)

/-- Adding to the module is safe. -/
theorem Safe.of_extends (h : Within (· = ·) Ir.Module.Extends c c') : Safe c c' := fun hc =>
  ⟨hc.of_within h (h.pool ▸ .refl _) h.ir (h.pool ▸ hc.pool) (h.pool ▸ .refl _),
    .of_extends h⟩

/-- Entering a pointer to a grounded type. -/
theorem Valid.pointerTo (h : c.Valid) {t : TypeId} (ht : c.Grounded t) :
    (c.withPool (c.pool.pointerTo t).2).Valid ∧
      Steady c (c.withPool (c.pool.pointerTo t).2) ∧
      (c.withPool (c.pool.pointerTo t).2).Grounded (c.pool.pointerTo t).1 := by
  have hspec := Pool.intern_spec c.pool (.pointer t)
  have hwithin : Within Pool.Extends Ir.Module.Extends c
      (c.withPool (c.pool.pointerTo t).2) := .of_pool hspec.1
  have hsteady : Steady c (c.withPool (c.pool.pointerTo t).2) :=
    .of_within hwithin id fun hm => hm.types
  have hsound : (c.pool.pointerTo t).2.Sound := h.pool.pointerTo ht.index_lt
  have htype := Pool.type_of_find hspec.2
  exact ⟨h.of_within hwithin hspec.1 (.refl _) hsound (c.pool.unnamed_pointerTo t), hsteady,
    .pointer htype (hsound.pointees _ _ htype) (ht.mono hsteady)⟩

/-! ## Structs and enums -/

/-- Registering an enum whose name is free. -/
theorem addEnum_run {name : String} (e : Enum) (h : c.current.enum? name = none) :
    addEnum name e c =
      (true, c.withCurrent { c.current with enums := (name, e) :: c.current.enums }) := by
  rw [addEnum, Namespace.addEnum?, h]
  rfl

/-- Registering a struct whose name is free. -/
theorem addStruct_run {name : String} (s : Struct) (h : c.current.struct? name = none) :
    addStruct name s c =
      (true, c.withCurrent { c.current with structs := (name, s) :: c.current.structs }) := by
  rw [addStruct, Namespace.addStruct?, h]
  rfl

/-- Registering an enum and a struct of one name, which is free for both. -/
theorem addEnum_addStruct_run {name : String} (e : Enum) (s : Struct)
    (hlt : c.currentId.index < c.namespaces.size) (henum : c.current.enum? name = none)
    (hstruct : c.current.struct? name = none) :
    addEnum name e c =
        (true, c.withCurrent { c.current with enums := (name, e) :: c.current.enums }) ∧
      addStruct name s (c.withCurrent { c.current with enums := (name, e) :: c.current.enums }) =
        (true, (c.withCurrent { c.current with enums := (name, e) :: c.current.enums }).withCurrent
          { c.current with
            enums := (name, e) :: c.current.enums
            structs := (name, s) :: c.current.structs }) := by
  refine ⟨addEnum_run e henum, ?_⟩
  have hcurrent := current_withCurrent hlt
    { c.current with enums := (name, e) :: c.current.enums }
  rw [addStruct_run s (by rw [hcurrent]; exact hstruct), hcurrent]

/-- A type that is declared with its layout is grounded. -/
theorem grounded_withLayout (c : Context) (type : SourceType) (ty : Ir.TyId)
    (hnamed : type.has .isNamed = true) :
    (c.withLayout type ty).Grounded (c.pool.intern type).1 :=
  .named (type_withLayout c type ty) hnamed (by
    rw [withLayout]
    exact List.lookup_cons_self)

/-- An enum may be declared in the current namespace if its name is free. -/
theorem Valid.declareEnum (hc : c.Valid) {name : String} (ty : Ir.TyId) {e : Enum}
    (hnew : c.current.enum? name = none)
    (hty : ∃ name fields, c.ir.types[ty.index]? = some (.struct (some name) fields))
    (he : e.ty = (c.pool.intern (.enum name c.path)).1) :
    ((c.withLayout (.enum name c.path) ty).withCurrent
        { c.current with enums := (name, e) :: c.current.enums }).Valid ∧
      Steady c ((c.withLayout (.enum name c.path) ty).withCurrent
        { c.current with enums := (name, e) :: c.current.enums }) := by
  refine hc.declare rfl (by simp [Namespace.Declares, hnew]) hty ?_ ?_
  · -- what was declared stays declared, and only the enum is new
    refine ⟨rfl, rfl, fun type htype => ?_, fun e' he' => ?_, fun _ h => .inl h,
      fun _ h => .inl h⟩
    · unfold Namespace.Declares at htype ⊢
      split at htype
      next name' _ =>
        rw [Namespace.enum?] at htype ⊢
        rw [List.lookup_cons]
        split
        · rfl
        · exact htype
      next => exact htype
      next => exact htype
    · rcases List.mem_cons.1 he' with rfl | he'
      · refine .inr ?_
        dsimp only
        rw [he]
        exact grounded_withLayout c _ ty rfl
      · exact .inl he'
  · simp [Namespace.Declares, Namespace.enum?]

/-- A struct may be declared in the current namespace if its name is free and its layout has the
backend types of its members. -/
theorem Valid.declareStruct (hc : c.Valid) {name : String} {s : Struct}
    (hnew : c.current.struct? name = none)
    (hfields : ∃ symbol fields,
      c.ir.types[s.backend.index]? = some (.struct (some symbol) fields) ∧
        List.Forall₂ c.Backs s.memberTypes fields)
    (hs : s.ty = (c.pool.intern (.struct name c.path)).1) :
    ((c.withLayout (.struct name c.path) s.backend).withCurrent
        { c.current with structs := (name, s) :: c.current.structs }).Valid ∧
      Steady c ((c.withLayout (.struct name c.path) s.backend).withCurrent
        { c.current with structs := (name, s) :: c.current.structs }) := by
  have hfree : ¬ c.current.Declares (.struct name c.path) := by simp [Namespace.Declares, hnew]
  have hty : ∃ name fields, c.ir.types[s.backend.index]? = some (.struct (some name) fields) := by
    obtain ⟨symbol, fields, htype, -⟩ := hfields
    exact ⟨symbol, fields, htype⟩
  have hsteady := (hc.steady_withLayout s.backend rfl hfree).2
  refine hc.declare rfl hfree hty ?_ ?_
  · -- what was declared stays declared, and only the struct is new
    refine ⟨rfl, rfl, fun type htype => ?_, fun _ h => .inl h, fun s' hs' => ?_,
      fun _ h => .inl h⟩
    · unfold Namespace.Declares at htype ⊢
      split at htype
      next => exact htype
      next name' _ =>
        rw [Namespace.struct?] at htype ⊢
        rw [List.lookup_cons]
        split
        · rfl
        · exact htype
      next => exact htype
    · rcases List.mem_cons.1 hs' with rfl | hs'
      · refine .inr ⟨?_, ?_, ?_⟩
        · dsimp only
          rw [hs]
          exact type_withLayout c _ _
        · dsimp only
          rw [withLayout, hs]
          exact List.lookup_cons_self
        · -- the layout was made before the type was named, and naming it moves no member
          obtain ⟨symbol, fields, htype, hbacks⟩ := hfields
          exact ⟨symbol, fields, htype, hbacks.imp fun _ _ hb => hb.mono hsteady⟩
      · exact .inl hs'
  · simp [Namespace.Declares, Namespace.struct?]

/-! ## Functions -/

/-- A function was declared: its types were entered, the module got it under its symbol, and the
current namespace the overload. -/
structure Declared (name : String) (params : List Param) (returnType : TypeId)
    (linkage : Ir.Linkage) (func : Ir.FuncId) (c c' : Context) : Prop where
  free : c.current.overload? name (params.map (·.ty)) = none
  declared : ∃ (c₁ : Context) (tys : List Ir.TyId) (ret : Ir.TyId) (ir : Ir.Module),
    Within (· = ·) Ir.Module.Still c c₁ ∧
    ((∀ p ∈ params, c.Grounded p.ty) → List.Forall₂ (Backs c₁) (params.map (·.ty)) tys) ∧
    (c.Grounded returnType → Backs c₁ returnType ret) ∧
    Ir.Module.Declared (c.functionSymbol name (params.map (·.ty))) tys ret linkage func
      c₁.ir ir ∧
    c' = (c₁.withIr ir).withCurrent { c.current with
      functions := c.current.functions.push ⟨name, params, returnType, linkage,
        c.functionSymbol name (params.map (·.ty)), func⟩ }

/-- Registering an overload that is not there yet. -/
theorem addFunction_run {f : Function} (h : c.current.overload? f.name f.paramTypes = none) :
    addFunction f c =
      (true, c.withCurrent { c.current with functions := c.current.functions.push f }) := by
  rw [addFunction, Namespace.addFunction?, h]
  rfl

/-- A function is declared unless its parameter types or its symbol are taken. -/
theorem declareFunction_ends (name : String) (params : List Param) (returnType : TypeId)
    (linkage : Ir.Linkage) (span : Span) (c : Context) :
    Ends (declareFunction name params returnType linkage span) c
      (fun func c' => Declared name params returnType linkage func c c')
      fun c' => Within (· = ·) Ir.Module.Still c c' ∧
        ((c.current.overload? name (params.map (·.ty))).isSome = true ∨
          (c.ir.lookupFunction? (c.functionSymbol name (params.map (·.ty)))).isSome = true) := by
  refine .next rfl ?_
  cases hfree : c.current.overload? name (params.map (·.ty)) with
  | some f =>
    dsimp only [Option.isSome_some]
    rw [if_pos rfl]
    exact ⟨.of_queue, .inl rfl⟩
  | none =>
    dsimp only [Option.isSome_none]
    rw [if_neg Bool.false_ne_true]
    refine .next rfl ?_
    refine (always_ends _ c).andThen (fun _ h => h.elim) ?_
    -- the types are entered before the symbol is tested, so a refusal can leave them behind
    intro tys c₁ hrun
    refine (always_ends _ c₁).andThen (fun _ h => h.elim) ?_
    intro ret c₂ hrun'
    have hparams := backendTypes_moves (params.map (·.ty)) c
    rw [hrun] at hparams
    have hret := backendType_moves returnType c₁
    rw [hrun'] at hret
    have hwithin : Within (· = ·) Ir.Module.Still c c₂ := IsTrans.trans _ _ _ hparams hret
    refine (emitOr_ends _ (Ir.Module.declareFunction_ends _ tys ret linkage c₂.ir)).andThen ?_ ?_
    · rintro _ ⟨ir, queue, rfl, rfl, htaken⟩
      refine ⟨⟨hwithin.pool, hwithin.ir, hwithin.namespaces, hwithin.entered, hwithin.layouts,
        hwithin.onceTag⟩, .inr ?_⟩
      rwa [Ir.Module.lookupFunction?, hwithin.ir.functions] at htaken
    rintro func _ ⟨ir, rfl, hdeclared⟩
    -- entering types has not added an overload, so the function still goes in
    have hcurrent : (c₂.withIr ir).current = c.current := hwithin.current
    refine (always_ends _ _).andThen (fun _ h => h.elim) ?_
    intro _ c' hadd
    rw [addFunction_run (by rw [hcurrent]; exact hfree), hcurrent] at hadd
    refine .pure ⟨hfree, c₂, tys, ret, ir, hwithin, fun hgrounded => ?_, fun hgrounded => ?_,
      hdeclared, (congrArg Prod.snd hadd).symm⟩
    · have hbacks := (backendTypes_spec (c := c)
        (by simpa using hgrounded : ∀ t ∈ params.map (·.ty), c.Grounded t)).2
      rw [hrun] at hbacks
      exact hbacks.imp fun _ _ hb => hb.mono (.of_still hret)
    · have hbacks := (hgrounded.mono (.of_still hparams)).backendType_spec.2
      rwa [hrun'] at hbacks

/-- A declared function is in the table of the module. -/
theorem Declared.func_lt {name : String} {params : List Param} {returnType : TypeId}
    {linkage : Ir.Linkage} {func : Ir.FuncId}
    (h : Declared name params returnType linkage func c c') :
    func.index < c'.ir.functions.size := by
  obtain ⟨-, c₁, tys, ret, ir, -, -, -, hfunction, rfl⟩ := h
  exact hfunction.func_lt

/-- A declared function has no blocks. -/
theorem Declared.noBlocks {name : String} {params : List Param} {returnType : TypeId}
    {linkage : Ir.Linkage} {func : Ir.FuncId}
    (h : Declared name params returnType linkage func c c') :
    (c'.ir.function func).blocks = #[] := by
  obtain ⟨-, c₁, tys, ret, ir, -, -, -, hfunction, rfl⟩ := h
  obtain ⟨values, hself, -⟩ := hfunction.function_self
  change (ir.function func).blocks = #[]
  rw [hself]

/-- A declared function leaves a valid context. -/
theorem Declared.safe {name : String} {params : List Param} {returnType : TypeId}
    {linkage : Ir.Linkage} {func : Ir.FuncId}
    (h : Declared name params returnType linkage func c c') (hc : c.Valid)
    (hparams : ∀ p ∈ params, c.Grounded p.ty) (hret : c.Grounded returnType) :
    c'.Valid ∧ Steady c c' := by
  obtain ⟨hfree, c₁, tys, ret, ir, hwithin, hbacks, hbacksRet, hdeclared, rfl⟩ := h
  have hvalid : (c₁.withIr ir).Valid :=
    (Safe.of_extends (.of_ir hdeclared.toExtends) (hc.of_still hwithin)).1
  have hsteady : Steady c₁ (c₁.withIr ir) := .of_ir hdeclared.toExtends
  have hcurrent : (c₁.withIr ir).current = c.current := hwithin.current
  refine ⟨hvalid.withCurrent ?_, ((Steady.of_still hwithin).trans hsteady).trans
    (steady_withCurrent _ _)⟩
  rw [hcurrent]
  refine ⟨rfl, rfl, fun _ h => h, fun _ h => .inl h, fun _ h => .inl h, fun f hf => ?_⟩
  rcases Array.mem_push.1 hf with hf | rfl
  · exact .inl hf
  · -- each parameter is a value of the type that backs its own, by way of the types that were
    -- entered
    obtain ⟨values, hfunction, hvalues⟩ := hdeclared.function_self
    have hall : List.Forall₂ (fun (p : Param) ty => Backs c₁ p.ty ty) params tys :=
      List.forall₂_map_left_iff.1 (hbacks hparams)
    refine .inr ⟨hdeclared.func_lt, ?_, ?_⟩
    · change List.Forall₂ _ params (ir.function func).params
      rw [hfunction]
      refine forall₂_comp (fun p ty v hp hv => ?_) hall hvalues
      obtain ⟨i, hi⟩ := hv
      refine ⟨(Array.getElem?_eq_some_iff.1 hi).1, ?_⟩
      change Backs _ p.ty (ir.valueType v)
      rw [Ir.Module.valueType_of_getElem? hi]
      exact hp.mono hsteady
    · change Backs _ returnType (ir.function func).ret
      rw [hfunction]
      exact (hbacksRet hret).mono hsteady

/-- The body of the constructor extends the module. -/
theorem constructorBody_keeps (backing : Ir.TyId) (b : Ir.BlockId) (vs : List Ir.ValueId) :
    Keeps Ir.Module.Extends (constructorBody backing b vs) := by
  unfold constructorBody
  split
  · refine .bind (x := Ir.Module.always _) (fun m => ?_) fun blank =>
      Ir.Module.insertValue_keeps _ _ _ _
    exact (Ir.Module.newValue_spec backing .undefined m).1.toExtends
  · exact .throw _

/-- The body of the conversion extends the module. -/
theorem conversionBody_keeps (b : Ir.BlockId) (vs : List Ir.ValueId) :
    Keeps Ir.Module.Extends (conversionBody b vs) := by
  unfold conversionBody
  split
  · exact Ir.Module.extractValue_keeps _ _ _
  · exact .throw _

/-- The body of a comparison extends the module. -/
theorem comparisonBody_keeps (predicate : Ir.IntPredicate) (b : Ir.BlockId)
    (vs : List Ir.ValueId) : Keeps Ir.Module.Extends (comparisonBody predicate b vs) := by
  unfold comparisonBody
  split
  · exact .bind (Ir.Module.extractValue_keeps _ _ _) fun lhs =>
      .bind (Ir.Module.extractValue_keeps _ _ _) fun rhs => Ir.Module.icmp_keeps _ _ _ _
  · exact .throw _

/-! ## Namespaces -/

/-- Other namespaces of the context may be entered. -/
theorem Valid.withEntered (hc : c.Valid) {entered : List NamespaceId}
    (hentered : ∀ id ∈ entered, id.index < c.namespaces.size) :
    ({ c with entered } : Context).Valid ∧ Steady c { c with entered } := by
  have hsteady : Steady c { c with entered } := ⟨.refl _, .refl _, fun _ _ h => h⟩
  refine ⟨⟨⟨hc.pool, hc.rooted, hentered, hc.paths, hc.parents, hc.children, ?_, ?_, ?_,
    hc.layouts, hc.named⟩, hc.declared⟩, hsteady⟩
  · exact fun i hi e he => (hc.enums i hi e he).mono hsteady
  · exact fun i hi s hs => (hc.structs i hi s hs).mono hsteady
  · exact fun i hi f hf => (hc.functions i hi f hf).mono hsteady (.refl _)

/-- Leaving a namespace leaves a valid context. -/
theorem leave_safe (c : Context) : Safe c (leave c).2 := fun hc =>
  hc.withEntered fun id hid => hc.entered id (List.mem_of_mem_tail hid)

/-- The context with a new namespace inside the current one, which is entered. -/
def withChild (c : Context) (name : String) : Context :=
  { c with
    namespaces := (c.namespaces.push (.child name c.currentId c.current.chain)).modify
      c.currentId.index (·.addChild name ⟨c.namespaces.size⟩)
    entered := ⟨c.namespaces.size⟩ :: c.entered }

/-- The namespaces after a new one was made. -/
theorem Valid.namespaceOf_withChild (hc : c.Valid) (name : String) (id : NamespaceId) :
    (c.withChild name).namespaceOf id =
      if id.index = c.namespaces.size then .child name c.currentId c.current.chain
      else if id = c.currentId then c.current.addChild name ⟨c.namespaces.size⟩
      else c.namespaceOf id := by
  have hlt := hc.currentId_lt
  rw [namespaceOf, withChild, Array.getD_eq_getD_getElem?, Array.getElem?_modify,
    Array.getElem?_push]
  by_cases hnew : id.index = c.namespaces.size
  · rw [if_neg (by omega), if_pos hnew, if_pos hnew, Option.getD_some]
  · rw [if_neg hnew, if_neg hnew]
    by_cases hcurrent : id = c.currentId
    · subst hcurrent
      rw [if_pos rfl, if_pos rfl, Array.getElem?_eq_getElem hlt, Option.map_some,
        Option.getD_some, current, namespaceOf, Array.getD_eq_getD_getElem?,
        Array.getElem?_eq_getElem hlt, Option.getD_some]
    · have hindex : c.currentId.index ≠ id.index := fun h => hcurrent (by
        cases id
        exact (congrArg NamespaceId.mk h).symm)
      rw [if_neg hindex, if_neg hcurrent, namespaceOf, Array.getD_eq_getD_getElem?]

/-- One namespace was made. -/
theorem size_withChild (c : Context) (name : String) :
    (c.withChild name).namespaces.size = c.namespaces.size + 1 := by
  simp [withChild]

/-- An id is that of a namespace that was there before, or of the new one. -/
theorem withChild_cases {name : String} {id : NamespaceId}
    (hid : id.index < (c.withChild name).namespaces.size) :
    id.index < c.namespaces.size ∨ id = ⟨c.namespaces.size⟩ := by
  rw [size_withChild] at hid
  rcases Nat.lt_succ_iff_lt_or_eq.1 hid with hlt | heq
  · exact .inl hlt
  · cases id
    exact .inr (congrArg NamespaceId.mk heq)

namespace Valid

variable {name : String} {id : NamespaceId}

/-- The new namespace is empty and stands inside the current one. -/
theorem withChild_self (hc : c.Valid) (name : String) :
    (c.withChild name).namespaceOf ⟨c.namespaces.size⟩ =
      .child name c.currentId c.current.chain := by
  rw [hc.namespaceOf_withChild, if_pos rfl]

/-- What a further child does not change, the namespaces before keep. -/
theorem map_namespaceOf_withChild {γ : Type} (hc : c.Valid) (f : Namespace → γ)
    (hadd : ∀ (ns : Namespace) name id, f (ns.addChild name id) = f ns) (name : String)
    (hid : id.index < c.namespaces.size) :
    f ((c.withChild name).namespaceOf id) = f (c.namespaceOf id) := by
  rw [hc.namespaceOf_withChild, if_neg (Nat.ne_of_lt hid)]
  split
  next heq => rw [hadd, heq, current]
  next => rfl

/-- The namespaces before keep their chains. -/
theorem chain_withChild (hc : c.Valid) (name : String) (hid : id.index < c.namespaces.size) :
    ((c.withChild name).namespaceOf id).chain = (c.namespaceOf id).chain :=
  hc.map_namespaceOf_withChild Namespace.chain (fun _ _ _ => rfl) name hid

/-- They keep their children, since the new one has a free name. -/
theorem child?_withChild (hc : c.Valid) (hnew : c.current.child? name = none)
    (hid : id.index < c.namespaces.size) {key : String} {child : NamespaceId}
    (hkey : (c.namespaceOf id).child? key = some child) :
    ((c.withChild name).namespaceOf id).child? key = some child := by
  rw [hc.namespaceOf_withChild, if_neg (Nat.ne_of_lt hid)]
  split
  next heq =>
    subst heq
    have hne : key ≠ name := by
      rintro rfl
      exact absurd (hkey.symm.trans hnew) (Option.some_ne_none child)
    rw [Namespace.child?, Namespace.addChild, List.lookup_cons, beq_false_of_ne hne]
    exact hkey
  next => exact hkey

/-- A child was there before, or it is the new one in the current namespace. -/
theorem child?_withChild_cases (hc : c.Valid) {key : String} {child : NamespaceId}
    (hid : id.index < (c.withChild name).namespaces.size)
    (hkey : ((c.withChild name).namespaceOf id).child? key = some child) :
    (id.index < c.namespaces.size ∧ (c.namespaceOf id).child? key = some child) ∨
      (id = c.currentId ∧ key = name ∧ child = ⟨c.namespaces.size⟩) := by
  rcases withChild_cases hid with hold | rfl
  · rw [hc.namespaceOf_withChild, if_neg (Nat.ne_of_lt hold)] at hkey
    split at hkey
    next heq =>
      subst heq
      rw [Namespace.child?, Namespace.addChild, List.lookup_cons] at hkey
      split at hkey
      next hname => exact .inr ⟨rfl, eq_of_beq hname, (Option.some_inj.1 hkey).symm⟩
      next => exact .inl ⟨hold, hkey⟩
    next => exact .inl ⟨hold, hkey⟩
  · rw [hc.withChild_self] at hkey
    cases hkey

/-- No namespace has the path of a child that the current one does not have. -/
theorem chain_ne_of_child? (hc : c.Valid) (hnew : c.current.child? name = none)
    (hid : id.index < c.namespaces.size) : (c.namespaceOf id).chain ≠ name :: c.current.chain := by
  intro hchain
  obtain ⟨parent, hparent, hrest, hname⟩ := hc.parents id hid name _ hchain
  obtain rfl := hc.paths parent _ hparent hc.currentId_lt hrest
  exact absurd (hname.symm.trans hnew) (Option.some_ne_none id)

/-- A path still leads to one namespace at most. -/
theorem paths_withChild (hc : c.Valid) (hnew : c.current.child? name = none) {i j : NamespaceId}
    (hi : i.index < (c.withChild name).namespaces.size)
    (hj : j.index < (c.withChild name).namespaces.size)
    (h : ((c.withChild name).namespaceOf i).chain = ((c.withChild name).namespaceOf j).chain) :
    i = j := by
  rcases withChild_cases hi with hi | rfl <;> rcases withChild_cases hj with hj | rfl
  · rw [hc.chain_withChild name hi, hc.chain_withChild name hj] at h
    exact hc.paths i j hi hj h
  · rw [hc.chain_withChild name hi, hc.withChild_self] at h
    exact absurd h (hc.chain_ne_of_child? hnew hi)
  · rw [hc.chain_withChild name hj, hc.withChild_self] at h
    exact absurd h.symm (hc.chain_ne_of_child? hnew hj)
  · rfl

/-- A new namespace inside the current one leaves a valid context. -/
theorem withChild (hc : c.Valid) (hnew : c.current.child? name = none) :
    (c.withChild name).Valid := by
  have hsteady : Steady c (c.withChild name) := ⟨.refl _, .refl _, fun _ _ h => h⟩
  have hsize := size_withChild c name
  have hlt := hc.currentId_lt
  refine ⟨?_, ?declared⟩
  constructor
  case pool => exact hc.pool
  case rooted => exact hsize ▸ Nat.succ_pos _
  case entered =>
    intro id hid
    rw [hsize]
    rcases List.mem_cons.1 hid with rfl | hid
    · exact Nat.lt_succ_self _
    · exact Nat.lt_succ_of_lt (hc.entered id hid)
  case paths => exact fun i j hi hj h => hc.paths_withChild hnew hi hj h
  case parents =>
    intro j hj key rest hchain
    rcases withChild_cases hj with hj | rfl
    · rw [hc.chain_withChild name hj] at hchain
      obtain ⟨i, hi, hrest, hkey⟩ := hc.parents j hj key rest hchain
      exact ⟨i, by omega, (hc.chain_withChild name hi).trans hrest,
        hc.child?_withChild hnew hi hkey⟩
    · rw [hc.withChild_self] at hchain
      cases hchain
      refine ⟨c.currentId, by omega, hc.chain_withChild name hlt, ?_⟩
      rw [hc.namespaceOf_withChild, if_neg (Nat.ne_of_lt hlt), if_pos rfl]
      exact List.lookup_cons_self
  case children =>
    intro i hi key j hj
    rw [hsize]
    rcases hc.child?_withChild_cases hi hj with ⟨hi, hj⟩ | ⟨rfl, rfl, rfl⟩
    · obtain ⟨hjlt, hchain⟩ := hc.children i hi key j hj
      rw [hc.chain_withChild name hjlt, hc.chain_withChild name hi]
      exact ⟨Nat.lt_succ_of_lt hjlt, hchain⟩
    · rw [hc.withChild_self, hc.chain_withChild _ hlt]
      exact ⟨Nat.lt_succ_self _, rfl⟩
  case enums =>
    intro i hi e he
    rcases withChild_cases hi with hi | rfl
    · rw [hc.map_namespaceOf_withChild Namespace.enums (fun _ _ _ => rfl) name hi] at he
      exact (hc.enums i hi e he).mono hsteady
    · rw [hc.withChild_self] at he
      cases he
  case structs =>
    intro i hi s hs
    rcases withChild_cases hi with hi | rfl
    · rw [hc.map_namespaceOf_withChild Namespace.structs (fun _ _ _ => rfl) name hi] at hs
      rw [Namespace.path, hc.chain_withChild name hi]
      exact (hc.structs i hi s hs).mono hsteady
    · rw [hc.withChild_self] at hs
      cases hs
  case functions =>
    intro i hi f hf
    rcases withChild_cases hi with hi | rfl
    · rw [hc.map_namespaceOf_withChild Namespace.functions (fun _ _ _ => rfl) name hi] at hf
      exact (hc.functions i hi f hf).mono hsteady (.refl _)
    · rw [hc.withChild_self] at hf
      exact absurd hf (Array.not_mem_empty f)
  case layouts => exact hc.layouts
  case named => exact hc.named
  case declared =>
    intro t ty hty
    obtain ⟨type, htype, i, hi, hpath, hdeclares⟩ := hc.declared t ty hty
    refine ⟨type, htype, i, by omega, ?_, ?_⟩
    · rw [Namespace.path, hc.chain_withChild name hi]
      exact hpath
    · unfold Namespace.Declares Namespace.enum? Namespace.struct? at hdeclares ⊢
      rwa [hc.map_namespaceOf_withChild Namespace.enums (fun _ _ _ => rfl) name hi,
        hc.map_namespaceOf_withChild Namespace.structs (fun _ _ _ => rfl) name hi]

end Valid

/-- Entering a namespace leaves a valid context. -/
theorem enter_safe (name : String) (c : Context) : Safe c (enter name c).2 := by
  intro hc
  unfold enter
  cases hchild : c.current.child? name with
  | some id =>
    refine hc.withEntered fun id' hid' => ?_
    rcases List.mem_cons.1 hid' with rfl | hid'
    · exact (hc.children _ hc.currentId_lt name _ hchild).1
    · exact hc.entered id' hid'
  | none => exact ⟨hc.withChild hchild, .refl _, .refl _, fun _ _ h => h⟩

end FormCompiler.Context
