import FormCompiler.Proofs.Context.Accounted
import FormCompiler.Proofs.Context.Tables
import FormCompiler.Proofs.HiddenStructs
import FormCompiler.Proofs.Lower.Refusals
import FormCompiler.Proofs.ReadableNames
import FormCompiler.Proofs.TypeTexts

/-!
# When Something Is Declared Already

A definition that is otherwise valid is refused exactly if its symbol is taken, that of a function
or that of a struct, and the symbol may be taken from another namespace: `a-b` is written like `Db`
in a namespace `a`. So a redeclaration is sometimes reported where nothing is declared anew
(`redeclared_hyphenUnit`). Where names keep symbols apart (`Context.Legible`), a symbol is taken
exactly if the current namespace has a function of the name with parameters of the same types, or a
struct of the name (`redeclared_exactly`).

* `structPlan`, `functionPlan`: what is read of a definition before it is declared.
* `Compilation.RefusedAs`: a definition is refused as declared already.
* `functionTaken_iff_of_legible`, `structTaken_iff_of_plain`: whose symbol takes another one.
-/

namespace FormCompiler

/-! ## Symbols that are taken -/

namespace Context

variable {c c' : Context} {name : String} {params : List TypeId}

/-- The name of a function with parameters of these types keeps its symbol apart from others. -/
structure LegibleName (c : Context) (name : String) (params : List TypeId) : Prop where
  readable : Symbol.Readable name.toList
  nonempty : name.toList ≠ []
  takes : name.toList.takeWhile Symbol.isPlain = [] → params ≠ []
  outside : ∀ ns ∈ c.namespaces, Symbol.Outside name ns.path

instance : Decidable (c.LegibleName name params) :=
  decidable_of_iff (Symbol.Readable name.toList ∧ name.toList ≠ [] ∧
      (name.toList.takeWhile Symbol.isPlain = [] → params ≠ []) ∧
      ∀ ns ∈ c.namespaces, Symbol.Outside name ns.path)
    ⟨fun h => ⟨h.1, h.2.1, h.2.2.1, h.2.2.2⟩,
      fun h => ⟨h.readable, h.nonempty, h.takes, h.outside⟩⟩

/-- The names of types and namespaces are plain, and those of functions keep their symbols apart. -/
structure Legible (c : Context) : Prop extends PlainTypes c where
  functions : ∀ ns ∈ c.namespaces, ∀ f ∈ ns.functions, c.LegibleName f.name f.paramTypes

instance : Decidable c.Legible :=
  decidable_of_iff (c.PlainTypes ∧
      ∀ ns ∈ c.namespaces, ∀ f ∈ ns.functions, c.LegibleName f.name f.paramTypes)
    ⟨fun h => ⟨h.1, h.2⟩, fun h => ⟨h.toPlainTypes, h.functions⟩⟩

/-- A local struct takes its symbol. -/
theorem structTaken_of_struct? (hc : c.Valid) {s : Struct} (hs : c.current.struct? name = some s) :
    c.StructTaken (c.structSymbol name) :=
  ⟨c.currentId, hc.currentId_lt, (name, s), mem_of_lookup hs, rfl⟩

/-- A local overload takes its symbol. -/
theorem functionTaken_of_overload? (hc : c.Valid) {f : Function}
    (hf : c.current.overload? name params = some f) :
    c.FunctionTaken (c.functionSymbol name params) := by
  obtain ⟨hmem, rfl, rfl⟩ := Namespace.of_overload hf
  exact ⟨c.currentId, hc.currentId_lt, f, hmem, rfl⟩

/-- An enum can be registered with its struct exactly if the symbol of the struct is not taken. -/
theorem typesFree_iff (hc : c.Valid) (hl : c.Laid) (ha : c.Accounted) :
    Lower.TypesFree name c ↔ ¬ c.StructTaken (c.structSymbol name) := by
  rw [← ha.structs, Bool.not_eq_true, Option.isSome_eq_false_iff, Option.isNone_iff_eq_none]
  refine ⟨fun h => h.noBacking, fun hfree => ?_⟩
  have hnoStruct : c.current.struct? name = none := by
    by_contra hsome
    obtain ⟨s, hs⟩ := Option.ne_none_iff_exists'.1 hsome
    have htaken := (ha.structs _).2 (structTaken_of_struct? hc hs)
    rw [hfree] at htaken
    cases htaken
  refine ⟨?_, hnoStruct, hfree⟩
  -- an enum would have a struct of its name
  by_contra hsome
  obtain ⟨e, he⟩ := Option.ne_none_iff_exists'.1 hsome
  obtain ⟨s, hs, -⟩ := hl.enums _ _ _ he
  exact Option.some_ne_none s (hs.symm.trans hnoStruct)

/-- Where names are plain, the symbol of a struct is taken exactly if the current namespace has a
struct of the name. -/
theorem structTaken_iff_of_plain (hc : c.Valid) (hplain : c.PlainTypes)
    (hname : Symbol.PlainName name) :
    c.StructTaken (c.structSymbol name) ↔ (c.current.struct? name).isSome = true := by
  constructor
  · rintro ⟨id, hid, s, hs, hsymbol⟩
    have hmem := namespaceOf_mem hid
    obtain ⟨hpath, rfl⟩ := (Symbol.ofStruct_inj (hplain.paths _ hmem) (hplain.structs _ hmem s hs).1
      (hplain.paths _ (namespaceOf_mem hc.currentId_lt)) hname).1 hsymbol
    obtain rfl : id = c.currentId :=
      hc.paths id c.currentId hid hc.currentId_lt (List.reverse_injective hpath)
    exact List.lookup_isSome_iff.2 ⟨s, hs, beq_self_eq_true s.1⟩
  · intro h
    obtain ⟨s, hs⟩ := Option.isSome_iff_exists.1 h
    exact structTaken_of_struct? hc hs

/-- A type that is in the pool of a context with plain names has a text of plain names. -/
theorem typeText_typeName (hc : c.Valid) (hl : c.Laid) (hplain : c.PlainTypes) {t : TypeId}
    (ht : t.index < c.pool.types.size) : Symbol.TypeText (c.typeName t) := by
  refine Symbol.typeText_format hc.pool (fun type htype => ?_) hplain.size ht
  obtain ⟨i, hi⟩ := Array.mem_iff_getElem?.1 htype
  cases type with
  | primitive q => trivial
  | pointer pointee => trivial
  | struct name path =>
    obtain ⟨hpath, hname, -⟩ := hplain.names (t := ⟨i⟩) hc hl (.inl hi)
    exact ⟨hpath, hname⟩
  | enum name path =>
    obtain ⟨hpath, hname, -⟩ := hplain.names (t := ⟨i⟩) hc hl (.inr hi)
    exact ⟨hpath, hname⟩

/-- Visible types that are printed alike are the same. -/
theorem Valid.types_of_texts (hc : c.Valid) (hl : c.Laid) (hplain : c.PlainTypes)
    {ts ts' : List TypeId} (ht : ∀ t ∈ ts, c.Visible t) (ht' : ∀ t ∈ ts', c.Visible t)
    (h : ts.map c.typeName = ts'.map c.typeName) : ts = ts' := by
  induction ts generalizing ts' with
  | nil => exact (List.map_eq_nil_iff.1 h.symm).symm
  | cons t ts ih =>
    cases ts' with
    | nil => cases h
    | cons t' ts' =>
      obtain ⟨hfirst, hrest⟩ := List.cons.inj h
      rw [List.forall_mem_cons] at ht ht'
      rw [(hc.typeName_inj hl hplain ht.1 ht'.1).1 hfirst, ih ht.2 ht'.2 hrest]

/-- A function with a legible name, in any namespace of the context. -/
theorem LegibleName.readableFunction (h : c.LegibleName name params) (hc : c.Valid) (hl : c.Laid)
    (hplain : c.PlainTypes) (hparams : ∀ t ∈ params, c.Visible t) {ns : Namespace}
    (hns : ns ∈ c.namespaces) :
    Symbol.ReadableFunction ns.path name (params.map c.typeName) where
  path := hplain.paths ns hns
  nonempty := h.nonempty
  takes hnone hempty := h.takes hnone (List.map_eq_nil_iff.1 hempty)
  name := h.readable
  params := by
    intro text htext
    obtain ⟨t, ht, rfl⟩ := List.mem_map.1 htext
    exact typeText_typeName hc hl hplain (hparams t ht).inPool

/-- Where names are legible, the symbol of a function is taken exactly if the current namespace has
an overload with parameters of the same types. -/
theorem functionTaken_iff_of_legible (hc : c.Sheltered) (hlegible : c.Legible)
    (hname : c.LegibleName name params) (hparams : ∀ t ∈ params, c.Visible t) :
    c.FunctionTaken (c.functionSymbol name params) ↔
      (c.current.overload? name params).isSome = true := by
  constructor
  · rintro ⟨id, hid, f, hf, hsymbol⟩
    have hfparams : ∀ t ∈ f.paramTypes, c.Visible t := by
      intro t ht
      obtain ⟨p, hp, rfl⟩ := List.mem_map.1 ht
      exact hc.mentions _ (.param hf hp)
    have hplain := hlegible.toPlainTypes
    have hmem := namespaceOf_mem hid
    have hcurrent : c.current ∈ c.namespaces := namespaceOf_mem hc.valid.currentId_lt
    have hfname := hlegible.functions _ hmem f hf
    obtain ⟨hpath, rfl, htexts⟩ := (Symbol.ofFunction_inj_of_readable
      (hfname.readableFunction hc.valid hc.laid hplain hfparams hmem)
      (hname.readableFunction hc.valid hc.laid hplain hparams hcurrent)
      (hfname.outside _ hcurrent) (hname.outside _ hmem)).1 hsymbol
    obtain rfl : id = c.currentId :=
      hc.valid.paths id c.currentId hid hc.valid.currentId_lt (List.reverse_injective hpath)
    have htypes := hc.valid.types_of_texts hc.laid hplain hfparams hparams htexts
    by_contra hnone
    rw [Bool.not_eq_true, Option.isSome_eq_false_iff, Option.isNone_iff_eq_none] at hnone
    exact Namespace.of_overload_none hnone hf rfl htypes
  · intro h
    obtain ⟨f, hf⟩ := Option.isSome_iff_exists.1 h
    exact functionTaken_of_overload? hc.valid hf

end Context

/-! ## What is read before something is declared -/

namespace Lower

variable {σ : Type} {u u₁ : Compilation σ} {nameNode body : NodeId} {name : String}
  {parts : List NodeId}

/-- What the checks of the definition of a struct give. -/
structure StructPlan where
  members : List (String × TypeId)
  linkage : Ir.Linkage
  nameSpan : Span

/-- The part of the definition of a struct before it is registered. -/
def structPlan (nameNode body : NodeId) (parts : List NodeId) : Lower σ StructPlan := do
  match parts with
  | [linkageNode, membersNode] => do
    let linkage ← expectLinkage linkageNode
    let memberNodes ← expectList membersNode "struct members"
    let members ← typedNames "struct member" [] memberNodes
    let nameSpan ← span nameNode
    return ⟨members, linkage, nameSpan⟩
  | _ => fail (Report.incorrectArgumentCount (← span body) "struct" 2 parts.length)

/-- The checks of the definition of a struct come before it is registered. -/
theorem defineStruct_eq (nameNode : NodeId) (name : String) (body : NodeId)
    (parts : List NodeId) :
    (defineStruct nameNode name body parts : Lower σ PUnit) = (do
      let plan ← structPlan nameNode body parts
      onContext (registerStruct name plan.members plan.linkage plan.nameSpan)) := by
  unfold defineStruct structPlan
  split
  · simp only [bind_assoc, pure_bind]
  · simp only [bind_assoc, fail_bind]

/-- What the checks of the definition of a function give, and the forms of its body. -/
structure FunctionPlan where
  params : List Param
  returnType : TypeId
  linkage : Ir.Linkage
  nameSpan : Span
  paramNodes : List NodeId
  forms : List NodeId

/-- The types of the parameters. -/
def FunctionPlan.paramTypes (plan : FunctionPlan) : List TypeId := plan.params.map (·.ty)

/-- The part of the definition of a function before it is declared. -/
def functionPlan (nameNode body : NodeId) (parts : List NodeId) : Lower σ FunctionPlan := do
  match parts with
  | linkageNode :: tyNode :: paramsNode :: forms => do
    let linkage ← expectLinkage linkageNode
    let returnType ← resolveType tyNode
    let paramNodes ← expectList paramsNode "parameter list"
    let named ← typedNames "parameter" [] paramNodes
    let nameSpan ← span nameNode
    return ⟨named.map fun (name, t) => ⟨name, t⟩, returnType, linkage, nameSpan, paramNodes, forms⟩
  | _ => fail (Report.tooFewArguments (← span body) "fn" 3 parts.length)

/-- The part of the definition of a function after it is declared. -/
def defineBody (plan : FunctionPlan) (func : Ir.FuncId) : Lower σ PUnit := do
  match plan.forms with
  | [] => return ⟨⟩
  | first :: rest => do
    let f ← forest
    ensuring (Lower.body func (plan.params.zip (plan.paramNodes.map f.span)) plan.returnType first
      rest) (Context.onModule (Ir.Module.finishFunction func))

/-- The checks of the definition of a function come before it is declared, and its body after. -/
theorem defineFunction_eq (nameNode : NodeId) (name : String) (body : NodeId)
    (parts : List NodeId) :
    (defineFunction nameNode name body parts : Lower σ PUnit) = (do
      let plan ← functionPlan nameNode body parts
      let func ← onContext
        (Context.declareFunction name plan.params plan.returnType plan.linkage plan.nameSpan)
      defineBody plan func) := by
  unfold defineFunction functionPlan defineBody
  split
  · simp only [bind_assoc]
    rfl
  · simp only [bind_assoc, fail_bind]

/-- The checks of the definition of a struct are quiet. -/
theorem structPlan_ends (nameNode body : NodeId) (parts : List NodeId) (u : Compilation σ) :
    Ends (structPlan nameNode body parts) u (fun _ u' => u.Quiet u') fun _ => True := by
  unfold structPlan
  split
  next linkageNode membersNode =>
    refine (expectLinkage_reads linkageNode u).andThen (fun _ _ => trivial) ?_
    rintro linkage _ ⟨-, rfl⟩
    refine (expectList_reads membersNode _ u).andThen (fun _ _ => trivial) ?_
    rintro memberNodes _ ⟨-, rfl⟩
    exact (typedNames_ends _ [] memberNodes u).andThen (fun _ _ => trivial) fun members u₁ h =>
      .next rfl (.pure h.1)
  next => exact (Refuses.read fun _ => fail_refuses _).ends u fun _ _ => trivial

/-- The checks of the definition of a function are quiet, and find types that forms stand for. -/
theorem functionPlan_ends (nameNode body : NodeId) (parts : List NodeId) (u : Compilation σ) :
    Ends (functionPlan nameNode body parts) u
      (fun plan u' => u.Quiet u' ∧
        (u.context.Valid → (∀ p ∈ plan.params, u'.context.Grounded p.ty) ∧
          u'.context.Grounded plan.returnType) ∧
        u.forest.Lists u'.context plan.paramNodes (plan.params.map fun p => (p.name, p.ty)))
      fun _ => True := by
  unfold functionPlan
  split
  next linkageNode tyNode paramsNode forms =>
    refine (expectLinkage_reads linkageNode u).andThen (fun _ _ => trivial) ?_
    rintro linkage _ ⟨-, rfl⟩
    refine ((resolveType_denotes tyNode u).and (resolveType_ends tyNode u)).andThen
      (fun _ _ => trivial) ?_
    rintro returnType u₁ ⟨⟨hentered, -⟩, hquiet, hground⟩
    refine (expectList_reads paramsNode _ u₁).andThen (fun _ _ => trivial) ?_
    rintro paramNodes _ ⟨-, rfl⟩
    refine ((typedNames_reads _ paramNodes u₁).and (typedNames_ends _ [] paramNodes u₁)).andThen
      (fun _ _ => trivial) ?_
    rintro named u₂ ⟨⟨-, hlists⟩, hquiet', hnamed⟩
    rw [hentered.forest] at hlists
    refine .next rfl (.pure ⟨IsTrans.trans _ _ _ hquiet hquiet', fun hu => ⟨?_, ?_⟩, ?_⟩)
    · intro p hp
      obtain ⟨d, hd, rfl⟩ := List.mem_map.1 hp
      exact hnamed (hquiet.valid hu) (fun _ h => absurd h List.not_mem_nil) d hd
    · exact (hground hu).mono hquiet'.steady
    · rw [List.map_map]
      exact (List.map_id named).symm ▸ hlists
  next => exact (Refuses.read fun _ => fail_refuses _).ends u fun _ _ => trivial

end Lower

/-! ## Refusals -/

/-- The definition is refused as declared already: one error is reported, with the code and the
name, and nothing is declared. -/
structure Compilation.RefusedAs {σ : Type} (code : Code) (name : String) (u u' : Compilation σ) :
    Prop where
  namespaces : u'.context.namespaces = u.context.namespaces
  functions : u'.context.ir.functions = u.context.ir.functions
  reported : ∃ span, u'.queue = u.queue.emitError (Report.redeclaration code span name)

namespace Lower

variable {σ : Type} {u u₁ : Compilation σ} {nameNode body : NodeId} {name : String}
  {parts : List NodeId}

/-- What was refused without declaring anything. -/
theorem refusedAs_of_still {code : Code} {c : Context} {span : Span}
    (h : u.context.Within (· = ·) Ir.Module.Still c)
    (hqueue : c.queue = u.queue.emitError (Report.redeclaration code span name)) :
    u.RefusedAs code name (u.withContext c) :=
  ⟨h.namespaces, h.ir.functions, span, hqueue⟩

/-- A struct whose definition is read is refused exactly if its symbol is taken. -/
theorem defineStruct_refused (hu : u.context.Valid) (ha : u.context.Accounted) {plan : StructPlan}
    (hplan : structPlan nameNode body parts u = .ok plan u₁) :
    Ends (defineStruct nameNode name body parts) u
      (fun _ u' => ¬ u₁.context.StructTaken (u₁.context.structSymbol name) ∧
        u.StructDeclared name parts u')
      fun u' => u₁.context.StructTaken (u₁.context.structSymbol name) ∧
        u₁.RefusedAs .structRedeclared name u' := by
  have hquiet := (structPlan_ends nameNode body parts u).of_ok hplan
  have hu₁ := hquiet.valid hu
  have ha₁ := hquiet.develops.accounted hu ha
  have hown : Ends (defineStruct nameNode name body parts) u
      (fun _ _ => ¬ u₁.context.StructTaken (u₁.context.structSymbol name))
      fun u' => u₁.context.StructTaken (u₁.context.structSymbol name) ∧
        u₁.RefusedAs .structRedeclared name u' := by
    rw [defineStruct_eq]
    refine .next hplan ((onContext_ends ((registerStruct_ends name plan.members plan.linkage
      plan.nameSpan u₁.context).and (registerStruct_failsWith name plan.members plan.linkage
        plan.nameSpan u₁.context))).mono ?_ ?_)
    · rintro _ _ ⟨c, rfl, hregistered, -⟩ htaken
      obtain ⟨-, c₁, c₂, layout, hwithin, -, hfree, -⟩ := hregistered
      have hsome := (ha₁.structs _).2 htaken
      rw [← hwithin.ir.sameNames.structs, hfree] at hsome
      cases hsome
    · rintro _ ⟨c, rfl, ⟨hwithin, htaken⟩, hqueue⟩
      refine ⟨?_, refusedAs_of_still hwithin hqueue⟩
      rcases htaken with hlocal | hsymbol
      · obtain ⟨s, hs⟩ := Option.isSome_iff_exists.1 hlocal
        exact Context.structTaken_of_struct? hu₁ hs
      · exact (ha₁.structs _).1 hsymbol
  exact (hown.and (defineStruct_adds hu nameNode name body parts)).mono (fun _ _ h => h)
    fun _ h => h.1

/-- An enum whose definition is read is refused before it is registered exactly if the symbol of its
struct is taken, and after it was registered if one of its functions is declared already. -/
theorem defineEnum_refused (hu : u.context.Valid) (hl : u.context.Laid) (ha : u.context.Accounted)
    {plan : EnumPlan} (hplan : enumPlan nameNode name body parts u = .ok plan u₁) :
    Ends (defineEnum nameNode name body parts) u
      (fun _ _ => ¬ u₁.context.StructTaken (u₁.context.structSymbol name))
      fun u' => (u₁.context.StructTaken (u₁.context.structSymbol name) ∧
          u₁.RefusedAs (if u₁.context.hasLocalEnum name then .enumRedeclared
            else .structRedeclared) name u') ∨
        (¬ u₁.context.StructTaken (u₁.context.structSymbol name) ∧
          ∃ f span, u'.queue =
            u₁.queue.emitError (Report.redeclaration .functionRedeclared span f)) := by
  obtain ⟨hquiet, rfl, hgrounded, hinteger, -⟩ := (enumPlan_ends _ _ _ _ u).of_ok hplan
  have hu₁ := hquiet.valid hu
  have hfree : TypesFree plan.name u₁.context ↔ _ :=
    Context.typesFree_iff hu₁ ((hquiet.continues hu).laid hl) (hquiet.develops.accounted hu ha)
  rw [defineEnum_eq]
  refine .next hplan ((onContext_ends (registerEnum_reports hu₁ plan.name plan.builder plan.linkage
    (hgrounded hu) hinteger plan.nameSpan plan.bodySpan)).mono ?_ ?_)
  · rintro _ _ ⟨c, rfl, h, -⟩
    exact hfree.1 h
  · rintro _ ⟨c, rfl, ⟨htaken, hwithin, hqueue⟩ | ⟨h, f, hqueue⟩⟩
    · rw [hfree, not_not] at htaken
      exact .inl ⟨htaken, refusedAs_of_still hwithin hqueue⟩
    · exact .inr ⟨hfree.1 h, f, plan.bodySpan, hqueue⟩

/-- A function whose definition is read is refused exactly if its symbol is taken. If it is not, the
function is declared, also if its body fails. -/
theorem defineFunction_refused (hu : u.context.Valid) (ha : u.context.Accounted)
    {plan : FunctionPlan} (hplan : functionPlan nameNode body parts u = .ok plan u₁) :
    Ends (defineFunction nameNode name body parts) u
      (fun _ u' => ¬ u₁.context.FunctionTaken (u₁.context.functionSymbol name plan.paramTypes) ∧
        u.FunctionDeclared name parts u')
      fun u' => (u₁.context.FunctionTaken (u₁.context.functionSymbol name plan.paramTypes) ∧
          u₁.RefusedAs .functionRedeclared name u') ∨
        (¬ u₁.context.FunctionTaken (u₁.context.functionSymbol name plan.paramTypes) ∧
          u.FunctionDeclared name parts u') := by
  obtain ⟨hquiet, hgrounded, -⟩ := (functionPlan_ends nameNode body parts u).of_ok hplan
  have hu₁ := hquiet.valid hu
  have ha₁ := hquiet.develops.accounted hu ha
  -- a function that is declared is one more in the module, and stays there
  have hown : Ends (defineFunction nameNode name body parts) u
      (fun _ _ => ¬ u₁.context.FunctionTaken (u₁.context.functionSymbol name plan.paramTypes))
      fun u' => (u₁.context.FunctionTaken (u₁.context.functionSymbol name plan.paramTypes) ∧
          u₁.RefusedAs .functionRedeclared name u') ∨
        (¬ u₁.context.FunctionTaken (u₁.context.functionSymbol name plan.paramTypes) ∧
          ¬ u.OnlyTypes u') := by
    rw [defineFunction_eq]
    refine .next hplan ((onContext_ends ((Context.declareFunction_ends name plan.params
      plan.returnType plan.linkage plan.nameSpan u₁.context).and
        (Context.declareFunction_failsWith name plan.params plan.returnType plan.linkage
          plan.nameSpan u₁.context))).andThen ?_ ?_)
    · rintro _ ⟨c, rfl, ⟨hwithin, htaken⟩, hqueue⟩
      refine .inl ⟨?_, refusedAs_of_still hwithin hqueue⟩
      rcases htaken with hlocal | hsymbol
      · obtain ⟨f, hf⟩ := Option.isSome_iff_exists.1 hlocal
        exact Context.functionTaken_of_overload? hu₁ hf
      · exact (ha₁.functions _).1 hsymbol
    · rintro func _ ⟨c, rfl, hdeclared, -⟩
      have hfree : ¬ u₁.context.FunctionTaken
          (u₁.context.functionSymbol name plan.paramTypes) := by
        intro htaken
        have hsome := (ha₁.functions _).2 htaken
        have hnone : u₁.context.ir.lookupFunction? (u₁.context.functionSymbol name
          plan.paramTypes) = none := hdeclared.signature_free.symbol
        rw [hnone] at hsome
        cases hsome
      unfold defineBody
      split
      · exact .pure hfree
      next first rest _ =>
        obtain ⟨-, hsteady⟩ := hdeclared.safe hu₁ (hgrounded hu).1 (hgrounded hu).2
        refine .next rfl ((functionBody_ends hdeclared (fun p hp => ((hgrounded hu).1 p hp).mono
          hsteady) _ first rest u₁).mono (fun _ _ _ => hfree) ?_)
        rintro u' ⟨hwithin, -, -⟩
        refine .inr ⟨hfree, fun htypes => ?_⟩
        have hsize : u₁.context.ir.functions.size < c.ir.functions.size := by
          obtain ⟨-, c₁, tys, ret, ir, hsame, -, -, hmodule, rfl⟩ := hdeclared
          have hlt := hmodule.func_lt
          rwa [hmodule.func_eq, hsame.ir.functions] at hlt
        have hkept := hwithin.ir.functions
        rw [htypes.within.ir.functions, ← hquiet.within.context.ir.functions] at hkept
        exact Nat.not_le_of_lt hsize hkept
  refine (hown.and (defineFunction_adds hu nameNode name body parts)).mono (fun _ _ h => h) ?_
  rintro u' ⟨htaken | ⟨hfree, hmore⟩, hadds⟩
  · exact .inl htaken
  · exact .inr ⟨hfree, hadds.resolve_left hmore⟩

end Lower

/-! ## Runs -/

section

variable {σ : Type} {u u₁ : Compilation σ} {options : Options} {expander : Expander σ} {memory : σ}

/-- After a run a symbol is taken in the module exactly if a declaration has it. -/
theorem Run.accounted (h : Run (.start options expander memory) u) : u.context.Accounted :=
  h.invariant (Context.accounted_start options) fun _ _ hc hchange => hchange.accounted hc

/-- After a run the types in the tables are visible. -/
theorem Run.sheltered (h : Run (.start options expander memory) u) : u.context.Sheltered := by
  have hask : ∀ (u : Compilation σ) (t : TypeId),
      u.Shelters (u.withContext (Context.backendType t u.context).2) := fun u t hu =>
    hu.of_same ((Context.Develops.of_still (Context.backendType_moves t u.context)).continues
      hu.valid) (Context.backendType_moves t u.context).namespaces
  exact h.rel Lower.topLevel_shelters (fun _ _ => id) hask (Context.Sheltered.start options)

namespace Lower

/-- In every unit that forms have built, a definition whose checks pass is refused as a
redeclaration exactly if its symbol is taken, by a declaration of whatever namespace; the functions
of an enum come after the enum. Where names are legible, the symbol is taken exactly if the current
namespace has an overload of the function with parameters of the same types, or a struct of the
name, which every enum has. -/
theorem redeclared_exactly (h : Run (.start options expander memory) u)
    {node nameNode body : NodeId} {name : String} {parts : List NodeId} :
    (∀ plan, u.forest.IsDefinitionOf node nameNode body "fn" name parts →
      functionPlan nameNode body parts u = .ok plan u₁ →
      Ends (processTopLevel node) u
          (fun _ u' =>
            ¬ u₁.context.FunctionTaken (u₁.context.functionSymbol name plan.paramTypes) ∧
              u.FunctionDeclared name parts u')
          (fun u' =>
            (u₁.context.FunctionTaken (u₁.context.functionSymbol name plan.paramTypes) ∧
              u₁.RefusedAs .functionRedeclared name u') ∨
            (¬ u₁.context.FunctionTaken (u₁.context.functionSymbol name plan.paramTypes) ∧
              u.FunctionDeclared name parts u')) ∧
        (u₁.context.Legible → u₁.context.LegibleName name plan.paramTypes →
          (u₁.context.FunctionTaken (u₁.context.functionSymbol name plan.paramTypes) ↔
            (u.context.current.overload? name plan.paramTypes).isSome = true))) ∧
    (∀ plan, u.forest.IsDefinitionOf node nameNode body "struct" name parts →
      structPlan nameNode body parts u = .ok plan u₁ →
      Ends (processTopLevel node) u
          (fun _ u' => ¬ u₁.context.StructTaken (u₁.context.structSymbol name) ∧
            u.StructDeclared name parts u')
          (fun u' => u₁.context.StructTaken (u₁.context.structSymbol name) ∧
            u₁.RefusedAs .structRedeclared name u') ∧
        (u₁.context.PlainTypes → Symbol.PlainName name →
          (u₁.context.StructTaken (u₁.context.structSymbol name) ↔
            (u.context.current.struct? name).isSome = true))) ∧
    (∀ plan, u.forest.IsDefinitionOf node nameNode body "enum" name parts →
      enumPlan nameNode name body parts u = .ok plan u₁ →
      Ends (processTopLevel node) u
          (fun _ _ => ¬ u₁.context.StructTaken (u₁.context.structSymbol name))
          (fun u' =>
            (u₁.context.StructTaken (u₁.context.structSymbol name) ∧
              u₁.RefusedAs (if u.context.hasLocalEnum name then .enumRedeclared
                else .structRedeclared) name u') ∨
            (¬ u₁.context.StructTaken (u₁.context.structSymbol name) ∧
              ∃ f span, u'.queue =
                u₁.queue.emitError (Report.redeclaration .functionRedeclared span f))) ∧
        (u₁.context.PlainTypes → Symbol.PlainName name →
          (u₁.context.StructTaken (u₁.context.structSymbol name) ↔
            (u.context.current.struct? name).isSome = true))) := by
  have hu := h.valid
  have ha := h.accounted
  refine ⟨fun plan hnode hplan => ?_, fun plan hnode hplan => ?_, fun plan hnode hplan => ?_⟩
  · obtain ⟨hquiet, -, hlists⟩ := (functionPlan_ends nameNode body parts u).of_ok hplan
    have hsheltered : u₁.context.Sheltered := hquiet.shelters h.sheltered
    have hrun := (processTopLevel_parts hnode).2.2.1 rfl
    refine ⟨?_, fun hlegible hname => ?_⟩
    · rw [Ends, hrun]
      exact defineFunction_refused hu ha hplan
    · have hvisible : ∀ t ∈ plan.paramTypes, u₁.context.Visible t := by
        intro t ht
        obtain ⟨p, hp, rfl⟩ := List.mem_map.1 ht
        exact hlists.visible hsheltered.valid hsheltered.laid (.refl hsheltered.valid) _
          (List.mem_map_of_mem hp)
      rw [Context.functionTaken_iff_of_legible hsheltered hlegible hname hvisible,
        hquiet.within.context.current]
  · have hquiet := (structPlan_ends nameNode body parts u).of_ok hplan
    have hrun := (processTopLevel_parts hnode).2.1 rfl
    refine ⟨?_, fun hplain hname => ?_⟩
    · rw [Ends, hrun]
      exact defineStruct_refused hu ha hplan
    · rw [Context.structTaken_iff_of_plain (hquiet.valid hu) hplain hname,
        hquiet.within.context.current]
  · have hquiet := ((enumPlan_ends nameNode name body parts u).of_ok hplan).1
    have hrun := (processTopLevel_parts hnode).1 rfl
    have hlocal : u₁.context.hasLocalEnum name = u.context.hasLocalEnum name := by
      rw [Context.hasLocalEnum, hquiet.within.context.current, Context.hasLocalEnum]
    refine ⟨?_, fun hplain hname => ?_⟩
    · rw [Ends, hrun, ← hlocal]
      exact defineEnum_refused hu h.laid ha hplan
    · rw [Context.structTaken_iff_of_plain (hquiet.valid hu) hplain hname,
        hquiet.within.context.current]

/-- The unit with the forms `(def a-b (fn extern void ()))` and `(def Db (fn extern void ()))`,
after the first one. -/
def hyphenUnit : Compilation Unit :=
  final (processTopLevel ⟨7⟩) {
    forest := ⟨#[⟨.token ⟨.symbol, ⟨1⟩⟩, .dummy⟩, ⟨.token ⟨.symbol, ⟨2⟩⟩, .dummy⟩,
      ⟨.token ⟨.symbol, ⟨3⟩⟩, .dummy⟩, ⟨.token ⟨.symbol, ⟨4⟩⟩, .dummy⟩,
      ⟨.token ⟨.symbol, ⟨5⟩⟩, .dummy⟩, ⟨.list [], .dummy⟩, ⟨.list [⟨2⟩, ⟨3⟩, ⟨4⟩, ⟨5⟩], .dummy⟩,
      ⟨.list [⟨0⟩, ⟨1⟩, ⟨6⟩], .dummy⟩, ⟨.token ⟨.symbol, ⟨6⟩⟩, .dummy⟩,
      ⟨.list [⟨0⟩, ⟨8⟩, ⟨6⟩], .dummy⟩],
      ⟨#["", "def", "a-b", "fn", "extern", "void", "Db"]⟩⟩
    context := .start .standard
    memory := ()
    expander := .none
    maxExpansions := 128 }

/-- The unit inside a namespace `a`. -/
def hyphenNamespace : Compilation Unit :=
  hyphenUnit.withContext (Context.enter "a" hyphenUnit.context).2

/-- In the first unit names are legible, and `a-b` is refused a second time, as the current
namespace has it. Inside the namespace `a` the function `Db` is refused as well, though the
namespace has no function at all. -/
theorem redeclared_hyphenUnit :
    Run (.start .standard .none ()) hyphenUnit ∧
      (∃ plan u₁, functionPlan ⟨1⟩ ⟨6⟩ [⟨3⟩, ⟨4⟩, ⟨5⟩] hyphenUnit = .ok plan u₁ ∧
        u₁.context.Legible ∧ u₁.context.LegibleName "a-b" plan.paramTypes ∧
        (hyphenUnit.context.current.overload? "a-b" plan.paramTypes).isSome = true ∧
        Ends (processTopLevel ⟨7⟩) hyphenUnit (fun _ _ => False)
          fun u' => u₁.RefusedAs .functionRedeclared "a-b" u') ∧
      hyphenNamespace.context.current.functions.size = 0 ∧
      ∃ plan u₁, functionPlan ⟨8⟩ ⟨6⟩ [⟨3⟩, ⟨4⟩, ⟨5⟩] hyphenNamespace = .ok plan u₁ ∧
        Ends (processTopLevel ⟨9⟩) hyphenNamespace (fun _ _ => False)
          fun u' => u₁.RefusedAs .functionRedeclared "Db" u' := by
  have hunit : Run (.start .standard .none ()) hyphenUnit := .topLevel ⟨7⟩ (.forest _ .refl)
  have hnamespace : Run (.start .standard .none ()) hyphenNamespace := hunit.enter "a"
  have hempty : hyphenNamespace.context.current.functions.size = 0 := by decide +kernel
  refine ⟨hunit, ?_, hempty, ?_⟩
  · have hplan : Ends (functionPlan ⟨1⟩ ⟨6⟩ [⟨3⟩, ⟨4⟩, ⟨5⟩]) hyphenUnit (fun plan u₁ =>
        u₁.context.Legible ∧ u₁.context.LegibleName "a-b" plan.paramTypes ∧
        (hyphenUnit.context.current.overload? "a-b" plan.paramTypes).isSome = true)
        fun _ => False := by
      unfold Ends
      decide +kernel
    have hnode : hyphenUnit.forest.IsDefinitionOf ⟨7⟩ ⟨1⟩ ⟨6⟩ "fn" "a-b" [⟨3⟩, ⟨4⟩, ⟨5⟩] :=
      ⟨⟨0⟩, ⟨2⟩, by decide +kernel⟩
    obtain ⟨plan, u₁, hrun, hlegible, hname, hlocal⟩ := hplan.succeeds
    obtain ⟨hends, htaken⟩ := (redeclared_exactly hunit).1 plan hnode hrun
    have htaken := (htaken hlegible hname).2 hlocal
    refine ⟨plan, u₁, hrun, hlegible, hname, hlocal, hends.mono (fun _ _ h => h.1 htaken) ?_⟩
    rintro u' (h | h)
    · exact h.2
    · exact absurd htaken h.1
  · have hplan : Ends (functionPlan ⟨8⟩ ⟨6⟩ [⟨3⟩, ⟨4⟩, ⟨5⟩]) hyphenNamespace (fun _ _ => True)
        fun _ => False := by
      unfold Ends
      decide +kernel
    have hrefused : Ends (processTopLevel ⟨9⟩) hyphenNamespace (fun _ _ => False)
        fun u' => u'.context.current.functions.size = 0 := by
      unfold Ends
      decide +kernel
    have hnode : hyphenNamespace.forest.IsDefinitionOf ⟨9⟩ ⟨8⟩ ⟨6⟩ "fn" "Db" [⟨3⟩, ⟨4⟩, ⟨5⟩] :=
      ⟨⟨0⟩, ⟨2⟩, by decide +kernel⟩
    obtain ⟨plan, u₁, hrun, -⟩ := hplan.succeeds
    obtain ⟨hends, -⟩ := (redeclared_exactly hnamespace).1 plan hnode hrun
    refine ⟨plan, u₁, hrun, (hends.and hrefused).mono (fun _ _ h => h.2) ?_⟩
    rintro u' ⟨h | ⟨-, -, f, -, -, -, hadded, -⟩, hsize⟩
    · exact h.2
    · -- a function that was added would be found in the namespace
      rw [hadded.current hnamespace.valid.currentId_lt, Array.size_push] at hsize
      cases hsize

end Lower

end

end FormCompiler
