import FormCompiler.Proofs.Lower.Fitting
import FormCompiler.Proofs.Redeclarations

/-!
# What the Backend Refuses

Which errors top-level forms report: those of checks of the source, and refusals of the backend for
types that clash, in units with pointers to `void`. No cleanup is refused, and the compiler does not
break a rule of its own.
-/

namespace FormCompiler

open Ir.Module Relation

/-! ## Bodies of functions -/

namespace Lower

variable {σ : Type} {u : Compilation σ} {func : Ir.FuncId} {b : Ir.BlockId}

/-- What a function returns is backed later, too. -/
theorem backs_ret_mono {c c' : Context} {t : TypeId} (h : c.Backs t (c.ir.function func).ret)
    (hfunc : func.index < c.ir.functions.size) (hc : c.Steady c') (hir : c.ir.Extends c'.ir) :
    c'.Backs t (c'.ir.function func).ret := by
  rw [(hir.function func hfunc).ret]
  exact h.mono hc

/-- A value can be stored in a new slot for values of its type. -/
theorem spillInstrs_accepted {m : Ir.Module} {v : Ir.ValueId} (hv : v.index < m.values.size)
    (hb : b.index < m.blocks.size) (hopen : m.isTerminated b = false) :
    Ends (spillInstrs b (m.valueType v) v) m
      (fun slot m' => slot.index < m'.values.size ∧
        m'.findType? (.pointer (m.valueType v)) = some (m'.valueType slot)) fun _ => False := by
  refine (alloca_accepted _ hopen).bind ?_
  rintro slot m₁ ⟨hslot, hslotTy⟩
  have hpointee := pointee?_of_find hslotTy
  rw [← hslot.toExtends.valueType hv] at hpointee
  refine (store_accepted hpointee (hslot.isTerminated hb)).bind fun _ m₂ hstore => .pure ?_
  obtain ⟨-, _, hvalue⟩ := hslot.fresh slot rfl
  have hlt := (Array.getElem?_eq_some_iff.1 hvalue).1
  refine ⟨Nat.lt_of_lt_of_le hlt hstore.toExtends.values.size_le, ?_⟩
  rw [hstore.toExtends.valueType hlt]
  exact hstore.toExtends.findType? hslotTy

/-- From an index on, the function has parameters of the backend types of the source. -/
def HasParams (c : Context) (func : Ir.FuncId) (index : Nat) (params : List (Param × Span)) :
    Prop :=
  ∀ i p, params[i]? = some p → ∃ v, (c.ir.function func).params[index + i]? = some v ∧
    v.index < c.ir.values.size ∧ c.Backs p.1.ty (c.ir.valueType v)

/-- A function keeps its parameters. -/
theorem HasParams.mono {c c' : Context} {index : Nat} {params : List (Param × Span)}
    (h : HasParams c func index params) (hfunc : func.index < c.ir.functions.size)
    (hc : c.Steady c') (hir : c.ir.Extends c'.ir) : HasParams c' func index params := by
  intro i p hp
  obtain ⟨v, hv, hlt, hbacks⟩ := h i p hp
  refine ⟨v, by rwa [(hir.function func hfunc).params],
    Nat.lt_of_lt_of_le hlt hir.values.size_le, ?_⟩
  rw [hir.valueType hlt]
  exact hbacks.mono hc

/-- The parameters of a function can be stored in slots, which are in scope then. -/
theorem spillParams_fits {scope : Scope} (index : Nat) (params : List (Param × Span))
    (hat : Fitting.At ⟨func, scope⟩ u.context b) (hparams : HasParams u.context func index params) :
    Ends (spillParams b index ⟨func, scope⟩ params) u
      (fun frame u' => ∃ scope', frame = ⟨func, scope'⟩ ∧ Fitting.At frame u'.context b ∧
        u.context.Steady u'.context ∧ u.context.ir.Extends u'.context.ir ∧
        u'.context.queue = u.context.queue) fun u' => u.context.Objects u'.context := by
  induction params generalizing index scope u with
  | nil =>
    exact .pure ⟨scope, rfl, hat, .refl _, .refl _, rfl⟩
  | cons param rest ih =>
    obtain ⟨param, place⟩ := param
    obtain ⟨value, hvalue?, hvalue, hbacks⟩ := hparams 0 _ rfl
    replace hvalue? : u.context.ir.param? func index = some value := hvalue?
    have hrest : HasParams u.context func (index + 1) rest := by
      intro i p hp
      rw [Nat.add_assoc, Nat.add_comm 1 i]
      exact hparams (i + 1) p hp
    refine .next rfl ?_
    dsimp only
    rw [hvalue?]
    refine .next (onState_of_eq hbacks.backendType) ?_
    have haccepted := spillInstrs_accepted hvalue hat.insertion.inTable hat.insertion.isOpen
    refine (onContext_final (hat.emitOr (fun e => Report.backendError place e.message)
      ((insertionCourse func).spillInstrs (v := value) hat.ready.ready _ trivial)
      (fun e m hrun => (haccepted.of_error hrun).elim)
      (haccepted.mono (fun _ _ hm => hm) fun _ _ => trivial))).andThen (fun _ h => h.objects) ?_
    rintro slot u₁ ⟨hleads, m, hm, hlt, hfound⟩
    have hextends := hleads.emits.within.ir
    have hslot : Variable.Fits u₁.context ⟨param.ty, .slot slot⟩ := by
      rw [hm]
      exact .slot hlt (hm ▸ hbacks.mono hleads.steady) hfound
    have hrest₁ := hrest.mono hat.insertion.funcInTable hleads.steady hextends
    refine (ih (index + 1) (hleads.lands.bind param.name hslot) hrest₁).mono ?_
      fun _ h => h.after hleads.queue
    rintro frame u' ⟨scope', hframe, hat', hsteady, hextends', hqueue⟩
    exact ⟨scope', hframe, hat', hleads.steady.trans hsteady, hextends.trans hextends',
      hqueue.trans hleads.queue⟩

/-- An operation whose refusals are for types that clash reports nothing else. -/
theorem emit_objects {α : Type} {op : Ir.Build α} (node : NodeId)
    (h : RefusedFor u.context.ClashIn op u.context.ir) :
    Ends (emit node op : Lower σ α) u (fun _ u' => u'.context.queue = u.context.queue)
      fun u' => u.context.Objects u'.context :=
  emit_final (Q := fun _ c' => c'.queue = u.context.queue) fun _ =>
    (Context.emitOr_objects (V := fun _ _ => True) _
      (fun _ _ => Context.admits_of_refusedFor h)
      (.intro (fun _ _ _ => trivial) fun _ _ _ => trivial)).mono (fun _ _ hc => hc.1)
      fun _ hc => hc

/-- The result of a body can be returned, or its type clashes with the return type. -/
theorem returnResult_objects {scope : Scope} (returnType : TypeId) (last : NodeId) {r : Result}
    (hat : Fitting.At ⟨func, scope⟩ u.context r.block)
    (hr : u.context.Fits (!r.borrowed) r.ty r.value)
    (hret : u.context.Backs returnType (u.context.ir.function func).ret) :
    Ends (returnResult returnType last r) u
      (fun _ u' => u'.context.queue = u.context.queue)
      fun u' => u.context.Objects u'.context := by
  refine .next rfl ?_
  split
  next hvoid =>
    refine (drop_covered (K := fittingAccount ⟨func, scope⟩) hat hr).andThen
      (fun _ h => h.objects) fun b₁ u₁ hleads => ?_
    replace hleads : Fitting.Leads ⟨func, scope⟩ u.context r.block u₁.context b₁ := hleads
    have hinsertion := hleads.lands.insertion
    obtain rfl := Context.eq_void_of_isVoid hat.valid.pool hret.index_lt hvoid
    have hnothing := (backs_ret_mono hret hat.insertion.funcInTable hleads.steady
      hleads.emits.within.ir).of_primitive (p := .void)
      (hleads.lands.valid.pool.primitives .void)
    have haccepted := ret_none_accepted
      (by rw [show (u₁.context.ir.block b₁).func = func from hinsertion.owner]; exact hnothing)
      hinsertion.isOpen
    exact (emit_objects last (.of_accepted haccepted)).mono
      (fun _ _ h => h.trans hleads.queue) fun _ h => h.after hleads.queue
  next =>
    split
    next =>
      have hrefuses : Refuses Compilation.Rejects (do
          fail (Report.returnTypeMismatch (← span last) (← typeName returnType)
            (← typeName r.ty)) : Lower σ PUnit) :=
        .read fun _ => .read fun _ => .read fun _ => fail_rejects rfl
      exact hrefuses.ends u fun _ h => .of_rejects h
    next hty =>
      rw [ne_eq, not_not] at hty
      have hinsertion := hat.insertion
      refine emit_objects last (.ret ?_ hinsertion.isOpen)
      rw [show (u.context.ir.block r.block).func = func from hinsertion.owner]
      exact (Context.Stands.backs hret).agree hat.valid.pool (hty ▸ hr.stands)

/-- The body of a function that was declared reports one error at most, which is admitted. -/
theorem body_objects (params : List (Param × Span)) (returnType : TypeId) (first : NodeId)
    (rest : List NodeId) {entry : Ir.BlockId} {m : Ir.Module}
    (hentry : appendBlock func "entry" u.context.ir = (entry, m))
    (hat : Fitting.At ⟨func, .empty⟩ (u.context.withIr m) entry)
    (hparams : HasParams (u.context.withIr m) func 0 params)
    (hret : (u.context.withIr m).Backs returnType (m.function func).ret) :
    Ends (body func params returnType first rest) u
      (fun _ u' => u'.context.queue = u.context.queue) fun u' => u.context.Objects u'.context := by
  refine .next (onModule_of_eq hentry) ?_
  refine (spillParams_fits (u := u.withIr m) 0 params hat hparams).bind ?_
  rintro _ u₁ ⟨scope, rfl, hat₁, hsteady, hextends, hqueue⟩
  refine (bodyForms_covered (K := fittingAccount ⟨func, scope⟩) first rest hat₁).andThen
    (fun _ h => h.objects.after hqueue) ?_
  rintro ⟨last, r⟩ u₂ hgives
  have hleads : Fitting.Leads ⟨func, scope⟩ u₁.context entry u₂.context r.block := hgives.leads
  have hret₁ := backs_ret_mono hret hat.insertion.funcInTable hsteady hextends
  have hret₂ := backs_ret_mono hret₁ hat₁.insertion.funcInTable hleads.steady
    hleads.emits.within.ir
  have hqueue₂ := hleads.queue.trans hqueue
  exact (returnResult_objects returnType last hleads.lands hgives.value hret₂).mono
    (fun _ _ h => h.trans hqueue₂) fun _ h => h.after hqueue₂

end Lower

/-! ## Functions -/

namespace Context

variable {c c' : Context} {name : String} {params : List Param} {returnType : TypeId}
  {linkage : Ir.Linkage} {func : Ir.FuncId}

/-- A declared function has the backend types of its signature. -/
theorem Declared.implements (h : Declared name params returnType linkage func c c') (hc : c.Valid)
    (hc' : c'.Valid) :
    c'.Implements ⟨name, params, returnType, linkage,
      c.functionSymbol name (params.map (·.ty)), func⟩ := by
  have hadded := h.functionAdded (P := (· = ·)) (R := (· = ·)) (Std.Refl.refl c') (.inl rfl)
  have hmem : ⟨name, params, returnType, linkage, c.functionSymbol name (params.map (·.ty)), func⟩ ∈
      (c'.namespaceOf c'.currentId).functions := by
    rw [← Context.current, hadded.current hc.currentId_lt]
    exact Array.mem_push_self
  exact hc'.implements hmem

/-- A function has parameters of the backend types of its signature. -/
theorem Implements.hasParams {f : Function} (h : c.Implements f) (places : List Span) :
    Lower.HasParams c f.backend 0 (f.params.zip places) := by
  intro i p hp
  obtain ⟨hparam, -⟩ := List.getElem?_zip_eq_some.1 hp
  obtain ⟨hi, hparam⟩ := List.getElem?_eq_some_iff.1 hparam
  have hi' := h.params.length_eq ▸ hi
  obtain ⟨hlt, hbacks⟩ := h.params.get hi hi'
  refine ⟨_, by rw [Nat.zero_add]; exact List.getElem?_eq_getElem hi', hlt, ?_⟩
  rw [← hparam]
  exact hbacks

/-- Code that fits may be emitted into the entry of a function. -/
theorem fitting_entry {entry : Ir.BlockId} {m : Ir.Module} (hc : c.Valid) (hp : c.Placed)
    (hfunc : func.index < c.ir.functions.size)
    (hentry : appendBlock func "entry" c.ir = (entry, m)) :
    c.ir.Extends m ∧ Fitting.At ⟨func, .empty⟩ (c.withIr m) entry := by
  have hextends : c.ir.Extends m := by
    have h := appendBlock_extends c.ir func "entry"
    rwa [hentry] at h
  exact ⟨hextends, ⟨(starts_insertionCourse hfunc hentry).1, fun _ _ _ => trivial⟩,
    (Safe.of_extends (.of_ir hextends) hc).1, hp.of_eq rfl, nofun⟩

end Context

namespace Lower

variable {σ : Type} {u : Compilation σ}

/-- The body of a function reports one error at most, which is admitted. -/
theorem functionBody_objects {f : Function} {c : Context} (hc : c.Valid) (hp : c.Placed)
    (hf : c.Implements f) (places : List Span) (first : NodeId) (rest : List NodeId)
    (u : Compilation σ) :
    Ends (ensuring (body f.backend (f.params.zip places) f.returnType first rest)
        (Context.onModule (finishFunction f.backend))) (u.withContext c)
      (fun _ u' => u'.context.queue = c.queue) fun u' => c.Objects u'.context := by
  obtain ⟨entry, m, hentry⟩ : ∃ entry m, appendBlock f.backend "entry" c.ir = (entry, m) :=
    ⟨_, _, rfl⟩
  obtain ⟨hextends, hat⟩ := Context.fitting_entry hc hp hf.backend hentry
  have himplements := hf.mono (.of_ir hextends) hextends
  refine ensuring_ends ((body_objects (u := u.withContext c) _ f.returnType first rest hentry hat
    (himplements.hasParams places) himplements.ret).mono (fun _ _ h => h) ?_)
  rintro u' (hqueue | ⟨d, hd, hqueue⟩)
  · exact .inl hqueue
  · -- the blocks that are closed afterwards are those of the function
    have hfinished := finishFunction_extends f.backend u'.context.ir
    exact .inr ⟨d, hd.mono (.of_ir hfinished), hqueue⟩

end Lower

/-! ## Checks of definitions -/

/-- From the queue on, steps report nothing as long as they go on, and where they stop one error of
a check of the source at most. -/
def sourceReports {σ : Type} (before : Queue) : Conduct (Compilation σ) where
  Holds u := u.context.queue = before
  Stops _ u := u.context.queue = before ∨
    ∃ d : Diagnostic, d.IsSource ∧ u.context.queue = before.emitError d

namespace Lower

variable {σ α : Type} {u : Compilation σ}

/-- Checks of the source fail with their own reports. -/
theorem checking_sourceReports (before : Queue) :
    Checking (sourceReports (σ := σ) before) where
  checks _ :=
    { proceeds := fun hc h => h.queue.trans hc
      rejects := fun d hd hc => .inr ⟨d, hd, congrArg (Queue.emitError · d) hc⟩ }
  offer _ _ hu := hu

/-- What only checks of the source stop reports one error at most, which is admitted. -/
theorem objects_of_sourceReports {x : Lower σ α}
    (h : (sourceReports u.context.queue).Governs x) :
    Ends x u (fun _ u' => u'.context.queue = u.context.queue)
      fun u' => u.context.Objects u'.context := by
  have hallowed := h u rfl
  refine .intro (fun _ _ hrun => hallowed.of_ok hrun) fun _ _ hrun => ?_
  rcases hallowed.of_error hrun with hqueue | ⟨d, hd, hqueue⟩
  · exact .inl hqueue
  · exact .of_source hqueue hd

section

variable (before : Queue)

/-- A type form is resolved, or a check of it fails. -/
theorem resolveType_sourceReports (node : NodeId) :
    (sourceReports before).Governs (resolveType node : Lower σ TypeId) := by
  unfold resolveType
  generalize node.index + 1 = bound
  induction bound generalizing node with
  | zero => exact fun _ hu => .inl hu
  | succ bound ih =>
    exact (checking_sourceReports before).resolveTypeBelow_succ bound node
      fun _ _ _ _ part _ => ih part

variable (nameNode : NodeId) (name : String) (body : NodeId) (parts : List NodeId)

/-- The definition of a struct is read, or a check of it fails. -/
theorem structPlan_sourceReports :
    (sourceReports before).Governs (structPlan nameNode body parts : Lower σ StructPlan) := by
  have hK := checking_sourceReports (σ := σ) before
  unfold structPlan
  split
  · exact .bind (hK.expectLinkage _) fun _ => .bind (hK.expectList _ _) fun _ =>
      .bind (hK.typedNames (resolveType_sourceReports before) _ _ _) fun _ =>
      .read fun _ _ => .pure _
  · exact hK.failAt _ fun _ => rfl

/-- The definition of a function is read, or a check of it fails. -/
theorem functionPlan_sourceReports :
    (sourceReports before).Governs (functionPlan nameNode body parts : Lower σ FunctionPlan) := by
  have hK := checking_sourceReports (σ := σ) before
  unfold functionPlan
  split
  · exact .bind (hK.expectLinkage _) fun _ => .bind (resolveType_sourceReports before _) fun _ =>
      .bind (hK.expectList _ _) fun _ =>
      .bind (hK.typedNames (resolveType_sourceReports before) _ _ _) fun _ =>
      .read fun _ _ => .pure _
  · exact hK.failAt _ fun _ => rfl

/-- The definition of an enum is read, or a check of it fails. -/
theorem enumPlan_sourceReports :
    (sourceReports before).Governs
      (enumPlan nameNode name body parts : Lower σ EnumPlan) := by
  have hK := checking_sourceReports (σ := σ) before
  unfold enumPlan
  split
  next _ tyNode elementsNode _ =>
    refine .bind (hK.expectLinkage _) fun linkage =>
      .bind (resolveType_sourceReports before _) fun underlying => fun u hu => .next rfl ?_
    have hfails : (sourceReports before).Governs (do
        fail (Report.enumTypeNotInteger (← span tyNode) (← typeName underlying)) :
          Lower σ EnumPlan) := hK.failShown _ _ fun _ _ => rfl
    split
    next => exact hfails u hu
    next hinteger =>
      refine (hK.expectList elementsNode _ u hu).bind fun nodes u₁ hrun hu₁ => ?_
      obtain ⟨-, rfl⟩ := (expectList_reads elementsNode _ u).of_ok hrun
      refine .next rfl ?_
      -- a type that was found to be an integer type has a width
      obtain ⟨q, bits, htype, hbits⟩ := Pool.of_isInteger (by simpa using hinteger)
      have hwidth : u.context.pool.intWidth? underlying = some bits := by
        rw [Pool.intWidth?, Pool.type_of_getElem? htype]
        exact hbits
      rw [hwidth]
      exact .next rfl ((hK.elements underlying _ nodes u hu₁).bind fun builder u₂ _ hu₂ =>
        .next rfl (.next rfl hu₂))
  next => exact hK.failAt _ fun _ => rfl

end

/-! ## Definitions -/

variable (nameNode : NodeId) (name : String) (body : NodeId) (parts : List NodeId)

/-- The definition of a struct reports one error at most, which is admitted. -/
theorem defineStruct_objects (u : Compilation σ) :
    Ends (defineStruct nameNode name body parts) u
      (fun _ u' => u'.context.queue = u.context.queue)
      fun u' => u.context.Objects u'.context := by
  rw [defineStruct_eq]
  refine (objects_of_sourceReports (structPlan_sourceReports _ _ _ _)).andThen (fun _ h => h)
    fun plan u₁ hqueue => ?_
  exact (onContext_final (registerStruct_failsWith name plan.members plan.linkage plan.nameSpan
    u₁.context)).mono (fun _ _ h => h.trans hqueue)
    fun _ h => (Context.Objects.of_source h rfl).after hqueue

/-- The definition of an enum reports one error at most, which is admitted. -/
theorem defineEnum_objects (hu : u.context.Valid) :
    Ends (defineEnum nameNode name body parts) u
      (fun _ u' => u'.context.queue = u.context.queue)
      fun u' => u.context.Objects u'.context := by
  rw [defineEnum_eq]
  refine ((objects_of_sourceReports (enumPlan_sourceReports _ _ _ _ _)).and
    (enumPlan_ends nameNode name body parts u)).andThen (fun _ h => h.1) ?_
  rintro plan u₁ ⟨hqueue, hquiet, -, hgrounded, hinteger, -⟩
  refine (onContext_final (registerEnum_reports (hquiet.valid hu) plan.name plan.builder
    plan.linkage (hgrounded hu) hinteger plan.nameSpan plan.bodySpan)).mono
    (fun _ _ h => h.2.trans hqueue) ?_
  rintro u' (⟨-, -, h⟩ | ⟨-, f, h⟩)
  · refine (Context.Objects.of_source h ?_).after hqueue
    split <;> rfl
  · exact (Context.Objects.of_source h rfl).after hqueue

/-- The definition of a function reports one error at most, which is admitted. -/
theorem defineFunction_objects (hu : u.context.Valid) (hp : u.context.Placed) :
    Ends (defineFunction nameNode name body parts) u
      (fun _ u' => u'.context.queue = u.context.queue)
      fun u' => u.context.Objects u'.context := by
  rw [defineFunction_eq]
  refine ((objects_of_sourceReports (functionPlan_sourceReports _ _ _ _)).and
    (functionPlan_ends nameNode body parts u)).andThen (fun _ h => h.1) ?_
  rintro plan u₁ ⟨hqueue, hquiet, hgrounded, -⟩
  have hu₁ := hquiet.valid hu
  have hp₁ : u₁.context.Placed := hp.of_eq hquiet.within.context.namespaces
  obtain ⟨hparams, hret⟩ := hgrounded hu
  refine (onContext_ends ((Context.declareFunction_ends name plan.params plan.returnType
    plan.linkage plan.nameSpan u₁.context).and (Context.declareFunction_failsWith name plan.params
      plan.returnType plan.linkage plan.nameSpan u₁.context))).andThen ?_ ?_
  · rintro _ ⟨c, rfl, -, h⟩
    exact (Context.Objects.of_source h rfl).after hqueue
  · rintro func _ ⟨c, rfl, hdeclared, h⟩
    have hqueue' : c.queue = u.context.queue := h.trans hqueue
    obtain ⟨hc, -⟩ := hdeclared.safe hu₁ hparams hret
    have hdevelops : u₁.Develops (u₁.withContext c) := hdeclared.develops hparams hret
    have hpc : c.Placed := Reachable.placed_of_develops hu₁ hp₁ hdevelops
    unfold defineBody
    split
    · exact .pure hqueue'
    next first rest _ =>
      refine .next rfl ((functionBody_objects hc hpc (hdeclared.implements hu₁ hc) _ first rest
        u₁).mono (fun _ _ h => h.trans hqueue') fun _ h => h.after hqueue')

end Lower

/-! ## Units -/

/-- Errors were reported, and each of them is admitted. -/
def Context.ReportsAdmitted (c c' : Context) : Prop :=
  ∃ ds : List Diagnostic, c'.queue = ds.foldl Queue.emitError c.queue ∧ ∀ d ∈ ds, c'.Admits d

/-- One report that is admitted is an admitted list of them. -/
theorem Context.Objects.reportsAdmitted {c c' : Context} (h : c.Objects c') :
    c.ReportsAdmitted c' := by
  rcases h with hqueue | ⟨d, hd, hqueue⟩
  · exact ⟨[], hqueue, nofun⟩
  · exact ⟨[d], hqueue, List.forall_mem_singleton.2 hd⟩

/-- The unit developed, and the errors that were reported are admitted. -/
structure Compilation.Answers {σ : Type} (u u' : Compilation σ) : Prop where
  develops : u.Develops u'
  reports : u.context.Valid → u.context.Placed → u.context.ReportsAdmitted u'.context

instance {σ : Type} : Std.Refl (Compilation.Answers (σ := σ)) :=
  ⟨fun u => ⟨Std.Refl.refl u.context, fun _ _ => ⟨[], rfl, nofun⟩⟩⟩

instance {σ : Type} : IsTrans (Compilation σ) Compilation.Answers where
  trans u u₁ u₂ h h' := by
    refine ⟨IsTrans.trans _ _ _ h.develops h'.develops, fun hu hp => ?_⟩
    obtain ⟨ds, hqueue, hds⟩ := h.reports hu hp
    obtain ⟨hu₁, -⟩ := h.develops.safe hu
    have hp₁ := Reachable.placed_of_develops hu hp h.develops
    obtain ⟨ds', hqueue', hds'⟩ := h'.reports hu₁ hp₁
    have hsteady := (h'.develops.safe hu₁).2
    refine ⟨ds ++ ds', by rw [hqueue', hqueue, List.foldl_append], fun d hd => ?_⟩
    rcases List.mem_append.1 hd with hd | hd
    · exact (hds d hd).mono hsteady
    · exact hds' d hd

namespace Lower

variable {σ : Type}

/-- A step that develops the unit, and reports one error at most, which is admitted. -/
theorem keeps_answers {α : Type} {x : Lower σ α} (hdevelops : Keeps Compilation.Develops x)
    (h : ∀ u, u.context.Valid → u.context.Placed →
      Ends x u (fun _ u' => u'.context.queue = u.context.queue)
        fun u' => u.context.Objects u'.context) : Keeps Compilation.Answers x := fun u =>
  .intro
    (fun _ _ hrun => ⟨hdevelops.ok hrun, fun hu hp => ⟨[], (h u hu hp).of_ok hrun, nofun⟩⟩)
    fun _ _ hrun => ⟨(hdevelops u).of_error hrun, fun hu hp =>
      ((h u hu hp).of_error hrun).reportsAdmitted⟩

/-- Top-level forms report errors that are admitted. -/
theorem topLevel_answers : TopLevel (Compilation.Answers (σ := σ)) where
  checks h := by
    refine ⟨h.develops, fun _ _ => ?_⟩
    rcases h with h | h
    · exact ⟨[], by rw [h]; rfl, nofun⟩
    · exact (Context.Objects.of_rejects h).reportsAdmitted
  enter name u := ⟨topLevel_develops.enter name u,
    fun _ _ => ⟨[], Context.enter_sameQueue name u.context, nofun⟩⟩
  leave u := ⟨topLevel_develops.leave u, fun _ _ => ⟨[], rfl, nofun⟩⟩
  defineEnum nameNode name body parts :=
    keeps_answers (defineEnum_develops nameNode name body parts)
      fun _ hu _ => defineEnum_objects nameNode name body parts hu
  defineStruct nameNode name body parts :=
    keeps_answers (defineStruct_develops nameNode name body parts)
      fun u _ _ => defineStruct_objects nameNode name body parts u
  defineFunction nameNode name body parts :=
    keeps_answers (defineFunction_develops nameNode name body parts)
      fun _ hu hp => defineFunction_objects nameNode name body parts hu hp

/-- Whatever the forms, the options and the expander, every error that is reported is one of a check
of the source, or of backend types that clash in a unit with pointers to `void`. No cleanup is
refused, and no rule of the compiler itself is broken. -/
theorem processAll_reports (options : Options) (expander : Expander σ) (memory : σ)
    (forest : Forest) (nodes : List NodeId) :
    let u := final (processAll nodes) { Compilation.start options expander memory with forest }
    ∃ ds : List Diagnostic,
      u.context.queue = ds.foldl Queue.emitError (.empty options.diagnostics) ∧
        ∀ d ∈ ds, d.IsSource ∨ u.context.Clashes d := by
  have hkeeps : Keeps Compilation.Answers (processAll nodes : Lower σ PUnit) :=
    every_keeps topLevel_answers.processTopLevel_keeps nodes
  exact (hkeeps.rel_final { Compilation.start options expander memory with forest }).reports
    (Context.valid_start options) (Context.placed_start options)

/-- The unit with the forms `(def v (fn extern void ()))` and
`(def f (fn extern void ((x (p void))) (setf x (v))))`. -/
def voidUnit : Compilation Unit :=
  final (processAll [⟨7⟩, ⟨18⟩]) {
    Compilation.start .standard .none () with
    forest := ⟨#[⟨.token ⟨.symbol, ⟨1⟩⟩, .dummy⟩, ⟨.token ⟨.symbol, ⟨2⟩⟩, .dummy⟩,
      ⟨.token ⟨.symbol, ⟨3⟩⟩, .dummy⟩, ⟨.token ⟨.symbol, ⟨4⟩⟩, .dummy⟩,
      ⟨.token ⟨.symbol, ⟨5⟩⟩, .dummy⟩, ⟨.list [], .dummy⟩, ⟨.list [⟨2⟩, ⟨3⟩, ⟨4⟩, ⟨5⟩], .dummy⟩,
      ⟨.list [⟨0⟩, ⟨1⟩, ⟨6⟩], .dummy⟩, ⟨.token ⟨.symbol, ⟨6⟩⟩, .dummy⟩,
      ⟨.token ⟨.symbol, ⟨7⟩⟩, .dummy⟩, ⟨.token ⟨.symbol, ⟨8⟩⟩, .dummy⟩,
      ⟨.token ⟨.symbol, ⟨9⟩⟩, .dummy⟩, ⟨.list [⟨10⟩, ⟨4⟩], .dummy⟩, ⟨.list [⟨9⟩, ⟨12⟩], .dummy⟩,
      ⟨.list [⟨13⟩], .dummy⟩, ⟨.list [⟨1⟩], .dummy⟩, ⟨.list [⟨11⟩, ⟨9⟩, ⟨15⟩], .dummy⟩,
      ⟨.list [⟨2⟩, ⟨3⟩, ⟨4⟩, ⟨14⟩, ⟨16⟩], .dummy⟩, ⟨.list [⟨0⟩, ⟨8⟩, ⟨17⟩], .dummy⟩],
      ⟨#["", "def", "v", "fn", "extern", "void", "f", "x", "p", "setf"]⟩⟩ }

/-- No check of the source refuses to write nothing through a pointer to `void`. -/
theorem reports_voidUnit : voidUnit.context.queue.stored =
    #[Report.backendError .dummy (Ir.Error.typeMismatch "i8" "void").message] := by
  decide +kernel

end Lower

end FormCompiler
