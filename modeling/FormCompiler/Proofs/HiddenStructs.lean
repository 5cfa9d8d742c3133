import FormCompiler.Proofs.Context.Hidden
import FormCompiler.Proofs.Lower.Typing
import FormCompiler.Proofs.TypeNames

/-!
# Backing Structs Stay Hidden

No form of a type stands for the struct behind an enum, so no declaration mentions it, and no
expression gives a value of its type or of pointers that lead to it. What a definition mentions is
what its parts stand for (`StructDeclared.sheltered`, `FunctionDeclared.sheltered`), and the
functions of an enum mention the enum and the integer type under it, also those that stay declared
when a later one is refused (`registerEnum_shelters`). The type of an expression is primitive, or
comes from a variable or a function, with pointers added and taken away (`Lowers.visible`).
-/

namespace FormCompiler

open Context

namespace Forest

variable {f : Forest} {c c' : Context} {node : NodeId} {t : TypeId}

/-- What a form stands for is visible, also when more has been declared since. -/
theorem Denotes.visible (h : f.Denotes (c.withPool c'.pool) node t) (hc : c.Valid) (hl : c.Laid)
    (hcc : c.Continues c') : c'.Visible t := by
  induction h with
  | @name node name t symbol lookup =>
    have hlookup : c.lookupType? name = some t := lookup
    exact (hc.lookupType?_visible hl hlookup).mono hc hcc
  | pointer items symbol isPointer denotes type ih => exact ih.pointer hcc.valid type

/-- So are the types in a list of names and forms. -/
theorem Lists.visible {nodes : List NodeId} {named : List (String × TypeId)}
    (h : f.Lists (c.withPool c'.pool) nodes named) (hc : c.Valid) (hl : c.Laid)
    (hcc : c.Continues c') : ∀ d ∈ named, c'.Visible d.2 := by
  have heach := h.each
  clear h
  induction heach with
  | nil => exact fun d hd => absurd hd List.not_mem_nil
  | cons hfirst _ ih =>
    obtain ⟨_, tyNode, -, -, hdenotes⟩ := hfirst
    exact List.forall_mem_cons.2 ⟨hdenotes.visible hc hl hcc, ih⟩

end Forest

/-! ## Definitions -/

namespace Compilation

variable {σ : Type} {u u' : Compilation σ} {name : String} {parts : List NodeId}

/-- The members of a struct have the types that its parts stand for. -/
theorem StructDeclared.sheltered (h : u.StructDeclared name parts u') (hu : u.context.Sheltered)
    (hcc : u.context.Continues u'.context) : u'.context.Sheltered := by
  obtain ⟨-, -, s, ⟨linkageNode, membersNode, memberNodes, -, -, -, hlists⟩, hadded, -⟩ := h
  have hmembers := hlists.visible hu.valid hu.laid hcc
  refine hu.replaced hcc (namespaceOf_of_withCurrent hadded.namespaces) (fun key s' hs' => ?_)
    fun f hf => .inl hf
  refine (lookup_cons_cases hs').imp id ?_
  rintro ⟨-, rfl⟩ t ht
  obtain ⟨m, hm, rfl⟩ := List.mem_map.1 ht
  exact hmembers m hm

/-- The parameters and the result of a function have the types that its parts stand for. -/
theorem FunctionDeclared.sheltered (h : u.FunctionDeclared name parts u')
    (hu : u.context.Sheltered) (hcc : u.context.Continues u'.context) : u'.context.Sheltered := by
  obtain ⟨-, f, ⟨linkageNode, tyNode, paramsNode, paramNodes, forms, -, -, hreturn, -, hlists⟩, -,
    -, hadded, -⟩ := h
  have hparams := hlists.visible hu.valid hu.laid hcc
  refine hu.replaced hcc (namespaceOf_of_withCurrent hadded.namespaces) (fun _ _ => .inl)
    fun f' hf' => ?_
  refine (Array.mem_push.1 hf').imp id ?_
  rintro rfl
  exact ⟨fun p hp => hparams _ (List.mem_map_of_mem hp), hreturn.visible hu.valid hu.laid hcc⟩

end Compilation

namespace Lower

variable {c c' : Context} {name : String} {builder : EnumBuilder} {linkage : Ir.Linkage}
  {underlying enumTy : TypeId}

/-- Integer types are visible. -/
theorem visible_of_isInteger (hc : c.Valid) (h : c.pool.isInteger underlying = true) :
    c.Visible underlying := by
  obtain ⟨q, bits, hq, -⟩ := Pool.of_isInteger h
  exact .of_primitive hc hq

/-- The struct behind an enum has a member of an integer type, and the type of the enum is
visible. -/
theorem EnumRegistered.sheltered
    (h : EnumRegistered name builder linkage underlying enumTy c c') (hc : c.Sheltered)
    (hunder : c.Grounded underlying) (hinteger : c.pool.isInteger underlying = true) :
    c.Continues c' ∧ c'.Sheltered ∧ c'.Visible enumTy := by
  have hcc : c.Continues c' :=
    Change.continues (.enum name builder linkage underlying enumTy h hunder hinteger) hc.valid
  obtain ⟨e, s, -, hbacked, hns⟩ := EnumRegistered.namespaceOf h hinteger
  have hmembers : ∀ t ∈ s.memberTypes, c'.Visible t := by
    rw [hbacked.members]
    exact List.forall_mem_singleton.2 (visible_of_isInteger hcc.valid hbacked.integer)
  refine ⟨hcc, hc.replaced hcc hns (fun key s' hs' => ?_) fun f hf => .inl hf, ?_⟩
  · refine (lookup_cons_cases hs').imp id ?_
    rintro ⟨-, rfl⟩
    exact hmembers
  · obtain ⟨e', s', hcurrent, rfl, -⟩ := h.current hc.valid
    have he' : c'.current.enum? name = some e' := by
      rw [hcurrent]
      exact List.lookup_cons_self
    obtain ⟨_, -, hbacked'⟩ := (hcc.laid hc.laid).enums _ _ _ he'
    exact .of_enum hcc.valid hbacked'.type

/-- The functions of an enum mention the enum, the type under it and `bool`. -/
theorem FunctionsAdded.sheltered {done : List Signature} (h : c.FunctionsAdded done c')
    (hdone : done ⊆ c.enumSignatures name enumTy underlying) (hc : c.Sheltered)
    (hcc : c.Continues c') (henum : c.Visible enumTy) (hunder : c.Visible underlying) :
    c'.Sheltered := by
  have henum' := henum.mono hc.valid hcc
  have hunder' := hunder.mono hc.valid hcc
  have hbool : c'.Visible .bool := .of_primitive hcc.valid (hcc.valid.pool.primitives .bool)
  have hsignature : ∀ sig ∈ c.enumSignatures name enumTy underlying,
      (∀ t ∈ sig.params, c'.Visible t) ∧ c'.Visible sig.returnType := by
    intro sig hsig
    simp only [enumSignatures, List.mem_cons, List.mem_map] at hsig
    rcases hsig with rfl | rfl | ⟨comparison, -, rfl⟩ <;> simp [henum', hunder', hbool]
  obtain ⟨fs, hcurrent, hdescribes⟩ := h.current
  have hns : ∀ id, c'.namespaceOf id = c.namespaceOf id ∨
      id = c.currentId ∧ c'.namespaceOf id = c'.current := by
    intro id
    by_cases hid : id = c.currentId
    · exact .inr ⟨hid, by rw [current, h.currentId, hid]⟩
    · exact .inl (h.others id hid)
  refine hc.replaced hcc hns (fun key s hs => ?_) fun f hf => ?_
  · rw [hcurrent] at hs
    exact .inl hs
  · rw [hcurrent] at hf
    refine (Array.mem_append.1 hf).imp id fun hf => ?_
    obtain ⟨i, hi, rfl⟩ := List.getElem_of_mem (List.mem_toArray.1 hf)
    -- the function was declared by one of the signatures
    have hlt : i < done.length := hdescribes.length_eq ▸ hi
    have hdescribed := hdescribes.get hlt hi
    obtain ⟨hparams, hreturn⟩ := hsignature _ (hdone (List.getElem_mem hlt))
    refine ⟨fun p hp => hparams p.ty ?_, ?_⟩
    · rw [List.get_eq_getElem, List.get_eq_getElem] at hdescribed
      rw [← hdescribed.params]
      exact List.mem_map_of_mem hp
    · rw [List.get_eq_getElem, List.get_eq_getElem] at hdescribed
      rw [hdescribed.returnType]
      exact hreturn

/-- Registering an enum shelters its struct, whether or not all of its functions are declared. -/
theorem registerEnum_shelters (hc : c.Sheltered) (name : String) (builder : EnumBuilder)
    (linkage : Ir.Linkage) (hunder : c.Grounded underlying)
    (hinteger : c.pool.isInteger underlying = true) (nameSpan bodySpan : Span) :
    Ends (registerEnum name builder linkage underlying nameSpan bodySpan) c
      (fun _ c' => c'.Sheltered) Sheltered := by
  rw [registerEnum_eq]
  refine (registerTypes_ends hc.valid name builder linkage underlying nameSpan).andThen ?_ ?_
  · rintro c' ⟨hwithin, -⟩
    exact hc.of_same ((Develops.of_still hwithin).continues hc.valid) hwithin.namespaces
  intro enumTy c₁ h
  obtain ⟨hcc, hsheltered, henum⟩ := h.sheltered hc hunder hinteger
  have hunder₁ := (visible_of_isInteger hc.valid hinteger).mono hc.valid hcc
  refine (h.functions_outcome hc.valid hunder hinteger bodySpan).mono ?_ ?_
  · rintro _ c' ⟨hdevelops, -, hadded⟩
    exact FunctionsAdded.sheltered hadded (List.Subset.refl _) hsheltered
      (hdevelops.continues hsheltered.valid) henum hunder₁
  · rintro c' ⟨hdevelops, -, done, hdone, hadded⟩
    exact FunctionsAdded.sheltered hadded hdone hsheltered
      (hdevelops.continues hsheltered.valid) henum hunder₁

end Lower

/-! ## Top-level forms -/

/-- The second unit is sheltered if the first one is. -/
def Compilation.Shelters {σ : Type} (u u' : Compilation σ) : Prop :=
  u.context.Sheltered → u'.context.Sheltered

namespace Compilation

variable {σ : Type} {u u' : Compilation σ}

instance : Std.Refl (Shelters (σ := σ)) := ⟨fun _ => id⟩

instance : IsTrans (Compilation σ) Shelters := ⟨fun _ _ _ h h' => h' ∘ h⟩

/-- What is quiet declares nothing. -/
theorem Quiet.shelters (h : Quiet u u') : Shelters u u' := fun hu =>
  hu.of_same (h.continues hu.valid) h.within.context.namespaces

end Compilation

namespace Lower

variable {σ : Type}

/-- What is shown of sheltered units is kept. -/
theorem keeps_shelters {α : Type} {x : Lower σ α} (h : ∀ u : Compilation σ, u.context.Sheltered →
    Ends x u (fun _ u' => u'.context.Sheltered) fun u' => u'.context.Sheltered) :
    Keeps Compilation.Shelters x := fun u =>
  .intro (fun _ _ hx hu => (h u hu).of_ok hx) fun _ _ hx hu => (h u hu).of_error hx

/-- Only types were entered. -/
theorem sheltered_of_onlyTypes {u u' : Compilation σ} (h : u.OnlyTypes u')
    (hu : u.context.Sheltered) (hdevelops : u.context.Develops u'.context) :
    u'.context.Sheltered := hu.of_same (hdevelops.continues hu.valid) h.within.namespaces

/-- Top-level forms keep the structs behind enums hidden. -/
theorem topLevel_shelters : TopLevel (Compilation.Shelters (σ := σ)) where
  checks h hu := by
    rcases h with h | h
    · rwa [h]
    · exact hu.of_same ((Develops.of_still h.within).continues hu.valid) h.within.namespaces
  enter name _ hu := hu.enter name
  leave _ hu := hu.leave
  defineEnum nameNode name body parts := keeps_shelters fun u hu => by
    rw [defineEnum_eq]
    refine (enumPlan_ends nameNode name body parts u).andThen (fun _ h => h.shelters hu) ?_
    rintro plan u₁ ⟨hquiet, -, hgrounded, hinteger, -⟩
    exact onContext_final (registerEnum_shelters (hquiet.shelters hu) plan.name plan.builder
      plan.linkage (hgrounded hu.valid) hinteger plan.nameSpan plan.bodySpan)
  defineStruct nameNode name body parts := keeps_shelters fun u hu => by
    have hdevelops := defineStruct_develops nameNode name body parts u
    refine ((defineStruct_adds hu.valid nameNode name body parts).and hdevelops).mono ?_ ?_
    · rintro _ u' ⟨hdeclared, hdevelops⟩
      exact hdeclared.sheltered hu (hdevelops.continues hu.valid)
    · rintro u' ⟨htypes, hdevelops⟩
      exact sheltered_of_onlyTypes htypes hu hdevelops
  defineFunction nameNode name body parts := keeps_shelters fun u hu => by
    have hdevelops := defineFunction_develops nameNode name body parts u
    refine ((defineFunction_adds hu.valid nameNode name body parts).and hdevelops).mono ?_ ?_
    · rintro _ u' ⟨hdeclared, hdevelops⟩
      exact hdeclared.sheltered hu (hdevelops.continues hu.valid)
    · rintro u' ⟨htypes | hdeclared, hdevelops⟩
      · exact sheltered_of_onlyTypes htypes hu hdevelops
      · exact hdeclared.sheltered hu (hdevelops.continues hu.valid)

end Lower

/-- After any history the types in the tables are visible. -/
theorem Later.sheltered {σ : Type} {u u' : Compilation σ} (h : Later u u') : u.Shelters u' :=
  h.rel Lower.topLevel_shelters fun _ _ hcontinues hsame hu =>
    hu.of_same (hcontinues hu.valid) hsame

/-! ## Expressions -/

/-- The type of the result is visible, and so is that of its address. -/
structure Result.Visible (c : Context) (r : Result) : Prop where
  ty : c.Visible r.ty
  addressTy : ∀ t, r.addressTy = some t → c.Visible t

/-- A visible result is one later, too. -/
theorem Result.Visible.mono {c c' : Context} {r : Result} (h : r.Visible c) (hc : c.Valid)
    (hcc : c.Continues c') : r.Visible c' :=
  ⟨h.ty.mono hc hcc, fun t ht => (h.addressTy t ht).mono hc hcc⟩

/-- The types in the tables are visible, and so are those of the variables. -/
structure Compilation.Sheltered {σ : Type} (u : Compilation σ) (s : Scope) : Prop where
  context : u.context.Sheltered
  scope : ∀ name v, s.lookup? name = some v → u.context.Visible v.ty

namespace Compilation.Kept

variable {σ : Type} {s : Scope} {u u' : Compilation σ}

/-- Processing an expression continues a sheltered unit. -/
theorem continues_sheltered (h : Compilation.Kept s u u') (hu : u.Sheltered s) :
    u.context.Continues u'.context :=
  h.continues (fun name v hv => (hu.scope name v hv).inPool) hu.context.valid

/-- What is visible stays so. -/
theorem visible {t : TypeId} (h : Compilation.Kept s u u') (hu : u.Sheltered s)
    (ht : u.context.Visible t) : u'.context.Visible t :=
  ht.mono hu.context.valid (h.continues_sheltered hu)

/-- A sheltered unit stays so. -/
theorem sheltered (h : Compilation.Kept s u u') (hu : u.Sheltered s) : u'.Sheltered s where
  context := hu.context.of_same (h.continues_sheltered hu) h.context.namespaces
  scope name v hv := h.visible hu (hu.scope name v hv)

end Compilation.Kept

namespace Lower

variable {σ : Type} {u u' : Compilation σ} {b : Ir.BlockId} {node : NodeId} {r : Result}

/-- A result without an address is visible with its type. -/
theorem visible_of_ty {c : Context} {t : TypeId} (h : c.Visible t) (v : Ir.ValueId)
    (block : Ir.BlockId) (isLvalue noCopy borrowed : Bool) :
    Result.Visible c ⟨t, v, block, isLvalue, none, none, noCopy, borrowed⟩ :=
  ⟨h, fun _ ht => by cases ht⟩

/-- A constant of a visible type is visible. -/
theorem IsConstant.visible {kind : Ir.ValueKind} {t : TypeId} (h : IsConstant kind b t r u u')
    (ht : u'.context.Visible t) : r.Visible u'.context := by
  rw [h.result]
  exact visible_of_ty ht _ _ _ _ _

/-- A truth value is of a primitive type. -/
theorem truthValue_visible {value : Bool} {s : Scope} (h : truthValue b value u = .ok r u')
    (hu : u.Sheltered s) : r.Visible u'.context := by
  have hkept : Compilation.Kept s u u' := (truthValue_keeps _ _ _).ok h
  exact (truthValue_ok hu.context.valid h).visible
    ((hkept.sheltered hu).context.valid.visible_primitive .bool)

/-- A string is a pointer to characters, which are of a primitive type. -/
theorem stringToken_visible {text : String} (h : stringToken b text u = .ok r u')
    (hu' : u'.context.Valid) : r.Visible u'.context := by
  unfold stringToken at h
  obtain ⟨t, u₁, h₁, h⟩ := bind_ok_iff.1 h
  obtain ⟨rfl, rfl⟩ := onState_ok_iff.1 h₁
  obtain ⟨v, u₂, h₂, h⟩ := bind_ok_iff.1 h
  obtain ⟨rfl, rfl⟩ := onModule_ok_iff.1 h₂
  obtain ⟨rfl, rfl⟩ := pure_ok_iff.1 h
  have hchar := hu'.visible_primitive .char
  exact visible_of_ty (hchar.pointer hu' (Pool.type_of_find (Pool.intern_spec _ _).2)) _ _ _ _ _

/-- Giving two results the same ownership changes no type. -/
theorem unifyOwnership_ty {onTrue onFalse onTrue' onFalse' : Result}
    (h : unifyOwnership node onTrue onFalse u = .ok (onTrue', onFalse') u') :
    onTrue'.ty = onTrue.ty := by
  rcases unifyOwnership_ok h with ⟨-, borrowed, rfl, -⟩ | ⟨-, ⟨hcopy, -⟩ | ⟨-, rfl, -⟩⟩
  · rfl
  · obtain ⟨_, _, _, _, _, -, -, -, -, rfl⟩ := copyBorrowed_ok hcopy
    rfl
  · rfl

/-- What a derivation gives is visible. -/
def GivesVisible (c : Context) : Output → Prop
  | .one r => r.Visible c
  | .many rs _ => ∀ r ∈ rs, r.Visible c

/-- A derivation in a sheltered unit gives visible results. -/
theorem Lowers.visible {frame : Frame} {task : Task} {es : List Event} {out : Output}
    (h : Lowers frame u b task es u' out) (hu : u.Sheltered frame.scope) :
    GivesVisible u'.context out := by
  induction h with
  | integer kind run =>
    have hu' := (Lowers.integer kind run).kept.sheltered hu
    obtain ⟨_, _, -, -, hconstant⟩ := integerToken_ok hu.context.valid run
    exact hconstant.visible (hu'.context.valid.visible_primitive .int)
  | float kind run =>
    have hu' := (Lowers.float kind run).kept.sheltered hu
    obtain ⟨_, -, hconstant⟩ := floatToken_ok hu.context.valid run
    exact hconstant.visible (hu'.context.valid.visible_primitive .float)
  | string kind run =>
    have hu' := (Lowers.string kind run).kept.sheltered hu
    exact stringToken_visible run hu'.context.valid
  | truth value symbol run =>
    exact truthValue_visible run hu
  | value symbol notTrue notFalse lookup => exact visible_of_ty (hu.scope _ _ lookup) _ _ _ _ _
  | slot symbol notTrue notFalse lookup load =>
    -- the rule enters the type of the address
    have hu' := (Lowers.slot symbol notTrue notFalse lookup load).kept.sheltered hu
    have hty := hu'.scope _ _ lookup
    refine ⟨hty, ?_⟩
    rintro _ ⟨⟩
    exact hty.pointer hu'.context.valid (Pool.type_of_find (Pool.intern_spec _ _).2)
  | deref core operand points notVoid load drop ih =>
    have hload := kept_withIr frame.scope ((Ir.Module.load_keeps _ _).ok load)
    have hkept := IsTrans.trans _ _ _ hload (drop.kept frame.scope)
    have hu₁ := operand.kept.sheltered hu
    have hty := (ih hu).ty
    refine ⟨hkept.visible hu₁ (hty.of_pointee? hu₁.context.valid points), ?_⟩
    rintro _ ⟨⟩
    exact hkept.visible hu₁ hty
  | addressOfDeref core deref inner points notVoid drop ih =>
    have hty := (drop.kept frame.scope).visible (inner.kept.sheltered hu) (ih hu).ty
    exact visible_of_ty hty _ _ _ _ _
  | addressOf core notDeref inner hasAddress hasType ih =>
    exact visible_of_ty ((ih hu).addressTy _ hasType) _ _ _ _ _
  | assignCopy core destination points assigned copy call dropValue dropDest run =>
    have hcall := kept_withIr frame.scope ((Ir.Module.call_keeps _ _ _).ok call)
    have hkept := IsTrans.trans _ _ _ destination.kept (IsTrans.trans _ _ _ assigned.kept
      (IsTrans.trans _ _ _ hcall (IsTrans.trans _ _ _ (dropValue.kept frame.scope)
        (dropDest.kept frame.scope))))
    exact truthValue_visible run (hkept.sheltered hu)
  | assignMove core destination points assigned noCopy store dropDest run =>
    have hstore := kept_withIr frame.scope ((Ir.Module.store_keeps _ _ _).ok store)
    have hkept := IsTrans.trans _ _ _ destination.kept (IsTrans.trans _ _ _ assigned.kept
      (IsTrans.trans _ _ _ hstore (dropDest.kept frame.scope)))
    exact truthValue_visible run (hkept.sheltered hu)
  | sequence _ _ ih => exact ih hu
  | last _ ih => exact ih hu
  | next form drop forms ih ih₁ =>
    exact ih₁ ((IsTrans.trans _ _ _ form.kept (drop.kept frame.scope)).sheltered hu)
  | conditional core test isBool drop appendThen appendElse branch thenForm elseForm sameType unify
      merge ih ih₁ ih₂ =>
    have hu₂ := (IsTrans.trans _ _ _ test.kept (IsTrans.trans _ _ _ (drop.kept frame.scope)
      (branch_kept appendThen appendElse branch))).sheltered hu
    have hunify : Compilation.Kept frame.scope _ _ := (unifyOwnership_keeps _ _ _ _).ok unify
    have hmerge : Compilation.Kept frame.scope _ _ := (merge_keeps _ _ _ _ _).ok merge
    have hkept := IsTrans.trans _ _ _ elseForm.kept (IsTrans.trans _ _ _ hunify hmerge)
    have hty := hkept.visible (thenForm.kept.sheltered hu₂) (ih₁ hu₂).ty
    -- the merged value has the type of the first branch
    obtain ⟨_, _, _, _, -, -, rfl, -⟩ := merge_ok merge
    rw [← unifyOwnership_ty unify] at hty
    exact visible_of_ty hty _ _ _ _ _
  | call isCall offer arguments lookup call result drop ih =>
    have hoffer : Compilation.Kept frame.scope _ _ := (offer_keeps _).ok offer
    have hu₂ := arguments.kept.sheltered (hoffer.sheltered hu)
    have hkept := IsTrans.trans _ _ _ (call_kept call result) (drop.kept frame.scope)
    have hty := hu₂.context.mentions _ (mentions_of_lookupFunction? lookup)
    exact visible_of_ty (hkept.visible hu₂ hty) _ _ _ _ _
  | expanded isCall offer form ih =>
    have hoffer : Compilation.Kept frame.scope _ _ := (offer_keeps _).ok offer
    exact ih (hoffer.sheltered hu)
  | none => exact fun _ hr => absurd hr List.not_mem_nil
  | more form arguments ih ih₁ =>
    have hu₁ := form.kept.sheltered hu
    have hr := (ih hu).mono hu₁.context.valid (arguments.kept.continues_sheltered hu₁)
    exact List.forall_mem_cons.2 ⟨hr, ih₁ hu₁⟩

/-! ## Units of a history -/

/-- What a form of a type resolves to is visible. -/
theorem resolveType_visible (hu : u.context.Sheltered) (node : NodeId) :
    Ends (resolveType node) u (fun t u' => u'.context.Visible t) fun _ => True := by
  refine ((resolveType_denotes node u).and (resolveType_ends node u)).mono ?_ fun _ _ => trivial
  rintro t u' ⟨⟨-, hdenotes⟩, hquiet, -⟩
  have hu' : u'.context.Sheltered := hquiet.shelters hu
  exact hdenotes.visible hu'.valid hu'.laid (.refl hu'.valid)

end Lower

/-- Between the two units a form of a type was resolved to the type. -/
def Compilation.Resolved {σ : Type} (u₀ u : Compilation σ) (t : TypeId) : Prop :=
  ∃ u₁ node u₂, Later u₀ u₁ ∧ Lower.resolveType node u₁ = .ok t u₂ ∧ Later u₂ u

namespace Lower

variable {σ : Type} {u₀ u : Compilation σ} {t : TypeId}

/-- A type that was resolved is visible from then on. -/
theorem visible_of_resolved (h : u₀.Resolved u t) (hu₀ : u₀.context.Sheltered) :
    u.context.Visible t := by
  obtain ⟨u₁, node, u₂, hbefore, hresolve, hafter⟩ := h
  have hu₁ : u₁.context.Sheltered := hbefore.sheltered hu₀
  have hu₂ : u₂.context.Sheltered := ((resolveType_ends node u₁).of_ok hresolve).1.shelters hu₁
  exact ((resolveType_visible hu₁ node).of_ok hresolve).mono hu₂.valid
    (hafter.continues hu₂.valid)

/-- The struct behind an enum stays hidden, and so do pointers that lead to it: no form of a type
resolves to them, nothing in the tables mentions them, and where the variables have types that were
resolved no expression gives a value or an address of such a type. -/
theorem backingStructs_hidden {options : Options} {expander : Expander σ} {memory : σ}
    (h : Later (.start options expander memory) u) :
    (∀ node, Ends (resolveType node) u (fun t u' => ¬ u'.context.Hidden t) fun _ => True) ∧
      (∀ t, u.context.Mentions t → ¬ u.context.Hidden t) ∧
      ∀ (frame : Frame) (b : Ir.BlockId) (node : NodeId),
        (∀ name v, frame.scope.lookup? name = some v →
          (Compilation.start options expander memory).Resolved u v.ty) →
        Ends (process frame b node) u
          (fun r u' => ¬ u'.context.Hidden r.ty ∧
            ∀ t, r.addressTy = some t → ¬ u'.context.Hidden t) fun _ => True := by
  have hstart : (Compilation.start options expander memory).context.Sheltered := .start options
  have hu : u.context.Sheltered := h.sheltered hstart
  refine ⟨fun node => ?_, fun t ht => (hu.mentions t ht).notHidden, fun frame b node hscope => ?_⟩
  · exact (resolveType_visible hu node).mono (fun _ _ ht => ht.notHidden) fun _ _ => trivial
  · have hvisible : u.Sheltered frame.scope :=
      ⟨hu, fun name v hv => visible_of_resolved (hscope name v hv) hstart⟩
    refine .intro (fun r u' hprocess => ?_) fun _ _ _ => trivial
    obtain ⟨es, hlowers⟩ := process_lowers hprocess
    have hr : r.Visible u'.context := hlowers.visible hvisible
    exact ⟨hr.ty.notHidden, fun t ht => (hr.addressTy t ht).notHidden⟩

/-- The unit with the forms `(def E (enum extern int (A)))`, `(p E)` and `x`, after the first
one. -/
def enumUnit : Compilation Unit :=
  final (processTopLevel ⟨8⟩) {
    forest := ⟨#[⟨.token ⟨.symbol, ⟨1⟩⟩, .dummy⟩, ⟨.token ⟨.symbol, ⟨2⟩⟩, .dummy⟩,
      ⟨.token ⟨.symbol, ⟨3⟩⟩, .dummy⟩, ⟨.token ⟨.symbol, ⟨4⟩⟩, .dummy⟩,
      ⟨.token ⟨.symbol, ⟨5⟩⟩, .dummy⟩, ⟨.token ⟨.symbol, ⟨6⟩⟩, .dummy⟩, ⟨.list [⟨5⟩], .dummy⟩,
      ⟨.list [⟨2⟩, ⟨3⟩, ⟨4⟩, ⟨6⟩], .dummy⟩, ⟨.list [⟨0⟩, ⟨1⟩, ⟨7⟩], .dummy⟩,
      ⟨.token ⟨.symbol, ⟨7⟩⟩, .dummy⟩, ⟨.list [⟨9⟩, ⟨1⟩], .dummy⟩,
      ⟨.token ⟨.symbol, ⟨8⟩⟩, .dummy⟩],
      ⟨#["", "def", "E", "enum", "extern", "int", "A", "p", "x"]⟩⟩
    context := .start .standard
    memory := ()
    expander := .none
    maxExpansions := 128 }

/-- The struct behind `E` has the type after that of `E`, which is the type of `x`. It is not that
of `x`, and `(p E)` is no pointer to it. -/
theorem backingStructs_hidden_enumUnit :
    Later (.start .standard .none ()) enumUnit ∧ enumUnit.context.Hidden ⟨22⟩ ∧
      enumUnit.context.Mentions ⟨21⟩ ∧ ¬ enumUnit.context.Hidden ⟨21⟩ ∧
      Ends (resolveType ⟨10⟩) enumUnit
        (fun t u' => u'.context.pool.type t = .pointer ⟨21⟩ ∧ ¬ u'.context.Hidden t)
        (fun _ => False) ∧
      Ends (process ⟨⟨0⟩, (Scope.empty.bind "x" ⟨⟨21⟩, .value ⟨0⟩⟩).2⟩ ⟨0⟩ ⟨11⟩) enumUnit
        (fun r u' => r.ty = ⟨21⟩ ∧ ¬ u'.context.Hidden r.ty) fun _ => False := by
  have hlater : Later (.start .standard .none ()) enumUnit :=
    (Later.refl.offered _ ()).topForm _ ⟨8⟩
  have henum : (enumUnit.context.current.enum? "E").isSome = true := by decide +kernel
  have hstruct : (enumUnit.context.current.struct? "E").map (·.ty) = some ⟨22⟩ := by decide +kernel
  have hlookup : enumUnit.context.lookupType? "E" = some ⟨21⟩ := by decide +kernel
  have hfunction : enumUnit.context.current.functions.any (·.returnType == ⟨21⟩) = true := by
    decide +kernel
  have hbacking : enumUnit.context.Hidden ⟨22⟩ := by
    obtain ⟨e, he⟩ := Option.isSome_iff_exists.1 henum
    obtain ⟨s, hs, hty⟩ := Option.map_eq_some_iff.1 hstruct
    rw [← hty]
    exact .backing he hs
  have hmentions : enumUnit.context.Mentions ⟨21⟩ := by
    obtain ⟨i, hi, hty⟩ := Array.any_eq_true.1 hfunction
    rw [← beq_iff_eq.1 hty]
    exact .result (Array.getElem_mem hi)
  have hresolved : (Compilation.start .standard .none ()).Resolved enumUnit ⟨21⟩ :=
    ⟨enumUnit, ⟨1⟩, enumUnit, hlater, (Compilation.Resolves.of_lookup hlookup).resolve ⟨1⟩
      (by decide +kernel), .refl⟩
  have hpointer : Ends (resolveType ⟨10⟩) enumUnit
      (fun t u' => u'.context.pool.type t = .pointer ⟨21⟩) fun _ => False := by
    unfold Ends
    decide +kernel
  have hvariable : Ends (process ⟨⟨0⟩, (Scope.empty.bind "x" ⟨⟨21⟩, .value ⟨0⟩⟩).2⟩ ⟨0⟩ ⟨11⟩)
      enumUnit (fun r _ => r.ty = ⟨21⟩) fun _ => False := by
    unfold Ends
    decide +kernel
  obtain ⟨hresolves, htables, hprocess⟩ := backingStructs_hidden hlater
  refine ⟨hlater, hbacking, hmentions, htables _ hmentions, ?_, ?_⟩
  · exact (hpointer.and (hresolves ⟨10⟩)).mono (fun _ _ => id) fun _ h => h.1
  · refine (hvariable.and (hprocess _ ⟨0⟩ ⟨11⟩ fun name v hv => ?_)).mono
      (fun _ _ h => ⟨h.1, h.2.1⟩) fun _ h => h.1
    rw [Scope.lookup?_bind] at hv
    split at hv
    next =>
      cases hv
      exact hresolved
    next => cases hv

end Lower

end FormCompiler
