import FormCompiler.Proofs.Lower.Bodies
import Mathlib.Logic.Relation

/-!
# How Units Develop

What top-level forms do to the context of a unit, as a sequence of changes of a few kinds
(`Context.Change`): types are looked up, a namespace is entered or left, a struct, an enum or a
function is registered, or the body of a function is emitted. Each change keeps contexts valid, and
whatever else every change keeps is kept by every top-level form (`Context.Develops.rel`).

`TopLevel` lists what a relation has to be kept by for all top-level forms to keep it.
-/

namespace FormCompiler

/-- The body of a function that had no blocks was emitted, as every course says that starts at its
entry: it returns, or something was refused and the blocks were closed. -/
structure Ir.Module.Bodied (func : FuncId) (m m' : Module) : Prop where
  inTable : func.index < m.functions.size
  noBlocks : (m.function func).blocks = #[]
  code : ∃ (entry : BlockId) (m₁ m₂ : Module), appendBlock func "entry" m = (entry, m₁) ∧
    ((∀ C : Course func, C.Starts m₁ entry → C.Returns m₁ entry m₂) ∧
        (m' = m₂ ∨ m' = (finishFunction func m₂).2) ∨
      (∀ C : Course func, C.Starts m₁ entry → C.Stops m₁ entry m₂) ∧
        m' = (finishFunction func m₂).2)

namespace Context

/-- A change of a context by a part of a top-level form. -/
inductive Change (c c' : Context) : Prop
  /-- Types were looked up and entered, or an error was reported. -/
  | checked (within : c.Within Pool.Extends Ir.Module.Still c') (valid : c.Valid → c'.Valid)
  | enter (name : String) (h : c' = (enter name c).2)
  | leave (h : c' = (leave c).2)
  | struct (name : String) (members : List (String × TypeId)) (linkage : Ir.Linkage)
      (h : Lower.StructRegistered name members linkage c c')
      (grounded : ∀ m ∈ members, c.Grounded m.2)
  | enum (name : String) (builder : EnumBuilder) (linkage : Ir.Linkage)
      (underlying enumTy : TypeId)
      (h : Lower.EnumRegistered name builder linkage underlying enumTy c c')
      (grounded : c.Grounded underlying) (integer : c.pool.isInteger underlying = true)
  | function (name : String) (params : List Param) (returnType : TypeId) (linkage : Ir.Linkage)
      (func : Ir.FuncId) (h : Declared name params returnType linkage func c c')
      (paramsGrounded : ∀ p ∈ params, c.Grounded p.ty) (grounded : c.Grounded returnType)
  | body (func : Ir.FuncId) (within : c.Within Pool.Extends Ir.Module.Extends c')
      (valid : c.Valid → c'.Valid) (h : Ir.Module.Bodied func c.ir c'.ir)

variable {c c' c'' : Context}

/-- A change keeps contexts valid. -/
theorem Change.safe (h : Change c c') : Safe c c' := by
  intro hc
  cases h with
  | checked within valid => exact ⟨valid hc, .of_within within id fun hm => hm.types.grown⟩
  | enter name h => exact h ▸ enter_safe name c hc
  | leave h => exact h ▸ leave_safe c hc
  | struct name members linkage h grounded => exact h.safe hc grounded
  | enum name builder linkage underlying enumTy h grounded _ =>
    obtain ⟨hvalid, hsteady, -⟩ := h.safe hc grounded
    exact ⟨hvalid, hsteady⟩
  | function name params returnType linkage func h paramsGrounded grounded =>
    exact h.safe hc paramsGrounded grounded
  | body func within valid h => exact ⟨valid hc, .of_within within id fun hm => hm.types⟩

/-- The second context comes from the first one, a valid one, by changes. -/
def Develops (c c' : Context) : Prop := c.Valid → Relation.ReflTransGen Change c c'

namespace Develops

/-- Development keeps contexts valid. -/
theorem safe (h : Develops c c') : Safe c c' := by
  intro hc
  have hchanges := h hc
  clear h
  induction hchanges with
  | refl => exact ⟨hc, .refl c⟩
  | tail _ hchange ih =>
    obtain ⟨hvalid, hsteady⟩ := hchange.safe ih.1
    exact ⟨hvalid, ih.2.trans hsteady⟩

/-- What every change of a valid context keeps is kept by development. -/
theorem rel {R : Context → Context → Prop} [Std.Refl R] [IsTrans Context R]
    (hchange : ∀ c c', c.Valid → Change c c' → R c c') (h : Develops c c') (hc : c.Valid) :
    R c c' := by
  have hchanges := h hc
  clear h
  have hboth : c'.Valid ∧ R c c' := by
    induction hchanges with
    | refl => exact ⟨hc, Std.Refl.refl c⟩
    | tail _ hnext ih =>
      exact ⟨(hnext.safe ih.1).1, IsTrans.trans _ _ _ ih.2 (hchange _ _ ih.1 hnext)⟩
  exact hboth.2

/-- What every change of a valid context leaves true stays true. -/
theorem invariant {P : Context → Prop} (hchange : ∀ c c', c.Valid → Change c c' → P c → P c')
    (h : Develops c c') (hc : c.Valid) (hP : P c) : P c' := by
  have : Std.Refl fun c c' => P c → P c' := ⟨fun _ => id⟩
  have : IsTrans Context fun c c' => P c → P c' := ⟨fun _ _ _ h h' => h' ∘ h⟩
  exact h.rel hchange hc hP

/-- One change. -/
theorem single (h : c.Valid → Change c c') : Develops c c' := fun hc => .single (h hc)

instance : Std.Refl Develops := ⟨fun _ _ => .refl⟩

instance : IsTrans Context Develops where
  trans _ _ _ h h' hc := (h hc).trans (h' (h.safe hc).1)

/-- Asking for backend types, adding constants and reporting errors. -/
theorem of_still (h : c.Within (· = ·) Ir.Module.Still c') : Develops c c' :=
  .single fun _ => .checked (h.mono (fun _ _ hp => hp ▸ .refl _) fun _ _ hm => hm)
    fun hc => hc.of_still h

end Develops

/-! ## Functions -/

section

variable {name : String} {params : List Param} {returnType : TypeId} {linkage : Ir.Linkage}
  {func : Ir.FuncId}

/-- Declaring a function is a change. -/
theorem Declared.develops (h : Declared name params returnType linkage func c c')
    (hparams : ∀ p ∈ params, c.Grounded p.ty) (hret : c.Grounded returnType) : c.Develops c' :=
  .single fun _ => .function name params returnType linkage func h hparams hret

/-- What is emitted right after a function was declared is its body. -/
theorem Declared.bodied (h : Declared name params returnType linkage func c c')
    {entry : Ir.BlockId} {m₁ m₂ m' : Ir.Module}
    (hentry : Ir.Module.appendBlock func "entry" c'.ir = (entry, m₁))
    (hcode : (∀ C : Ir.Course func, C.Starts m₁ entry → C.Returns m₁ entry m₂) ∧
        (m' = m₂ ∨ m' = (Ir.Module.finishFunction func m₂).2) ∨
      (∀ C : Ir.Course func, C.Starts m₁ entry → C.Stops m₁ entry m₂) ∧
        m' = (Ir.Module.finishFunction func m₂).2) :
    Ir.Module.Bodied func c'.ir m' :=
  ⟨h.func_lt, h.noBlocks, entry, m₁, m₂, hentry, hcode⟩

/-- The code of a body and a report change a context into a valid one. -/
theorem Change.of_bodied {m : Ir.Module} {queue : Queue} (hm : c.ir.Extends m)
    (h : Ir.Module.Bodied func c.ir m) : Change c { c.withIr m with queue } := by
  have hwithin : ∀ P : Pool → Pool → Prop, P c.pool c.pool →
      c.Within P Ir.Module.Extends { c.withIr m with queue } := fun _ hpool =>
    ⟨hpool, hm, rfl, rfl, rfl, rfl⟩
  exact .body func (hwithin _ (.refl _)) (fun hc => (Safe.of_extends (hwithin _ rfl) hc).1) h

end

/-! ## The functions of enums -/

variable {enumTy underlying : TypeId} {linkage : Ir.Linkage} {span : Span}

/-- A way to compute a value from the parameters of a function that every course covers. -/
structure Covered (body : Ir.BlockId → List Ir.ValueId → Ir.Build Ir.ValueId) : Prop where
  keeps : ∀ b vs, Keeps Ir.Module.Extends (body b vs)
  leads : ∀ (func : Ir.FuncId) (C : Ir.Course func) (m : Ir.Module) (b : Ir.BlockId)
    (vs : List Ir.ValueId), C.At m b → (∀ v ∈ vs, C.Usable m b v) →
    Ends (body b vs) m (fun w m' => C.Leads m b m' b ∧ C.Usable m' b w) (C.Stops m b)

/-- A function with one block is declared, and its body is emitted. -/
theorem defineOneBlock_develops (name : String) (params : List Param) {returnType : TypeId}
    {body : Ir.BlockId → List Ir.ValueId → Ir.Build Ir.ValueId} (hbody : Covered body)
    (hparams : ∀ p ∈ params, c.Grounded p.ty) (hret : c.Grounded returnType) :
    Ends (defineOneBlock name params returnType linkage span body) c (fun _ => c.Develops)
      c.Develops := by
  refine (declareFunction_ends name params returnType linkage span c).andThen
    (fun _ h => .of_still h.1) fun func c₁ hdeclared => ?_
  have hdevelops := hdeclared.develops hparams hret
  obtain ⟨entry, m₁, hentry⟩ : ∃ entry m₁,
    Ir.Module.appendBlock func "entry" c₁.ir = (entry, m₁) := ⟨_, _, rfl⟩
  have hextends : c₁.ir.Extends m₁ := by
    have h := Ir.Module.appendBlock_extends c₁.ir func "entry"
    rwa [hentry] at h
  have happend : always (onModule (Ir.Module.appendBlock func "entry")) c₁ =
      .ok entry (c₁.withIr m₁) := always_of_eq (by rw [onModule_run, hentry])
  refine .next happend (.next rfl ?_)
  -- the body and its return are one computation, which every course of the function follows
  let compute : Ir.Build PUnit := do
    let v ← body entry (m₁.function func).params
    Ir.Module.ret entry (some v)
  have hkeeps : Keeps Ir.Module.Extends compute :=
    .bind (hbody.keeps _ _) fun v => Ir.Module.ret_keeps entry (some v)
  have hcompute : ∀ C : Ir.Course func, C.Starts m₁ entry →
      Ends compute m₁ (fun _ m₂ => C.Returns m₁ entry m₂) (C.Stops m₁ entry) := by
    intro C hstart
    refine (hbody.leads func C m₁ entry _ hstart.ready hstart.params).bind ?_
    rintro v m₂ ⟨hlead, hv⟩
    have hvalue : ∀ w ∈ some v, C.Usable m₂ entry w := by
      rintro _ ⟨⟩
      exact hv
    exact (Ir.Course.ret (C.lands hlead) hvalue).mono (fun _ _ h => h.after hlead)
      fun _ => C.after hlead
  have hrun := attempt_run compute (c₁.withIr m₁)
  rw [show (c₁.withIr m₁).ir = m₁ from rfl] at hrun
  -- the blocks are closed whether or not the body was refused
  cases hcomputed : compute m₁ with
  | ok a m₂ =>
    rw [hcomputed] at hrun
    have hbodied := hdeclared.bodied hentry
      (.inl ⟨fun C hstart => (hcompute C hstart).of_ok hcomputed, .inl rfl⟩)
    exact .next (always_of_eq hrun) (.pure (IsTrans.trans _ _ _ hdevelops (.single fun _ =>
      .of_bodied (hextends.trans (hkeeps.ok hcomputed)) hbodied)))
  | error e m₂ =>
    rw [hcomputed] at hrun
    have hbodied := hdeclared.bodied hentry
      (.inr ⟨fun C hstart => (hcompute C hstart).of_error hcomputed, rfl⟩)
    have hm₂ := hextends.trans ((hkeeps m₁).of_error hcomputed)
    exact .next (always_of_eq hrun) (IsTrans.trans _ _ _ hdevelops (.single fun _ =>
      .of_bodied (hm₂.trans (Ir.Module.finishFunction_extends func m₂)) hbodied))

/-- Every course covers the body of the constructor. -/
theorem covered_constructorBody (backing : Ir.TyId) : Covered (constructorBody backing) :=
  ⟨constructorBody_keeps backing, fun _ _ _ _ _ hat hvs => Ir.Course.constructorBody hat hvs _⟩

/-- Every course covers the body of the conversion. -/
theorem covered_conversionBody : Covered conversionBody :=
  ⟨conversionBody_keeps, fun _ _ _ _ _ hat hvs => Ir.Course.conversionBody hat hvs⟩

/-- Every course covers the body of a comparison. -/
theorem covered_comparisonBody (predicate : Ir.IntPredicate) :
    Covered (comparisonBody predicate) :=
  ⟨comparisonBody_keeps predicate, fun _ _ _ _ _ hat hvs =>
    Ir.Course.comparisonBody hat hvs predicate⟩

/-- Declaring comparisons of an enum. -/
theorem defineComparisons_develops {signed : Bool} (comparisons : List Comparison)
    (hc : c.Valid) (henum : c.Grounded enumTy) :
    Ends (defineComparisons enumTy signed linkage span comparisons) c (fun _ => c.Develops)
      c.Develops := by
  induction comparisons generalizing c with
  | nil => exact .pure (Std.Refl.refl c)
  | cons comparison rest ih =>
    refine (defineOneBlock_develops _ _ (covered_comparisonBody _) ?_
      (hc.grounded_primitive .bool)).bind fun _ c₁ h₁ => ?_
    · simpa using henum
    · obtain ⟨hvalid, hsteady⟩ := h₁.safe hc
      exact (ih hvalid (henum.mono hsteady)).mono (fun _ _ h => IsTrans.trans _ _ _ h₁ h)
        fun _ h => IsTrans.trans _ _ _ h₁ h

/-- Declaring the functions of an enum. -/
theorem defineEnumFunctions_develops (name : String) (hc : c.Valid)
    (henum : c.Grounded enumTy) (hunder : c.Grounded underlying) :
    Ends (defineEnumFunctions name enumTy underlying linkage span) c (fun _ => c.Develops)
      c.Develops := by
  obtain ⟨backing, c₁, hbacking⟩ : ∃ backing c₁, backendType enumTy c = (backing, c₁) :=
    ⟨_, _, rfl⟩
  have h₁ : c.Develops c₁ := by
    have h := backendType_moves enumTy c
    rw [hbacking] at h
    exact .of_still h
  -- each function is declared in the context that the one before it left, where the types are still
  -- grounded
  have hsteady₁ := (h₁.safe hc).2
  refine .next (always_of_eq hbacking) ?_
  refine (defineOneBlock_develops _ _ (covered_constructorBody backing)
    (by simpa using hunder.mono hsteady₁) (henum.mono hsteady₁)).andThen
    (fun _ h => IsTrans.trans _ _ _ h₁ h) fun _ c₂ h => ?_
  have h₂ : c.Develops c₂ := IsTrans.trans _ _ _ h₁ h
  have hsteady₂ := (h₂.safe hc).2
  refine .next rfl ?_
  refine (defineOneBlock_develops _ _ covered_conversionBody
    (by simpa using henum.mono hsteady₂) (hunder.mono hsteady₂)).andThen
    (fun _ h => IsTrans.trans _ _ _ h₂ h) fun _ c₃ h => ?_
  have h₃ : c.Develops c₃ := IsTrans.trans _ _ _ h₂ h
  obtain ⟨hvalid₃, hsteady₃⟩ := h₃.safe hc
  exact .next rfl ((defineComparisons_develops comparisons hvalid₃ (henum.mono hsteady₃)).mono
    (fun _ _ h => IsTrans.trans _ _ _ h₃ h) fun _ h => IsTrans.trans _ _ _ h₃ h)

end Context

/-- The context of the second unit comes from that of the first one by changes. -/
def Compilation.Develops {σ : Type} (u u' : Compilation σ) : Prop :=
  u.context.Develops u'.context

namespace Compilation

variable {σ : Type} {u u' : Compilation σ}

instance : Std.Refl (Develops (σ := σ)) := ⟨fun u => Std.Refl.refl u.context⟩

instance : IsTrans (Compilation σ) Develops where
  trans u u' u'' h h' := IsTrans.trans u.context u'.context u''.context h h'

/-- Checks, and looking up and entering types, are a change. -/
theorem Quiet.develops (h : Quiet u u') : Develops u u' :=
  .single fun _ => .checked h.within.context h.valid

/-- A check that fails is a change. -/
theorem Checks.develops (h : Checks u u') : Develops u u' := by
  rcases h with h | h
  · rw [Develops, h]
    exact Std.Refl.refl _
  · exact .of_still h.within

end Compilation

namespace Lower

variable {σ : Type}

/-! ## Definitions -/

/-- Development may be shown of valid contexts. -/
theorem keeps_develops {α : Type} {x : Lower σ α} (h : ∀ u : Compilation σ, u.context.Valid →
    Ends x u (fun _ => u.Develops) u.Develops) : Keeps Compilation.Develops x := fun u =>
  .intro (fun _ _ hx hu => (h u hu).of_ok hx hu) fun _ _ hx hu => (h u hu).of_error hx hu

/-- Defining a struct. -/
theorem defineStruct_develops (nameNode : NodeId) (name : String) (body : NodeId)
    (parts : List NodeId) :
    Keeps Compilation.Develops (defineStruct nameNode name body parts : Lower σ PUnit) := by
  refine keeps_develops fun u hu => ?_
  unfold defineStruct
  split
  next linkageNode membersNode =>
    refine ((expectLinkage_keeps linkageNode).ends u).andThen
      (fun _ h => (Compilation.Quiet.of_still h).develops) fun linkage u₁ h₁ => ?_
    have hquiet₁ : u.Quiet u₁ := .of_still h₁
    refine ((expectList_keeps membersNode "struct members").ends u₁).andThen
      (fun _ h => (IsTrans.trans _ _ _ hquiet₁ (.of_still h) : u.Quiet _).develops)
      fun memberNodes u₂ h₂ => ?_
    have hquiet₂ : u.Quiet u₂ := IsTrans.trans _ _ _ hquiet₁ (.of_still h₂)
    refine (typedNames_ends "struct member" [] memberNodes u₂).andThen
      (fun _ h => (IsTrans.trans _ _ _ hquiet₂ h : u.Quiet _).develops) fun members u₃ h₃ => ?_
    have hdevelops₃ := (IsTrans.trans _ _ _ hquiet₂ h₃.1 : u.Quiet u₃).develops
    have hmembers := h₃.2 (hquiet₂.valid hu) (fun _ hd => absurd hd List.not_mem_nil)
    refine .next rfl ((onContext_final (registerStruct_ends name members linkage
      (u₃.forest.span nameNode) u₃.context)).mono (fun _ _ h => ?_) fun _ h => ?_)
    · exact IsTrans.trans _ _ _ hdevelops₃
        (.single fun _ => .struct name members linkage h hmembers)
    · exact IsTrans.trans _ _ _ hdevelops₃ (.of_still h.1)
  next =>
    exact (Refuses.read fun _ => fail_refuses _).ends u
      fun _ h => (Compilation.Quiet.of_still h).develops

/-- Defining an enum. -/
theorem defineEnum_develops (nameNode : NodeId) (name : String) (body : NodeId)
    (parts : List NodeId) :
    Keeps Compilation.Develops (defineEnum nameNode name body parts : Lower σ PUnit) := by
  refine keeps_develops fun u hu => ?_
  rw [defineEnum_eq]
  refine (enumPlan_ends nameNode name body parts u).andThen (fun _ h => h.develops)
    fun plan u₁ h => ?_
  obtain ⟨hquiet, -, hgrounded, hinteger, -⟩ := h
  have hunder := hgrounded hu
  have hvalid₁ := hquiet.valid hu
  have hregister : Ends (registerEnum plan.name plan.builder plan.linkage plan.underlying
      plan.nameSpan plan.bodySpan) u₁.context (fun _ => u₁.context.Develops)
      u₁.context.Develops := by
    rw [registerEnum_eq]
    refine (registerTypes_ends hvalid₁ plan.name plan.builder plan.linkage plan.underlying
      plan.nameSpan).andThen (fun _ h => .of_still h.1) fun enumTy c₂ h => ?_
    have hdevelops : u₁.context.Develops c₂ := .single fun _ =>
      .enum plan.name plan.builder plan.linkage plan.underlying enumTy h hunder hinteger
    obtain ⟨hvalid₂, hsteady₂, henum⟩ := h.safe hvalid₁ hunder
    exact (Context.defineEnumFunctions_develops plan.name hvalid₂ henum
      (hunder.mono hsteady₂)).mono (fun _ _ h => IsTrans.trans _ _ _ hdevelops h)
      fun _ h => IsTrans.trans _ _ _ hdevelops h
  exact (onContext_final hregister).mono
    (fun _ _ h => IsTrans.trans _ _ _ hquiet.develops h)
    fun _ h => IsTrans.trans _ _ _ hquiet.develops h

/-- The body of a declared function is emitted as every course says, and its blocks are closed in
any case. -/
theorem functionBody_ends {name : String} {params : List Param} {returnType : TypeId}
    {linkage : Ir.Linkage} {func : Ir.FuncId} {c c₁ : Context}
    (hdeclared : Context.Declared name params returnType linkage func c c₁)
    (hparams : ∀ p ∈ params, c₁.Grounded p.ty) (places : List Span) (first : NodeId)
    (rest : List NodeId) (u : Compilation σ) :
    Ends (ensuring (body func (params.zip places) returnType first rest)
        (Context.onModule (Ir.Module.finishFunction func))) (u.withContext c₁)
      (fun _ u' => c₁.Within Pool.Extends Ir.Module.Extends u'.context ∧ c₁.Safe u'.context ∧
        Ir.Module.Bodied func c₁.ir u'.context.ir)
      fun u' => c₁.Within Pool.Extends Ir.Module.Extends u'.context ∧ c₁.Safe u'.context ∧
        Ir.Module.Bodied func c₁.ir u'.context.ir := by
  obtain ⟨entry, m₁, hentry⟩ : ∃ entry m₁,
    Ir.Module.appendBlock func "entry" c₁.ir = (entry, m₁) := ⟨_, _, rfl⟩
  have hfunc : func.index < m₁.functions.size := by
    have h := (Ir.Module.appendBlock_extends c₁.ir func "entry").functions
    rw [hentry] at h
    exact Nat.lt_of_lt_of_le hdeclared.func_lt h
  have hbody := body_ends func (params.zip places) returnType first rest (u.withContext c₁)
    fun p hp => hparams p.1 (List.of_mem_zip hp).1
  have hcovered := fun (C : Ir.Course func) (hstart : C.Starts m₁ entry) =>
    body_covered (u := u.withContext c₁) (params.zip places) returnType first rest hentry hfunc
      hstart
  have hfinish : ∀ u' : Compilation σ,
      (c₁.Within Pool.Extends Ir.Module.Extends u'.context ∧ c₁.Safe u'.context) →
      ((∀ C : Ir.Course func, C.Starts m₁ entry → C.Returns m₁ entry u'.context.ir) ∨
        (∀ C : Ir.Course func, C.Starts m₁ entry → C.Stops m₁ entry u'.context.ir)) →
      c₁.Within Pool.Extends Ir.Module.Extends
          (u'.context.withIr (Ir.Module.finishFunction func u'.context.ir).2) ∧
        c₁.Safe (u'.context.withIr (Ir.Module.finishFunction func u'.context.ir).2) ∧
        Ir.Module.Bodied func c₁.ir (Ir.Module.finishFunction func u'.context.ir).2 := by
    rintro u' ⟨hwithin, hsafe⟩ hcode
    have hclosed := Ir.Module.finishFunction_extends func u'.context.ir
    have hfinished : c₁.Safe (u'.context.withIr (Ir.Module.finishFunction func u'.context.ir).2) :=
      IsTrans.trans _ _ _ hsafe (Context.Safe.of_extends (.of_ir hclosed))
    exact ⟨IsTrans.trans _ _ _ hwithin ⟨.refl _, hclosed, rfl, rfl, rfl, rfl⟩, hfinished,
      hdeclared.bodied hentry (hcode.imp (fun h => ⟨h, .inr rfl⟩) fun h => ⟨h, rfl⟩)⟩
  refine ensuring_ends (.intro (fun a u' hrun => ?_) fun e u' hrun => ?_)
  · exact hfinish u' (hbody.of_ok hrun) (.inl fun C hstart => (hcovered C hstart).of_ok hrun)
  · exact hfinish u' (hbody.of_error hrun)
      (.inr fun C hstart => (hcovered C hstart).of_error hrun)

/-- Defining a function. -/
theorem defineFunction_develops (nameNode : NodeId) (name : String) (bodyNode : NodeId)
    (parts : List NodeId) :
    Keeps Compilation.Develops
      (defineFunction nameNode name bodyNode parts : Lower σ PUnit) := by
  refine keeps_develops fun u hu => ?_
  unfold defineFunction
  split
  next linkageNode tyNode paramsNode forms =>
    refine ((expectLinkage_keeps linkageNode).ends u).andThen
      (fun _ h => (Compilation.Quiet.of_still h).develops) fun linkage u₁ h₁ => ?_
    have hquiet₁ : u.Quiet u₁ := .of_still h₁
    refine (resolveType_ends tyNode u₁).andThen
      (fun _ h => (IsTrans.trans _ _ _ hquiet₁ h : u.Quiet _).develops)
      fun returnType u₂ h₂ => ?_
    have hquiet₂ : u.Quiet u₂ := IsTrans.trans _ _ _ hquiet₁ h₂.1
    have hret := h₂.2 (hquiet₁.valid hu)
    refine ((expectList_keeps paramsNode "parameter list").ends u₂).andThen
      (fun _ h => (IsTrans.trans _ _ _ hquiet₂ (.of_still h) : u.Quiet _).develops)
      fun paramNodes u₃ h₃ => ?_
    have hquiet₃ : u.Quiet u₃ := IsTrans.trans _ _ _ hquiet₂ (.of_still h₃)
    refine (typedNames_ends "parameter" [] paramNodes u₃).andThen
      (fun _ h => (IsTrans.trans _ _ _ hquiet₃ h : u.Quiet _).develops) fun named u₄ h₄ => ?_
    have hdevelops₄ := (IsTrans.trans _ _ _ hquiet₃ h₄.1 : u.Quiet u₄).develops
    have hnamed := h₄.2 (hquiet₃.valid hu) (by simp)
    -- the return type was resolved before the parameters were, and is still grounded
    have hret₄ := (hret.mono (Compilation.Quiet.of_still h₃).steady).mono h₄.1.steady
    have hparams : ∀ p ∈ named.map fun d => Param.mk d.1 d.2, u₄.context.Grounded p.ty := by
      intro p hp
      obtain ⟨d, hd, rfl⟩ := List.mem_map.1 hp
      exact hnamed d hd
    refine .next rfl ((onContext_ends (Context.declareFunction_ends name _ returnType linkage
      (u₄.forest.span nameNode) u₄.context)).andThen ?_ ?_)
    · rintro _ ⟨c, rfl, hstill, -⟩
      exact IsTrans.trans _ _ _ hdevelops₄ (.of_still hstill)
    · rintro func _ ⟨c, rfl, hdeclared⟩
      have hdevelops : u.context.Develops c :=
        IsTrans.trans _ _ _ hdevelops₄ (hdeclared.develops hparams hret₄)
      obtain ⟨-, hsteady⟩ := hdeclared.safe (hdevelops₄.safe hu).1 hparams hret₄
      split
      · exact .pure hdevelops
      next first rest =>
        have hbody : ∀ u₅ : Compilation σ,
            (c.Within Pool.Extends Ir.Module.Extends u₅.context ∧ c.Safe u₅.context ∧
              Ir.Module.Bodied func c.ir u₅.context.ir) → u.context.Develops u₅.context := by
          rintro u₅ ⟨hwithin, hsafe, hbodied⟩
          exact IsTrans.trans _ _ _ hdevelops
            (.single fun _ => .body func hwithin (fun hc => (hsafe hc).1) hbodied)
        exact .next rfl ((functionBody_ends hdeclared (fun p hp => (hparams p hp).mono hsteady) _
          first rest u₄).mono (fun _ => hbody) hbody)
  next =>
    exact (Refuses.read fun _ => fail_refuses _).ends u
      fun _ h => (Compilation.Quiet.of_still h).develops

/-! ## Top-level forms -/

/-- What a relation has to be kept by for all top-level forms to keep it. -/
structure TopLevel (R : Compilation σ → Compilation σ → Prop) : Prop where
  checks {u u' : Compilation σ} : u.Checks u' → R u u'
  enter (name : String) (u : Compilation σ) :
    R u (u.withContext (Context.enter name u.context).2)
  leave (u : Compilation σ) : R u (u.withContext (Context.leave u.context).2)
  defineEnum (nameNode : NodeId) (name : String) (body : NodeId) (parts : List NodeId) :
    Keeps R (defineEnum nameNode name body parts)
  defineStruct (nameNode : NodeId) (name : String) (body : NodeId) (parts : List NodeId) :
    Keeps R (defineStruct nameNode name body parts)
  defineFunction (nameNode : NodeId) (name : String) (body : NodeId) (parts : List NodeId) :
    Keeps R (defineFunction nameNode name body parts)

/-- Processing several forms keeps what processing one keeps. -/
theorem every_keeps {R : Compilation σ → Compilation σ → Prop} [Std.Refl R]
    [IsTrans (Compilation σ) R] {step : NodeId → Lower σ PUnit}
    (h : ∀ node, Keeps R (step node)) (nodes : List NodeId) : Keeps R (every step nodes) := by
  induction nodes with
  | nil => exact .pure _
  | cons node nodes ih =>
    intro u
    unfold Ends every
    cases hrun : step node u with
    | ok a u₁ =>
      exact (ih u₁).mono (fun _ _ h' => IsTrans.trans _ _ _ ((h node).ok hrun) h')
        fun _ h' => IsTrans.trans _ _ _ ((h node).ok hrun) h'
    | error e u₁ =>
      have h₁ := ((h node) u).of_error hrun
      cases e with
      | unfinished => exact h₁
      | reported =>
        dsimp only
        cases hrun' : every step nodes u₁ with
        | ok b u₂ => exact IsTrans.trans _ _ _ h₁ (ih.ok hrun')
        | error e u₂ => exact IsTrans.trans _ _ _ h₁ ((ih u₁).of_error hrun')

namespace TopLevel

variable {R : Compilation σ → Compilation σ → Prop} (h : TopLevel R)

include h

/-- Checks keep the relation. -/
theorem checked {α : Type} {x : Lower σ α} (hx : Keeps Compilation.Checks x) : Keeps R x :=
  hx.mono fun _ _ => h.checks

/-- What is rejected keeps the relation. -/
theorem rejected {α : Type} {x : Lower σ α} (hx : Refuses Compilation.Rejects x) : Keeps R x :=
  hx.keeps.mono fun _ _ hr => h.checks (.inr hr)

variable [IsTrans (Compilation σ) R]

/-- A namespace form keeps the relation if the forms inside it do. -/
theorem namespaceForm_keeps {inner : List NodeId → Lower σ PUnit}
    (hinner : ∀ nodes, Keeps R (inner nodes)) (node : NodeId) (arguments : List NodeId) :
    Keeps R (namespaceForm inner node arguments) := by
  unfold namespaceForm
  split
  · exact h.rejected (.read fun _ => fail_rejects (by rfl))
  next nameNode nodes =>
    refine .bind (h.checked (expectSymbol_checks nameNode _)) fun name =>
      .bind (h.enter name) fun _ u => ensuring_ends ?_
    exact (hinner nodes u).mono (fun _ u' hu' => IsTrans.trans _ _ _ hu' (h.leave u'))
      fun u' hu' => IsTrans.trans _ _ _ hu' (h.leave u')

variable [Std.Refl R]

/-- A definition keeps the relation. -/
theorem definition_keeps (node : NodeId) (arguments : List NodeId) :
    Keeps R (definition node arguments : Lower σ PUnit) := by
  unfold definition
  split
  next nameNode body =>
    refine .bind (h.checked (expectSymbol_checks nameNode _)) fun name =>
      .bind (h.checked (expectList_checks body _)) fun items => ?_
    have hword : ∀ word? : Option String, Keeps R (
        if word? = some "enum" then Lower.defineEnum nameNode name body items.tail
        else if word? = some "struct" then Lower.defineStruct nameNode name body items.tail
        else if word? = some "fn" then Lower.defineFunction nameNode name body items.tail
        else do
          fail (Report.unexpectedElement (← span body) "`enum`, `struct` or `fn`" "declaration"
            (← display body)) : Lower σ PUnit) := by
      intro word?
      split
      · exact h.defineEnum _ _ _ _
      · split
        · exact h.defineStruct _ _ _ _
        · split
          · exact h.defineFunction _ _ _ _
          · exact h.rejected (.read fun _ => .read fun _ => fail_rejects (by rfl))
    dsimp only
    split
    · exact .bind (.pure _) fun word? => hword word?
    · exact .bind (read_keeps _) fun word? => hword word?
  next => exact h.rejected (.read fun _ => fail_rejects (by rfl))

/-- A top-level form keeps the relation if what it leads to does. -/
theorem topForm_keeps {inner : List NodeId → Lower σ PUnit} {again : NodeId → Lower σ PUnit}
    (hinner : ∀ nodes, Keeps R (inner nodes)) (hagain : ∀ node, Keeps R (again node))
    (left : Nat) (node : NodeId) : Keeps R (topForm inner left again node) := by
  refine .bind (h.checked (expectList_checks node _)) fun items => ?_
  split
  · exact h.rejected (.read fun _ => fail_rejects (by rfl))
  · refine .bind (read_keeps _) fun word? => ?_
    split
    · exact h.namespaceForm_keeps hinner _ _
    · split
      · exact h.definition_keeps _ _
      · refine .bind (h.checked (tryExpand_checks left node)) fun expansion => ?_
        split
        · exact hagain _
        · exact h.rejected (.read fun _ => .read fun _ => fail_rejects (by rfl))

/-- A top-level form in which namespace forms nest to any depth keeps the relation. -/
theorem topFormBelow_keeps (depth : Nat) (node : NodeId) :
    Keeps R (topFormBelow depth node : Lower σ PUnit) := by
  induction depth generalizing node with
  | zero => exact .throw _
  | succ depth ih =>
    have hwith : ∀ left node, Keeps R
        (topFormWith (every (topFormBelow depth)) left node : Lower σ PUnit) := by
      intro left
      induction left with
      | zero => exact h.topForm_keeps (every_keeps ih) (fun _ => .throw _) 0
      | succ left ihleft => exact h.topForm_keeps (every_keeps ih) ihleft (left + 1)
    exact .bind .get fun u => hwith u.maxExpansions node

/-- Processing a top-level form keeps the relation. -/
theorem processTopLevel_keeps (node : NodeId) :
    Keeps R (processTopLevel node : Lower σ PUnit) := h.topFormBelow_keeps _ node

/-- Processing the definition of an enum keeps the relation. -/
theorem declareEnum_keeps (node : NodeId) : Keeps R (declareEnum node : Lower σ PUnit) := by
  refine .bind (h.checked (expectList_checks node _)) fun items => ?_
  dsimp only
  -- the word is `none` for an empty list, and read for any other
  split
  all_goals
    refine .bind (by first | exact .pure _ | exact read_keeps _) fun word? => ?_
    split
    · split
      · exact .bind (h.checked (expectSymbol_checks _ _)) fun name =>
          .bind (h.checked (expectList_checks _ _)) fun parts => h.defineEnum _ _ _ _
      · exact h.rejected (.read fun _ => fail_rejects (by rfl))
    · exact h.rejected (.read fun _ => .read fun _ => fail_rejects (by rfl))

end TopLevel

/-- Top-level forms change contexts step by step. -/
theorem topLevel_develops : TopLevel (Compilation.Develops (σ := σ)) where
  checks h := h.develops
  enter name _ := .single fun _ => .enter name rfl
  leave _ := .single fun _ => .leave rfl
  defineEnum := defineEnum_develops
  defineStruct := defineStruct_develops
  defineFunction := defineFunction_develops

end Lower

end FormCompiler
