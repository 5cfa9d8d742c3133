import FormCompiler.Proofs.EnumAtomicity
import FormCompiler.Proofs.Ir.Returning
import FormCompiler.Proofs.Ir.Words

/-!
# What the Functions of an Enum Mean

The functions of an enum are executed over words of the width of the type under it. The conversion
is inverse to the constructor, and each comparison of two values of the enum says what its operator
says of the integers under them (`enumFunctions_meaning`).

* `constructorMeaning`, `conversionMeaning`, `comparisonMeaning`: what the bodies compute, in any
  machine.
* `MeaningsAdded`: the current namespace gained functions with these meanings.
* `EnumLaws`: what the functions of an enum do to words.
* `EnumFunctions`, `GainsEnum`: an enum was declared with its functions and no others, and they obey
  the laws.
-/

namespace FormCompiler

open Ir (Meaning)

namespace Context

variable {c c' c'' : Context} {enumTy underlying : TypeId} {backing member : Ir.TyId}

/-! ## What bodies compute -/

/-- The type is a struct of one field, which can hold information. -/
structure Boxes (m : Ir.Module) (backing member : Ir.TyId) : Prop where
  struct : ∃ name, m.type backing = .struct name [member]
  member : m.type member ≠ .void

namespace Boxes

variable {m m' : Ir.Module}

theorem ne_void (h : Boxes m backing member) : m.type backing ≠ .void := by
  obtain ⟨name, hname⟩ := h.struct
  rw [hname]
  nofun

theorem mono (h : Boxes m backing member) (hm : m.Extends m') : Boxes m' backing member := by
  have hlt := Ir.Module.lt_of_type_ne_void h.ne_void
  exact ⟨h.struct.imp fun _ hname => (hm.type hlt).trans hname, hm.type_ne_void h.member⟩

/-- The only field is the boxed one. -/
theorem eq_of_fieldType (h : Boxes m backing member) {ty : Ir.TyId}
    (hty : Ir.Module.fieldType backing 0 m = .ok ty) : ty = member := by
  obtain ⟨name, hname⟩ := h.struct
  obtain ⟨_, _, htype, hfield⟩ := Ir.Module.fieldType_ok_iff.1 hty
  rw [hname] at htype
  cases htype
  exact (Option.some_inj.1 hfield).symm

end Boxes

/-- The constructor inserts its argument into an undefined aggregate. -/
def constructorMeaning (backing : Ir.TyId) : Meaning := fun _ _ machine xs =>
  match xs with
  | x :: _ => machine.insert (machine.constant backing .undefined) x 0
  | [] => machine.unit

/-- The conversion takes a field out of its argument. -/
def conversionMeaning : Meaning := fun _ _ machine xs =>
  match xs with
  | x :: _ => machine.extract x 0
  | [] => machine.unit

/-- A comparison compares fields of its arguments. -/
def comparisonMeaning (predicate : Ir.IntPredicate) : Meaning := fun _ _ machine xs =>
  match xs with
  | x :: y :: _ => machine.compare predicate (machine.extract x 0) (machine.extract y 0)
  | _ => machine.unit

/-- The meaning of a comparison of an enum over signed or unsigned integers. -/
def Comparison.meaning (signed : Bool) (comparison : Comparison) : Meaning :=
  comparisonMeaning (if signed then comparison.signed else comparison.unsigned)

section

variable {m : Ir.Module} {b : Ir.BlockId} {value first second : Ir.ValueId}

/-- The code of the constructor. -/
theorem constructorBody_evaluates (hbox : Boxes m backing member) (hb : b.index < m.blocks.size) :
    Ends (constructorBody backing b [value]) m
      (fun v m' => m.Evaluates b [value] (constructorMeaning backing) v m') fun _ => True := by
  refine (Ir.Module.always_ends (Ir.Module.undefined backing) m).andThen (fun _ h => h.elim)
    fun blank m₁ hrun => ?_
  have hfresh := Ir.Module.newValue_fresh backing .undefined m
  have hrun' : Ir.Module.newValue backing .undefined m = (blank, m₁) := hrun
  rw [hrun'] at hfresh
  have hbox₁ := hbox.mono hfresh.still.toExtends
  have hb₁ : b.index < m₁.blocks.size := by rwa [hfresh.still.blocks]
  refine (Ir.Module.insertValue_ends b blank value 0 m₁).mono ?_ fun _ _ => trivial
  rintro v m' ⟨hemitted, hty⟩ V M machine later s hlater hs
  have hcarries : m'.type (m'.valueType v) ≠ .void := by
    rw [hty, Ir.Module.valueType_of_getElem? hfresh.value]
    exact (hbox₁.mono hemitted.toExtends).ne_void
  obtain ⟨s', hcomputes⟩ := Ir.Machine.computes_of_emitted machine hemitted hlater hb₁
    (hs.still hfresh.still) rfl hcarries rfl
  refine ⟨s', .of_still hfresh.still ?_⟩
  -- the undefined aggregate is still undefined in the later module
  have hlater₁ : m₁.Extends later := hemitted.toExtends.trans hlater
  have hblank := hlater₁.values.getElem?_some hfresh.value
  have hblankType := Ir.Module.valueType_of_getElem? hblank
  have hblankCarries : later.type (later.valueType blank) ≠ .void := by
    rw [hblankType]
    exact (hbox₁.mono hlater₁).ne_void
  have hoperand : machine.operand later s.values blank = machine.constant backing .undefined := by
    rw [Ir.Machine.operand_constant hblankCarries (Ir.Module.valueKind_of_getElem? hblank) nofun
      (fun _ _ => nofun), hblankType]
  rwa [hoperand] at hcomputes

/-- The code of the conversion. -/
theorem conversionBody_evaluates (hbox : Boxes m backing member) (hb : b.index < m.blocks.size)
    (hvalue : m.valueType value = backing) :
    Ends (conversionBody b [value]) m
      (fun v m' => m.Evaluates b [value] conversionMeaning v m') fun _ => True := by
  refine (Ir.Module.extractValue_ends b value 0 m).mono ?_ fun _ _ => trivial
  rintro v m' ⟨hemitted, hty⟩ V M machine later s hlater hs
  have hcarries : m'.type (m'.valueType v) ≠ .void := by
    have hmember : m'.valueType v = member := hbox.eq_of_fieldType (hvalue ▸ hty)
    rw [hmember]
    exact (hbox.mono hemitted.toExtends).member
  exact Ir.Machine.computes_of_emitted machine hemitted hlater hb hs rfl hcarries rfl

/-- The code of a comparison. -/
theorem comparisonBody_evaluates (predicate : Ir.IntPredicate) (hbox : Boxes m backing member)
    (hb : b.index < m.blocks.size) (hfirst : m.valueType first = backing)
    (hlt : second.index < m.values.size) (hsecond : m.valueType second = backing) :
    Ends (comparisonBody predicate b [first, second]) m
      (fun v m' => m.Evaluates b [first, second] (comparisonMeaning predicate) v m')
      fun _ => True := by
  refine (Ir.Module.extractValue_ends b first 0 m).andThen (fun _ _ => trivial) ?_
  rintro lhs m₁ ⟨hemitted₁, hlhs⟩
  have hbox₁ := hbox.mono hemitted₁.toExtends
  have hb₁ : b.index < m₁.blocks.size := by rwa [hemitted₁.size_blocks]
  have hsecond₁ : m₁.valueType second = backing :=
    (hemitted₁.toExtends.valueType hlt).trans hsecond
  refine (Ir.Module.extractValue_ends b second 0 m₁).andThen (fun _ _ => trivial) ?_
  rintro rhs m₂ ⟨hemitted₂, hrhs⟩
  have hbox₂ := hbox₁.mono hemitted₂.toExtends
  have hb₂ : b.index < m₂.blocks.size := by rwa [hemitted₂.size_blocks]
  refine (Ir.Module.icmp_ends b predicate lhs rhs m₂).mono ?_ fun _ _ => trivial
  rintro v m' ⟨hemitted, hbit⟩ V M machine later s hlater hs
  have hlater₂ := hemitted.toExtends.trans hlater
  have hlater₁ := hemitted₂.toExtends.trans hlater₂
  -- the two fields are taken out, one after the other
  have hlhsType : m₁.valueType lhs = member := hbox.eq_of_fieldType (hfirst ▸ hlhs)
  have hrhsType : m₂.valueType rhs = member := hbox₁.eq_of_fieldType (hsecond₁ ▸ hrhs)
  obtain ⟨s₁, h₁⟩ := Ir.Machine.computes_of_emitted machine hemitted₁ hlater₁ hb hs
    rfl (hlhsType ▸ hbox₁.member) rfl
  obtain ⟨s₂, h₂⟩ := Ir.Machine.computes_of_emitted machine hemitted₂ hlater₂ hb₁
    h₁.ends rfl (hrhsType ▸ hbox₂.member) rfl
  -- then they are compared
  have hcarries : m'.type (m'.valueType v) ≠ .void := by
    rw [Ir.Module.type_of_getElem? (Ir.Module.type_of_find hbit)]
    nofun
  obtain ⟨s₃, h₃⟩ := Ir.Machine.computes_of_emitted machine hemitted hlater hb₂
    h₂.ends rfl hcarries rfl
  refine ⟨s₃, ?_⟩
  have hall := (h₁.trans h₂ hemitted₁.toExtends).trans h₃
    (hemitted₁.toExtends.trans hemitted₂.toExtends)
  -- the first field is as it was taken out, and the second argument as it was given
  have hlhsLt : lhs.index < m₁.values.size := by
    obtain ⟨-, _, hvalue⟩ := hemitted₁.fresh lhs rfl
    exact (Array.getElem?_eq_some_iff.1 hvalue).1
  rw [h₂.advances.operand hlhsLt, h₁.value, h₂.value, h₁.advances.operand hlt] at hall
  exact hall

end

/-! ## One function -/

/-- The body computes what the meaning says of arguments of these types, in all contexts after
`c`. -/
def Expresses (c : Context) (body : Ir.BlockId → List Ir.ValueId → Ir.Build Ir.ValueId)
    (params : List TypeId) (meaning : Meaning) : Prop :=
  ∀ (c' : Context) (m : Ir.Module) (b : Ir.BlockId) (values : List Ir.ValueId)
    (tys : List Ir.TyId), Steady c c' → c'.ir.types = m.types → b.index < m.blocks.size →
    List.Forall₂ (Backs c') params tys →
    List.Forall₂ (fun ty v => v.index < m.values.size ∧ m.valueType v = ty) tys values →
    Ends (body b values) m (fun v m' => m.Evaluates b values meaning v m') fun _ => True

/-- The function was declared with the linkage, and calls of it return what the meaning says. -/
structure Provides (c : Context) (linkage : Ir.Linkage) (meaning : Meaning) (f : Function) :
    Prop where
  declared : f.linkage = linkage
  inTable : f.backend.index < c.ir.functions.size
  emitted : (c.ir.function f.backend).linkage = linkage
  means : c.ir.Means f.backend meaning

/-- The current namespace gained functions with the linkage and these meanings. -/
structure MeaningsAdded (linkage : Ir.Linkage) (meanings : List Meaning) (c c' : Context) :
    Prop where
  ir : c.ir.Extends c'.ir
  functions : ∃ fs : List Function,
    c'.current.functions = c.current.functions ++ fs.toArray ∧
      List.Forall₂ (c'.Provides linkage) meanings fs

variable {linkage : Ir.Linkage} {meaning : Meaning} {meanings meanings' : List Meaning}

/-- A function keeps its meaning. -/
theorem Provides.mono {f : Function} (h : c.Provides linkage meaning f)
    (hc : c.ir.Extends c'.ir) : c'.Provides linkage meaning f where
  declared := h.declared
  inTable := Nat.lt_of_lt_of_le h.inTable hc.functions
  emitted := (hc.function _ h.inTable).linkage.trans h.emitted
  means := h.means.mono h.inTable hc

/-- No function need be declared. -/
theorem MeaningsAdded.refl (linkage : Ir.Linkage) (c : Context) : MeaningsAdded linkage [] c c :=
  ⟨.refl c.ir, [], by simp, .nil⟩

/-- Functions may be declared several times. -/
theorem MeaningsAdded.trans (h : MeaningsAdded linkage meanings c c')
    (h' : MeaningsAdded linkage meanings' c' c'') :
    MeaningsAdded linkage (meanings ++ meanings') c c'' := by
  obtain ⟨hir, fs, hfunctions, hfs⟩ := h
  obtain ⟨hir', fs', hfunctions', hfs'⟩ := h'
  exact ⟨hir.trans hir', fs ++ fs', by rw [hfunctions', hfunctions]; simp,
    List.rel_append (hfs.imp fun _ _ hf => hf.mono hir') hfs'⟩

/-- The parameters of a declared function are distinct. -/
theorem declareFunction_nodup (name : String) (params : List Param) (returnType : TypeId)
    (linkage : Ir.Linkage) (span : Span) (c : Context) :
    Ends (declareFunction name params returnType linkage span) c
      (fun func c' => (c'.ir.function func).params.Nodup) fun _ => True := by
  refine .next rfl ?_
  dsimp only
  split
  · trivial
  · refine .next rfl ?_
    refine (always_ends _ c).andThen (fun _ h => h.elim) fun tys c₁ _ => ?_
    refine (always_ends _ c₁).andThen (fun _ h => h.elim) fun ret c₂ _ => ?_
    refine (emitOr_ends _ (Ir.Module.declareFunction_nodup _ tys ret linkage c₂.ir)).andThen
      (fun _ _ => trivial) ?_
    rintro func _ ⟨ir, rfl, hnodup⟩
    refine (always_ends _ _).andThen (fun _ h => h.elim) fun _ c' hadd => ?_
    -- registering the overload does not change the module
    have hir : ∀ (f : Function) (c : Context), (addFunction f c).2.ir = c.ir := fun f c => by
      unfold addFunction update
      split <;> rfl
    obtain rfl := congrArg Prod.snd hadd
    exact .pure (by rwa [hir])

/-- What a member of the second list is related to. -/
theorem exists_mem_of_forall₂ {α β : Type*} {R : α → β → Prop} {as : List α} {bs : List β}
    (h : List.Forall₂ R as bs) {b : β} (hb : b ∈ bs) : ∃ a ∈ as, R a b := by
  obtain ⟨i, hi, rfl⟩ := List.getElem_of_mem hb
  have hi' : i < as.length := h.length_eq ▸ hi
  exact ⟨as[i], List.getElem_mem hi', h.get hi' hi⟩

/-- The parameters of a declared function hold information if values of their types do. -/
theorem Declared.isParam {name : String} {params : List Param} {returnType : TypeId}
    {func : Ir.FuncId} (h : Declared name params returnType linkage func c c')
    (hparams : ∀ p ∈ params, ∃ ty, Backs c p.ty ty ∧ c.ir.type ty ≠ .void)
    (hgrounded : ∀ p ∈ params, c.Grounded p.ty) :
    ∀ v ∈ (c'.ir.function func).params, c'.ir.IsParam func v := by
  obtain ⟨-, c₁, tys, ret, ir, hwithin, hbacks, -, hdeclared, rfl⟩ := h
  obtain ⟨values, hfunction, hvalues⟩ := hdeclared.function_self
  change ∀ v ∈ (ir.function func).params, ir.IsParam func v
  rw [hfunction]
  have hall : List.Forall₂ (fun (p : Param) ty => p ∈ params ∧ Backs c₁ p.ty ty) params tys :=
    (List.forall₂_and_left _ _).2
      ⟨fun _ hp => hp, List.forall₂_map_left_iff.1 (hbacks hgrounded)⟩
  have hisParam : List.Forall₂ (fun (_ : Param) v => ir.IsParam func v) params values := by
    refine forall₂_comp (fun p ty v hp hv => ?_) hall hvalues
    obtain ⟨i, hi⟩ := hv
    obtain ⟨ty', hty', hne⟩ := hparams p hp.1
    obtain rfl := hp.2.unique (hty'.mono (.of_still hwithin))
    refine ⟨(Array.getElem?_eq_some_iff.1 hi).1, ⟨i, Ir.Module.valueKind_of_getElem? hi⟩, ?_⟩
    rw [Ir.Module.valueType_of_getElem? hi]
    exact hdeclared.toExtends.type_ne_void (hwithin.ir.toExtends.type_ne_void hne)
  intro v hv
  obtain ⟨p, -, hp⟩ := exists_mem_of_forall₂ hisParam hv
  exact hp

/-- The declared function is added to the current namespace. -/
theorem Declared.current {name : String} {params : List Param} {returnType : TypeId}
    {func : Ir.FuncId} (h : Declared name params returnType linkage func c c') (hc : c.Valid) :
    c.ir.Extends c'.ir ∧ (c'.ir.function func).linkage = linkage ∧
      c'.current.functions = c.current.functions ++ #[⟨name, params, returnType, linkage,
        c.functionSymbol name (params.map (·.ty)), func⟩] := by
  obtain ⟨-, c₁, tys, ret, ir, hwithin, -, -, hdeclared, rfl⟩ := h
  obtain ⟨values, hfunction, -⟩ := hdeclared.function_self
  have hlt : (c₁.withIr ir).currentId.index < (c₁.withIr ir).namespaces.size :=
    (hc.of_still hwithin).currentId_lt
  refine ⟨hwithin.ir.toExtends.trans hdeclared.toExtends, ?_, ?_⟩
  · change (ir.function func).linkage = linkage
    rw [hfunction]
  · rw [current_withCurrent hlt]
    exact Array.push_eq_append

/-- A function whose body expresses a meaning is declared with that meaning. -/
theorem defineOneBlock_meaningsAdded (name : String) (params : List Param) {returnType : TypeId}
    (linkage : Ir.Linkage) (span : Span)
    {body : Ir.BlockId → List Ir.ValueId → Ir.Build Ir.ValueId} (hc : c.Valid)
    (hgrounded : ∀ p ∈ params, c.Grounded p.ty) (hret : c.Grounded returnType)
    (hparams : ∀ p ∈ params, ∃ ty, Backs c p.ty ty ∧ c.ir.type ty ≠ .void)
    (hkeeps : ∀ b values, Keeps Ir.Module.Extends (body b values))
    (hbody : c.Expresses body (params.map (·.ty)) meaning) :
    Ends (defineOneBlock name params returnType linkage span body) c
      (fun _ c' => MeaningsAdded linkage [meaning] c c') fun _ => True := by
  refine ((declareFunction_ends name params returnType linkage span c).and
    (declareFunction_nodup name params returnType linkage span c)).andThen (fun _ _ => trivial) ?_
  rintro func c₁ ⟨hdeclared, hnodup⟩
  obtain ⟨-, hsteady⟩ := hdeclared.safe hc hgrounded hret
  obtain ⟨tys, ret, hbacks, -, hentry⟩ := hdeclared.entry hgrounded hret "entry"
  obtain ⟨hextends, hlinkage, hcurrent⟩ := hdeclared.current hc
  have hisParam := hdeclared.isParam hparams hgrounded
  have hfunc := hdeclared.func_lt
  have hnone := hdeclared.noBlocks
  refine (always_ends _ c₁).andThen (fun _ h => h.elim) fun entry c₂ hrun => ?_
  obtain rfl : (⟨c₁.ir.blocks.size⟩ : Ir.BlockId) = entry := congrArg Prod.fst hrun
  obtain rfl : c₁.withIr (Ir.Module.appendBlock func "entry" c₁.ir).2 = c₂ :=
    congrArg Prod.snd hrun
  refine .next rfl ?_
  have hcode := (hbody c₁ (Ir.Module.appendBlock func "entry" c₁.ir).2 _ _ tys hsteady rfl
    hentry.lt hbacks hentry.values).and ((hkeeps ⟨c₁.ir.blocks.size⟩ _).ends _)
  have hreturn := Ir.Module.ret_means hfunc hnone hnodup hisParam
    (hcode.mono (fun _ _ h => ⟨h.2, h.1⟩) fun _ _ => trivial)
  refine (always_ends _ _).andThen (fun _ h => h.elim) fun outcome c₃ hrun => ?_
  rw [attempt_run] at hrun
  dsimp only [withIr] at hrun
  split at hrun
  next hok =>
    obtain ⟨rfl, rfl⟩ := Prod.mk.inj hrun
    obtain ⟨hir, hmeans⟩ := hreturn.of_ok hok
    have hbackend := hir.function func hfunc
    exact .pure ⟨hextends.trans hir, [_], hcurrent, .cons ⟨rfl,
      Nat.lt_of_lt_of_le hfunc hir.functions, hbackend.linkage.trans hlinkage, hmeans⟩ .nil⟩
  next =>
    obtain ⟨rfl, rfl⟩ := Prod.mk.inj hrun
    exact (always_ends _ _).andThen (fun _ h => h.elim) fun _ _ _ => trivial

/-! ## The functions of an enum -/

/-- The meanings of the functions of an enum, in the order of declaration. -/
def enumMeanings (backing : Ir.TyId) (signed : Bool) : List Meaning :=
  constructorMeaning backing :: conversionMeaning :: comparisons.map (·.meaning signed)

namespace Wraps

/-- The backend type of an enum is a box. -/
theorem boxes (h : Wraps c enumTy underlying backing member) {m : Ir.Module}
    (hm : Grown c.ir.types m.types) : Boxes m backing member := by
  obtain ⟨bits, hbits⟩ := h.integer
  refine ⟨h.struct.imp fun _ hname => Ir.Module.type_of_getElem? (hm.getElem?_some hname), ?_⟩
  rw [Ir.Module.type_of_getElem? (hm.getElem?_some hbits)]
  nofun

/-- Values of an enum hold information. -/
theorem carries_enum (h : Wraps c enumTy underlying backing member) :
    ∃ ty, Backs c enumTy ty ∧ c.ir.type ty ≠ .void :=
  ⟨backing, h.enum, (h.boxes (.refl _)).ne_void⟩

/-- Values of the type under an enum hold information. -/
theorem carries_under (h : Wraps c enumTy underlying backing member) :
    ∃ ty, Backs c underlying ty ∧ c.ir.type ty ≠ .void :=
  ⟨member, h.under, (h.boxes (.refl _)).member⟩

theorem expresses_constructor (h : Wraps c enumTy underlying backing member) :
    c.Expresses (constructorBody backing) [underlying] (constructorMeaning backing) := by
  rintro c' m b values tys hsteady htypes hb hparams hvalues
  rcases hparams with _ | ⟨-, _ | _⟩
  rcases hvalues with _ | ⟨-, _ | _⟩
  exact constructorBody_evaluates ((h.mono hsteady).boxes (htypes ▸ .refl _)) hb

theorem expresses_conversion (h : Wraps c enumTy underlying backing member) :
    c.Expresses conversionBody [enumTy] conversionMeaning := by
  rintro c' m b values tys hsteady htypes hb hparams hvalues
  have hwraps := h.mono hsteady
  rcases hparams with _ | ⟨hbacking, _ | _⟩
  obtain rfl := hwraps.enum.unique hbacking
  rcases hvalues with _ | ⟨hvalue, _ | _⟩
  exact conversionBody_evaluates (hwraps.boxes (htypes ▸ .refl _)) hb hvalue.2

theorem expresses_comparison (h : Wraps c enumTy underlying backing member)
    (predicate : Ir.IntPredicate) :
    c.Expresses (comparisonBody predicate) [enumTy, enumTy] (comparisonMeaning predicate) := by
  rintro c' m b values tys hsteady htypes hb hparams hvalues
  have hwraps := h.mono hsteady
  rcases hparams with _ | ⟨hfirst, _ | ⟨hsecond, _ | _⟩⟩
  obtain rfl := hwraps.enum.unique hfirst
  obtain rfl := hwraps.enum.unique hsecond
  rcases hvalues with _ | ⟨hvalue, _ | ⟨hvalue', _ | _⟩⟩
  exact comparisonBody_evaluates predicate (hwraps.boxes (htypes ▸ .refl _)) hb hvalue.2
    hvalue'.1 hvalue'.2

end Wraps

/-- The comparisons of an enum. -/
theorem defineComparisons_meaningsAdded {signed : Bool} {span : Span}
    (comparisons : List Comparison) (hc : c.Valid) (henum : c.Grounded enumTy)
    (hwraps : Wraps c enumTy underlying backing member) :
    Ends (defineComparisons enumTy signed linkage span comparisons) c
      (fun _ c' => MeaningsAdded linkage (comparisons.map (·.meaning signed)) c c')
      fun _ => True := by
  induction comparisons generalizing c with
  | nil => exact .pure (.refl linkage c)
  | cons comparison rest ih =>
    have hparams : ∀ p ∈ [(⟨"a", enumTy⟩ : Param), ⟨"b", enumTy⟩], c.Grounded p.ty := by
      simpa using henum
    have hcarries : ∀ p ∈ [(⟨"a", enumTy⟩ : Param), ⟨"b", enumTy⟩],
        ∃ ty, Backs c p.ty ty ∧ c.ir.type ty ≠ .void := by
      simpa using hwraps.carries_enum
    have hbool := hc.grounded_primitive .bool
    have hfirst := defineOneBlock_meaningsAdded comparison.operator _ linkage span hc hparams hbool
      hcarries (comparisonBody_keeps _) (hwraps.expresses_comparison
        (if signed then comparison.signed else comparison.unsigned))
    refine (hfirst.and (defineOneBlock_develops comparison.operator _ (covered_comparisonBody _)
      hparams hbool)).andThen (fun _ _ => trivial) ?_
    rintro _ c₁ ⟨hadded, hchanged⟩
    obtain ⟨hvalid, hsteady⟩ := hchanged.safe hc
    exact (ih hvalid (henum.mono hsteady) (hwraps.mono hsteady)).mono
      (fun _ _ h => hadded.trans h) fun _ _ => trivial

/-- The functions of an enum. -/
theorem defineEnumFunctions_meaningsAdded (name : String) (span : Span) (hc : c.Valid)
    (henum : c.Grounded enumTy) (hunder : c.Grounded underlying)
    (hwraps : Wraps c enumTy underlying backing member) :
    Ends (defineEnumFunctions name enumTy underlying linkage span) c
      (fun _ c' => MeaningsAdded linkage (enumMeanings backing (c.pool.isSigned underlying)) c c')
      fun _ => True := by
  unfold defineEnumFunctions
  refine .next (always_of_eq hwraps.enum.backendType) ?_
  have hvalue : ∀ p ∈ [(⟨"value", underlying⟩ : Param)], c.Grounded p.ty := by simpa using hunder
  have hcarries : ∀ p ∈ [(⟨"value", underlying⟩ : Param)],
      ∃ ty, Backs c p.ty ty ∧ c.ir.type ty ≠ .void := by
    simpa using hwraps.carries_under
  have hconstructor := defineOneBlock_meaningsAdded name _ linkage span hc hvalue henum hcarries
    (constructorBody_keeps backing) hwraps.expresses_constructor
  refine (hconstructor.and (defineOneBlock_develops name _ (covered_constructorBody backing) hvalue
    henum)).andThen (fun _ _ => trivial) ?_
  rintro _ c₁ ⟨hadded, hchanged⟩
  obtain ⟨hvalid, hsteady⟩ := hchanged.safe hc
  have hwraps₁ := hwraps.mono hsteady
  refine .next rfl ?_
  have hvalue' : ∀ p ∈ [(⟨"value", enumTy⟩ : Param)], c₁.Grounded p.ty := by
    simpa using henum.mono hsteady
  have hcarries' : ∀ p ∈ [(⟨"value", enumTy⟩ : Param)],
      ∃ ty, Backs c₁ p.ty ty ∧ c₁.ir.type ty ≠ .void := by
    simpa using hwraps₁.carries_enum
  have hconversion := defineOneBlock_meaningsAdded (c₁.typeName underlying) _ linkage span hvalid
    hvalue' (hunder.mono hsteady) hcarries' conversionBody_keeps hwraps₁.expresses_conversion
  refine (hconversion.and (defineOneBlock_develops _ _ covered_conversionBody hvalue'
    (hunder.mono hsteady))).andThen (fun _ _ => trivial) ?_
  rintro _ c₂ ⟨hadded', hchanged'⟩
  obtain ⟨hvalid', hsteady'⟩ := hchanged'.safe hvalid
  have hsteady₂ := hsteady.trans hsteady'
  refine .next rfl ?_
  -- the type under the enum has the signedness that it had
  have hsigned : c₂.pool.isSigned underlying = c.pool.isSigned underlying := by
    rw [Pool.isSigned, hsteady₂.pool.type hunder.index_lt, Pool.isSigned]
  refine (defineComparisons_meaningsAdded comparisons hvalid' (henum.mono hsteady₂)
    (hwraps.mono hsteady₂)).mono (fun _ c' h => ?_) fun _ _ => trivial
  rw [hsigned] at h
  exact (hadded.trans hadded').trans h

/-! ## Execution over words -/

/-- What an operator of comparison says of two integers. -/
def operatorHolds (operator : String) (a b : Int) : Bool :=
  match operator with
  | "=" => a = b
  | "!=" => a ≠ b
  | "<" => a < b
  | "<=" => a ≤ b
  | ">" => b < a
  | ">=" => b ≤ a
  | _ => false

open Ir (WordDatum Machine wordValue)

/-- The predicate of a comparison says of words what its operator says of the integers that they
are read as. -/
theorem Comparison.holds_iff {comparison : Comparison} (h : comparison ∈ comparisons)
    (signed : Bool) {width : Nat} (x y : BitVec width) :
    (if signed then comparison.signed else comparison.unsigned).holds x y =
      operatorHolds comparison.operator (wordValue signed x) (wordValue signed y) := by
  -- the words are equal if the integers are, at either signedness
  have heq : (x == y) = decide (wordValue signed x = wordValue signed y) := by
    simp only [Ir.wordValue_inj]
    rfl
  have hne : (x != y) = !decide (wordValue signed x = wordValue signed y) := congrArg _ heq
  simp only [comparisons, List.mem_cons, List.not_mem_nil, or_false] at h
  rcases h with rfl | rfl | rfl | rfl | rfl | rfl
  · simpa [operatorHolds, Ir.IntPredicate.holds] using heq
  · simpa [operatorHolds, Ir.IntPredicate.holds] using hne
  all_goals cases signed <;>
    simp [operatorHolds, Ir.IntPredicate.holds, wordValue, BitVec.slt, BitVec.sle, BitVec.ult,
      BitVec.ule]

/-- The functions of an enum mean what they say in the module, over words of this width: whatever
value an undefined aggregate has, the constructor returns a value for every word, the conversion
takes the word out of it again, and the comparisons say of two such values what their operators say
of the integers that the words are read as. -/
structure EnumLaws (m : Ir.Module) (width : Nat) (signed : Bool) (constructor conversion : Function)
    (comparisons : List Function) : Prop where
  constructs : ∀ (M : Type) (machine : Machine (WordDatum width) M) (memory : M) (x : BitVec width),
    ∃ d, machine.overWords.Returns m constructor.backend memory [.word x] d
  converts : ∀ (M M' : Type) (machine : Machine (WordDatum width) M)
    (machine' : Machine (WordDatum width) M') (memory : M) (memory' : M') (x : BitVec width)
    (d : WordDatum width), machine.overWords.Returns m constructor.backend memory [.word x] d →
      machine'.overWords.Returns m conversion.backend memory' [d] (.word x)
  compares : ∀ (M M' : Type) (machine : Machine (WordDatum width) M)
    (machine' : Machine (WordDatum width) M') (memory : M) (memory' : M') (x y : BitVec width)
    (d e : WordDatum width), machine.overWords.Returns m constructor.backend memory [.word x] d →
      machine.overWords.Returns m constructor.backend memory [.word y] e →
      ∀ f ∈ comparisons, machine'.overWords.Returns m f.backend memory' [d, e]
        (.truth (operatorHolds f.name (wordValue signed x) (wordValue signed y)))

/-- The meanings of the functions of an enum are what the laws say. -/
theorem enumLaws_of_means {m later : Ir.Module} {width : Nat} {signed : Bool}
    {constructor conversion : Function} {fs : List Function} (hm : m.Extends later)
    (hconstructor : m.Means constructor.backend (constructorMeaning backing))
    (hconstructorParams : (m.function constructor.backend).params.length = 1)
    (hconversion : m.Means conversion.backend conversionMeaning)
    (hconversionParams : (m.function conversion.backend).params.length = 1)
    (hfs : ∀ f ∈ fs, ∃ comparison ∈ comparisons, f.name = comparison.operator ∧
      m.Means f.backend (comparison.meaning signed) ∧
      (m.function f.backend).params.length = 2) :
    EnumLaws later width signed constructor conversion fs := by
  -- whatever the constructor returns holds the word at its only field
  have hfield : ∀ (M : Type) (machine : Machine (WordDatum width) M) (memory : M)
      (x : BitVec width) (d : WordDatum width),
      machine.overWords.Returns later constructor.backend memory [.word x] d →
        d.field 0 = .word x := by
    intro M machine memory x d hd
    rw [hd.unique (hconstructor _ _ machine.overWords later memory [.word x] hm hconstructorParams)]
    exact WordDatum.field_insert_self _ _ 0
  constructor
  case constructs =>
    intro M machine memory x
    exact ⟨_, hconstructor _ _ machine.overWords later memory [.word x] hm hconstructorParams⟩
  case converts =>
    intro M M' machine machine' memory memory' x d hd
    have hreturns := hconversion _ _ machine'.overWords later memory' [d] hm hconversionParams
    change machine'.overWords.Returns later _ _ _ (d.field 0) at hreturns
    rwa [hfield M machine memory x d hd] at hreturns
  case compares =>
    intro M M' machine machine' memory memory' x y d e hd he f hf
    obtain ⟨comparison, hmem, hname, hmeans, hparams⟩ := hfs f hf
    have hreturns := hmeans _ _ machine'.overWords later memory' [d, e] hm hparams
    change machine'.overWords.Returns later _ _ _ (WordDatum.compare _ (d.field 0) (e.field 0))
      at hreturns
    rw [hfield M machine memory x d hd, hfield M machine memory y e he, WordDatum.compare,
      comparison.holds_iff hmem] at hreturns
    rwa [hname]

/-- The declaration of an enum gave the current namespace the functions of the enum and no others.
All have the linkage of the enum, and they mean what they say, now and when the module is
extended. -/
structure EnumFunctions (name : String) (e : Enum) (width : Nat)
    (constructor conversion : Function) (comparisons : List Function) (c c' : Context) : Prop where
  entered : c'.entered = c.entered
  fresh : c.current.enum? name = none
  declared : c'.current.enum? name = some e
  isInteger : c'.pool.isInteger e.underlying = true
  intWidth : c'.pool.intWidth? e.underlying = some width
  functions : c'.current.functions =
    c.current.functions ++ (constructor :: conversion :: comparisons).toArray
  signatures : List.Forall₂ (·.Describes c') (c'.enumSignatures name e.ty e.underlying)
    (constructor :: conversion :: comparisons)
  linkage : ∀ f ∈ constructor :: conversion :: comparisons, f.linkage = e.linkage ∧
    (c'.ir.function f.backend).linkage = e.linkage
  laws : ∀ later : Ir.Module, c'.ir.Extends later →
    EnumLaws later width (c'.pool.isSigned e.underlying) constructor conversion comparisons

/-- An enum of this name was declared with all its functions. -/
def GainsEnum (name : String) (c c' : Context) : Prop :=
  ∃ (e : Enum) (width : Nat) (constructor conversion : Function) (comparisons : List Function),
    EnumFunctions name e width constructor conversion comparisons c c'

end Context

namespace Lower

open Context

variable {σ : Type} {u u' : Compilation σ} {c c' c'' : Context} {name : String}
  {builder : EnumBuilder} {linkage : Ir.Linkage} {underlying enumTy : TypeId}

/-- The enum that is registered. -/
theorem EnumRegistered.declared
    (h : EnumRegistered name builder linkage underlying enumTy c c') (hc : c.Valid) :
    c'.current.enum? name = some (builder.finish linkage c.onceTag enumTy underlying) ∧
      c'.current.functions = c.current.functions := by
  obtain ⟨-, -, c₁, c₂, c₃, member, hwithin, -, -, hc₂, -, hc₃, rfl⟩ := h
  have hlt : (c₃.withLayout (.struct name c.path) ⟨c₁.ir.types.size⟩).currentId.index <
      (c₃.withLayout (.struct name c.path) ⟨c₁.ir.types.size⟩).namespaces.size := by
    rw [hc₃, hc₂]
    change c₁.currentId.index < (c₁.namespaces.setIfInBounds _ _).size
    rw [Array.size_setIfInBounds]
    exact (hc.of_still hwithin).currentId_lt
  rw [current_withCurrent hlt]
  exact ⟨List.lookup_cons_self, rfl⟩

/-- A function that is described has as many parameters in the module. -/
theorem length_params (hc : c.Valid) {s : Signature} {f : Function}
    (hf : f ∈ c.current.functions) (hs : s.Describes c' f) :
    (c.ir.function f.backend).params.length = s.params.length := by
  have himplements := (hc.functions _ hc.currentId_lt f hf).params.length_eq
  rw [← himplements, ← hs.params, Function.paramTypes, List.length_map]

/-- A registered enum has its functions, and they mean what they say. -/
theorem registerEnum_gainsEnum (hc : c.Valid) (name : String) (builder : EnumBuilder)
    (linkage : Ir.Linkage) (hunder : c.Grounded underlying)
    (hint : c.pool.isInteger underlying = true)
    {width : Nat} (hwidth : c.pool.intWidth? underlying = some width) (nameSpan bodySpan : Span) :
    Ends (registerEnum name builder linkage underlying nameSpan bodySpan) c
      (fun _ c' => GainsEnum name c c') fun _ => True := by
  rw [registerEnum_eq]
  refine (registerTypes_ends hc name builder linkage underlying nameSpan).andThen
    (fun _ _ => trivial) fun enumTy c₁ h => ?_
  obtain ⟨hvalid, hsteady, hgrounded⟩ := h.safe hc hunder
  obtain ⟨backing, member, hwraps⟩ := h.wraps hunder hint
  obtain ⟨henum, hfunctions⟩ := h.declared hc
  refine ((h.functions_outcome hc hunder hint bodySpan).and (defineEnumFunctions_meaningsAdded name
    bodySpan hvalid hgrounded (hunder.mono hsteady) hwraps)).mono ?_ fun _ _ => trivial
  rintro _ c' ⟨⟨hchanged, -, hadded⟩, hmeanings⟩
  obtain ⟨hvalid', hsteady'⟩ := hchanged.safe hvalid
  -- the functions that were described are those that got the meanings
  obtain ⟨fs, hcurrent, hdescribes⟩ := hadded.current
  obtain ⟨fs', hcurrent', hprovides⟩ := hmeanings.functions
  obtain rfl : fs = fs' := by
    rw [hcurrent] at hcurrent'
    exact List.toArray_inj ((Array.append_right_inj _).1 hcurrent')
  have hmem : ∀ f ∈ fs, f ∈ c'.current.functions := fun f hf => by
    rw [hcurrent']
    exact Array.mem_append_right _ (List.mem_toArray.2 hf)
  have hlinkage : ∀ f ∈ fs, f.linkage = linkage ∧ (c'.ir.function f.backend).linkage = linkage := by
    intro f hf
    obtain ⟨meaning, -, hf⟩ := exists_mem_of_forall₂ hprovides hf
    exact ⟨hf.declared, hf.emitted⟩
  have hsignatures : List.Forall₂ (·.Describes c')
      (c'.enumSignatures name enumTy underlying) fs := by
    rw [hadded.enumSignatures]
    exact hdescribes.imp fun s f hf =>
      ⟨hf.name, hf.params, hf.returnType, hf.symbol.trans (hadded.symbol s).symm⟩
  obtain ⟨constructor, rest, hconstructor, hrest, rfl⟩ := List.forall₂_cons_left_iff.1 hdescribes
  obtain ⟨conversion, fs, hconversion, hfs, rfl⟩ := List.forall₂_cons_left_iff.1 hrest
  rcases hprovides with _ | ⟨hconstructor', _ | ⟨hconversion', hfs'⟩⟩
  have hcomparisons : ∀ f ∈ fs, ∃ comparison ∈ comparisons, f.name = comparison.operator ∧
      c'.ir.Means f.backend (comparison.meaning (c₁.pool.isSigned underlying)) ∧
      (c'.ir.function f.backend).params.length = 2 := by
    intro f hf
    have hall := List.Forall₂.mp (fun _ _ => And.intro) (List.forall₂_map_left_iff.1 hfs)
      (List.forall₂_map_left_iff.1 hfs')
    obtain ⟨comparison, hcomparison, hboth⟩ := exists_mem_of_forall₂ hall hf
    exact ⟨comparison, hcomparison, hboth.1.name, hboth.2.means,
      length_params hvalid' (hmem f (.tail _ (.tail _ hf))) hboth.1⟩
  have hpool : c'.pool = c₁.pool := hadded.pool
  refine ⟨builder.finish linkage c.onceTag enumTy underlying, width, constructor, conversion, fs,
    ?_⟩
  constructor
  case entered => exact hadded.entered.trans h.kept.1
  case fresh => exact h.noEnum
  case declared =>
    rw [hcurrent]
    exact henum
  case isInteger =>
    change c'.pool.isInteger underlying = true
    rw [hpool, Pool.isInteger, hsteady.pool.type hunder.index_lt]
    exact hint
  case intWidth =>
    change c'.pool.intWidth? underlying = some width
    rw [hpool, Pool.intWidth?, hsteady.pool.type hunder.index_lt, hsteady.pool.target]
    exact hwidth
  case functions => rw [hcurrent', hfunctions]
  case signatures => exact hsignatures
  case linkage => exact hlinkage
  case laws =>
    intro later hlater
    rw [hpool]
    exact enumLaws_of_means hlater hconstructor'.means
      (length_params hvalid' (hmem _ (.head _)) hconstructor) hconversion'.means
      (length_params hvalid' (hmem _ (.tail _ (.head _))) hconversion) hcomparisons

/-! ## Forms that declare enums -/

/-- An enum that is registered after checks that declare nothing. -/
theorem checked_gainsEnum {header : Lower σ EnumPlan} {P : String → Prop} {E : Compilation σ → Prop}
    (hu : u.context.Valid)
    (hheader : Ends header u (fun plan u' => u.Quiet u' ∧ P plan.name ∧
      (u.context.Valid → u'.context.Grounded plan.underlying) ∧
      u'.context.pool.isInteger plan.underlying = true ∧
      (u'.context.pool.intWidth? plan.underlying).isSome = true) E) :
    Ends (do
      let plan ← header
      onContext (registerEnum plan.name plan.builder plan.linkage plan.underlying plan.nameSpan
        plan.bodySpan)) u
      (fun _ u' => ∃ name, P name ∧ GainsEnum name u.context u'.context) fun _ => True := by
  refine hheader.andThen (fun _ _ => trivial) ?_
  rintro plan u₁ ⟨hquiet, hname, hgrounded, hint, hwidth⟩
  obtain ⟨width, hwidth⟩ := Option.isSome_iff_exists.1 hwidth
  refine (onContext_ends (registerEnum_gainsEnum (hquiet.valid hu) plan.name plan.builder
    plan.linkage (hgrounded hu) hint hwidth plan.nameSpan plan.bodySpan)).mono ?_
    fun _ _ => trivial
  rintro _ _ ⟨c, rfl, e, width, constructor, conversion, comparisons, h⟩
  have huntouched : u.context.Untouched u₁.context := .of_still hquiet.within.context
  exact ⟨plan.name, hname, e, width, constructor, conversion, comparisons,
    { h with
      entered := h.entered.trans huntouched.entered
      fresh := huntouched.current ▸ h.fresh
      functions := huntouched.current ▸ h.functions }⟩

/-- In a valid unit, as all reachable units are, every definition of an enum that is accepted gives
the current namespace the constructor, the conversion and the six comparisons of the enum and no
other function, all with the linkage of the enum. Executed over words of the width of the type under
the enum, with any value for what is undefined, the conversion is inverse to the constructor, and
the comparisons of two values that the constructor returned say what their operators say of the
integers under them, signed or unsigned as the type is. This is so for the definition itself, for
its declaration and for the top-level form. -/
theorem enumFunctions_meaning (hu : u.context.Valid) :
    (∀ nameNode name body parts u', defineEnum nameNode name body parts u = .ok ⟨⟩ u' →
      GainsEnum name u.context u'.context) ∧
    (∀ node u', declareEnum node u = .ok ⟨⟩ u' →
      ∃ name, u.forest.declaredName? node = some name ∧ GainsEnum name u.context u'.context) ∧
    (∀ node u', u.forest.IsEnumDefinition node → processTopLevel node u = .ok ⟨⟩ u' →
      ∃ name, u.forest.declaredName? node = some name ∧
        GainsEnum name u.context u'.context) := by
  have hdeclare : ∀ node u', declareEnum node u = .ok ⟨⟩ u' →
      ∃ name, u.forest.declaredName? node = some name ∧
        GainsEnum name u.context u'.context := by
    intro node u' hok
    rw [declareEnum_eq] at hok
    exact (checked_gainsEnum (P := (u.forest.declaredName? node = some ·)) hu
      (enumHeader_ends node u)).of_ok hok
  refine ⟨fun nameNode name body parts u' hok => ?_, hdeclare, fun node u' hnode hok => ?_⟩
  · rw [defineEnum_eq] at hok
    obtain ⟨_, rfl, hgains⟩ := (checked_gainsEnum (P := (· = name)) hu
      (enumPlan_ends nameNode name body parts u)).of_ok hok
    exact hgains
  · rw [processTopLevel_eq hnode] at hok
    exact hdeclare node u' hok

/-- The unit with the form `(def Color (enum extern int (Red)))` and nothing declared. -/
def colorUnit : Compilation Unit where
  forest := ⟨#[⟨.token ⟨.symbol, ⟨1⟩⟩, .dummy⟩, ⟨.token ⟨.symbol, ⟨2⟩⟩, .dummy⟩,
    ⟨.token ⟨.symbol, ⟨3⟩⟩, .dummy⟩, ⟨.token ⟨.symbol, ⟨4⟩⟩, .dummy⟩,
    ⟨.token ⟨.symbol, ⟨5⟩⟩, .dummy⟩, ⟨.token ⟨.symbol, ⟨6⟩⟩, .dummy⟩, ⟨.list [⟨5⟩], .dummy⟩,
    ⟨.list [⟨2⟩, ⟨3⟩, ⟨4⟩, ⟨6⟩], .dummy⟩, ⟨.list [⟨0⟩, ⟨1⟩, ⟨7⟩], .dummy⟩],
    ⟨#["", "def", "Color", "enum", "extern", "int", "Red"]⟩⟩
  context := .start .standard
  memory := ()
  expander := .none
  maxExpansions := 128

/-- An enum over signed integers is declared with functions that mean what they say. -/
theorem gainsEnum_colorUnit :
    colorUnit.context.Valid ∧ ∃ u', declareEnum ⟨8⟩ colorUnit = .ok ⟨⟩ u' ∧
      GainsEnum "Color" colorUnit.context u'.context := by
  have hreachable : Reachable colorUnit :=
    Reachable.forest colorUnit.forest (.start .standard .none ())
  have hok : Outcome (declareEnum ⟨8⟩ colorUnit) (fun _ _ => True) fun _ => False := by
    decide +kernel
  cases hrun : declareEnum ⟨8⟩ colorUnit with
  | error e u' =>
    rw [hrun] at hok
    exact hok.elim
  | ok _ u' =>
    obtain ⟨name, hname, hgains⟩ := (enumFunctions_meaning hreachable.valid).2.1 ⟨8⟩ u' hrun
    obtain rfl : "Color" = name := Option.some_inj.1 hname
    exact ⟨hreachable.valid, u', rfl, hgains⟩

end Lower

end FormCompiler
