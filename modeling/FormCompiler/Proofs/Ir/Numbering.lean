import FormCompiler.Proofs.Ir.Keeping
import FormCompiler.Proofs.Ir.WellTyped

/-!
# Ids Are Numbered by What Has Them

An operation that is refused takes no id for anything but an unnamed type, although types may be
entered before the last requirement is checked. So no id of a value is lost: the results among the
values are numbered by the instructions that define them, the parameters by the functions that have
them and their place there.

* `Intact m m'`: at most unnamed types were entered.
* `Numbered`: results and instructions, parameters and signatures correspond one to one.
* `Atomic b x`: the step `x` leaves the module intact if it is refused, and keeps it numbered if it
  is accepted and `b` is a block of the module.
-/

namespace FormCompiler.Ir.Module

/-! ## What refused operations leave -/

/-- At most unnamed types were entered, each of them once and none that was there. -/
structure Intact (m m' : Module) : Prop where
  name : m'.name = m.name
  types : ∃ extra, m'.types = m.types ++ extra ∧ extra.toList.Nodup ∧
    ∀ ty ∈ extra, ty.isNamed = false ∧ ty ∉ m.types
  values : m'.values = m.values
  blocks : m'.blocks = m.blocks
  functions : m'.functions = m.functions

namespace Intact

variable {m m' m'' : Module}

/-- Nothing need be entered. -/
theorem refl (m : Module) : m.Intact m := ⟨rfl, ⟨#[], by simp⟩, rfl, rfl, rfl⟩

/-- Types may be entered several times. -/
theorem trans (h : m.Intact m') (h' : m'.Intact m'') : m.Intact m'' where
  name := h'.name.trans h.name
  types := by
    obtain ⟨first, hfirst, hnodup, hnew⟩ := h.types
    obtain ⟨second, hsecond, hnodup', hnew'⟩ := h'.types
    refine ⟨first ++ second, by rw [hsecond, hfirst, Array.append_assoc], ?_, fun ty hty => ?_⟩
    · -- what was entered second was not there, so neither was it entered first
      rw [Array.toList_append, List.nodup_append]
      refine ⟨hnodup, hnodup', ?_⟩
      rintro ty hty _ hty' rfl
      refine (hnew' ty (by simpa using hty')).2 ?_
      rw [hfirst]
      exact Array.mem_append.2 (.inr (by simpa using hty))
    · rcases Array.mem_append.1 hty with hty | hty
      · exact hnew ty hty
      · refine ⟨(hnew' ty hty).1, fun hold => (hnew' ty hty).2 ?_⟩
        rw [hfirst]
        exact Array.mem_append.2 (.inl hold)
  values := h'.values.trans h.values
  blocks := h'.blocks.trans h.blocks
  functions := h'.functions.trans h.functions

instance : Std.Refl Intact := ⟨refl⟩

/-- Only unnamed types were added. -/
theorem typesGrown (h : m.Intact m') : TypesGrown m m' := by
  obtain ⟨extra, hextra, -, hnew⟩ := h.types
  exact ⟨extra, hextra, fun ty hty => (hnew ty hty).1⟩

/-- The functions have the symbols they had, and no other function has one. -/
theorem lookupFunction? (h : m.Intact m') (symbol : String) :
    m'.lookupFunction? symbol = m.lookupFunction? symbol := by
  rw [Module.lookupFunction?, h.functions, Module.lookupFunction?]

end Intact

/-- An unnamed type is entered if it is not there. -/
theorem internType_intact (ty : Ty) (hty : ty.isNamed = false) (m : Module) :
    m.Intact (internType ty m).2 := by
  unfold internType
  cases hfind : m.findType? ty with
  | some t => exact .refl m
  | none =>
    rw [findType?, Option.map_eq_none_iff, Array.findIdx?_eq_none_iff] at hfind
    refine ⟨rfl, ⟨#[ty], by simp, by simp, ?_⟩, rfl, rfl, rfl⟩
    simpa [hty] using fun hmem => by simpa using hfind ty hmem

/-! ## The numbering -/

/-- The value that the instruction at an index of a block defines. -/
def defined? (m : Module) (b : BlockId) (i : Nat) : Option ValueId :=
  (m.block b).instrs[i]?.bind Instr.dst?

/-- The value is in the module and of the kind. -/
def HasKind (m : Module) (v : ValueId) (kind : ValueKind) : Prop :=
  ∃ ty, m.values[v.index]? = some ⟨ty, kind⟩

/-- The results are the values that instructions define, each by one instruction only; the
parameters are those that functions have, each at the place that its kind says. -/
structure Numbered (m : Module) : Prop where
  result : ∀ v, m.HasKind v .result ↔ ∃ b i, m.defined? b i = some v
  once : ∀ v b i b' i', m.defined? b i = some v → m.defined? b' i' = some v → b = b' ∧ i = i'
  param : ∀ v f i, m.HasKind v (.param f i) ↔ m.param? f i = some v

section Steps

variable {m m' : Module}

/-- There are no instructions in what is no block of the module. -/
theorem instrs_of_size_le {b : BlockId} (hb : m.blocks.size ≤ b.index) :
    (m.block b).instrs = #[] := by
  rw [Module.block, Array.getD_eq_getD_getElem?, Array.getElem?_eq_none hb]
  rfl

/-- What is no function of the module has no parameters. -/
theorem params_of_size_le {f : FuncId} (hf : m.functions.size ≤ f.index) :
    (m.function f).params = [] := by
  rw [Module.function, Array.getD_eq_getD_getElem?, Array.getElem?_eq_none hf]
  rfl

/-- There is nothing to number in a module without any entry. -/
theorem numbered_empty (name : String) : (empty name).Numbered where
  result v := by simp [HasKind, defined?, instrs_of_size_le, Module.empty]
  once := by simp [defined?, instrs_of_size_le, Module.empty]
  param v f i := by simp [HasKind, param?, params_of_size_le, Module.empty]

/-- The kinds of values when one is added. -/
theorem hasKind_push {ty : TyId} {new kind : ValueKind} {v : ValueId}
    (hvalues : m'.values = m.values.push ⟨ty, new⟩) :
    m'.HasKind v kind ↔ m.HasKind v kind ∨ v = ⟨m.values.size⟩ ∧ new = kind := by
  unfold HasKind
  rw [hvalues]
  by_cases hv : v.index = m.values.size
  · have hnone : m.values[v.index]? = none := by simp [hv]
    have heq : v = ⟨m.values.size⟩ := congrArg ValueId.mk hv
    simp [heq]
  · have hne : v ≠ ⟨m.values.size⟩ := fun h => hv (congrArg ValueId.index h)
    simp [Array.getElem?_push, hv, hne]

/-- The numbering depends on the values, what instructions define and the signatures. -/
theorem Numbered.of_same (h : m.Numbered)
    (hresult : ∀ v, m'.HasKind v .result ↔ m.HasKind v .result)
    (hkind : ∀ v f i, m'.HasKind v (.param f i) ↔ m.HasKind v (.param f i))
    (hdefined : ∀ b i, m'.defined? b i = m.defined? b i)
    (hparam : ∀ f i, m'.param? f i = m.param? f i) : m'.Numbered where
  result v := by simpa only [hresult, hdefined] using h.result v
  once v b i b' i' := by simpa only [hdefined] using h.once v b i b' i'
  param v f i := by simpa only [hkind, hparam] using h.param v f i

/-- Types need no number among the values. -/
theorem Numbered.intact (h : m.Numbered) (hm : m.Intact m') : m'.Numbered := by
  refine h.of_same (fun v => ?_) (fun v f i => ?_) (fun b i => ?_) fun f i => ?_
  · rw [HasKind, hm.values, HasKind]
  · rw [HasKind, hm.values, HasKind]
  · rw [defined?, Module.block, hm.blocks, defined?, Module.block]
  · rw [param?, Module.function, hm.functions, param?, Module.function]

/-- Constants are neither results nor parameters. -/
theorem Numbered.constant (h : m.Numbered) (ty : TyId) {kind : ValueKind}
    (hkind : kind.isConstant = true) : (newValue ty kind m).2.Numbered := by
  have hpush : (newValue ty kind m).2.values = m.values.push ⟨ty, kind⟩ := rfl
  refine h.of_same (fun v => ?_) (fun v f i => ?_) (fun _ _ => rfl) fun _ _ => rfl
  · have hne : kind ≠ .result := fun heq => by simp [heq, ValueKind.isConstant] at hkind
    simp [hasKind_push hpush, hne]
  · have hne : kind ≠ .param f i := fun heq => by simp [heq, ValueKind.isConstant] at hkind
    simp [hasKind_push hpush, hne]

/-- What instructions define when one more is at the end of a block. -/
theorem defined?_pushInstr {b : BlockId} (hb : m.HasBlock b) (instr : Instr) (b' : BlockId)
    (i : Nat) :
    (pushInstr b instr m).2.defined? b' i =
      if b' = b ∧ i = (m.block b).instrs.size then instr.dst? else m.defined? b' i := by
  have hblocks : (pushInstr b instr m).2 = { m with blocks := m.blocks.modify b.index fun data =>
      { data with instrs := data.instrs.push instr } } := rfl
  unfold defined?
  by_cases hb' : b' = b
  · subst hb'
    rw [hblocks, block_modify_self hb]
    by_cases hi : i = (m.block b').instrs.size <;> simp [Array.getElem?_push, hi]
  · rw [hblocks, block_modify_of_ne hb']
    simp [hb']

/-- No instruction defines a value yet at the end of a block. -/
theorem defined?_size (m : Module) (b : BlockId) :
    m.defined? b (m.block b).instrs.size = none := by
  simp [defined?]

/-- An instruction that defines no value. -/
theorem Numbered.effect (h : m.Numbered) {b : BlockId} (hb : m.HasBlock b) {instr : Instr}
    (hdst : instr.dst? = none) : (pushInstr b instr m).2.Numbered := by
  refine h.of_same (fun _ => .rfl) (fun _ _ _ => .rfl) (fun b' i => ?_) fun _ _ => rfl
  rw [defined?_pushInstr hb, hdst]
  split
  next heq => rw [heq.1, heq.2, defined?_size]
  next => rfl

/-- An instruction that defines a value: the value has the next number, and the instruction is the
one that has it. -/
theorem Numbered.define (h : m.Numbered) {b : BlockId} (hb : m.HasBlock b) (ty : TyId)
    {instr : ValueId → Instr} (hdst : ∀ v, (instr v).dst? = some v) :
    (define b ty instr m).2.Numbered := by
  have hrun : (Module.define b ty instr m).2 =
      (pushInstr b (instr ⟨m.values.size⟩) (newValue ty .result m).2).2 := rfl
  have hb' : (newValue ty .result m).2.HasBlock b := hb
  have hpush : (Module.define b ty instr m).2.values = m.values.push ⟨ty, .result⟩ := rfl
  have hdefined : ∀ b' i, (Module.define b ty instr m).2.defined? b' i =
      if b' = b ∧ i = (m.block b).instrs.size then some ⟨m.values.size⟩ else m.defined? b' i := by
    intro b' i
    rw [hrun, defined?_pushInstr hb', hdst]
    rfl
  -- No instruction had the next number: what it defines would be a value of the module.
  have hold : ∀ {v b' i}, m.defined? b' i = some v → v ≠ ⟨m.values.size⟩ := by
    rintro v b' i hv rfl
    obtain ⟨ty', hvalue⟩ := (h.result _).2 ⟨b', i, hv⟩
    simp at hvalue
  refine ⟨fun v => ?_, fun v b₁ i₁ b₂ i₂ h₁ h₂ => ?_, fun v f i => ?_⟩
  · rw [hasKind_push hpush, h.result]
    constructor
    · rintro (⟨b', i, hv⟩ | ⟨rfl, -⟩)
      · refine ⟨b', i, ?_⟩
        rw [hdefined, if_neg, hv]
        rintro ⟨rfl, rfl⟩
        simp [defined?_size] at hv
      · exact ⟨b, _, by rw [hdefined, if_pos ⟨rfl, rfl⟩]⟩
    · rintro ⟨b', i, hv⟩
      rw [hdefined] at hv
      split at hv
      next => exact .inr ⟨(Option.some.inj hv).symm, rfl⟩
      next => exact .inl ⟨b', i, hv⟩
  · rw [hdefined] at h₁ h₂
    split at h₁ <;> split at h₂
    next heq heq' => exact ⟨heq.1.trans heq'.1.symm, heq.2.trans heq'.2.symm⟩
    next => exact (hold h₂ (Option.some.inj h₁).symm).elim
    next => exact (hold h₁ (Option.some.inj h₂).symm).elim
    next => exact h.once v b₁ i₁ b₂ i₂ h₁ h₂
  · rw [hasKind_push hpush, show (Module.define b ty instr m).2.param? f i = m.param? f i from rfl]
    simpa using h.param v f i

/-- Blocks that keep their instructions keep the numbering. -/
theorem Numbered.modify (h : m.Numbered) {b : BlockId} {change : Block → Block}
    (hchange : ∀ block, (change block).instrs = block.instrs) :
    ({ m with blocks := m.blocks.modify b.index change } : Module).Numbered := by
  refine h.of_same (fun _ => .rfl) (fun _ _ _ => .rfl) (fun b' i => ?_) fun _ _ => rfl
  unfold defined?
  by_cases hb' : b' = b
  · subst hb'
    by_cases hb : b'.index < m.blocks.size
    · rw [block_modify_self hb, hchange]
    · simp [Module.block, Array.getD_eq_getD_getElem?, hb]
  · rw [block_modify_of_ne hb']

/-- A function with no instruction more. -/
theorem Numbered.appendBlock (h : m.Numbered) (func : FuncId) (label : String) :
    (appendBlock func label m).2.Numbered := by
  refine h.of_same (fun _ => .rfl) (fun _ _ _ => .rfl) (fun b i => ?_) fun f i => ?_
  · unfold defined?
    by_cases hb : b.index < m.blocks.size
    · rw [appendBlock_block_of_lt m func label hb]
    · -- the new block is as empty as what stands for no block
      rw [instrs_of_size_le (Nat.le_of_not_lt hb)]
      by_cases heq : b.index = m.blocks.size
      · obtain rfl : b = ⟨m.blocks.size⟩ := congrArg BlockId.mk heq
        rw [appendBlock_block_self]
      · rw [instrs_of_size_le (by rw [appendBlock_size]; omega)]
  · unfold param?
    by_cases hf : f = func
    · subst hf
      by_cases hlt : f.index < m.functions.size
      · rw [appendBlock_function_self m f label hlt]
      · simp [Module.function, Module.appendBlock, Array.getD_eq_getD_getElem?, hlt]
    · rw [appendBlock_function_of_ne m func label hf]

/-- Closing blocks adds no instruction. -/
theorem Numbered.closeBlocks (h : m.Numbered) (ids : List BlockId) :
    (ids.foldl (fun m b => { m with blocks := m.blocks.modify b.index closeBlock })
      m).Numbered := by
  induction ids generalizing m with
  | nil => exact h
  | cons b ids ih => exact ih (h.modify fun _ => rfl)

/-- Finishing a function adds no instruction. -/
theorem Numbered.finishFunction (h : m.Numbered) (func : FuncId) :
    (finishFunction func m).2.Numbered := by
  rw [Module.finishFunction, ← Array.foldl_toList]
  exact h.closeBlocks _

/-- The parameters of a function have the next numbers, in order. -/
theorem newParams_eq (func : FuncId) (index : Nat) (tys : List TyId) (m : Module) :
    newParams func index tys m =
      ((List.range tys.length).map fun i => ⟨m.values.size + i⟩,
        { m with values := m.values ++
          (tys.mapIdx fun i ty => (⟨ty, .param func (index + i)⟩ : Value)).toArray }) := by
  induction tys generalizing index m with
  | nil =>
    change (([] : List ValueId), m) = _
    simp
  | cons ty tys ih =>
    -- the others are numbered in the module that has the first parameter already
    let added := (newValue ty (.param func index) m).2
    have hstep : newParams func index (ty :: tys) m =
        (⟨m.values.size⟩ :: (newParams func (index + 1) tys added).1,
          (newParams func (index + 1) tys added).2) := rfl
    rw [hstep, ih]
    simp [added, newValue, List.range_succ_eq_map, List.mapIdx_cons, Function.comp_def,
      Nat.add_right_comm, Nat.add_assoc]

/-- The kinds of values when the parameters of a function are added. -/
theorem hasKind_newParams {func : FuncId} {tys : List TyId} {v : ValueId} {kind : ValueKind}
    (hvalues : m'.values = (newParams func 0 tys m).2.values) :
    m'.HasKind v kind ↔
      m.HasKind v kind ∨ ∃ i < tys.length, v = ⟨m.values.size + i⟩ ∧ kind = .param func i := by
  unfold HasKind
  rw [hvalues, newParams_eq]
  by_cases hv : v.index < m.values.size
  · have hne : ∀ i, v ≠ ⟨m.values.size + i⟩ := fun i h => by
      rw [h] at hv
      exact absurd hv (Nat.not_lt.2 (Nat.le_add_right _ _))
    simp [Array.getElem?_append, hv, hne]
  · obtain ⟨i, hi⟩ := Nat.exists_eq_add_of_le (Nat.le_of_not_lt hv)
    obtain rfl : v = ⟨m.values.size + i⟩ := congrArg ValueId.mk hi
    by_cases hlt : i < tys.length
    · simp [hlt, eq_comm]
    · simp [hlt]

/-- A function with the next numbers for its parameters. -/
theorem Numbered.pushFunction (h : m.Numbered) {symbol : String} {tys : List TyId} {ret : TyId}
    {linkage : Linkage}
    (hvalues : m'.values = (newParams ⟨m.functions.size⟩ 0 tys m).2.values)
    (hblocks : m'.blocks = m.blocks)
    (hfunctions : m'.functions = m.functions.push
      ⟨symbol, (newParams ⟨m.functions.size⟩ 0 tys m).1, ret, linkage, #[]⟩) : m'.Numbered := by
  have hdefined : ∀ b i, m'.defined? b i = m.defined? b i := fun b i => by
    rw [defined?, Module.block, hblocks, defined?, Module.block]
  refine ⟨fun v => ?_, fun v b i b' i' => ?_, fun v f i => ?_⟩
  · simpa [hasKind_newParams hvalues, hdefined] using h.result v
  · simpa only [hdefined] using h.once v b i b' i'
  · rw [hasKind_newParams hvalues, h.param]
    by_cases hf : f = ⟨m.functions.size⟩
    · -- The parameters of the new function are the new values and no others.
      subst hf
      have hnew : (m.function ⟨m.functions.size⟩).params = [] :=
        params_of_size_le (Nat.le_refl _)
      have hnone : m.param? ⟨m.functions.size⟩ i = none := by
        rw [param?, hnew, List.getElem?_nil]
      have hself : m'.param? ⟨m.functions.size⟩ i =
          ((List.range tys.length).map fun i => (⟨m.values.size + i⟩ : ValueId))[i]? := by
        simp [param?, Module.function, hfunctions, newParams_eq, Array.getD_eq_getD_getElem?]
      rw [hnone, hself]
      by_cases hi : i < tys.length <;> simp [hi, eq_comm]
    · have hindex : f.index ≠ m.functions.size := fun heq => hf (congrArg FuncId.mk heq)
      simp [param?, Module.function, hfunctions, Array.getD_eq_getD_getElem?,
        Array.getElem?_push, hindex, hf]

end Steps

/-! ## Steps that are refused or accepted -/

/-- A step that leaves the module intact if it is refused. If it is accepted and the block is one of
the module, the module is numbered after it as it was before. -/
def Atomic {α : Type} (b : BlockId) (x : Build α) : Prop :=
  ∀ m, Ends x m (fun _ m' => m.HasBlock b → m.Numbered → m'.Numbered) m.Intact

namespace Atomic

variable {α β : Type} {b : BlockId} {x : Build α} {f : α → Build β}

/-- Steps that at most enter types may come before. -/
theorem after (hx : Keeps Intact x) (hf : ∀ a, Atomic b (f a)) : Atomic b (x >>= f) := by
  intro m
  refine (hx m).bind fun a m₁ hm₁ => (hf a m₁).mono (fun _ m' h hb hm => ?_) fun _ h => hm₁.trans h
  exact h (by rwa [HasBlock, hm₁.blocks]) (hm.intact hm₁)

/-- A result may be made of what a step gives. -/
theorem andPure (hx : Atomic b x) (g : α → β) : Atomic b (x >>= fun a => pure (g a)) := fun m =>
  (hx m).bind fun _ _ h => .pure h

/-- An instruction that defines a value. -/
theorem define (ty : TyId) {instr : ValueId → Instr} (hdst : ∀ v, (instr v).dst? = some v) :
    Atomic b (always (Module.define b ty instr)) := fun _ hb h => h.define hb ty hdst

/-- An instruction that defines no value. -/
theorem effect {instr : Instr} (hdst : instr.dst? = none) :
    Atomic b (always (pushInstr b instr)) := fun _ hb h => h.effect hb hdst

end Atomic

/-- Entering an unnamed type. -/
theorem internType_keepsIntact (ty : Ty) (hty : ty.isNamed = false) :
    Keeps Intact (always (internType ty)) := always_keeps (internType_intact ty hty)

/-! ### Instructions -/

section Instructions

variable (b : BlockId)

/-- The type of the slot is entered after the only requirement. -/
theorem alloca_atomic (ty : TyId) : Atomic b (alloca b ty) :=
  .after (expectOpen_keeps b) fun _ =>
    .after (internType_keepsIntact (.pointer ty) rfl) fun _ => .define _ fun _ => rfl

theorem load_atomic (pointer : ValueId) : Atomic b (load b pointer) :=
  .after (expectPointer_keeps pointer) fun _ =>
    .after (expectOpen_keeps b) fun _ => .define _ fun _ => rfl

theorem store_atomic (value pointer : ValueId) : Atomic b (store b value pointer) :=
  .after (expectPointer_keeps pointer) fun _ => .after get_keeps fun _ =>
    .after (expectType_keeps _ _) fun _ =>
      .after (expectOpen_keeps b) fun _ => .effect rfl

/-- The number of arguments is compared before anything else. -/
theorem call_atomic (callee : FuncId) (arguments : List ValueId) :
    Atomic b (call b callee arguments) := by
  intro m
  unfold Ends
  by_cases hlength : (m.function callee).params.length = arguments.length
  · rw [call_of_length hlength]
    refine Atomic.after (expectTypes_keeps _ _) (fun _ =>
      .after (expectOpen_keeps b) fun _ => ?_) m
    by_cases hvoid : m.type (m.function callee).ret = .void
    · rw [if_pos hvoid]
      exact (Atomic.effect rfl).andPure fun _ => none
    · rw [if_neg hvoid]
      exact (Atomic.define _ fun _ => rfl).andPure some
  · rw [call_of_length_ne hlength]
    exact .refl m

theorem extractValue_atomic (aggregate : ValueId) (index : Nat) :
    Atomic b (extractValue b aggregate index) :=
  .after get_keeps fun _ => .after (expectField_keeps _ _) fun _ =>
    .after (expectOpen_keeps b) fun _ => .define _ fun _ => rfl

theorem insertValue_atomic (aggregate value : ValueId) (index : Nat) :
    Atomic b (insertValue b aggregate value index) :=
  .after get_keeps fun _ => .after (expectField_keeps _ _) fun _ =>
    .after (expectType_keeps _ _) fun _ =>
      .after (expectOpen_keeps b) fun _ => .define _ fun _ => rfl

/-- The type of the truth is entered after the last requirement. -/
theorem icmp_atomic (predicate : IntPredicate) (lhs rhs : ValueId) :
    Atomic b (icmp b predicate lhs rhs) := by
  intro m
  unfold Ends
  cases hint : (m.intWidth? (m.valueType lhs)).isNone with
  | true =>
    rw [icmp_of_none hint]
    exact .refl m
  | false =>
    rw [icmp_of_int hint]
    exact Atomic.after (expectType_keeps _ _) (fun _ =>
      .after (expectOpen_keeps b) fun _ =>
        .after (internType_keepsIntact (.int 1) rfl) fun _ => .define _ fun _ => rfl) m

theorem phi_atomic (incoming : List (ValueId × BlockId)) : Atomic b (phi b incoming) := by
  match incoming with
  | [] => exact fun m => .throw (.refl m)
  | (first, origin) :: others =>
    exact .after (expectTypes_keeps _ _) fun _ => .after (expectOpen_keeps b) fun _ =>
      .after get_keeps fun _ => .define _ fun _ => rfl

/-! ### Terminators -/

theorem terminate_atomic (t : Terminator) : Atomic b (terminate b t) := by
  intro m
  unfold Ends terminate
  cases m.isTerminated b with
  | true => exact .refl m
  | false => exact fun _ h => h.modify fun _ => rfl

/-- A return without a value may be refused after `void` was entered. -/
theorem ret_atomic (value : Option ValueId) : Atomic b (ret b value) := by
  refine .after get_keeps fun m => ?_
  cases value with
  | some v => exact .after (expectType_keeps _ _) fun _ => terminate_atomic b _
  | none =>
    exact .after (internType_keepsIntact .void rfl) fun _ =>
      .after (expectType_keeps _ _) fun _ => terminate_atomic b _

/-- A branch may be refused after the type of its condition was entered. -/
theorem condBr_atomic (condition : ValueId) (onTrue onFalse : BlockId) :
    Atomic b (condBr b condition onTrue onFalse) :=
  .after (internType_keepsIntact (.int 1) rfl) fun _ => .after get_keeps fun _ =>
    .after (expectType_keeps _ _) fun _ => terminate_atomic b _

end Instructions

end FormCompiler.Ir.Module
