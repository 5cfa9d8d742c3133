import FormCompiler.Proofs.Ir.Operations

/-!
# Modules Are Well Typed

Operands are checked when an instruction is emitted, by comparing ids of types. What was checked
stays true: ids of types go on to stand for the same types, and values and signatures keep theirs.
So in a module that was built by operations with ids of its own, refused ones among them, every
instruction and every terminator is well typed.

* `Instr.Known`, `Terminator.Known`: the ids are those of the module.
* `Instr.Typed`, `Terminator.Typed`: the operands and the result have the types they need.
* `Module.Sound`: the invariant that every operation keeps.
* `Operation`, `Operation.Fit`: sequences of operations with ids of the module they are run in.
-/

namespace FormCompiler.Ir

/-- The types that a type is made of. -/
def Ty.parts : Ty → List TyId
  | .pointer pointee => [pointee]
  | .struct _ fields => fields
  | _ => []

namespace Module

variable (m : Module)

/-- The type is one of the module. -/
def HasTy (t : TyId) : Prop := t.index < m.types.size

/-- The value is one of the module. -/
def HasValue (v : ValueId) : Prop := v.index < m.values.size

/-- The block is one of the module. -/
def HasBlock (b : BlockId) : Prop := b.index < m.blocks.size

/-- The function is one of the module. -/
def HasFunction (f : FuncId) : Prop := f.index < m.functions.size

instance (t : TyId) : Decidable (m.HasTy t) := inferInstanceAs (Decidable (_ < _))

instance (v : ValueId) : Decidable (m.HasValue v) := inferInstanceAs (Decidable (_ < _))

instance (b : BlockId) : Decidable (m.HasBlock b) := inferInstanceAs (Decidable (_ < _))

instance (f : FuncId) : Decidable (m.HasFunction f) := inferInstanceAs (Decidable (_ < _))

/-- The type of the field of a struct type at an index. -/
def field? (t : TyId) (index : Nat) : Option TyId :=
  match m.type t with
  | .struct _ fields => fields[index]?
  | _ => none

/-- The type of what a function gives, unless that is `void`. -/
def returns? (f : FuncId) : Option TyId :=
  if m.type (m.function f).ret = .void then none else some (m.function f).ret

variable {m} {t : TyId}

/-- What a pointer type points to is a part of it. -/
theorem pointee_mem_parts {pointee : TyId} (h : m.pointee? t = some pointee) :
    pointee ∈ (m.type t).parts := by
  unfold pointee? at h
  split at h
  next htype =>
    cases h
    simp [htype, Ty.parts]
  next => cases h

/-- The types of fields are parts of a struct type. -/
theorem field_mem_parts {field : TyId} {index : Nat} (h : m.field? t index = some field) :
    field ∈ (m.type t).parts := by
  unfold field? at h
  split at h
  next htype =>
    rw [htype]
    exact List.mem_of_getElem? h
  next => cases h

/-- A field is accepted as the aggregate has it. -/
theorem field?_of_fieldType {aggregate field : TyId} {index : Nat}
    (h : fieldType aggregate index m = .ok field) : m.field? aggregate index = some field := by
  obtain ⟨name, fields, htype, hfield⟩ := fieldType_ok_iff.1 h
  rw [field?, htype]
  exact hfield

end Module

/-! ## Well-typed code -/

/-- The ids in an instruction are those of the module. -/
structure Instr.Known (m : Module) (i : Instr) : Prop where
  uses : ∀ v ∈ i.uses, m.HasValue v
  dst : ∀ v, i.dst? = some v → m.HasValue v
  others : match i with
    | .alloca _ ty => m.HasTy ty
    | .call _ callee _ => m.HasFunction callee
    | .phi _ incoming => ∀ p ∈ incoming, m.HasBlock p.2
    | _ => True

/-- The operands of an instruction and its result have the types that it needs. -/
def Instr.Typed (m : Module) : Instr → Prop
  | .alloca dst ty => m.pointee? (m.valueType dst) = some ty
  | .load dst pointer => m.pointee? (m.valueType pointer) = some (m.valueType dst)
  | .store value pointer => m.pointee? (m.valueType pointer) = some (m.valueType value)
  | .call dst callee arguments =>
    arguments.map m.valueType = (m.function callee).params.map m.valueType ∧
      dst.map m.valueType = m.returns? callee
  | .extractValue dst aggregate index =>
    m.field? (m.valueType aggregate) index = some (m.valueType dst)
  | .insertValue dst aggregate value index =>
    m.field? (m.valueType aggregate) index = some (m.valueType value) ∧
      m.valueType dst = m.valueType aggregate
  | .icmp dst _ lhs rhs =>
    (m.intWidth? (m.valueType lhs)).isSome = true ∧ m.valueType rhs = m.valueType lhs ∧
      m.type (m.valueType dst) = .int 1
  | .phi dst incoming => ∀ p ∈ incoming, m.valueType p.1 = m.valueType dst

/-- The ids in a terminator are those of the module. -/
structure Terminator.Known (m : Module) (t : Terminator) : Prop where
  uses : ∀ v ∈ t.uses, m.HasValue v
  successors : ∀ b ∈ t.successors, m.HasBlock b

/-- The operand of a terminator, in a block of a function, has the type that it needs. -/
def Terminator.Typed (m : Module) (func : FuncId) : Terminator → Prop
  | .ret (some v) => m.valueType v = (m.function func).ret
  | .ret none => m.type (m.function func).ret = .void
  | .br _ => True
  | .condBr condition _ _ => m.type (m.valueType condition) = .int 1
  | .unreachable => True

/-- Every instruction and every terminator of the module is well typed, with ids of the module. -/
def Module.WellTyped (m : Module) : Prop :=
  ∀ b, m.HasBlock b →
    (∀ i ∈ (m.block b).instrs, i.Known m ∧ i.Typed m) ∧
      ∀ t, (m.block b).terminator = some t → t.Known m ∧ t.Typed m (m.block b).func

/-! ## The invariant -/

/-- The ids in a function are those of the module. -/
structure Function.Sound (m : Module) (f : Function) : Prop where
  params : ∀ v ∈ f.params, m.HasValue v
  ret : m.HasTy f.ret
  blocks : ∀ b ∈ f.blocks, m.HasBlock b

/-- The block belongs to a function of the module, and its code is well typed. -/
structure Block.Sound (m : Module) (b : Block) : Prop where
  func : m.HasFunction b.func
  instrs : ∀ i ∈ b.instrs, i.Known m ∧ i.Typed m
  terminator : ∀ t, b.terminator = some t → t.Known m ∧ t.Typed m b.func

/-- A well typed instruction may be added to a sound block. -/
theorem Block.Sound.push {m : Module} {b : Block} (h : b.Sound m) {i : Instr}
    (hi : i.Known m ∧ i.Typed m) : ({ b with instrs := b.instrs.push i } : Block).Sound m where
  func := h.func
  instrs j hj := by
    rcases Array.mem_push.1 hj with hj | rfl
    · exact h.instrs j hj
    · exact hi
  terminator := h.terminator

/-- A sound block may end in a well typed way. -/
theorem Block.Sound.endBy {m : Module} {b : Block} (h : b.Sound m) {t : Terminator}
    (ht : t.Known m ∧ t.Typed m b.func) : ({ b with terminator := some t } : Block).Sound m where
  func := h.func
  instrs := h.instrs
  terminator t' ht' := by
    cases ht'
    exact ht

namespace Module

/-- All ids in the module are those of its own entries, and the code is well typed. -/
structure Sound (m : Module) : Prop where
  types : ∀ t, m.HasTy t → ∀ part ∈ (m.type t).parts, m.HasTy part
  values : ∀ v, m.HasValue v → m.HasTy (m.valueType v)
  functions : ∀ f, m.HasFunction f → (m.function f).Sound m
  blocks : ∀ b, m.HasBlock b → (m.block b).Sound m

variable {m m' : Module}

/-- The code of a sound module is well typed. -/
theorem Sound.wellTyped (h : m.Sound) : m.WellTyped := fun b hb =>
  ⟨(h.blocks b hb).instrs, (h.blocks b hb).terminator⟩

/-- A module without entries is sound. -/
theorem sound_empty (name : String) : (empty name).Sound :=
  ⟨fun _ h => absurd h (Nat.not_lt_zero _), fun _ h => absurd h (Nat.not_lt_zero _),
    fun _ h => absurd h (Nat.not_lt_zero _), fun _ h => absurd h (Nat.not_lt_zero _)⟩

namespace Extends

variable (hm : m.Extends m')

include hm

/-- Types stay. -/
theorem hasTy {t : TyId} (h : m.HasTy t) : m'.HasTy t := Nat.lt_of_lt_of_le h hm.types.size_le

/-- Values stay. -/
theorem hasValue {v : ValueId} (h : m.HasValue v) : m'.HasValue v :=
  Nat.lt_of_lt_of_le h hm.values.size_le

/-- Blocks stay. -/
theorem hasBlock {b : BlockId} (h : m.HasBlock b) : m'.HasBlock b :=
  Nat.lt_of_lt_of_le h hm.blocks

/-- Functions stay. -/
theorem hasFunction {f : FuncId} (h : m.HasFunction f) : m'.HasFunction f :=
  Nat.lt_of_lt_of_le h hm.functions

/-- What a pointer type of the first module points to. -/
theorem pointee?_eq {t : TyId} (h : m.HasTy t) : m'.pointee? t = m.pointee? t := by
  rw [Module.pointee?, hm.type h, Module.pointee?]

/-- The width of an integer type of the first module. -/
theorem intWidth?_eq {t : TyId} (h : m.HasTy t) : m'.intWidth? t = m.intWidth? t := by
  rw [Module.intWidth?, hm.type h, Module.intWidth?]

/-- The fields of a struct type of the first module. -/
theorem field?_eq {t : TyId} (h : m.HasTy t) (index : Nat) :
    m'.field? t index = m.field? t index := by
  rw [Module.field?, hm.type h, Module.field?]

/-- The types of several values of the first module. -/
theorem map_valueType {vs : List ValueId} (h : ∀ v ∈ vs, m.HasValue v) :
    vs.map m'.valueType = vs.map m.valueType :=
  List.map_congr_left fun v hv => hm.valueType (h v hv)

/-- What a function gives stays of the same type. -/
theorem returns?_eq {f : FuncId} (hf : m.HasFunction f) (hret : m.HasTy (m.function f).ret) :
    m'.returns? f = m.returns? f := by
  rw [returns?, (hm.function f hf).ret, hm.type hret, returns?]

end Extends

end Module

/-- Known instructions stay known. -/
theorem Instr.Known.mono {m m' : Module} {i : Instr} (h : i.Known m) (hm : m.Extends m') :
    i.Known m' where
  uses v hv := hm.hasValue (h.uses v hv)
  dst v hv := hm.hasValue (h.dst v hv)
  others := by
    have hothers := h.others
    cases i with
    | alloca dst ty => exact hm.hasTy hothers
    | call dst callee arguments => exact hm.hasFunction hothers
    | phi dst incoming => exact fun p hp => hm.hasBlock (hothers p hp)
    | _ => trivial

/-- Known terminators stay known. -/
theorem Terminator.Known.mono {m m' : Module} {t : Terminator} (h : t.Known m)
    (hm : m.Extends m') : t.Known m' :=
  ⟨fun v hv => hm.hasValue (h.uses v hv), fun b hb => hm.hasBlock (h.successors b hb)⟩

/-- Sound functions stay sound. -/
theorem Function.Sound.mono {m m' : Module} {f : Function} (h : f.Sound m) (hm : m.Extends m') :
    f.Sound m' :=
  ⟨fun v hv => hm.hasValue (h.params v hv), hm.hasTy h.ret, fun b hb => hm.hasBlock (h.blocks b hb)⟩

/-! ## Operands that were checked -/

/-- What is written has the type that the pointer points to. -/
theorem Instr.store_typed {m : Module} {value pointer : ValueId} (hvalue : m.HasValue value)
    (hpointer : m.HasValue pointer)
    (hty : m.pointee? (m.valueType pointer) = some (m.valueType value)) :
    (Instr.store value pointer).Known m ∧ (Instr.store value pointer).Typed m := by
  refine ⟨⟨?_, by simp [Instr.dst?], trivial⟩, hty⟩
  simpa [Instr.uses] using ⟨hvalue, hpointer⟩

/-- A function is called with values of the types of its parameters. Its result is a new value,
unless it gives none. -/
theorem Instr.call_typed {m m' : Module} (hm : m.Still m') {callee : FuncId}
    {arguments : List ValueId} {returned : Option ValueId} (hcallee : m.HasFunction callee)
    (hfunction : (m.function callee).Sound m) (harguments : ∀ v ∈ arguments, m.HasValue v)
    (htypes : arguments.map m.valueType = (m.function callee).params.map m.valueType)
    (hreturned : ∀ v ∈ returned, m'.HasValue v)
    (hty : returned.map m'.valueType = m.returns? callee) :
    (Instr.call returned callee arguments).Known m' ∧
      (Instr.call returned callee arguments).Typed m' := by
  have hextends := hm.toExtends
  refine ⟨⟨fun v hv => hextends.hasValue (harguments v hv), hreturned,
    hextends.hasFunction hcallee⟩, ?_, ?_⟩
  · rw [hextends.map_valueType harguments, hm.function, hextends.map_valueType hfunction.params,
      htypes]
  · rw [hty, hextends.returns?_eq hcallee hfunction.ret]

namespace Module.Extends

variable {m m' : Module} (hm : m.Extends m') {dst : ValueId} (hdst : m'.HasValue dst)

include hm hdst

/-- A slot is a pointer to its type. -/
theorem alloca_typed {ty pointer : TyId} (hty : m.HasTy ty) (hpointer : m.HasTy pointer)
    (htype : m.type pointer = .pointer ty) (hdstTy : m'.valueType dst = pointer) :
    (Instr.alloca dst ty).Known m' ∧ (Instr.alloca dst ty).Typed m' := by
  refine ⟨⟨by simp [Instr.uses], ?_, hm.hasTy hty⟩, ?_⟩
  · rintro _ ⟨⟩
    exact hdst
  · rw [Instr.Typed, hdstTy, hm.pointee?_eq hpointer, pointee?, htype]

/-- What is read has the type that the pointer points to. -/
theorem load_typed {pointer : ValueId} (hpointer : m.HasValue pointer)
    (hty : m.HasTy (m.valueType pointer))
    (hpointee : m.pointee? (m.valueType pointer) = some (m'.valueType dst)) :
    (Instr.load dst pointer).Known m' ∧ (Instr.load dst pointer).Typed m' := by
  refine ⟨⟨?_, ?_, trivial⟩, ?_⟩
  · simpa [Instr.uses] using hm.hasValue hpointer
  · rintro _ ⟨⟩
    exact hdst
  · rw [Instr.Typed, hm.valueType hpointer, hm.pointee?_eq hty, hpointee]

/-- What is taken has the type of the field. -/
theorem extractValue_typed {aggregate : ValueId} {index : Nat} (haggregate : m.HasValue aggregate)
    (hty : m.HasTy (m.valueType aggregate))
    (hfield : m.field? (m.valueType aggregate) index = some (m'.valueType dst)) :
    (Instr.extractValue dst aggregate index).Known m' ∧
      (Instr.extractValue dst aggregate index).Typed m' := by
  refine ⟨⟨?_, ?_, trivial⟩, ?_⟩
  · simpa [Instr.uses] using hm.hasValue haggregate
  · rintro _ ⟨⟩
    exact hdst
  · rw [Instr.Typed, hm.valueType haggregate, hm.field?_eq hty, hfield]

/-- What is put into an aggregate has the type of the field. -/
theorem insertValue_typed {aggregate value : ValueId} {index : Nat}
    (haggregate : m.HasValue aggregate) (hvalue : m.HasValue value)
    (hty : m.HasTy (m.valueType aggregate))
    (hfield : m.field? (m.valueType aggregate) index = some (m.valueType value))
    (hdstTy : m'.valueType dst = m.valueType aggregate) :
    (Instr.insertValue dst aggregate value index).Known m' ∧
      (Instr.insertValue dst aggregate value index).Typed m' := by
  refine ⟨⟨?_, ?_, trivial⟩, ?_, ?_⟩
  · simpa [Instr.uses] using ⟨hm.hasValue haggregate, hm.hasValue hvalue⟩
  · rintro _ ⟨⟩
    exact hdst
  · rw [hm.valueType haggregate, hm.valueType hvalue, hm.field?_eq hty, hfield]
  · rw [hdstTy, hm.valueType haggregate]

/-- Integers of one type are compared, by a result of one bit. -/
theorem icmp_typed {predicate : IntPredicate} {lhs rhs : ValueId} (hlhs : m.HasValue lhs)
    (hrhs : m.HasValue rhs) (hty : m.HasTy (m.valueType lhs))
    (hint : (m.intWidth? (m.valueType lhs)).isSome = true)
    (htypes : m.valueType rhs = m.valueType lhs) (hdstTy : m'.type (m'.valueType dst) = .int 1) :
    (Instr.icmp dst predicate lhs rhs).Known m' ∧
      (Instr.icmp dst predicate lhs rhs).Typed m' := by
  refine ⟨⟨?_, ?_, trivial⟩, ?_, ?_, hdstTy⟩
  · simpa [Instr.uses] using ⟨hm.hasValue hlhs, hm.hasValue hrhs⟩
  · rintro _ ⟨⟩
    exact hdst
  · rwa [hm.valueType hlhs, hm.intWidth?_eq hty]
  · rw [hm.valueType hlhs, hm.valueType hrhs, htypes]

/-- The values that a phi selects from have one type. -/
theorem phi_typed {incoming : List (ValueId × BlockId)}
    (hincoming : ∀ p ∈ incoming, m.HasValue p.1 ∧ m.HasBlock p.2)
    (htypes : ∀ p ∈ incoming, m.valueType p.1 = m'.valueType dst) :
    (Instr.phi dst incoming).Known m' ∧ (Instr.phi dst incoming).Typed m' := by
  refine ⟨⟨?_, ?_, fun p hp => hm.hasBlock (hincoming p hp).2⟩, fun p hp => ?_⟩
  · intro v hv
    obtain ⟨p, hp, rfl⟩ := List.mem_map.1 hv
    exact hm.hasValue (hincoming p hp).1
  · rintro _ ⟨⟩
    exact hdst
  · rw [hm.valueType (hincoming p hp).1, htypes p hp]

end Module.Extends

namespace Module.Sound

variable {m m' : Module} (h : m.Sound) (hm : m.Extends m')

include h hm

/-- The type of a value stays what it is. -/
theorem type_valueType {v : ValueId} (hv : m.HasValue v) :
    m'.type (m'.valueType v) = m.type (m.valueType v) := by
  rw [hm.valueType hv, hm.type (h.values v hv)]

/-- Typed instructions stay typed. -/
theorem instr_typed {i : Instr} (hknown : i.Known m) (hi : i.Typed m) : i.Typed m' := by
  have huses := hknown.uses
  have hdst := hknown.dst
  cases i with
  | alloca dst ty =>
    have hd := hdst dst rfl
    simp only [Instr.Typed] at hi ⊢
    rwa [hm.valueType hd, hm.pointee?_eq (h.values _ hd)]
  | load dst pointer =>
    have hd := hdst dst rfl
    have hp := huses pointer (by simp [Instr.uses])
    simp only [Instr.Typed] at hi ⊢
    rwa [hm.valueType hd, hm.valueType hp, hm.pointee?_eq (h.values _ hp)]
  | store value pointer =>
    have hv := huses value (by simp [Instr.uses])
    have hp := huses pointer (by simp [Instr.uses])
    simp only [Instr.Typed] at hi ⊢
    rwa [hm.valueType hv, hm.valueType hp, hm.pointee?_eq (h.values _ hp)]
  -- a call is typed by its callee, whose parameters and result do not change
  | call dst callee arguments =>
    have hcallee : m.HasFunction callee := hknown.others
    have harguments : ∀ v ∈ arguments, m.HasValue v := huses
    obtain ⟨hargs, hreturns⟩ := hi
    refine ⟨?_, ?_⟩
    · rw [hm.map_valueType harguments, (hm.function callee hcallee).params,
        hm.map_valueType (h.functions callee hcallee).params, hargs]
    · rw [hm.returns?_eq hcallee (h.functions callee hcallee).ret, ← hreturns]
      cases dst with
      | none => rfl
      | some d => exact congrArg some (hm.valueType (hdst d rfl))
  | extractValue dst aggregate index =>
    have hd := hdst dst rfl
    have ha := huses aggregate (by simp [Instr.uses])
    simp only [Instr.Typed] at hi ⊢
    rwa [hm.valueType hd, hm.valueType ha, hm.field?_eq (h.values _ ha)]
  | insertValue dst aggregate value index =>
    have hd := hdst dst rfl
    have ha := huses aggregate (by simp [Instr.uses])
    have hv := huses value (by simp [Instr.uses])
    simp only [Instr.Typed] at hi ⊢
    rwa [hm.valueType hd, hm.valueType ha, hm.valueType hv, hm.field?_eq (h.values _ ha)]
  | icmp dst predicate lhs rhs =>
    have hd := hdst dst rfl
    have hl := huses lhs (by simp [Instr.uses])
    have hr := huses rhs (by simp [Instr.uses])
    simp only [Instr.Typed] at hi ⊢
    rwa [h.type_valueType hm hd, hm.valueType hl, hm.valueType hr,
      hm.intWidth?_eq (h.values _ hl)]
  | phi dst incoming =>
    have hd := hdst dst rfl
    intro p hp
    have hv := huses p.1 (List.mem_map_of_mem hp)
    rw [hm.valueType hd, hm.valueType hv, hi p hp]

/-- Typed terminators stay typed. -/
theorem terminator_typed {func : FuncId} {t : Terminator} (hfunc : m.HasFunction func)
    (hknown : t.Known m) (ht : t.Typed m func) : t.Typed m' func := by
  have hret := (hm.function func hfunc).ret
  cases t with
  | ret value =>
    cases value with
    | some v =>
      have hv := hknown.uses v (by simp [Terminator.uses])
      simp only [Terminator.Typed] at ht ⊢
      rwa [hm.valueType hv, hret]
    | none =>
      simp only [Terminator.Typed] at ht ⊢
      rwa [hret, hm.type (h.functions func hfunc).ret]
  | condBr condition onTrue onFalse =>
    have hc := hknown.uses condition (by simp [Terminator.uses])
    simp only [Terminator.Typed] at ht ⊢
    rwa [h.type_valueType hm hc]
  | br target => trivial
  | unreachable => trivial

/-- Sound blocks stay sound. -/
theorem block_sound {b : Block} (hb : b.Sound m) : b.Sound m' where
  func := hm.hasFunction hb.func
  instrs i hi :=
    have ⟨hknown, htyped⟩ := hb.instrs i hi
    ⟨hknown.mono hm, h.instr_typed hm hknown htyped⟩
  terminator t ht :=
    have ⟨hknown, htyped⟩ := hb.terminator t ht
    ⟨hknown.mono hm, h.terminator_typed hm hb.func hknown htyped⟩

/-- A later module is sound if the entries are that are not those of the first one. -/
theorem of_entries
    (htypes : ∀ t, m'.HasTy t → m.HasTy t ∨ ∀ part ∈ (m'.type t).parts, m'.HasTy part)
    (hvalues : ∀ v, m'.HasValue v → m.HasValue v ∨ m'.HasTy (m'.valueType v))
    (hfunctions : ∀ f, m'.HasFunction f →
      (m.HasFunction f ∧ m'.function f = m.function f) ∨ (m'.function f).Sound m')
    (hblocks : ∀ b, m'.HasBlock b →
      (m.HasBlock b ∧ m'.block b = m.block b) ∨ (m'.block b).Sound m') : m'.Sound where
  types t ht := by
    rcases htypes t ht with hold | hnew
    · rw [hm.type hold]
      exact fun part hpart => hm.hasTy (h.types t hold part hpart)
    · exact hnew
  values v hv := by
    rcases hvalues v hv with hold | hnew
    · rw [hm.valueType hold]
      exact hm.hasTy (h.values v hold)
    · exact hnew
  functions f hf := by
    rcases hfunctions f hf with ⟨hold, hsame⟩ | hnew
    · rw [hsame]
      exact (h.functions f hold).mono hm
    · exact hnew
  blocks b hb := by
    rcases hblocks b hb with ⟨hold, hsame⟩ | hnew
    · rw [hsame]
      exact h.block_sound hm (h.blocks b hold)
    · exact hnew

end Module.Sound

namespace Module

variable {m m' : Module} {b : BlockId}

/-! ## Entries added -/

/-- An unnamed type was entered, or it was there. -/
structure Entered (ty : Ty) (t : TyId) (m m' : Module) : Prop where
  sound : m'.Sound
  still : Still m m'
  values : m'.values = m.values
  hasTy : m'.HasTy t
  type : m'.type t = ty

/-- Entering a type that is made of types of the module. -/
theorem Sound.pushType (h : m.Sound) {ty : Ty} (hparts : ∀ part ∈ ty.parts, m.HasTy part) :
    ({ m with types := m.types.push ty } : Module).Sound := by
  have hm := extends_push_type m ty
  refine h.of_entries hm (fun t ht => ?_) (fun v hv => .inl hv) (fun f hf => .inl ⟨hf, rfl⟩)
    fun b hb => .inl ⟨hb, rfl⟩
  by_cases hlt : t.index < m.types.size
  · exact .inl hlt
  · have heq : t.index = m.types.size :=
      Nat.le_antisymm (Nat.lt_succ_iff.1 (by simpa [HasTy] using ht)) (Nat.le_of_not_lt hlt)
    refine .inr fun part hpart => hm.hasTy (hparts part ?_)
    simpa [Module.type, heq] using hpart

/-- A type after one was entered is a type there was, or the one entered. -/
theorem hasTy_internType {ty : Ty} {t : TyId} (h : (internType ty m).2.HasTy t) :
    m.HasTy t ∨ (internType ty m).2.type t = ty := by
  unfold internType at h ⊢
  split
  next t' hfind =>
    rw [hfind] at h
    exact .inl h
  next hfind =>
    rw [hfind] at h
    by_cases hlt : t.index < m.types.size
    · exact .inl hlt
    · refine .inr ?_
      have heq : t.index = m.types.size :=
        Nat.le_antisymm (Nat.lt_succ_iff.1 (by simpa [HasTy] using h)) (Nat.le_of_not_lt hlt)
      simp [Module.type, heq]

/-- Entering an unnamed type that is made of types of the module. -/
theorem Sound.internType (h : m.Sound) (ty : Ty) (hunnamed : ty.isNamed = false)
    (hparts : ∀ part ∈ ty.parts, m.HasTy part) :
    Entered ty (internType ty m).1 m (Module.internType ty m).2 := by
  obtain ⟨hstill, hfound⟩ := internType_spec ty hunnamed m
  have htype := type_of_find hfound
  have hvalues : (Module.internType ty m).2.values = m.values := by
    unfold Module.internType
    split <;> rfl
  refine ⟨?_, hstill, hvalues, (Array.getElem?_eq_some_iff.1 htype).1, type_of_getElem? htype⟩
  unfold Module.internType
  split
  · exact h
  · exact h.pushType hparts

/-- The type of a new value. -/
theorem valueType_newValue (ty : TyId) (kind : ValueKind) (m : Module) :
    (newValue ty kind m).2.valueType ⟨m.values.size⟩ = ty :=
  valueType_of_getElem? (newValue_spec ty kind m).2.2

/-- A new value is one of the module. -/
theorem hasValue_newValue (ty : TyId) (kind : ValueKind) (m : Module) :
    (newValue ty kind m).2.HasValue ⟨m.values.size⟩ := by
  simp [HasValue, newValue]

/-- Adding a value of a type of the module. -/
theorem Sound.newValue (h : m.Sound) {ty : TyId} (hty : m.HasTy ty) (kind : ValueKind) :
    (newValue ty kind m).2.Sound := by
  have hstill := (newValue_spec ty kind m).1
  refine h.of_entries hstill.toExtends (fun t ht => .inl ht) (fun v hv => ?_)
    (fun f hf => .inl ⟨hf, rfl⟩) fun b hb => .inl ⟨hb, rfl⟩
  by_cases hlt : v.index < m.values.size
  · exact .inl hlt
  · have heq : v = ⟨m.values.size⟩ := congrArg ValueId.mk
      (Nat.le_antisymm (Nat.lt_succ_iff.1 (by simpa [HasValue, Module.newValue] using hv))
        (Nat.le_of_not_lt hlt))
    refine .inr ?_
    rw [heq, valueType_newValue]
    exact hty

/-- Replacing a block by a sound one that extends it. -/
theorem Sound.modify (h : m.Sound) {change : Block → Block}
    (hextends : (m.block b).Extends (change (m.block b)))
    (hsound : m.HasBlock b → (change (m.block b)).Sound m) :
    ({ m with blocks := m.blocks.modify b.index change } : Module).Sound := by
  have hm : m.Extends { m with blocks := m.blocks.modify b.index change } :=
    modify_extends fun _ => hextends
  refine h.of_entries hm (fun t ht => .inl ht) (fun v hv => .inl hv)
    (fun f hf => .inl ⟨hf, rfl⟩) fun b' hb' => ?_
  have hold : m.HasBlock b' := by simpa [HasBlock] using hb'
  by_cases hne : b' = b
  · subst hne
    rw [block_modify_self hold]
    exact .inr (h.block_sound hm (hsound hold))
  · exact .inl ⟨hold, block_modify_of_ne hne⟩

/-- Adding an instruction to an open block. -/
theorem Sound.pushInstr (h : m.Sound) {i : Instr} (hopen : m.isTerminated b = false)
    (hi : i.Known m ∧ i.Typed m) : (pushInstr b i m).2.Sound :=
  h.modify (.push (terminator_of_open hopen) i) fun hb => (h.blocks b hb).push hi

/-! ## Operations -/

/-- The module is sound after the operation, accepted or refused. -/
def SoundAfter {α : Type} (op : Build α) (m : Module) : Prop :=
  Ends op m (fun _ m' => m'.Sound) Module.Sound

/-- A sequence that begins with a requirement. -/
theorem Sound.require {α β : Type} {x : Build α} {f : α → Build β} {P : α → Prop} (h : m.Sound)
    (hx : Ends x m (fun a m' => m = m' ∧ P a) (m = ·)) (hf : ∀ a, P a → SoundAfter (f a) m) :
    SoundAfter (x >>= f) m :=
  hx.andThen (fun _ he => he ▸ h) fun a _ ⟨hm, ha⟩ => hm ▸ hf a ha

/-- A sequence that begins by entering a type. -/
theorem Sound.enter {β : Type} {f : TyId → Build β} (h : m.Sound) (ty : Ty)
    (hunnamed : ty.isNamed = false) (hparts : ∀ part ∈ ty.parts, m.HasTy part)
    (hf : ∀ t m', Entered ty t m m' → SoundAfter (f t) m') :
    SoundAfter (always (Module.internType ty) >>= f) m :=
  (always_ends _ m).andThen (fun _ he => he.elim) fun t m' hrun => by
    have hentered := h.internType ty hunnamed hparts
    rw [hrun] at hentered
    exact hf t m' hentered

/-- Defining a value by an instruction of an open block. The instruction has to be well typed where
the new value has its type. -/
theorem Sound.define (h : m.Sound) {ty : TyId} {instr : ValueId → Instr} (hty : m.HasTy ty)
    (hopen : m.isTerminated b = false)
    (hinstr : ∀ dst m', m.Still m' → m'.HasValue dst → m'.valueType dst = ty →
      (instr dst).Known m' ∧ (instr dst).Typed m') :
    SoundAfter (always (Module.define b ty instr)) m := by
  have hstill := (newValue_spec ty .result m).1
  exact (h.newValue hty .result).pushInstr (b := b) (by rw [hstill.isTerminated, hopen])
    (hinstr _ _ hstill (hasValue_newValue ty .result m) (valueType_newValue ty .result m))

end Module

end FormCompiler.Ir
