import FormCompiler.Proofs.Ir.WellTyped

/-!
# The Module Is Well Typed After Any Operations

Whatever operations are run on a module, with ids of that module and in whatever order, accepted or
refused: every instruction and every terminator in it is well typed. There is one lemma for each
operation, `run_sound` for a step and `runAll_sound` for a sequence of them.

* `Operation`: the operations with their arguments.
* `Fit`: each operation of a sequence has ids of the module that it is run in.
* `runAll`: the module after a sequence.
-/

namespace FormCompiler.Ir

/-- There is no id in the end of a block that control never reaches. -/
theorem Terminator.unreachable_known (m : Module) : Terminator.unreachable.Known m :=
  ⟨by simp [Terminator.uses], by simp [Terminator.successors]⟩

/-- A block that is closed as unreachable ends in the way that it did, or in that one. -/
theorem Module.terminator_closeBlock {data : Block} {t : Terminator}
    (h : (closeBlock data).terminator = some t) :
    data.terminator = some t ∨ t = .unreachable := by
  cases hclosed : data.terminator with
  | some t' => exact .inl (by simpa [closeBlock, hclosed] using h)
  | none => exact .inr (by simpa [closeBlock, hclosed] using h.symm)

/-- A sound block may be closed as unreachable. -/
theorem Block.Sound.close {m : Module} {data : Block} (h : data.Sound m) :
    (Module.closeBlock data).Sound m where
  func := h.func
  instrs := h.instrs
  terminator t ht := by
    rcases Module.terminator_closeBlock ht with hold | rfl
    · exact h.terminator t hold
    · exact ⟨Terminator.unreachable_known m, trivial⟩

namespace Module

variable {m : Module} {b : BlockId}

/-! ## Declarations -/

/-- Entering a named struct of types of the module. -/
theorem Sound.namedStruct (h : m.Sound) (name : String) {fields : List TyId}
    (hfields : ∀ t ∈ fields, m.HasTy t) : SoundAfter (namedStruct name fields) m := by
  refine (namedStruct_ends name fields m).mono ?_ fun _ hm => hm.1 ▸ h
  rintro t m' ⟨-, -, rfl⟩
  exact h.pushType hfields

/-- Adding values for parameters. -/
theorem Sound.newParams (h : m.Sound) (func : FuncId) (index : Nat) {tys : List TyId}
    (htys : ∀ t ∈ tys, m.HasTy t) : (newParams func index tys m).2.Sound := by
  induction tys generalizing index m with
  | nil => exact h
  | cons ty tys ih =>
    exact ih (h.newValue (htys ty (by simp)) _) (index + 1) fun t ht => htys t (by simp [ht])

/-- Adding a function whose ids are those of the module. -/
theorem Sound.pushFunction (h : m.Sound) {f : Function} (hf : f.Sound m) :
    ({ m with functions := m.functions.push f } : Module).Sound := by
  have hold : ∀ g : FuncId, g.index < m.functions.size →
      ({ m with functions := m.functions.push f } : Module).function g = m.function g :=
    fun g hg => (Grown.push m.functions f).getD hg _
  have hm : m.Extends { m with functions := m.functions.push f } :=
    ⟨.refl _, .refl _, Nat.le_refl _, fun _ _ => .refl _, by simp,
      fun g hg => (hold g hg) ▸ .refl _⟩
  refine h.of_entries hm (fun t ht => .inl ht) (fun v hv => .inl hv) (fun g hg => ?_)
    fun b hb => .inl ⟨hb, rfl⟩
  by_cases hlt : g.index < m.functions.size
  · exact .inl ⟨hlt, hold g hlt⟩
  · have heq : g.index = m.functions.size :=
      Nat.le_antisymm (Nat.lt_succ_iff.1 (by simpa [HasFunction] using hg)) (Nat.le_of_not_lt hlt)
    refine .inr ?_
    have hself : ({ m with functions := m.functions.push f } : Module).function g = f := by
      simp [Module.function, heq]
    rw [hself]
    exact hf.mono hm

/-- Declaring a function with types of the module. -/
theorem Sound.declareFunction (h : m.Sound) (symbol : String) {params : List TyId} {ret : TyId}
    (linkage : Linkage) (hparams : ∀ t ∈ params, m.HasTy t) (hret : m.HasTy ret) :
    SoundAfter (declareFunction symbol params ret linkage) m := by
  unfold SoundAfter Ends Module.declareFunction
  cases m.lookupFunction? symbol with
  | some func => exact h
  | none =>
    obtain ⟨hstill, -, hvalues⟩ := newParams_spec ⟨m.functions.size⟩ 0 params m
    refine (h.newParams ⟨m.functions.size⟩ 0 hparams).pushFunction ⟨?_, ?_, ?_⟩
    · have hknown := hvalues.flip.imp (S := fun v _ => HasValue _ v ∧ True)
        fun v _ ⟨i, hvalue⟩ => ⟨(Array.getElem?_eq_some_iff.1 hvalue).1, trivial⟩
      exact ((List.forall₂_and_left _ _).1 hknown).1
    · exact hstill.toExtends.hasTy hret
    · simp

/-- Appending a block to a function of the module. -/
theorem Sound.appendBlock (h : m.Sound) {func : FuncId} (label : String)
    (hfunc : m.HasFunction func) : (appendBlock func label m).2.Sound := by
  have hm := appendBlock_extends m func label
  refine h.of_entries hm (fun t ht => .inl ht) (fun v hv => .inl hv) (fun f hf => ?_)
    fun b hb => ?_
  · have hold : m.HasFunction f := by simpa [HasFunction, Module.appendBlock] using hf
    by_cases hne : f = func
    · subst hne
      have hf := (h.functions f hold).mono hm
      rw [appendBlock_function_self m f label hold]
      refine .inr ⟨hf.params, hf.ret, fun b hb => ?_⟩
      rcases Array.mem_push.1 hb with hb | rfl
      · exact hf.blocks b hb
      · simp [HasBlock, appendBlock_size]
    · exact .inl ⟨hold, appendBlock_function_of_ne m func label hne⟩
  · by_cases hlt : b.index < m.blocks.size
    · exact .inl ⟨hlt, appendBlock_block_of_lt m func label hlt⟩
    · have heq : b = ⟨m.blocks.size⟩ := congrArg BlockId.mk
        (Nat.le_antisymm (Nat.lt_succ_iff.1 (by simpa [HasBlock, appendBlock_size] using hb))
          (Nat.le_of_not_lt hlt))
      rw [heq, appendBlock_block_self]
      exact .inr ⟨hm.hasFunction hfunc, by simp, by simp⟩

/-- Closing blocks as unreachable. -/
theorem Sound.closeBlocks (h : m.Sound) (ids : List BlockId) :
    (ids.foldl (fun m b => { m with blocks := m.blocks.modify b.index closeBlock }) m).Sound := by
  induction ids generalizing m with
  | nil => exact h
  | cons b ids ih => exact ih (h.modify (closeBlock_extends _) fun hb => (h.blocks b hb).close)

/-- Finishing a function. -/
theorem Sound.finishFunction (h : m.Sound) (func : FuncId) : (finishFunction func m).2.Sound := by
  rw [Module.finishFunction, ← Array.foldl_toList]
  exact h.closeBlocks _

/-! ## Constants -/

/-- A pointer to a constant text. -/
theorem Sound.globalText (h : m.Sound) (text : String) : (globalText text m).2.Sound := by
  have hbyte := h.internType (.int 8) rfl (by simp [Ty.parts])
  have hpointer := hbyte.sound.internType (.pointer (Module.internType (.int 8) m).1) rfl
    (by simpa [Ty.parts] using hbyte.hasTy)
  exact hpointer.sound.newValue hpointer.hasTy (.text text)

/-- An integer constant that a literal denotes. -/
theorem Sound.constIntOfText (h : m.Sound) {ty : TyId} (hty : m.HasTy ty) (signed : Bool)
    (text : String) : SoundAfter (constIntOfText ty signed text) m := by
  unfold SoundAfter Ends Module.constIntOfText
  cases m.intWidth? ty with
  | none => exact h
  | some bits =>
    dsimp only
    cases parseIntLiteral text bits signed with
    | error e => exact h
    | ok raw => exact h.newValue hty (.constInt raw)

/-! ## Instructions -/

/-- A stack slot for a type of the module. -/
theorem Sound.alloca (h : m.Sound) {ty : TyId} (hty : m.HasTy ty) : SoundAfter (alloca b ty) m := by
  refine h.require (expectOpen_ends b m) fun _ hopen => ?_
  refine h.enter (.pointer ty) rfl (by simpa [Ty.parts] using hty) fun _ m₁ hpointer => ?_
  refine hpointer.sound.define hpointer.hasTy (by rw [hpointer.still.isTerminated, hopen]) ?_
  exact fun dst m' hm hdst => hm.toExtends.alloca_typed hdst
    (hpointer.still.toExtends.hasTy hty) hpointer.hasTy hpointer.type

/-- Reading a pointer of the module. -/
theorem Sound.load (h : m.Sound) {pointer : ValueId} (hpointer : m.HasValue pointer) :
    SoundAfter (load b pointer) m := by
  have hty := h.values pointer hpointer
  refine h.require (expectPointer_ends pointer m) fun pointee hpointee => ?_
  refine h.require (expectOpen_ends b m) fun _ hopen => ?_
  have hpart := h.types _ hty _ (pointee_mem_parts hpointee)
  exact h.define hpart hopen fun dst m' hm hdst hdstTy =>
    hm.toExtends.load_typed hdst hpointer hty (hdstTy ▸ hpointee)

/-- Writing a value of the module. -/
theorem Sound.store (h : m.Sound) {value pointer : ValueId} (hvalue : m.HasValue value)
    (hpointer : m.HasValue pointer) : SoundAfter (store b value pointer) m := by
  refine h.require (expectPointer_ends pointer m) fun pointee hpointee => ?_
  refine Ends.next rfl ?_
  refine h.require (expectType_ends _ _ m) fun _ hty => ?_
  refine h.require (expectOpen_ends b m) fun _ hopen => ?_
  exact h.pushInstr hopen (Instr.store_typed hvalue hpointer (hty ▸ hpointee))

/-- Values that have the types of others, one by one. -/
theorem map_valueType_of_zip {vs ws : List ValueId} (hlength : vs.length = ws.length)
    (hzip : ∀ p ∈ vs.zip ws, m.valueType p.1 = m.valueType p.2) :
    ws.map m.valueType = vs.map m.valueType := by
  have hall : List.Forall₂ (fun v w => m.valueType v = m.valueType w) vs ws :=
    List.forall₂_iff_zip.2 ⟨hlength, fun hmem => hzip _ hmem⟩
  rw [← List.forall₂_eq_eq_eq, List.forall₂_map_left_iff, List.forall₂_map_right_iff]
  exact (hall.imp fun _ _ h => h.symm).flip

/-- Calling a function of the module with values of the module. -/
theorem Sound.call (h : m.Sound) {callee : FuncId} {arguments : List ValueId}
    (hcallee : m.HasFunction callee) (harguments : ∀ v ∈ arguments, m.HasValue v) :
    SoundAfter (call b callee arguments) m := by
  unfold SoundAfter Ends
  by_cases hlength : (m.function callee).params.length = arguments.length
  · rw [call_of_length hlength]
    refine h.require (expectTypes_ends _ _ m) fun _ htypes => ?_
    refine h.require (expectOpen_ends b m) fun _ hopen => ?_
    have hmap := map_valueType_of_zip hlength htypes
    have hcalleeSound := h.functions callee hcallee
    by_cases hvoid : m.type (m.function callee).ret = .void
    · rw [if_pos hvoid]
      refine h.pushInstr hopen (Instr.call_typed (.refl m) hcallee hcalleeSound harguments hmap
        nofun ?_)
      rw [returns?, if_pos hvoid, Option.map_none]
    · rw [if_neg hvoid]
      refine Ends.andThen (h.define hcalleeSound.ret hopen ?_) (fun _ he => he) fun _ _ hm => hm
      intro dst m' hm hdst hdstTy
      refine Instr.call_typed hm hcallee hcalleeSound harguments hmap ?_ ?_
      · rintro _ ⟨⟩
        exact hdst
      · rw [returns?, if_neg hvoid, Option.map_some, hdstTy]
  · rw [call_of_length_ne hlength]
    exact h

/-- Taking a field of an aggregate of the module. -/
theorem Sound.extractValue (h : m.Sound) {aggregate : ValueId} (index : Nat)
    (haggregate : m.HasValue aggregate) : SoundAfter (extractValue b aggregate index) m := by
  have hty := h.values aggregate haggregate
  refine Ends.next rfl (h.require (expectField_ends _ _ m) fun field hfieldType => ?_)
  have hfield := field?_of_fieldType hfieldType
  refine h.require (expectOpen_ends b m) fun _ hopen => ?_
  exact h.define (h.types _ hty _ (field_mem_parts hfield)) hopen fun dst m' hm hdst hdstTy =>
    hm.toExtends.extractValue_typed hdst haggregate hty (hdstTy ▸ hfield)

/-- Replacing a field of an aggregate of the module. -/
theorem Sound.insertValue (h : m.Sound) {aggregate value : ValueId} (index : Nat)
    (haggregate : m.HasValue aggregate) (hvalue : m.HasValue value) :
    SoundAfter (insertValue b aggregate value index) m := by
  have hty := h.values aggregate haggregate
  refine Ends.next rfl (h.require (expectField_ends _ _ m) fun field hfieldType => ?_)
  have hfield := field?_of_fieldType hfieldType
  refine h.require (expectType_ends _ _ m) fun _ hfieldTy => ?_
  refine h.require (expectOpen_ends b m) fun _ hopen => ?_
  exact h.define hty hopen fun dst m' hm hdst hdstTy =>
    hm.toExtends.insertValue_typed hdst haggregate hvalue hty (hfieldTy ▸ hfield) hdstTy

/-- Comparing integers of the module. -/
theorem Sound.icmp (h : m.Sound) (predicate : IntPredicate) {lhs rhs : ValueId}
    (hlhs : m.HasValue lhs) (hrhs : m.HasValue rhs) : SoundAfter (icmp b predicate lhs rhs) m := by
  unfold SoundAfter Ends
  cases hint : (m.intWidth? (m.valueType lhs)).isNone with
  | true =>
    rw [icmp_of_none hint]
    exact h
  | false =>
    rw [icmp_of_int hint]
    refine h.require (expectType_ends _ _ m) fun _ htypes => ?_
    refine h.require (expectOpen_ends b m) fun _ hopen => ?_
    refine h.enter (.int 1) rfl (by simp [Ty.parts]) fun bit m₁ hbit => ?_
    refine hbit.sound.define hbit.hasTy (by rw [hbit.still.isTerminated, hopen]) ?_
    intro dst m' hm hdst hdstTy
    refine (hbit.still.trans hm).toExtends.icmp_typed hdst hlhs hrhs (h.values lhs hlhs)
      (by simpa [Option.isSome_iff_ne_none] using hint) htypes.symm ?_
    rw [hdstTy, hm.toExtends.type hbit.hasTy, hbit.type]

/-- Values that have the type of the first one, one by one. -/
theorem valueType_of_incoming {first : ValueId} {origin : BlockId}
    {others : List (ValueId × BlockId)}
    (hzip : ∀ p ∈ (others.map fun _ => first).zip (others.map (·.1)),
      m.valueType p.1 = m.valueType p.2) {p : ValueId × BlockId}
    (hp : p ∈ (first, origin) :: others) : m.valueType p.1 = m.valueType first := by
  rcases List.mem_cons.1 hp with rfl | hp
  · rfl
  · refine (hzip (first, p.1) ?_).symm
    rw [List.zip_map']
    exact List.mem_map.2 ⟨p, hp, rfl⟩

/-- Merging values of the module. -/
theorem Sound.phi (h : m.Sound) {incoming : List (ValueId × BlockId)}
    (hincoming : ∀ p ∈ incoming, m.HasValue p.1 ∧ m.HasBlock p.2) :
    SoundAfter (phi b incoming) m := by
  match incoming with
  | [] => exact .throw h
  | (first, origin) :: others =>
    have hfirst := (hincoming (first, origin) (by simp)).1
    refine h.require (expectTypes_ends _ _ m) fun _ htypes => ?_
    refine h.require (expectOpen_ends b m) fun _ hopen => ?_
    refine Ends.next rfl (h.define (h.values first hfirst) hopen ?_)
    intro dst m' hm hdst hdstTy
    refine hm.toExtends.phi_typed hdst hincoming fun p hp => ?_
    rw [hdstTy]
    exact valueType_of_incoming htypes hp

/-! ## Terminators -/

/-- Closing a block by a terminator that is well typed in it. -/
theorem Sound.terminate (h : m.Sound) {t : Terminator} (hknown : t.Known m)
    (htyped : t.Typed m (m.block b).func) : SoundAfter (terminate b t) m := by
  unfold SoundAfter Ends Module.terminate
  cases hopen : m.isTerminated b with
  | true => exact h
  | false =>
    exact h.modify (.close (terminator_of_open hopen) t) fun hb =>
      (h.blocks b hb).endBy ⟨hknown, htyped⟩

/-- Returning from a block of the module, with a value of the module or without. -/
theorem Sound.ret (h : m.Sound) {value : Option ValueId} (hb : m.HasBlock b)
    (hvalue : ∀ v ∈ value, m.HasValue v) : SoundAfter (ret b value) m := by
  have hfunc := (h.functions _ (h.blocks b hb).func).ret
  refine Ends.next rfl ?_
  cases value with
  | some v =>
    refine h.require (expectType_ends _ _ m) fun _ hty => ?_
    refine h.terminate ⟨?_, by simp [Terminator.successors]⟩ hty.symm
    simpa [Terminator.uses] using hvalue
  | none =>
    refine h.enter .void rfl (by simp [Ty.parts]) fun void m₁ hvoid => ?_
    refine hvoid.sound.require (expectType_ends _ _ m₁) fun _ hty => ?_
    refine hvoid.sound.terminate ⟨by simp [Terminator.uses], by simp [Terminator.successors]⟩ ?_
    rw [Terminator.Typed, hvoid.still.block, hvoid.still.function, hty, hvoid.type]

/-- Going to one of two blocks of the module by a value of the module. -/
theorem Sound.condBr (h : m.Sound) {condition : ValueId} {onTrue onFalse : BlockId}
    (hcondition : m.HasValue condition) (honTrue : m.HasBlock onTrue)
    (honFalse : m.HasBlock onFalse) : SoundAfter (condBr b condition onTrue onFalse) m := by
  refine h.enter (.int 1) rfl (by simp [Ty.parts]) fun bit m₁ hbit => ?_
  have hm := hbit.still.toExtends
  refine Ends.next rfl (hbit.sound.require (expectType_ends _ _ m₁) fun _ hty => ?_)
  refine hbit.sound.terminate ⟨?_, ?_⟩ ?_
  · simpa [Terminator.uses] using hm.hasValue hcondition
  · simpa [Terminator.successors] using ⟨hm.hasBlock honTrue, hm.hasBlock honFalse⟩
  · rw [Terminator.Typed, ← hty, hbit.type]

end Module

/-! ## Sequences of operations -/

/-- An operation on a module with its arguments. -/
inductive Operation where
  | voidType
  | intType (bits : Nat)
  | floatType (bits : Nat)
  | pointerTo (pointee : TyId)
  | literalStruct (fields : List TyId)
  | namedStruct (name : String) (fields : List TyId)
  | constInt (ty : TyId) (v : Int)
  | constIntOfText (ty : TyId) (signed : Bool) (text : String)
  | constFloat (ty : TyId) (value : Number.Binary64)
  | undefined (ty : TyId)
  | globalText (text : String)
  | declareFunction (symbol : String) (params : List TyId) (returned : TyId) (linkage : Linkage)
  | appendBlock (func : FuncId) (label : String)
  | finishFunction (func : FuncId)
  | alloca (b : BlockId) (ty : TyId)
  | load (b : BlockId) (pointer : ValueId)
  | store (b : BlockId) (value pointer : ValueId)
  | call (b : BlockId) (callee : FuncId) (arguments : List ValueId)
  | extractValue (b : BlockId) (aggregate : ValueId) (index : Nat)
  | insertValue (b : BlockId) (aggregate value : ValueId) (index : Nat)
  | icmp (b : BlockId) (predicate : IntPredicate) (lhs rhs : ValueId)
  | phi (b : BlockId) (incoming : List (ValueId × BlockId))
  | ret (b : BlockId) (value : Option ValueId)
  | br (b target : BlockId)
  | condBr (b : BlockId) (condition : ValueId) (onTrue onFalse : BlockId)
  | unreachable (b : BlockId)

namespace Operation

/-- The module after an operation, accepted or refused. -/
def run : Operation → Module → Module
  | voidType, m => (Module.voidType m).2
  | intType bits, m => (Module.intType bits m).2
  | floatType bits, m => (Module.floatType bits m).2
  | pointerTo pointee, m => (Module.pointerTo pointee m).2
  | literalStruct fields, m => (Module.literalStruct fields m).2
  | namedStruct name fields, m => final (Module.namedStruct name fields) m
  | constInt ty v, m => (Module.constInt ty v m).2
  | constIntOfText ty signed text, m => final (Module.constIntOfText ty signed text) m
  | constFloat ty value, m => (Module.constFloat ty value m).2
  | undefined ty, m => (Module.undefined ty m).2
  | globalText text, m => (Module.globalText text m).2
  | declareFunction symbol params returned linkage, m =>
    final (Module.declareFunction symbol params returned linkage) m
  | appendBlock func label, m => (Module.appendBlock func label m).2
  | finishFunction func, m => (Module.finishFunction func m).2
  | alloca b ty, m => final (Module.alloca b ty) m
  | load b pointer, m => final (Module.load b pointer) m
  | store b value pointer, m => final (Module.store b value pointer) m
  | call b callee arguments, m => final (Module.call b callee arguments) m
  | extractValue b aggregate index, m => final (Module.extractValue b aggregate index) m
  | insertValue b aggregate value index, m => final (Module.insertValue b aggregate value index) m
  | icmp b predicate lhs rhs, m => final (Module.icmp b predicate lhs rhs) m
  | phi b incoming, m => final (Module.phi b incoming) m
  | ret b value, m => final (Module.ret b value) m
  | br b target, m => final (Module.br b target) m
  | condBr b condition onTrue onFalse, m => final (Module.condBr b condition onTrue onFalse) m
  | unreachable b, m => final (Module.unreachable b) m

/-- The ids among the arguments of an operation are those of the module. -/
def Fits (m : Module) : Operation → Prop
  | voidType | intType _ | floatType _ | globalText _ => True
  | pointerTo t | constInt t _ | constIntOfText t _ _ | constFloat t _ | undefined t => m.HasTy t
  | literalStruct fields | namedStruct _ fields => ∀ t ∈ fields, m.HasTy t
  | declareFunction _ params returned _ => (∀ t ∈ params, m.HasTy t) ∧ m.HasTy returned
  | appendBlock func _ | finishFunction func => m.HasFunction func
  | alloca b ty => m.HasBlock b ∧ m.HasTy ty
  | load b pointer => m.HasBlock b ∧ m.HasValue pointer
  | store b value pointer => m.HasBlock b ∧ m.HasValue value ∧ m.HasValue pointer
  | call b callee arguments =>
    m.HasBlock b ∧ m.HasFunction callee ∧ ∀ v ∈ arguments, m.HasValue v
  | extractValue b aggregate _ => m.HasBlock b ∧ m.HasValue aggregate
  | insertValue b aggregate value _ => m.HasBlock b ∧ m.HasValue aggregate ∧ m.HasValue value
  | icmp b _ lhs rhs => m.HasBlock b ∧ m.HasValue lhs ∧ m.HasValue rhs
  | phi b incoming => m.HasBlock b ∧ ∀ p ∈ incoming, m.HasValue p.1 ∧ m.HasBlock p.2
  | ret b value => m.HasBlock b ∧ ∀ v ∈ value, m.HasValue v
  | br b target => m.HasBlock b ∧ m.HasBlock target
  | condBr b condition onTrue onFalse =>
    m.HasBlock b ∧ m.HasValue condition ∧ m.HasBlock onTrue ∧ m.HasBlock onFalse
  | unreachable b => m.HasBlock b

instance (m : Module) (op : Operation) : Decidable (op.Fits m) := by
  cases op <;> unfold Fits <;> infer_instance

/-- The module after a sequence of operations. -/
def runAll (ops : List Operation) (m : Module) : Module := ops.foldl (fun m op => op.run m) m

/-- Each operation of a sequence has ids of the module that it is run in. -/
def Fit (m : Module) : List Operation → Prop
  | [] => True
  | op :: ops => op.Fits m ∧ Fit (op.run m) ops

instance decidableFit : (m : Module) → (ops : List Operation) → Decidable (Fit m ops)
  | _, [] => isTrue trivial
  | m, op :: ops =>
    have := decidableFit (op.run m) ops
    inferInstanceAs (Decidable (_ ∧ _))

/-- Every operation keeps the module sound, accepted or refused. -/
theorem run_sound {m : Module} {op : Operation} (h : m.Sound) (hfits : op.Fits m) :
    (op.run m).Sound := by
  cases op with
  | voidType => exact (h.internType .void rfl (by simp [Ty.parts])).sound
  | intType bits => exact (h.internType (.int bits) rfl (by simp [Ty.parts])).sound
  | floatType bits => exact (h.internType (.float bits) rfl (by simp [Ty.parts])).sound
  | pointerTo pointee =>
    have hpointee : m.HasTy pointee := hfits
    exact (h.internType (.pointer pointee) rfl (by simpa [Ty.parts] using hpointee)).sound
  | literalStruct fields => exact (h.internType (.struct none fields) rfl hfits).sound
  | namedStruct name fields => exact (h.namedStruct name hfits).final
  | constInt ty v => exact h.newValue hfits _
  | constIntOfText ty signed text => exact (h.constIntOfText hfits signed text).final
  | constFloat ty value => exact h.newValue hfits _
  | undefined ty => exact h.newValue hfits _
  | globalText text => exact h.globalText text
  | declareFunction symbol params returned linkage =>
    exact (h.declareFunction symbol linkage hfits.1 hfits.2).final
  | appendBlock func label => exact h.appendBlock label hfits
  | finishFunction func => exact h.finishFunction func
  | alloca b ty => exact (h.alloca hfits.2).final
  | load b pointer => exact (h.load hfits.2).final
  | store b value pointer => exact (h.store hfits.2.1 hfits.2.2).final
  | call b callee arguments => exact (h.call hfits.2.1 hfits.2.2).final
  | extractValue b aggregate index => exact (h.extractValue index hfits.2).final
  | insertValue b aggregate value index =>
    exact (h.insertValue index hfits.2.1 hfits.2.2).final
  | icmp b predicate lhs rhs => exact (h.icmp predicate hfits.2.1 hfits.2.2).final
  | phi b incoming => exact (h.phi hfits.2).final
  | ret b value => exact (h.ret hfits.1 hfits.2).final
  | br b target =>
    have hknown : (Terminator.br target).Known m :=
      ⟨by simp [Terminator.uses], by simpa [Terminator.successors] using hfits.2⟩
    exact (h.terminate hknown trivial).final
  | condBr b condition onTrue onFalse =>
    exact (h.condBr hfits.2.1 hfits.2.2.1 hfits.2.2.2).final
  | unreachable b => exact (h.terminate (Terminator.unreachable_known m) trivial).final

/-- Sequences of operations keep the module sound. -/
theorem runAll_sound {m : Module} {ops : List Operation} (h : m.Sound) (hfit : Fit m ops) :
    (runAll ops m).Sound := by
  induction ops generalizing m with
  | nil => exact h
  | cons op ops ih => exact ih (run_sound h hfit.1) hfit.2

/-- After any operations on a module that was empty, with ids of that module, every instruction and
every terminator is well typed. -/
theorem runAll_wellTyped {name : String} {ops : List Operation} (hfit : Fit (.empty name) ops) :
    (runAll ops (.empty name)).WellTyped :=
  (runAll_sound (Module.sound_empty name) hfit).wellTyped

/-- The larger of two numbers, by a comparison and two returns. Four operations in between are
refused: two take a number for a pointer, one returns what is no number, and one goes on from a
block that is closed. -/
def larger : List Operation :=
  [intType 32, declareFunction "larger" [⟨0⟩, ⟨0⟩] ⟨0⟩ .external,
    appendBlock ⟨0⟩ "entry", appendBlock ⟨0⟩ "left", appendBlock ⟨0⟩ "right",
    icmp ⟨0⟩ .sgt ⟨0⟩ ⟨1⟩, condBr ⟨0⟩ ⟨2⟩ ⟨1⟩ ⟨2⟩,
    store ⟨1⟩ ⟨0⟩ ⟨1⟩, ret ⟨1⟩ (some ⟨0⟩),
    load ⟨2⟩ ⟨1⟩, ret ⟨2⟩ (some ⟨2⟩), ret ⟨2⟩ (some ⟨1⟩), br ⟨2⟩ ⟨0⟩, finishFunction ⟨0⟩]

/-- The module of `larger` has a comparison and is well typed. -/
theorem larger_wellTyped :
    Fit (.empty "unit") larger ∧
      ((runAll larger (.empty "unit")).block ⟨0⟩).instrs = #[.icmp ⟨2⟩ .sgt ⟨0⟩ ⟨1⟩] ∧
      (runAll larger (.empty "unit")).WellTyped :=
  ⟨by decide +kernel, by decide +kernel, runAll_wellTyped (by decide +kernel)⟩

end Operation

end FormCompiler.Ir
