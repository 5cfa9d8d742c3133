import FormCompiler.Lower.Forms
import FormCompiler.Proofs.Ir.Rerun

/-!
# Operations Are Repeated

Every operation that code is emitted by does the same in the second run as in the first, with the
values and blocks that correspond. One that is refused is refused both times for the same reason.

Blocks that are known to be open are never refused as closed. This matters because that refusal, and
no other, has the id of a block in its text.
-/

namespace FormCompiler.Ir.Rerun

open FormCompiler.Ir.Module

variable {K : Rerun} (hK : K.Fits) {b : BlockId} {blocks : List BlockId} {types : List TyId}

/-! ## Requirements -/

/-- The type of a value. -/
def typeOf (v : ValueId) : Build TyId := fun m => .ok (m.valueType v) m

/-- Reading the type of a value. -/
theorem typeOf_repeats (v : ValueId) :
    K.repetition.Repeats (blocks, types) (typeOf v) (typeOf (K.value v)) id
      fun t => (blocks, t :: types) where
  ends m h := ⟨K.repetition.refl m, h.learn (h.valueTypes v)⟩
  agree _ _ _ hmm _ := ⟨hmm.valueType v, hmm⟩

/-- An open block is required. -/
theorem expectOpen_repeats (hb : b ∈ blocks) :
    K.repetition.Repeats (blocks, types) (expectOpen b) (expectOpen (K.block b)) id
      fun _ => (blocks, types) where
  ends m h := by
    obtain ⟨-, -, hopen⟩ := h.opened b hb
    unfold Ends
    rw [expectOpen_run hopen]
    exact ⟨K.repetition.refl m, h⟩
  agree m m' h hmm _ := by
    obtain ⟨howns, hhas, hopen⟩ := h.opened b hb
    rw [expectOpen_run hopen, expectOpen_run (by rw [hmm.isTerminated howns hhas, hopen])]
    exact ⟨rfl, hmm⟩

/-- A type is required. -/
theorem expectType_repeats {expected found : TyId} (hexpected : expected ∈ types)
    (hfound : found ∈ types) :
    K.repetition.Repeats (blocks, types) (expectType expected found) (expectType expected found) id
      fun _ => (blocks, types) where
  ends m h := (expectType_ends expected found m).mono
    (fun _ m' ⟨hm, _⟩ => hm ▸ ⟨K.repetition.refl m, h⟩) fun _ hm => hm ▸ K.repetition.refl m
  agree m m' h hmm hcovered := by
    by_cases heq : expected = found
    · rw [heq, expectType_run, expectType_run]
      exact ⟨rfl, hmm⟩
    · rw [expectType, expectType, if_neg heq, if_neg heq]
      have hfinal : final (expectType expected found) m = m := by
        rw [final, expectType, if_neg heq]
      have hcovered : Grown m.types K.second.types := hfinal ▸ hcovered
      rw [hmm.typeName hcovered h.parts (h.known _ hexpected),
        hmm.typeName hcovered h.parts (h.known _ hfound)]
      exact rfl

/-- A pointer is required. -/
theorem expectPointer_repeats (pointer : ValueId) :
    K.repetition.Repeats (blocks, types) (expectPointer pointer) (expectPointer (K.value pointer))
      id fun t => (blocks, t :: types) where
  ends m h := (expectPointer_ends pointer m).mono
    (fun pointee m' ⟨hm, hpointee⟩ => hm ▸ ⟨K.repetition.refl m,
      h.learn (h.parts _ (h.valueTypes pointer) _ (pointee_mem_parts hpointee))⟩)
    fun _ hm => hm ▸ K.repetition.refl m
  agree m m' h hmm hcovered := by
    have hty := h.valueTypes pointer
    have hfinal : final (expectPointer pointer) m = m := by
      unfold final expectPointer
      cases m.pointee? (m.valueType pointer) <;> rfl
    have hcovered : Grown m.types K.second.types := hfinal ▸ hcovered
    unfold expectPointer
    rw [hmm.valueType, hmm.pointee? hcovered hty, hmm.typeName hcovered h.parts hty]
    cases m.pointee? (m.valueType pointer) with
    | some pointee => exact ⟨rfl, hmm⟩
    | none => exact rfl

/-- A field is required. -/
theorem expectField_repeats {aggregate : TyId} (index : Nat) (haggregate : aggregate ∈ types) :
    K.repetition.Repeats (blocks, types) (expectField aggregate index) (expectField aggregate index)
      id fun t => (blocks, t :: types) where
  ends m h := (expectField_ends aggregate index m).mono
    (fun field m' ⟨hm, hfield⟩ => hm ▸ ⟨K.repetition.refl m, h.learn (h.parts _
      (h.known _ haggregate) _ (field_mem_parts (field?_of_fieldType hfield)))⟩)
    fun _ hm => hm ▸ K.repetition.refl m
  agree m m' h hmm hcovered := by
    have hty := h.known _ haggregate
    have hfinal : final (expectField aggregate index) m = m := by
      unfold final expectField
      cases fieldType aggregate index m <;> rfl
    have hcovered : Grown m.types K.second.types := hfinal ▸ hcovered
    have hfield : fieldType aggregate index m' = fieldType aggregate index m := by
      unfold fieldType
      rw [hmm.type hcovered hty, hmm.typeName hcovered h.parts hty]
    unfold expectField
    rw [hfield]
    cases fieldType aggregate index m with
    | ok field => exact ⟨rfl, hmm⟩
    | error e => exact rfl

/-- Types of values are required, one by one. -/
theorem expectTypes_repeats (expected found : List ValueId) :
    K.repetition.Repeats (blocks, types) (expectTypes expected found)
      (expectTypes (expected.map K.value) (found.map K.value)) id fun _ => (blocks, types) := by
  have hstep : ∀ e es f fs, expectTypes (e :: es) (f :: fs) = (do
      let expected ← typeOf e
      let found ← typeOf f
      expectType expected found
      expectTypes es fs) := fun e es f fs => funext fun m => by
    rw [expectTypes_cons]
    change _ = EStateM.bind (expectType (m.valueType e) (m.valueType f)) _ m
    unfold EStateM.bind
    cases expectType (m.valueType e) (m.valueType f) m <;> rfl
  have hdone : K.repetition.Repeats (blocks, types) (pure PUnit.unit : Build PUnit)
    (pure PUnit.unit) id fun _ => (blocks, types) := .pure rfl fun _ h => h
  -- the lists are as long as their images, so both runs come to an end together
  induction expected generalizing found with
  | nil => exact hdone
  | cons e es ih =>
    cases found with
    | nil => exact hdone
    | cons f fs =>
      rw [List.map_cons, List.map_cons, hstep, hstep]
      refine (typeOf_repeats e).bind fun t => (typeOf_repeats f).bind fun t' => ?_
      refine (expectType_repeats (by simp) (by simp)).bind fun _ => ?_
      exact (ih fs).weaken (fun m h => h.weaken (List.Subset.refl _) id (by simp)) fun _ _ h => h

/-- Types that are not needed any more may be forgotten. -/
theorem forget {α β : Type} {i : List BlockId × List TyId} {x : Build α} {y : Build β} {φ : α → β}
    {types' : List TyId} (h : K.repetition.Repeats i x y φ fun _ => (blocks, types'))
    (htypes : types ⊆ types') : K.repetition.Repeats i x y φ fun _ => (blocks, types) :=
  h.weaken (fun _ h => h) fun _ _ h => h.weaken (List.Subset.refl _) id htypes

/-- A type of the module may be known from the beginning. -/
theorem knowing {α β : Type} {x : Build α} {y : Build β} {φ : α → β}
    {j : α → List BlockId × List TyId} {t : TyId} (ht : ∀ m, K.Holds blocks types m → m.HasTy t)
    (h : K.repetition.Repeats (blocks, t :: types) x y φ j) :
    K.repetition.Repeats (blocks, types) x y φ j :=
  h.weaken (fun m hm => hm.learn (ht m hm)) fun _ _ h => h

/-! ## Entries -/

/-- A step that is never refused. -/
theorem always_repeats {α : Type} {op op' : StateM Module α} {φ : α → α}
    {i : List BlockId × List TyId} {j : α → List BlockId × List TyId}
    (hends : ∀ m, K.Holds i.1 i.2 m →
      m.Extends (op m).2 ∧ K.Holds (j (op m).1).1 (j (op m).1).2 (op m).2)
    (hagree : ∀ m m', K.Holds i.1 i.2 m → K.Mirrors m m' → Grown (op m).2.types K.second.types →
      (op' m').1 = φ (op m).1 ∧ K.Mirrors (op m).2 (op' m').2) :
    K.repetition.Repeats i (always op) (always op') φ j :=
  ⟨hends, hagree⟩

/-- An unnamed type is entered, which the second run finds. -/
theorem internType_repeats {ty : Ty} (hunnamed : ty.isNamed = false)
    (hparts : ∀ part ∈ ty.parts, part ∈ types) :
    K.repetition.Repeats (blocks, types) (always (internType ty)) (always (internType ty)) id
      fun t => (blocks, t :: types) := by
  refine always_repeats (fun m h => ?_) fun m m' h hmm hcovered => ?_
  · have hstill := (internType_spec ty hunnamed m).1
    exact ⟨hstill.toExtends, h.internType hunnamed hparts⟩
  · obtain ⟨-, hfound⟩ := internType_spec ty hunnamed m
    -- the second module has the type from the beginning, so nothing is entered there
    have hentered : K.Mirrors (internType ty m).2 m' := by
      unfold internType
      split
      · exact hmm
      · exact hmm.of_types _
    rw [internType_of_find (hentered.findType? hcovered hfound)]
    exact ⟨rfl, hentered⟩

include hK

/-- A value is added. -/
theorem newValue_repeats {ty : TyId} (hty : ty ∈ types) (kind : ValueKind) :
    K.repetition.Repeats (blocks, types) (always (newValue ty kind)) (always (newValue ty kind))
      K.value fun _ => (blocks, types) :=
  always_repeats
    (fun m h => ⟨(newValue_spec ty kind m).1.toExtends, h.newValue hty kind⟩)
    fun _ _ h hmm _ => have hgrown := h.confined.extended
      ⟨value_next hgrown hmm, hmm.newValue hK hgrown ty kind⟩

/-- An instruction is added to an open block. -/
theorem pushInstr_repeats {i : Instr} (hb : b ∈ blocks) :
    K.repetition.Repeats (blocks, types) (always (pushInstr b i))
      (always (pushInstr (K.block b) (i.rename K.value K.block))) id fun _ => (blocks, types) := by
  refine always_repeats (fun m h => ?_) fun m m' h hmm _ => ⟨rfl, ?_⟩
  · have hnone := terminator_of_open (h.opened b hb).2.2
    exact ⟨modify_extends fun _ => .push hnone i,
      h.modify hb (.push hnone i) (List.Subset.refl _) h.distinct fun _ => hnone⟩
  · -- the corresponding block is open too, and its code goes on in the same way
    obtain ⟨howns, hhas, hopen⟩ := h.opened b hb
    have hnone := terminator_of_open ((hmm.isTerminated howns hhas).trans hopen)
    refine hmm.modify hK h.confined.extended howns hhas (.push hnone _) fun hcopies =>
      ⟨?_, hcopies.terminator, hcopies.made⟩
    obtain ⟨code, hcode, hcode'⟩ := hcopies.instrs
    exact ⟨code.push i, by rw [hcode, Array.push_append], by
      rw [hcode', Array.map_push, Array.push_append]⟩

/-- A value is defined in an open block. -/
theorem define_repeats {ty : TyId} {instr instr' : ValueId → Instr} (hb : b ∈ blocks)
    (hty : ty ∈ types) (hinstr : ∀ v, instr' (K.value v) = (instr v).rename K.value K.block) :
    K.repetition.Repeats (blocks, types) (always (define b ty instr))
      (always (define (K.block b) ty instr')) K.value fun _ => (blocks, types) := by
  have hsplit : ∀ (b : BlockId) (instr : ValueId → Instr), always (define b ty instr) = (do
      let v ← always (newValue ty .result)
      always (pushInstr b (instr v))
      return v) := fun _ _ => rfl
  rw [hsplit, hsplit]
  refine (newValue_repeats hK hty .result).bind fun v => ?_
  rw [hinstr]
  exact (pushInstr_repeats hK hb).bind fun _ => .pure rfl fun _ h => h

/-- An open block is closed. -/
theorem terminate_repeats {t : Terminator} :
    K.repetition.Repeats (b :: blocks, types) (terminate b t)
      (terminate (K.block b) (t.rename K.value K.block)) id fun _ => (blocks, types) where
  ends m h := by
    obtain ⟨-, -, hopen⟩ := h.opened b List.mem_cons_self
    have hextends := Block.Extends.close (terminator_of_open hopen) t
    -- the blocks are distinct, so those that are left are open still
    have hnotMem := (List.nodup_cons.1 h.distinct).1
    unfold Ends terminate
    rw [hopen, if_neg Bool.false_ne_true]
    exact ⟨modify_extends fun _ => hextends, h.modify List.mem_cons_self hextends
      (List.subset_cons_self _ _) (List.nodup_cons.1 h.distinct).2 fun hmem => absurd hmem hnotMem⟩
  agree m m' h hmm _ := by
    obtain ⟨howns, hhas, hopen⟩ := h.opened b List.mem_cons_self
    have hopen' := (hmm.isTerminated howns hhas).trans hopen
    unfold terminate
    rw [hopen, hopen', if_neg Bool.false_ne_true, if_neg Bool.false_ne_true]
    exact ⟨rfl, hmm.modify hK h.confined.extended howns hhas (.close (terminator_of_open hopen') _)
      fun hcopies => ⟨hcopies.instrs, rfl, hcopies.made⟩⟩

/-- A block is appended, which is open. -/
theorem appendBlock_repeats (func : FuncId) (label : String) :
    K.repetition.Repeats (blocks, types) (always (appendBlock func label))
      (always (appendBlock func label)) K.block fun b => (b :: blocks, types) :=
  always_repeats
    (fun m h => ⟨appendBlock_extends m func label, h.appendBlock func label⟩)
    fun _ _ h hmm _ => have hgrown := h.confined.extended
      ⟨block_next hK hgrown hmm, hmm.appendBlock hK hgrown func label⟩

/-! ## Constants -/

omit hK in
/-- Reading the width at which constants of a type are held. -/
theorem constWidth_repeats {ty : TyId} (hty : ty ∈ types) :
    K.repetition.Repeats (blocks, types) (reading (·.constWidth ty)) (reading (·.constWidth ty)) id
      fun _ => (blocks, types) :=
  .reading (fun _ h => h) fun m m' h hmm hcovered => by
    rw [Module.constWidth, Module.intWidth?, hmm.type hcovered (h.known ty hty)]
    rfl

/-- An integer constant. -/
theorem constInt_repeats {ty : TyId} (hty : ty ∈ types) (v : Int) :
    K.repetition.Repeats (blocks, types) (always (constInt ty v)) (always (constInt ty v)) K.value
      fun _ => (blocks, types) := by
  have hsplit : always (constInt ty v) = reading (·.constWidth ty) >>= fun width =>
      always (newValue ty (.constInt (Number.wrap width v))) := rfl
  rw [hsplit]
  exact (constWidth_repeats hty).bind fun _ => newValue_repeats hK hty _

/-- A pointer to a constant text. -/
theorem globalText_repeats (text : String) :
    K.repetition.Repeats (blocks, types) (always (globalText text)) (always (globalText text))
      K.value fun _ => (blocks, types) := by
  have hsplit : always (globalText text) = (do
      let byte ← always (intType 8)
      let ty ← always (pointerTo byte)
      always (newValue ty (.text text))) := rfl
  rw [hsplit]
  refine (internType_repeats rfl (by simp [Ty.parts])).bind fun byte => ?_
  refine (internType_repeats rfl (by simp [Ty.parts])).bind fun ty => ?_
  exact forget (newValue_repeats hK (by simp) _) (by simp)

omit hK in
/-- A literal that is refused leaves the module alone. -/
theorem eq_of_constIntOfText_error {ty : TyId} {signed : Bool} {text : String} {m m' : Module}
    {e : Error} (h : constIntOfText ty signed text m = .error e m') : m' = m := by
  unfold constIntOfText at h
  split at h
  · cases h
    rfl
  · split at h
    · cases h
      rfl
    · cases h

/-- The value of an integer literal. -/
theorem constIntOfText_repeats {ty : TyId} (hty : ty ∈ types) (signed : Bool) (text : String) :
    K.repetition.Repeats (blocks, types) (constIntOfText ty signed text)
      (constIntOfText ty signed text) K.value fun _ => (blocks, types) := by
  have hvalue : ∀ kind, K.repetition.Repeats (blocks, types) (always (newValue ty kind))
      (always (newValue ty kind)) K.value fun _ => (blocks, types) := newValue_repeats hK hty
  have hends : ∀ m, K.Holds blocks types m → Ends (constIntOfText ty signed text) m
      (fun _ m' => m.Extends m' ∧ K.Holds blocks types m') m.Extends := fun m h => by
    unfold Ends constIntOfText
    cases m.intWidth? ty with
    | none => exact .refl m
    | some bits =>
      dsimp only
      cases parseIntLiteral text bits signed with
      | error e => exact .refl m
      | ok raw => exact (hvalue (.constInt raw)).ends m h
  refine ⟨hends, fun m m' h hmm hcovered => ?_⟩
  -- the width and the name are read before a value is added, and types are the same both times
  have hgrows := ((hends m h).mono (fun _ _ h => h.1) fun _ h => h).final
  have hknown := h.known ty hty
  have hold := K.repetition.covered hgrows hcovered
  have hwidth : m'.intWidth? ty = m.intWidth? ty := by
    rw [Module.intWidth?, hmm.type hold hknown, Module.intWidth?]
  unfold constIntOfText
  rw [hwidth, hmm.typeName hold h.parts hknown]
  cases m.intWidth? ty with
  | none => exact rfl
  | some bits =>
    dsimp only
    cases parseIntLiteral text bits signed with
    | error e => exact rfl
    | ok raw => exact (hvalue (.constInt raw)).agree m m' h hmm hold

/-! ## Instructions -/

/-- A stack slot. -/
theorem alloca_repeats {ty : TyId} (hb : b ∈ blocks) (hty : ty ∈ types) :
    K.repetition.Repeats (blocks, types) (alloca b ty) (alloca (K.block b) ty) K.value
      fun _ => (blocks, types) := by
  refine (expectOpen_repeats hb).bind fun _ => ?_
  refine (internType_repeats rfl (by simpa [Ty.parts] using hty)).bind fun pointer => ?_
  exact forget (define_repeats hK hb (by simp) fun _ => rfl) (by simp)

/-- Reading a pointer. -/
theorem load_repeats (hb : b ∈ blocks) (pointer : ValueId) :
    K.repetition.Repeats (blocks, types) (load b pointer) (load (K.block b) (K.value pointer))
      K.value fun _ => (blocks, types) := by
  refine (expectPointer_repeats pointer).bind fun pointee => ?_
  refine (expectOpen_repeats hb).bind fun _ => ?_
  exact forget (define_repeats hK hb (by simp) fun _ => rfl) (by simp)

/-- Writing a value. -/
theorem store_repeats (hb : b ∈ blocks) (value pointer : ValueId) :
    K.repetition.Repeats (blocks, types) (store b value pointer)
      (store (K.block b) (K.value value) (K.value pointer)) id fun _ => (blocks, types) := by
  have hsplit : ∀ b value pointer, store b value pointer = (do
      let pointee ← expectPointer pointer
      let found ← typeOf value
      expectType pointee found
      expectOpen b
      always (pushInstr b (.store value pointer))) := fun _ _ _ => rfl
  rw [hsplit, hsplit]
  refine (expectPointer_repeats pointer).bind fun pointee => ?_
  refine (typeOf_repeats value).bind fun ty => ?_
  refine (expectType_repeats (by simp) (by simp)).bind fun _ => ?_
  refine (expectOpen_repeats hb).bind fun _ => ?_
  exact forget (pushInstr_repeats hK hb) (by simp)

/-- Taking a field. -/
theorem extractValue_repeats (hb : b ∈ blocks) (aggregate : ValueId) (index : Nat) :
    K.repetition.Repeats (blocks, types) (extractValue b aggregate index)
      (extractValue (K.block b) (K.value aggregate) index) K.value fun _ => (blocks, types) := by
  have hsplit : ∀ b aggregate, extractValue b aggregate index = (do
      let ty ← typeOf aggregate
      let field ← expectField ty index
      expectOpen b
      always (define b field fun dst => .extractValue dst aggregate index)) := fun _ _ => rfl
  rw [hsplit, hsplit]
  refine (typeOf_repeats aggregate).bind fun ty => ?_
  refine (expectField_repeats index (by simp)).bind fun field => ?_
  refine (expectOpen_repeats hb).bind fun _ => ?_
  exact forget (define_repeats hK hb (by simp) fun _ => rfl) (by simp)

/-- Merging values. -/
theorem phi_repeats (hb : b ∈ blocks) (incoming : List (ValueId × BlockId)) :
    K.repetition.Repeats (blocks, types) (phi b incoming)
      (phi (K.block b) (incoming.map fun (v, b) => (K.value v, K.block b))) K.value
      fun _ => (blocks, types) := by
  cases incoming with
  | nil => exact .throw fun _ _ _ _ => rfl
  | cons head others =>
    obtain ⟨first, origin⟩ := head
    have hsplit : ∀ b first origin others, phi b ((first, origin) :: others) = (do
        expectTypes (others.map fun _ => first) (others.map (·.1))
        expectOpen b
        let ty ← typeOf first
        always (define b ty fun dst => .phi dst ((first, origin) :: others))) :=
      fun _ _ _ _ => rfl
    rw [List.map_cons, hsplit, hsplit]
    have htypes : K.repetition.Repeats (blocks, types) _ _ id fun _ => (blocks, types) :=
      expectTypes_repeats (others.map fun _ => first) (others.map (·.1))
    simp only [List.map_map, Function.comp_def] at htypes ⊢
    refine htypes.bind fun _ => (expectOpen_repeats hb).bind fun _ => ?_
    refine (typeOf_repeats first).bind fun ty => ?_
    exact forget (define_repeats hK hb (by simp) fun _ => rfl) (by simp)

/-- A call of a function whose signature is known. -/
def callOf (f : Function) (void : Bool) (b : BlockId) (callee : FuncId) (arguments : List ValueId) :
    Build (Option ValueId) :=
  if f.params.length = arguments.length then do
    expectTypes f.params arguments
    expectOpen b
    if void then
      always (pushInstr b (.call none callee arguments))
      return none
    else
      let dst ← always (define b f.ret fun dst => .call (some dst) callee arguments)
      return some dst
  else throw (.argumentCount f.symbol f.params.length arguments.length)

omit hK in
/-- A call depends on the signature of the function only. -/
theorem call_run {m : Module} {f : Function} {void : Bool} {callee : FuncId}
    (hsymbol : (m.function callee).symbol = f.symbol)
    (hparams : (m.function callee).params = f.params) (hret : (m.function callee).ret = f.ret)
    (hvoid : void = true ↔ m.type f.ret = .void) (arguments : List ValueId) :
    call b callee arguments m = callOf f void b callee arguments m := by
  unfold callOf
  by_cases hlength : f.params.length = arguments.length
  · rw [if_pos hlength, call_of_length (hparams ▸ hlength), hparams, hret]
    simp only [hvoid]
  · rw [if_neg hlength, call_of_length_ne (hparams ▸ hlength), hsymbol, hparams]
    rfl

/-- Calling a function that was there before. -/
theorem call_repeats (hb : b ∈ blocks) {callee : FuncId} (hcallee : K.first.HasFunction callee)
    (arguments : List ValueId) :
    K.repetition.Repeats (blocks, types) (call b callee arguments)
      (call (K.block b) callee (arguments.map K.value)) (Option.map K.value)
      fun _ => (blocks, types) := by
  have hfunction := hK.sound.functions callee hcallee
  have hparams := map_value hfunction.params
  -- whether the function returns `void` is told from the module that the first run began with
  have hcall : ∀ m b arguments, K.first.Extends m → call b callee arguments m =
      callOf (K.first.function callee)
        (decide (K.first.type (K.first.function callee).ret = .void)) b callee arguments m :=
    fun m b arguments hm => by
      have hf := hm.function callee hcallee
      refine call_run hf.symbol hf.params hf.ret ?_ arguments
      rw [decide_eq_true_iff, hm.type hfunction.ret]
  have hfirst : ∀ m, K.Holds blocks types m → call b callee arguments m = _ := fun m h =>
    hcall m b arguments h.confined.extended
  have hsecond : ∀ m m', K.Holds blocks types m → K.Mirrors m m' →
      call (K.block b) callee (arguments.map K.value) m' = _ := fun _ m' _ hmm =>
    hcall m' (K.block b) _ (hK.grown.trans hmm.confined.extended)
  refine .congr hfirst hsecond ?_
  unfold callOf
  rw [List.length_map]
  split
  · have htypes : K.repetition.Repeats (blocks, types) _ _ id fun _ => (blocks, types) :=
      expectTypes_repeats (K.first.function callee).params arguments
    rw [hparams] at htypes
    refine htypes.bind fun _ => (expectOpen_repeats hb).bind fun _ => ?_
    split
    · exact (pushInstr_repeats hK hb).bind fun _ => .pure rfl fun _ h => h
    · refine knowing (t := (K.first.function callee).ret)
        (fun m h => h.confined.extended.hasTy hfunction.ret) ?_
      refine (define_repeats hK hb List.mem_cons_self fun _ => rfl).bind fun v => ?_
      exact forget (.pure rfl fun _ h => h) (List.subset_cons_self _ _)
  · exact .throw fun _ _ _ _ => rfl

/-! ## Terminators -/

/-- Going to a block. -/
theorem br_repeats (target : BlockId) :
    K.repetition.Repeats (b :: blocks, types) (br b target) (br (K.block b) (K.block target)) id
      fun _ => (blocks, types) := terminate_repeats hK

/-- Going to one of two blocks. -/
theorem condBr_repeats (condition : ValueId) (onTrue onFalse : BlockId) :
    K.repetition.Repeats (b :: blocks, types) (condBr b condition onTrue onFalse)
      (condBr (K.block b) (K.value condition) (K.block onTrue) (K.block onFalse)) id
      fun _ => (blocks, types) := by
  have hsplit : ∀ b condition onTrue onFalse, condBr b condition onTrue onFalse = (do
      let bit ← always (intType 1)
      let found ← typeOf condition
      expectType bit found
      terminate b (.condBr condition onTrue onFalse)) := fun _ _ _ _ => rfl
  rw [hsplit, hsplit]
  refine (internType_repeats rfl (by simp [Ty.parts])).bind fun bit => ?_
  refine (typeOf_repeats condition).bind fun found => ?_
  refine (expectType_repeats (by simp) (by simp)).bind fun _ => ?_
  exact forget (terminate_repeats hK) (by simp)

end FormCompiler.Ir.Rerun
