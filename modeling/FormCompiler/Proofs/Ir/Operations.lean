import FormCompiler.Proofs.Ir.Growth
import FormCompiler.Proofs.Step
import Mathlib.Data.List.Forall2

/-!
# What Operations on Modules Do

One specification for each operation, for both outcomes. An operation that is refused leaves the
module still; one that is accepted emits its instruction or closes its block, and a value it returns
has the type that the operands give it.
-/

namespace FormCompiler.Ir.Module

variable {m : Module} {b : BlockId}

/-! ## Types and values -/

/-- A type that is entered is found afterwards. -/
theorem internType_spec (ty : Ty) (hty : ty.isNamed = false) (m : Module) :
    Still m (internType ty m).2 ∧
      (internType ty m).2.findType? ty = some (internType ty m).1 := by
  unfold internType
  cases hfind : m.findType? ty with
  | some t => exact ⟨.refl m, hfind⟩
  | none =>
    refine ⟨⟨⟨#[ty], by simp, by simpa using hty⟩, .refl _, rfl, rfl⟩, ?_⟩
    rw [findType?, Option.map_eq_none_iff] at hfind
    simp [findType?, Array.findIdx?_push, hfind]

/-- A type that is found is not entered again. -/
theorem internType_of_find {ty : Ty} {t : TyId} (h : m.findType? ty = some t) :
    internType ty m = (t, m) := by
  unfold internType
  rw [h]

/-- An id under which a type is found stands for that type. -/
theorem type_of_find {ty : Ty} {t : TyId} (h : m.findType? ty = some t) :
    m.types[t.index]? = some ty := by
  rw [findType?, Option.map_eq_some_iff] at h
  obtain ⟨i, hi, rfl⟩ := h
  obtain ⟨hlt, hp, -⟩ := Array.findIdx?_eq_some_iff_getElem.1 hi
  rw [Array.getElem?_eq_getElem hlt, eq_of_beq hp]

/-- The structs of a name. -/
theorem isStructNamed_iff {name : String} {ty : Ty} :
    isStructNamed name ty = true ↔ ∃ fields, ty = .struct (some name) fields := by
  constructor
  · intro h
    unfold isStructNamed at h
    split at h
    next other fields => exact ⟨fields, by rw [eq_of_beq h]⟩
    next => cases h
  · rintro ⟨fields, rfl⟩
    exact beq_self_eq_true name

/-- What is found under a name is a struct of the name. -/
theorem type_of_lookupStruct? {name : String} {t : TyId} (h : m.lookupStruct? name = some t) :
    ∃ fields, m.types[t.index]? = some (.struct (some name) fields) := by
  rw [lookupStruct?, Option.map_eq_some_iff] at h
  obtain ⟨i, hi, rfl⟩ := h
  obtain ⟨hlt, hnamed, -⟩ := Array.findIdx?_eq_some_iff_getElem.1 hi
  obtain ⟨fields, hfields⟩ := isStructNamed_iff.1 hnamed
  exact ⟨fields, by rw [Array.getElem?_eq_getElem hlt, hfields]⟩

/-- The type of an id that is in the table. -/
theorem type_of_getElem? {ty : Ty} {t : TyId} (h : m.types[t.index]? = some ty) :
    m.type t = ty := by
  rw [Module.type, Array.getD_eq_getD_getElem?, h, Option.getD_some]

/-- A new value has its id from the number of values, its type and its kind. -/
theorem newValue_spec (ty : TyId) (kind : ValueKind) (m : Module) :
    Still m (newValue ty kind m).2 ∧ (newValue ty kind m).1 = ⟨m.values.size⟩ ∧
      (newValue ty kind m).2.values[m.values.size]? = some ⟨ty, kind⟩ :=
  ⟨⟨.of_eq rfl, .push _ _, rfl, rfl⟩, rfl, by simp [newValue]⟩

/-- The new value that an operation returns, with what is known of it. -/
structure Fresh (ty : TyId) (kind : ValueKind) (v : ValueId) (m m' : Module) : Prop where
  still : Still m m'
  size_le : m.values.size ≤ v.index
  value : m'.values[v.index]? = some ⟨ty, kind⟩

/-- A new value is fresh. -/
theorem newValue_fresh (ty : TyId) (kind : ValueKind) (m : Module) :
    Fresh ty kind (newValue ty kind m).1 m (newValue ty kind m).2 :=
  ⟨(newValue_spec ty kind m).1, Nat.le_refl _, (newValue_spec ty kind m).2.2⟩

/-- The type of a value that is in the table. -/
theorem valueType_of_getElem? {v : ValueId} {value : Value}
    (h : m.values[v.index]? = some value) : m.valueType v = value.ty := by
  simp [Module.valueType, Array.getD_eq_getD_getElem?, h]

/-- The kind of a value that is in the table. -/
theorem valueKind_of_getElem? {v : ValueId} {value : Value}
    (h : m.values[v.index]? = some value) : m.valueKind v = value.kind := by
  simp [Module.valueKind, Array.getD_eq_getD_getElem?, h]

/-- The text of a constant text, as a pointer to its bytes. -/
theorem globalText_spec (text : String) (m : Module) :
    ∃ byte, Fresh ((globalText text m).2.valueType (globalText text m).1) (.text text)
        (globalText text m).1 m (globalText text m).2 ∧
      (globalText text m).2.findType? (.int 8) = some byte ∧
      (globalText text m).2.findType? (.pointer byte) =
        some ((globalText text m).2.valueType (globalText text m).1) := by
  obtain ⟨hbyte, hfound⟩ := internType_spec (.int 8) rfl m
  generalize hm₁ : internType (.int 8) m = byte at hbyte hfound
  obtain ⟨byte, m₁⟩ := byte
  obtain ⟨hpointer, hfound'⟩ := internType_spec (.pointer byte) rfl m₁
  generalize hm₂ : internType (.pointer byte) m₁ = pointer at hpointer hfound'
  obtain ⟨pointer, m₂⟩ := pointer
  have hrun : globalText text m = newValue pointer (.text text) m₂ := by
    change (let (byte, m₁) := internType (.int 8) m
            let (ty, m₂) := internType (.pointer byte) m₁
            newValue ty (.text text) m₂) = _
    rw [hm₁]
    change (let (ty, m₂) := internType (.pointer byte) m₁
            newValue ty (.text text) m₂) = _
    rw [hm₂]
  have hfresh := newValue_fresh pointer (.text text) m₂
  have hty := valueType_of_getElem? hfresh.value
  rw [hrun, hty]
  exact ⟨byte, ⟨(hbyte.trans hpointer).trans hfresh.still,
      Nat.le_trans (hbyte.trans hpointer).values.size_le hfresh.size_le, hfresh.value⟩,
    (hpointer.trans hfresh.still).toExtends.findType? hfound,
    hfresh.still.toExtends.findType? hfound'⟩

/-! ## Declarations -/

/-- A named struct is entered if its name is free. -/
theorem namedStruct_ends (name : String) (fields : List TyId) (m : Module) :
    Ends (namedStruct name fields) m
      (fun t m' => m.lookupStruct? name = none ∧ t = ⟨m.types.size⟩ ∧
        m' = { m with types := m.types.push (.struct (some name) fields) })
      fun m' => m = m' ∧ (m.lookupStruct? name).isSome = true := by
  unfold Ends namedStruct
  cases hfree : m.lookupStruct? name with
  | some t => exact ⟨rfl, rfl⟩
  | none => exact ⟨rfl, rfl, rfl⟩

/-- Entering a named struct extends the module. -/
theorem extends_push_type (m : Module) (ty : Ty) :
    Extends m { m with types := m.types.push ty } :=
  ⟨.push _ _, .refl _, Nat.le_refl _, fun _ _ => .refl _, Nat.le_refl _, fun _ _ => .refl _⟩

/-- The parameters of a function are new values of the given types. -/
theorem newParams_spec (func : FuncId) (index : Nat) (tys : List TyId) (m : Module) :
    Still m (newParams func index tys m).2 ∧
      (newParams func index tys m).2.types = m.types ∧
      List.Forall₂ (fun ty v => ∃ i,
        (newParams func index tys m).2.values[v.index]? = some ⟨ty, .param func i⟩)
        tys (newParams func index tys m).1 := by
  induction tys generalizing index m with
  | nil => exact ⟨.refl m, rfl, .nil⟩
  | cons ty tys ih =>
    obtain ⟨hstill, htypes, hparams⟩ := ih (index + 1) (newValue ty (.param func index) m).2
    have hvalue : (newValue ty (.param func index) m).2.values[m.values.size]? =
        some ⟨ty, .param func index⟩ := by
      simp [newValue]
    have hfirst : Still m (newValue ty (.param func index) m).2 :=
      ⟨.of_eq rfl, .push _ _, rfl, rfl⟩
    exact ⟨hfirst.trans hstill, htypes,
      .cons ⟨index, hstill.values.getElem?_some hvalue⟩ hparams⟩

/-- A function was declared, with new values for its parameters and without blocks. -/
structure Declared (symbol : String) (tys : List TyId) (ret : TyId) (linkage : Linkage)
    (func : FuncId) (m m' : Module) : Prop where
  free : m.lookupFunction? symbol = none
  func_eq : func = ⟨m.functions.size⟩
  types : m'.types = m.types
  values : Grown m.values m'.values
  blocks : m'.blocks = m.blocks
  functions : ∃ params, m'.functions = m.functions.push ⟨symbol, params, ret, linkage, #[]⟩ ∧
    List.Forall₂ (fun ty v => ∃ i, m'.values[v.index]? = some ⟨ty, .param func i⟩) tys params

namespace Declared

variable {symbol : String} {tys : List TyId} {ret : TyId} {linkage : Linkage} {func : FuncId}
  {m' : Module}

/-- The functions there were are the same. -/
theorem function_of_lt (h : Declared symbol tys ret linkage func m m') {f : FuncId}
    (hf : f.index < m.functions.size) : m'.function f = m.function f := by
  obtain ⟨params, hfunctions, -⟩ := h.functions
  rw [Module.function, hfunctions, (Grown.push _ _).getD hf, Module.function]

/-- The declared function. -/
theorem function_self (h : Declared symbol tys ret linkage func m m') :
    ∃ params, m'.function func = ⟨symbol, params, ret, linkage, #[]⟩ ∧
      List.Forall₂ (fun ty v => ∃ i, m'.values[v.index]? = some ⟨ty, .param func i⟩)
        tys params := by
  obtain ⟨params, hfunctions, hparams⟩ := h.functions
  refine ⟨params, ?_, hparams⟩
  rw [Module.function, hfunctions, h.func_eq]
  simp [Array.getD_eq_getD_getElem?]

/-- A declared function is one of the module. -/
theorem func_lt (h : Declared symbol tys ret linkage func m m') :
    func.index < m'.functions.size := by
  obtain ⟨params, hfunctions, -⟩ := h.functions
  rw [hfunctions, h.func_eq]
  simp

/-- A declaration extends the module. -/
theorem toExtends (h : Declared symbol tys ret linkage func m m') : Extends m m' where
  types := by
    rw [h.types]
    exact .refl _
  values := h.values
  blocks := Nat.le_of_eq (by rw [h.blocks])
  block b _ := by
    rw [Module.block, Module.block, h.blocks]
    exact .refl _
  functions := by
    obtain ⟨params, hfunctions, -⟩ := h.functions
    rw [hfunctions, Array.size_push]
    exact Nat.le_succ _
  function f hf := by
    rw [h.function_of_lt hf]
    exact .refl _

end Declared

/-- A function is declared if its symbol is free. -/
theorem declareFunction_ends (symbol : String) (tys : List TyId) (ret : TyId)
    (linkage : Linkage) (m : Module) :
    Ends (declareFunction symbol tys ret linkage) m
      (fun func m' => Declared symbol tys ret linkage func m m')
      fun m' => m = m' ∧ (m.lookupFunction? symbol).isSome = true := by
  unfold Ends declareFunction
  cases hfree : m.lookupFunction? symbol with
  | some func => exact ⟨rfl, rfl⟩
  | none =>
    obtain ⟨hstill, htypes, hparams⟩ := newParams_spec ⟨m.functions.size⟩ 0 tys m
    refine ⟨hfree, rfl, htypes, hstill.values, hstill.blocks, _, ?_, hparams⟩
    dsimp only
    rw [hstill.functions]
/-! ## Requirements -/

/-- An operation that is never refused. -/
theorem always_ends {α : Type} (op : StateM Module α) (m : Module) :
    Ends (always op) m (fun a m' => op m = (a, m')) fun _ => False := rfl

/-- Only an open block is accepted. -/
theorem expectOpen_ends (b : BlockId) (m : Module) :
    Ends (expectOpen b) m (fun _ m' => m = m' ∧ m.isTerminated b = false) (m = ·) := by
  unfold Ends expectOpen
  cases m.isTerminated b <;> simp

/-- Only the expected type is accepted. -/
theorem expectType_ends (expected found : TyId) (m : Module) :
    Ends (expectType expected found) m (fun _ m' => m = m' ∧ expected = found) (m = ·) := by
  unfold Ends expectType
  by_cases h : expected = found <;> simp [h]

/-- Only a pointer is accepted. -/
theorem expectPointer_ends (pointer : ValueId) (m : Module) :
    Ends (expectPointer pointer) m
      (fun pointee m' => m = m' ∧ m.pointee? (m.valueType pointer) = some pointee) (m = ·) := by
  unfold Ends expectPointer
  cases m.pointee? (m.valueType pointer) <;> simp

/-- Only an index of a field is accepted. -/
theorem expectField_ends (aggregate : TyId) (index : Nat) (m : Module) :
    Ends (expectField aggregate index) m
      (fun ty m' => m = m' ∧ fieldType aggregate index m = .ok ty) (m = ·) := by
  unfold Ends expectField
  cases fieldType aggregate index m <;> simp

/-- The first two values are compared, then the others. -/
theorem expectTypes_cons (e f : ValueId) (es fs : List ValueId) (m : Module) :
    expectTypes (e :: es) (f :: fs) m =
      match expectType (m.valueType e) (m.valueType f) m with
      | .ok _ m => expectTypes es fs m
      | .error refusal m => .error refusal m := rfl

/-- Values are accepted if they have the types of the others, one by one. -/
theorem expectTypes_ends (expected found : List ValueId) (m : Module) :
    Ends (expectTypes expected found) m
      (fun _ m' => m = m' ∧ ∀ p ∈ expected.zip found, m.valueType p.1 = m.valueType p.2)
      (m = ·) := by
  induction expected generalizing found with
  | nil => exact ⟨rfl, nofun⟩
  | cons e es ih =>
    cases found with
    | nil => exact ⟨rfl, nofun⟩
    | cons f fs =>
      have hstep := expectType_ends (m.valueType e) (m.valueType f) m
      unfold Ends
      rw [expectTypes_cons]
      cases hrun : expectType (m.valueType e) (m.valueType f) m with
      | ok _ m' =>
        obtain ⟨rfl, hfirst⟩ := hstep.of_ok hrun
        refine (ih fs).mono ?_ fun _ h => h
        rintro _ _ ⟨rfl, hrest⟩
        exact ⟨rfl, List.forall_mem_cons.2 ⟨hfirst, hrest⟩⟩
      | error _ m' => exact hstep.of_error hrun

/-! ## Instructions -/

/-- An instruction that is added to an open block. -/
theorem pushInstr_emitted {i : Instr} (hopen : m.isTerminated b = false) (hi : i.dst? = none) :
    Emitted b i m (pushInstr b i m).2 :=
  ⟨hopen, .of_eq rfl, .refl _, by simp [hi], rfl, rfl⟩

/-- An instruction with a new value that is added to an open block. -/
theorem define_emitted {ty : TyId} {instr : ValueId → Instr} (hopen : m.isTerminated b = false)
    (hdst : ∀ v, (instr v).dst? = some v) {v : ValueId} {m' : Module}
    (hrun : define b ty instr m = (v, m')) :
    Emitted b (instr v) m m' ∧ m'.valueType v = ty := by
  have hv : v = ⟨m.values.size⟩ := (congrArg Prod.fst hrun).symm
  have hm' : m' = (pushInstr b (instr v) (newValue ty .result m).2).2 := by
    rw [hv]
    exact (congrArg Prod.snd hrun).symm
  have hvalue : m'.values[v.index]? = some ⟨ty, .result⟩ := by
    rw [hm', hv]
    exact (newValue_spec ty .result m).2.2
  refine ⟨⟨hopen, ?_, ?_, ?_, ?_, ?_⟩, valueType_of_getElem? hvalue⟩
  · exact hm' ▸ .of_eq rfl
  · exact hm' ▸ .push _ _
  · intro w hw
    rw [hdst] at hw
    cases hw
    exact ⟨Nat.le_of_eq (by rw [hv]), ty, hvalue⟩
  · rw [hm']
    rfl
  · rw [hm']
    rfl

/-- A stack slot is a pointer to its type. -/
theorem alloca_ends (b : BlockId) (ty : TyId) (m : Module) :
    Ends (alloca b ty) m
      (fun v m' => Emitted b (.alloca v ty) m m' ∧
        m'.findType? (.pointer ty) = some (m'.valueType v)) (Still m) := by
  refine (expectOpen_ends b m).andThen (fun _ h => h ▸ .refl m) ?_
  rintro _ _ ⟨rfl, hopen⟩
  refine (always_ends (pointerTo ty) _).andThen (fun _ h => h.elim) ?_
  intro pointer m₁ hrun
  obtain ⟨hstill, hfound⟩ := internType_spec (.pointer ty) rfl m
  have hrun' : internType (.pointer ty) m = (pointer, m₁) := hrun
  rw [hrun'] at hstill hfound
  refine (always_ends _ m₁).mono (fun v m' hrun => ?_) fun _ h => h.elim
  have hopen₁ : m₁.isTerminated b = false := by rw [hstill.isTerminated, hopen]
  obtain ⟨hemitted, hty⟩ := define_emitted hopen₁ (fun _ => rfl) hrun
  refine ⟨.of_still hstill hemitted, ?_⟩
  rw [hty]
  exact hemitted.toExtends.findType? hfound

/-- What is read has the type that the pointer points to. -/
theorem load_ends (b : BlockId) (pointer : ValueId) (m : Module) :
    Ends (load b pointer) m
      (fun v m' => Emitted b (.load v pointer) m m' ∧
        m.pointee? (m.valueType pointer) = some (m'.valueType v)) (Still m) := by
  refine (expectPointer_ends pointer m).andThen (fun _ h => h ▸ .refl m) ?_
  rintro pointee _ ⟨rfl, hpointee⟩
  refine (expectOpen_ends b m).andThen (fun _ h => h ▸ .refl m) ?_
  rintro _ _ ⟨rfl, hopen⟩
  refine (always_ends _ _).mono (fun v m' hrun => ?_) fun _ h => h.elim
  obtain ⟨hemitted, hty⟩ := define_emitted hopen (fun _ => rfl) hrun
  exact ⟨hemitted, by rw [hty, hpointee]⟩

/-- What is written has the type that the pointer points to. -/
theorem store_ends (b : BlockId) (value pointer : ValueId) (m : Module) :
    Ends (store b value pointer) m
      (fun _ m' => Emitted b (.store value pointer) m m' ∧
        m.pointee? (m.valueType pointer) = some (m.valueType value)) (Still m) := by
  refine (expectPointer_ends pointer m).andThen (fun _ h => h ▸ .refl m) ?_
  rintro pointee _ ⟨rfl, hpointee⟩
  refine .next rfl ?_
  refine (expectType_ends _ _ _).andThen (fun _ h => h ▸ .refl _) ?_
  rintro _ _ ⟨rfl, hty⟩
  refine (expectOpen_ends b _).andThen (fun _ h => h ▸ .refl _) ?_
  rintro _ _ ⟨rfl, hopen⟩
  refine (always_ends _ _).mono (fun _ m' hrun => ?_) fun _ h => h.elim
  have hm' : (pushInstr b (.store value pointer) m).2 = m' := congrArg Prod.snd hrun
  exact ⟨hm' ▸ pushInstr_emitted hopen rfl, by rw [hpointee, hty]⟩

/-- A call with another number of arguments than the callee has parameters is refused. -/
theorem call_of_length_ne {callee : FuncId} {arguments : List ValueId}
    (hlength : (m.function callee).params.length ≠ arguments.length) :
    call b callee arguments m =
      .error (.argumentCount (m.function callee).symbol (m.function callee).params.length
        arguments.length) m := by
  simp only [call, hlength, ne_eq, not_false_eq_true, if_true]

/-- What a call with as many arguments as the callee has parameters does. -/
theorem call_of_length {callee : FuncId} {arguments : List ValueId}
    (hlength : (m.function callee).params.length = arguments.length) :
    call b callee arguments m = (do
      expectTypes (m.function callee).params arguments
      expectOpen b
      if m.type (m.function callee).ret = .void then
        always (pushInstr b (.call none callee arguments))
        return none
      else
        let dst ← always
          (define b (m.function callee).ret fun dst => .call (some dst) callee arguments)
        return some dst : Build (Option ValueId)) m := by
  simp only [call, hlength, ne_eq, not_true_eq_false, if_false]

/-- A call gives a value of the return type, unless that is `void`. -/
theorem call_ends (b : BlockId) (callee : FuncId) (arguments : List ValueId) (m : Module) :
    Ends (call b callee arguments) m
      (fun returned m' => Emitted b (.call returned callee arguments) m m' ∧
        match returned with
        | none => m.type (m.function callee).ret = .void
        | some v => m.type (m.function callee).ret ≠ .void ∧
            m'.valueType v = (m.function callee).ret) (Still m) := by
  unfold Ends
  by_cases hlength : (m.function callee).params.length = arguments.length
  · rw [call_of_length hlength]
    refine (expectTypes_ends _ _ m).andThen (fun _ h => h ▸ .refl m) ?_
    rintro _ _ ⟨rfl, -⟩
    refine (expectOpen_ends b _).andThen (fun _ h => h ▸ .refl _) ?_
    rintro _ _ ⟨rfl, hopen⟩
    by_cases hvoid : m.type (m.function callee).ret = .void
    · rw [if_pos hvoid]
      refine (always_ends _ _).andThen (fun _ h => h.elim) ?_
      intro _ m' hrun
      have hm' : (pushInstr b (.call none callee arguments) m).2 = m' := congrArg Prod.snd hrun
      exact .pure ⟨hm' ▸ pushInstr_emitted hopen rfl, hvoid⟩
    · rw [if_neg hvoid]
      refine (always_ends _ _).andThen (fun _ h => h.elim) ?_
      intro v m' hrun
      obtain ⟨hemitted, hty⟩ := define_emitted hopen (fun _ => rfl) hrun
      exact .pure ⟨hemitted, hvoid, hty⟩
  · rw [call_of_length_ne hlength]
    exact .refl m

/-- The types of the fields of an aggregate. -/
theorem fieldType_ok_iff {aggregate field : TyId} {index : Nat} :
    fieldType aggregate index m = .ok field ↔
      ∃ name fields, m.type aggregate = .struct name fields ∧ fields[index]? = some field := by
  unfold fieldType
  cases m.type aggregate with
  | struct name fields => cases hfield : fields[index]? <;> simp [hfield]
  | _ => simp

/-- A field has the type that the aggregate gives it. -/
theorem extractValue_ends (b : BlockId) (aggregate : ValueId) (index : Nat) (m : Module) :
    Ends (extractValue b aggregate index) m
      (fun v m' => Emitted b (.extractValue v aggregate index) m m' ∧
        fieldType (m.valueType aggregate) index m = .ok (m'.valueType v)) (Still m) := by
  refine .next rfl ?_
  refine (expectField_ends _ _ _).andThen (fun _ h => h ▸ .refl _) ?_
  rintro field _ ⟨rfl, hfield⟩
  refine (expectOpen_ends b _).andThen (fun _ h => h ▸ .refl _) ?_
  rintro _ _ ⟨rfl, hopen⟩
  refine (always_ends _ _).mono (fun v m' hrun => ?_) fun _ h => h.elim
  obtain ⟨hemitted, hty⟩ := define_emitted hopen (fun _ => rfl) hrun
  exact ⟨hemitted, by rw [hfield, hty]⟩

/-- An aggregate with another field has the type it had. -/
theorem insertValue_ends (b : BlockId) (aggregate value : ValueId) (index : Nat) (m : Module) :
    Ends (insertValue b aggregate value index) m
      (fun v m' => Emitted b (.insertValue v aggregate value index) m m' ∧
        m'.valueType v = m.valueType aggregate) (Still m) := by
  refine .next rfl ?_
  refine (expectField_ends _ _ _).andThen (fun _ h => h ▸ .refl _) ?_
  rintro field _ ⟨rfl, -⟩
  refine (expectType_ends _ _ _).andThen (fun _ h => h ▸ .refl _) ?_
  rintro _ _ ⟨rfl, -⟩
  refine (expectOpen_ends b _).andThen (fun _ h => h ▸ .refl _) ?_
  rintro _ _ ⟨rfl, hopen⟩
  exact (always_ends _ _).mono (fun v m' hrun => define_emitted hopen (fun _ => rfl) hrun)
    fun _ h => h.elim

/-- A comparison of what is no integer is refused. -/
theorem icmp_of_none {predicate : IntPredicate} {lhs rhs : ValueId}
    (hint : (m.intWidth? (m.valueType lhs)).isNone = true) :
    icmp b predicate lhs rhs m =
      .error (.typeMismatch "integer type" (m.typeName (m.valueType lhs))) m := by
  simp only [icmp, hint, if_true]

/-- What a comparison of an integer does. -/
theorem icmp_of_int {predicate : IntPredicate} {lhs rhs : ValueId}
    (hint : (m.intWidth? (m.valueType lhs)).isNone = false) :
    icmp b predicate lhs rhs m = (do
      expectType (m.valueType lhs) (m.valueType rhs)
      expectOpen b
      let bit ← always (intType 1)
      always (define b bit fun dst => .icmp dst predicate lhs rhs) : Build ValueId) m := by
  simp only [icmp, hint]
  rfl

/-- The truth of a comparison has one bit. -/
theorem icmp_ends (b : BlockId) (predicate : IntPredicate) (lhs rhs : ValueId) (m : Module) :
    Ends (icmp b predicate lhs rhs) m
      (fun v m' => Emitted b (.icmp v predicate lhs rhs) m m' ∧
        m'.findType? (.int 1) = some (m'.valueType v)) (Still m) := by
  unfold Ends
  cases hint : (m.intWidth? (m.valueType lhs)).isNone with
  | true =>
    rw [icmp_of_none hint]
    exact .refl m
  | false =>
    rw [icmp_of_int hint]
    refine (expectType_ends _ _ _).andThen (fun _ h => h ▸ .refl _) ?_
    rintro _ _ ⟨rfl, -⟩
    refine (expectOpen_ends b _).andThen (fun _ h => h ▸ .refl _) ?_
    rintro _ _ ⟨rfl, hopen⟩
    refine (always_ends (intType 1) _).andThen (fun _ h => h.elim) ?_
    intro bit m₁ hrun
    obtain ⟨hstill, hfound⟩ := internType_spec (.int 1) rfl m
    have hrun' : internType (.int 1) m = (bit, m₁) := hrun
    rw [hrun'] at hstill hfound
    refine (always_ends _ m₁).mono (fun v m' hrun => ?_) fun _ h => h.elim
    have hopen₁ : m₁.isTerminated b = false := by rw [hstill.isTerminated, hopen]
    obtain ⟨hemitted, hty⟩ := define_emitted hopen₁ (fun _ => rfl) hrun
    refine ⟨.of_still hstill hemitted, ?_⟩
    rw [hty]
    exact hemitted.toExtends.findType? hfound

/-- Merged values have the type of the first. -/
theorem phi_ends (b : BlockId) (incoming : List (ValueId × BlockId)) (m : Module) :
    Ends (phi b incoming) m
      (fun v m' => Emitted b (.phi v incoming) m m' ∧
        ∀ first ∈ incoming.head?, m'.valueType v = m.valueType first.1) (Still m) := by
  match incoming with
  | [] => exact .throw (.refl m)
  | (first, origin) :: others =>
    refine (expectTypes_ends _ _ m).andThen (fun _ h => h ▸ .refl m) ?_
    rintro _ _ ⟨rfl, -⟩
    refine (expectOpen_ends b _).andThen (fun _ h => h ▸ .refl _) ?_
    rintro _ _ ⟨rfl, hopen⟩
    refine .next rfl ?_
    refine (always_ends _ _).mono (fun v m' hrun => ?_) fun _ h => h.elim
    obtain ⟨hemitted, hty⟩ := define_emitted hopen (fun _ => rfl) hrun
    exact ⟨hemitted, by simpa using hty⟩

/-! ## Terminators -/

/-- Closing a block. -/
theorem terminate_ends (b : BlockId) (t : Terminator) (m : Module) :
    Ends (terminate b t) m (fun _ m' => Closed b t m m') (Still m) := by
  unfold Ends terminate
  cases hopen : m.isTerminated b with
  | true => exact .refl m
  | false => exact ⟨hopen, .of_eq rfl, .refl _, rfl, rfl⟩

/-- Going to a block. -/
theorem br_ends (b target : BlockId) (m : Module) :
    Ends (br b target) m (fun _ m' => Closed b (.br target) m m') (Still m) :=
  terminate_ends b _ m

/-- Going to one of two blocks. -/
theorem condBr_ends (b : BlockId) (condition : ValueId) (onTrue onFalse : BlockId) (m : Module) :
    Ends (condBr b condition onTrue onFalse) m
      (fun _ m' => Closed b (.condBr condition onTrue onFalse) m m') (Still m) := by
  refine (always_ends (intType 1) m).andThen (fun _ h => h.elim) ?_
  intro bit m₁ hrun
  have hrun' : internType (.int 1) m = (bit, m₁) := hrun
  have hstill : Still m m₁ := by
    have h := (internType_spec (.int 1) rfl m).1
    rwa [hrun'] at h
  refine .next rfl ?_
  refine (expectType_ends _ _ _).andThen (fun _ h => h ▸ hstill) ?_
  rintro _ _ ⟨rfl, -⟩
  exact (terminate_ends b _ _).mono (fun _ _ h => .of_still hstill h) fun _ h => hstill.trans h

/-- Closing a block that is open extends it. -/
theorem closeBlock_extends (b : Block) : b.Extends (closeBlock b) := by
  unfold closeBlock
  cases ht : b.terminator with
  | none => exact .close ht _
  | some t => exact ⟨rfl, rfl, .refl _, fun _ => by cases b; cases ht; rfl⟩

/-- Closing blocks extends the module. -/
theorem closeBlocks_extends (ids : List BlockId) (m : Module) :
    Extends m (ids.foldl
      (fun m b => { m with blocks := m.blocks.modify b.index closeBlock }) m) := by
  induction ids generalizing m with
  | nil => exact .refl m
  | cons id ids ih =>
    exact (modify_extends fun _ => closeBlock_extends _).trans (ih _)

/-- Finishing a function extends the module. -/
theorem finishFunction_extends (func : FuncId) (m : Module) :
    Extends m (finishFunction func m).2 := by
  rw [finishFunction, ← Array.foldl_toList]
  exact closeBlocks_extends _ m

/-- Returning from a function. -/
theorem ret_ends (b : BlockId) (value : Option ValueId) (m : Module) :
    Ends (ret b value) m (fun _ m' => Closed b (.ret value) m m') (Still m) := by
  refine .next rfl ?_
  cases value with
  | some v =>
    refine (expectType_ends _ _ _).andThen (fun _ h => h ▸ .refl _) ?_
    rintro _ _ ⟨rfl, -⟩
    exact terminate_ends b _ _
  | none =>
    refine (always_ends voidType m).andThen (fun _ h => h.elim) ?_
    intro void m₁ hrun
    have hrun' : internType .void m = (void, m₁) := hrun
    have hstill : Still m m₁ := by
      have h := (internType_spec .void rfl m).1
      rwa [hrun'] at h
    refine (expectType_ends _ _ _).andThen (fun _ h => h ▸ hstill) ?_
    rintro _ _ ⟨rfl, -⟩
    exact (terminate_ends b _ _).mono (fun _ _ h => .of_still hstill h) fun _ h => hstill.trans h

/-! ## Operations that are accepted -/

/-- A block that is open is accepted. -/
theorem expectOpen_run (hopen : m.isTerminated b = false) : expectOpen b m = .ok ⟨⟩ m := by
  rw [expectOpen, hopen, if_neg Bool.false_ne_true]

/-- A type is accepted where it is expected. -/
theorem expectType_run (t : TyId) (m : Module) : expectType t t m = .ok ⟨⟩ m := by
  rw [expectType, if_pos rfl]

/-- A field that an aggregate has is accepted. -/
theorem expectField_run {aggregate field : TyId} {index : Nat}
    (hfield : fieldType aggregate index m = .ok field) :
    expectField aggregate index m = .ok field m := by
  rw [expectField, hfield]

/-- An instruction that defines a value is added in an open block. -/
theorem define_accepted {ty : TyId} {instr : ValueId → Instr} (hopen : m.isTerminated b = false)
    (hdst : ∀ v, (instr v).dst? = some v) :
    Ends (always (define b ty instr)) m
      (fun v m' => Emitted b (instr v) m m' ∧ m'.valueType v = ty) fun _ => False :=
  (always_ends _ m).mono (fun _ _ h => define_emitted hopen hdst h) fun _ h => h

/-- An open block may be closed. -/
theorem terminate_accepted (t : Terminator) (hopen : m.isTerminated b = false) :
    Ends (terminate b t) m (fun _ m' => Closed b t m m') fun _ => False := by
  unfold Ends terminate
  rw [hopen]
  exact ⟨hopen, .of_eq rfl, .refl _, rfl, rfl⟩

/-- A slot may be made in an open block. -/
theorem alloca_accepted (ty : TyId) (hopen : m.isTerminated b = false) :
    Ends (alloca b ty) m
      (fun v m' => Emitted b (.alloca v ty) m m' ∧
        m'.findType? (.pointer ty) = some (m'.valueType v)) fun _ => False := by
  obtain ⟨hstill, hfound⟩ := internType_spec (.pointer ty) rfl m
  refine .next (expectOpen_run hopen) ((always_ends (pointerTo ty) m).andThen
    (fun _ h => h) fun pointer m₁ hrun => ?_)
  replace hrun : internType (.pointer ty) m = (pointer, m₁) := hrun
  rw [hrun] at hstill hfound
  refine (define_accepted (by rw [hstill.isTerminated, hopen]) fun _ => rfl).mono ?_ fun _ h => h
  rintro v m₂ ⟨hemitted, hty⟩
  refine ⟨.of_still hstill hemitted, ?_⟩
  rw [hty]
  exact hemitted.toExtends.findType? hfound

/-- A value may be written where the pointer points to its type, in an open block. -/
theorem store_accepted {v pointer : ValueId}
    (hpointer : m.pointee? (m.valueType pointer) = some (m.valueType v))
    (hopen : m.isTerminated b = false) :
    Ends (store b v pointer) m (fun _ m' => Emitted b (.store v pointer) m m')
      fun _ => False := by
  have hexpect : expectPointer pointer m = .ok (m.valueType v) m := by rw [expectPointer, hpointer]
  refine .next hexpect (.next rfl (.next (expectType_run _ m) (.next (expectOpen_run hopen) ?_)))
  refine (always_ends _ m).mono (fun _ m' hrun => ?_) fun _ h => h
  obtain rfl : (pushInstr b (.store v pointer) m).2 = m' := congrArg Prod.snd hrun
  exact pushInstr_emitted hopen rfl

/-- Values are accepted where values of their types are expected. -/
theorem expectTypes_run {expected found : List ValueId}
    (h : List.Forall₂ (fun e f => m.valueType e = m.valueType f) expected found) :
    expectTypes expected found m = .ok ⟨⟩ m := by
  induction h with
  | nil => rfl
  | cons hfirst _ ih =>
    rw [expectTypes_cons, hfirst, expectType_run]
    exact ih

/-- What the pointer points to may be read, in an open block. -/
theorem load_accepted {pointer : ValueId} {pointee : TyId}
    (hpointer : m.pointee? (m.valueType pointer) = some pointee)
    (hopen : m.isTerminated b = false) :
    Ends (load b pointer) m
      (fun v m' => Emitted b (.load v pointer) m m' ∧ m'.valueType v = pointee)
      fun _ => False := by
  have hexpect : expectPointer pointer m = .ok pointee m := by rw [expectPointer, hpointer]
  exact .next hexpect (.next (expectOpen_run hopen) (define_accepted hopen fun _ => rfl))

/-- A function may be called with values of the types of its parameters, in an open block. -/
theorem call_accepted {callee : FuncId} {arguments : List ValueId}
    (harguments : List.Forall₂ (fun param argument => m.valueType param = m.valueType argument)
      (m.function callee).params arguments) (hopen : m.isTerminated b = false) :
    Ends (call b callee arguments) m
      (fun returned m' => Emitted b (.call returned callee arguments) m m') fun _ => False := by
  unfold Ends
  rw [call_of_length harguments.length_eq]
  refine Ends.next (expectTypes_run harguments) (.next (expectOpen_run hopen) ?_)
  split
  · refine (always_ends _ m).andThen (fun _ h => h) fun _ m' hrun => ?_
    obtain rfl : (pushInstr b (.call none callee arguments) m).2 = m' := congrArg Prod.snd hrun
    exact .pure (pushInstr_emitted hopen rfl)
  · exact (define_accepted hopen fun _ => rfl).bind fun _ _ h => .pure h.1

/-- Values of one type may be merged, in an open block. -/
theorem phi_accepted {first : ValueId} (origin : BlockId) {others : List (ValueId × BlockId)}
    (htypes : ∀ other ∈ others, m.valueType first = m.valueType other.1)
    (hopen : m.isTerminated b = false) :
    Ends (phi b ((first, origin) :: others)) m
      (fun v m' => Emitted b (.phi v ((first, origin) :: others)) m m' ∧
        m'.valueType v = m.valueType first) fun _ => False := by
  have hall : List.Forall₂ (fun e f => m.valueType e = m.valueType f)
      (others.map fun _ => first) (others.map (·.1)) :=
    List.forall₂_map_left_iff.2 (List.forall₂_map_right_iff.2 (List.forall₂_same.2 htypes))
  exact .next (expectTypes_run hall) (.next (expectOpen_run hopen)
    (.next rfl (define_accepted hopen fun _ => rfl)))

/-- A field may be taken of an aggregate that has it, in an open block. -/
theorem extractValue_accepted {aggregate : ValueId} {index : Nat} {field : TyId}
    (hfield : fieldType (m.valueType aggregate) index m = .ok field)
    (hopen : m.isTerminated b = false) :
    Ends (extractValue b aggregate index) m
      (fun v m' => Emitted b (.extractValue v aggregate index) m m' ∧ m'.valueType v = field)
      fun _ => False :=
  .next rfl (.next (expectField_run hfield) (.next (expectOpen_run hopen)
    (define_accepted hopen fun _ => rfl)))

/-- A field may be replaced by a value of its type, in an open block. -/
theorem insertValue_accepted {aggregate value : ValueId} {index : Nat}
    (hfield : fieldType (m.valueType aggregate) index m = .ok (m.valueType value))
    (hopen : m.isTerminated b = false) :
    Ends (insertValue b aggregate value index) m
      (fun v m' => Emitted b (.insertValue v aggregate value index) m m' ∧
        m'.valueType v = m.valueType aggregate) fun _ => False :=
  .next rfl (.next (expectField_run hfield) (.next (expectType_run _ m)
    (.next (expectOpen_run hopen) (define_accepted hopen fun _ => rfl))))

/-- Integers of one type may be compared, in an open block. -/
theorem icmp_accepted {lhs rhs : ValueId} (predicate : IntPredicate)
    (hint : (m.intWidth? (m.valueType lhs)).isSome = true)
    (htypes : m.valueType lhs = m.valueType rhs) (hopen : m.isTerminated b = false) :
    Ends (icmp b predicate lhs rhs) m
      (fun v m' => Emitted b (.icmp v predicate lhs rhs) m m' ∧
        m'.findType? (.int 1) = some (m'.valueType v)) fun _ => False := by
  obtain ⟨hstill, hfound⟩ := internType_spec (.int 1) rfl m
  change Outcome (if (m.intWidth? (m.valueType lhs)).isNone = true then _ else _) _ _
  rw [if_neg (by simpa [Option.isSome_iff_ne_none] using hint), ← htypes]
  refine Ends.next (expectType_run _ m) (.next (expectOpen_run hopen)
    ((always_ends (intType 1) m).andThen (fun _ h => h) fun bit m₁ hrun => ?_))
  replace hrun : internType (.int 1) m = (bit, m₁) := hrun
  rw [hrun] at hstill hfound
  refine (define_accepted (by rw [hstill.isTerminated, hopen]) fun _ => rfl).mono ?_ fun _ h => h
  rintro v m₂ ⟨hemitted, hty⟩
  refine ⟨.of_still hstill hemitted, ?_⟩
  rw [hty]
  exact hemitted.toExtends.findType? hfound

/-- A value of the type that the function returns may be returned, from an open block. -/
theorem ret_accepted {v : ValueId} (hty : (m.function (m.block b).func).ret = m.valueType v)
    (hopen : m.isTerminated b = false) :
    Ends (ret b (some v)) m (fun _ m' => Closed b (.ret (some v)) m m') fun _ => False := by
  refine .next rfl ?_
  dsimp only
  rw [hty]
  exact .next (expectType_run _ m) (terminate_accepted _ hopen)

/-- An open block of a function that returns nothing may return. -/
theorem ret_none_accepted
    (hty : m.findType? .void = some (m.function (m.block b).func).ret)
    (hopen : m.isTerminated b = false) :
    Ends (ret b none) m (fun _ m' => Closed b (.ret none) m m') fun _ => False := by
  have hrun : always voidType m = .ok (m.function (m.block b).func).ret m := by
    change EStateM.Result.ok (internType .void m).1 (internType .void m).2 = _
    rw [internType_of_find hty]
  exact .next rfl (.next hrun (.next (expectType_run _ m) (terminate_accepted _ hopen)))

/-- An open block may go on to one of two others, by a value of one bit. -/
theorem condBr_accepted {condition : ValueId} (onTrue onFalse : BlockId)
    (hbit : m.findType? (.int 1) = some (m.valueType condition))
    (hopen : m.isTerminated b = false) :
    Ends (condBr b condition onTrue onFalse) m
      (fun _ m' => Closed b (.condBr condition onTrue onFalse) m m') fun _ => False := by
  have hrun : always (intType 1) m = .ok (m.valueType condition) m := by
    change EStateM.Result.ok (internType (.int 1) m).1 (internType (.int 1) m).2 = _
    rw [internType_of_find hbit]
  exact .next hrun (.next rfl (.next (expectType_run _ m) (terminate_accepted _ hopen)))

/-- An open block may go on to another one. -/
theorem br_accepted (target : BlockId) (hopen : m.isTerminated b = false) :
    Ends (br b target) m (fun _ m' => Closed b (.br target) m m') fun _ => False :=
  terminate_accepted _ hopen

end FormCompiler.Ir.Module
