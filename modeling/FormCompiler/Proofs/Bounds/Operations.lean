import FormCompiler.Proofs.Bounds.Module
import FormCompiler.Proofs.ModuleTyping

/-!
# Instructions and Functions Stay in Bounds

The requirements, instructions, terminators and declarations of modules with their accesses checked,
each with the ids that it needs in range. What a requirement has checked makes the instruction after
it well typed.
-/

namespace FormCompiler.Ir.Checked

open FormCompiler.Checked (refuse demand free)

variable {ε : Type} {m : Module} {b : BlockId}

/-! ## Requirements -/

/-- Requires a block to be open. -/
def expectOpen (b : BlockId) : Checked Error Module PUnit := do
  let data ← demand (block (← get) b)
  if data.terminator.isSome then refuse (.blockTerminated b) else return ⟨⟩

theorem expectOpen_passes (hb : m.HasBlock b) :
    Passes (expectOpen b) (Module.expectOpen b) m
      fun _ m' => m = m' ∧ m.isTerminated b = false := by
  refine .state (.look (block_eq hb) ?_)
  change Passes (if m.isTerminated b = true then _ else _) _ m _
  cases hopen : m.isTerminated b with
  | true => exact .refused (by simp [Module.expectOpen, hopen])
  | false => exact .returned (Module.expectOpen_run hopen) ⟨rfl, rfl⟩

/-- Requires a type to be the expected one. -/
def expectType (expected found : TyId) : Checked Error Module PUnit := do
  if expected = found then return ⟨⟩
  else
    let m ← get
    refuse (.typeMismatch (← demand (typeName m expected)) (← demand (typeName m found)))

theorem expectType_passes {expected found : TyId} (hexpected : m.HasTy expected)
    (hfound : m.HasTy found) :
    Passes (expectType expected found) (Module.expectType expected found) m
      fun _ m' => m = m' ∧ expected = found := by
  refine .given fun hm => ?_
  unfold expectType
  by_cases heq : expected = found
  · rw [if_pos heq]
    exact .returned (by simp [Module.expectType, heq]) ⟨rfl, heq⟩
  · rw [if_neg heq]
    refine .state (.look (typeName_eq hm hexpected) (.look (typeName_eq hm hfound) ?_))
    exact .refused (by simp [Module.expectType, heq])

/-- Requires a value to be a pointer and returns what it points to. -/
def expectPointer (pointer : ValueId) : Checked Error Module TyId := do
  let m ← get
  let ty ← demand (valueType m pointer)
  match ← demand (pointee? m ty) with
  | some pointee => return pointee
  | none => refuse (.notAPointer (← demand (typeName m ty)))

theorem expectPointer_passes {pointer : ValueId} (hpointer : m.HasValue pointer) :
    Passes (expectPointer pointer) (Module.expectPointer pointer) m
      fun pointee m' => m = m' ∧ m.HasTy pointee ∧
        m.pointee? (m.valueType pointer) = some pointee := by
  refine .given fun hm => ?_
  have hty := hasTy_valueType hm hpointer
  refine .state (.look (valueType_eq hpointer) (.look (pointee?_eq hty) ?_))
  cases hpointee : m.pointee? (m.valueType pointer) with
  | some pointee =>
    refine .returned (by simp [Module.expectPointer, hpointee]) ⟨rfl, ?_, rfl⟩
    exact hasTy_part hm hty (Module.pointee_mem_parts hpointee)
  | none =>
    refine .look (typeName_eq hm hty) ?_
    exact .refused (by simp [Module.expectPointer, hpointee])

/-- Requires an aggregate type to have a field at an index and returns its type. -/
def expectField (aggregate : TyId) (index : Nat) : Checked Error Module TyId := do
  let m ← get
  match ← demand (type m aggregate) with
  | .struct _ fields =>
    match fields[index]? with
    | some field => return field
    | none => refuse (.indexOutOfRange index (← demand (typeName m aggregate)))
  | _ => refuse (.indexOutOfRange index (← demand (typeName m aggregate)))

theorem expectField_passes {aggregate : TyId} (index : Nat) (haggregate : m.HasTy aggregate) :
    Passes (expectField aggregate index) (Module.expectField aggregate index) m
      fun field m' => m = m' ∧ m.HasTy field ∧ m.field? aggregate index = some field := by
  refine .given fun hm => .state (.look (type_eq haggregate) ?_)
  have hname := typeName_eq hm haggregate
  cases hty : m.type aggregate with
  | struct name fields =>
    dsimp only
    cases hfield : fields[index]? with
    | some field =>
      have hfieldType : Module.fieldType aggregate index m = .ok field :=
        Module.fieldType_ok_iff.2 ⟨name, fields, hty, hfield⟩
      have hfield? := Module.field?_of_fieldType hfieldType
      refine .returned (Module.expectField_run hfieldType) ⟨rfl, ?_, hfield?⟩
      exact hasTy_part hm haggregate (Module.field_mem_parts hfield?)
    | none =>
      refine .look hname (.refused ?_)
      simp [Module.expectField, Module.fieldType, hty, hfield]
  | _ =>
    refine .look hname (.refused ?_)
    simp [Module.expectField, Module.fieldType, hty]

/-- Requires values to have the types of other values, one by one. -/
def expectTypes : List ValueId → List ValueId → Checked Error Module PUnit
  | expected :: es, found :: fs => do
    let m ← get
    expectType (← demand (valueType m expected)) (← demand (valueType m found))
    expectTypes es fs
  | _, _ => return ⟨⟩

theorem expectTypes_passes {expected found : List ValueId}
    (hexpected : ∀ v ∈ expected, m.HasValue v)
    (hfound : ∀ v ∈ found, m.HasValue v) :
    Passes (expectTypes expected found) (Module.expectTypes expected found) m
      fun _ m' => m = m' ∧ ∀ p ∈ expected.zip found, m.valueType p.1 = m.valueType p.2 := by
  refine .given fun hm => ?_
  induction expected generalizing found with
  | nil =>
    unfold expectTypes
    exact .returned rfl ⟨rfl, nofun⟩
  | cons e es ih =>
    unfold expectTypes
    cases found with
    | nil => exact .returned rfl ⟨rfl, nofun⟩
    | cons f fs =>
      have he := hexpected e List.mem_cons_self
      have hf := hfound f List.mem_cons_self
      refine .state (.look (valueType_eq he) (.look (valueType_eq hf) ?_))
      -- the equation of the recursion as a sequence of steps, which the rules are about
      have hcons : Module.expectTypes (e :: es) (f :: fs) m =
          (Module.expectType (m.valueType e) (m.valueType f) >>= fun _ =>
            Module.expectTypes es fs) m := by
        rw [Module.expectTypes_cons]
        change _ = EStateM.bind _ _ m
        unfold EStateM.bind
        cases Module.expectType (m.valueType e) (m.valueType f) m <;> rfl
      refine .congr ?_ hcons
      refine (expectType_passes (hasTy_valueType hm he) (hasTy_valueType hm hf)).bind ?_
      rintro _ _ - ⟨rfl, hfirst⟩
      refine (ih (fun v hv => hexpected v (List.mem_cons_of_mem e hv))
        fun v hv => hfound v (List.mem_cons_of_mem f hv)).mono ?_
      rintro _ _ - ⟨rfl, hrest⟩
      exact ⟨rfl, List.forall_mem_cons.2 ⟨hfirst, hrest⟩⟩

/-! ## Instructions -/

/-- Adds an instruction at the end of a block. -/
def pushInstr (b : BlockId) (instr : Instr) : Checked ε Module PUnit := do
  let _ ← demand (block (← get) b)
  ofState (Module.pushInstr b instr)

theorem pushInstr_passes {instr : Instr} (hb : m.HasBlock b) (hopen : m.isTerminated b = false)
    (hinstr : instr.Known m ∧ instr.Typed m) :
    Passes (pushInstr b instr : Checked ε Module PUnit) (ofState (Module.pushInstr b instr)) m
      fun _ _ => True := by
  refine .state (.look (block_eq hb) (.step fun hm => ⟨?_, trivial⟩))
  refine hm.modify (.push (Module.terminator_of_open hopen) instr) (fun _ => ?_)
    fun hs hb => (hs.blocks b hb).push hinstr
  have hblock := hm.blocks _ (block_mem hb)
  refine ⟨hblock.func, fun i hi => ?_, hblock.terminator⟩
  rcases Array.mem_push.1 hi with hi | rfl
  · exact hblock.instrs i hi
  · exact hinstr.1

/-- Adds an instruction that defines a new value of a type. -/
def define (b : BlockId) (ty : TyId) (instr : ValueId → Instr) : Checked ε Module ValueId := do
  let dst ← newValue ty .result
  pushInstr b (instr dst)
  return dst

theorem define_passes {ty : TyId} {instr : ValueId → Instr} (hb : m.HasBlock b)
    (hopen : m.isTerminated b = false) (hty : m.HasTy ty)
    (hinstr : ∀ dst m', m.Still m' → m'.HasValue dst → m'.valueType dst = ty →
      (instr dst).Known m' ∧ (instr dst).Typed m') :
    Passes (define b ty instr : Checked ε Module ValueId) (ofState (Module.define b ty instr)) m
      fun dst m' => m'.HasValue dst := by
  simp only [define, Module.define, ofState_bind, ofState_pure]
  refine (newValue_passes hty (by simp)).bind fun dst m₁ hm₁ ⟨hdst, hdstTy, hstill⟩ => ?_
  refine (pushInstr_passes (hm₁.grows.hasBlock hb) (by rwa [hstill.isTerminated])
    (hinstr dst m₁ hstill hdst hdstTy)).bind fun _ m₂ hm₂ _ => ?_
  exact .pure (hm₂.grows.hasValue hdst)

/-- A stack slot for one value of a type. -/
def alloca (b : BlockId) (ty : TyId) : Checked Error Module ValueId := do
  expectOpen b
  let pointer ← internType (.pointer ty)
  define b pointer fun dst => .alloca dst ty

theorem alloca_passes {ty : TyId} (hb : m.HasBlock b) (hty : m.HasTy ty) :
    Passes (alloca b ty) (Module.alloca b ty) m fun v m' => m'.HasValue v := by
  refine (expectOpen_passes hb).bind ?_
  rintro _ _ - ⟨rfl, hopen⟩
  refine (internType_passes rfl ⟨by simpa [Ty.parts] using hty, by simp⟩).bind
    fun pointer m₁ hm₁ ⟨hpointer, htype, hstill⟩ => ?_
  exact define_passes (hm₁.grows.hasBlock hb) (by rwa [hstill.isTerminated]) hpointer
    fun dst m₂ hm₂ hdst =>
      hm₂.toExtends.alloca_typed hdst (hm₁.grows.hasTy hty) hpointer htype

/-- Reads what a pointer points to. -/
def load (b : BlockId) (pointer : ValueId) : Checked Error Module ValueId := do
  let pointee ← expectPointer pointer
  expectOpen b
  define b pointee fun dst => .load dst pointer

theorem load_passes {pointer : ValueId} (hb : m.HasBlock b) (hpointer : m.HasValue pointer) :
    Passes (load b pointer) (Module.load b pointer) m fun v m' => m'.HasValue v := by
  refine .given fun hm => (expectPointer_passes hpointer).bind ?_
  rintro pointee _ - ⟨rfl, hpointee, hread⟩
  refine (expectOpen_passes hb).bind ?_
  rintro _ _ - ⟨rfl, hopen⟩
  exact define_passes hb hopen hpointee fun dst m₁ hm₁ hdst hdstTy =>
    hm₁.toExtends.load_typed hdst hpointer (hasTy_valueType hm hpointer) (hdstTy ▸ hread)

/-- Writes a value to where a pointer points. -/
def store (b : BlockId) (value pointer : ValueId) : Checked Error Module PUnit := do
  let pointee ← expectPointer pointer
  expectType pointee (← demand (valueType (← get) value))
  expectOpen b
  pushInstr b (.store value pointer)

theorem store_passes {value pointer : ValueId} (hb : m.HasBlock b) (hvalue : m.HasValue value)
    (hpointer : m.HasValue pointer) :
    Passes (store b value pointer) (Module.store b value pointer) m fun _ _ => True := by
  refine .given fun hm => (expectPointer_passes hpointer).bind ?_
  rintro pointee _ - ⟨rfl, hpointee, hwritten⟩
  refine .get (.look (valueType_eq hvalue) ?_)
  refine (expectType_passes hpointee (hasTy_valueType hm hvalue)).bind ?_
  rintro _ _ - ⟨rfl, rfl⟩
  refine (expectOpen_passes hb).bind ?_
  rintro _ _ - ⟨rfl, hopen⟩
  exact pushInstr_passes hb hopen (Instr.store_typed hvalue hpointer hwritten)

/-- Calls a function. -/
def call (b : BlockId) (callee : FuncId) (arguments : List ValueId) :
    Checked Error Module (Option ValueId) := do
  let m ← get
  let func ← demand (function m callee)
  if func.params.length ≠ arguments.length then
    refuse (.argumentCount func.symbol func.params.length arguments.length)
  else
    expectTypes func.params arguments
    expectOpen b
    if (← demand (type m func.ret)) = .void then
      pushInstr b (.call none callee arguments)
      return none
    else
      let dst ← define b func.ret fun dst => .call (some dst) callee arguments
      return some dst

theorem call_passes {callee : FuncId} {arguments : List ValueId} (hb : m.HasBlock b)
    (hcallee : m.HasFunction callee) (harguments : ∀ v ∈ arguments, m.HasValue v) :
    Passes (call b callee arguments) (Module.call b callee arguments) m
      fun v? m' => ∀ v, v? = some v → m'.HasValue v := by
  refine .given fun hm => .state (.look (function_eq hcallee) ?_)
  have hfunc := hm.functions _ (function_mem hcallee)
  by_cases hlength : (m.function callee).params.length = arguments.length
  · rw [if_neg (not_not_intro hlength)]
    refine .congr ?_ (Module.call_of_length hlength)
    refine (expectTypes_passes hfunc.params harguments).bind ?_
    rintro _ _ - ⟨rfl, hzip⟩
    have htypes := Module.map_valueType_of_zip hlength hzip
    refine (expectOpen_passes hb).bind ?_
    rintro _ _ - ⟨rfl, hopen⟩
    refine .look (type_eq hfunc.ret) (.ite (fun hvoid => ?_) fun hvoid => ?_)
    · have hreturns : m.returns? callee = none := if_pos hvoid
      refine (pushInstr_passes hb hopen ?_).bind fun _ _ _ _ => .pure nofun
      exact Instr.call_typed (.refl m) hcallee hfunc harguments htypes nofun hreturns.symm
    · refine (define_passes hb hopen hfunc.ret fun dst m' hm' hdst hdstTy =>
        Instr.call_typed hm' hcallee hfunc harguments htypes ?_ ?_).bind
          fun dst m₁ _ hdst => .pure ?_
      · rintro _ ⟨⟩
        exact hdst
      · exact (congrArg some hdstTy).trans (if_neg hvoid).symm
      · rintro _ ⟨⟩
        exact hdst
  · rw [if_pos hlength]
    exact .refused (Module.call_of_length_ne hlength)

/-- Takes the field of an aggregate at an index. -/
def extractValue (b : BlockId) (aggregate : ValueId) (index : Nat) :
    Checked Error Module ValueId := do
  let field ← expectField (← demand (valueType (← get) aggregate)) index
  expectOpen b
  define b field fun dst => .extractValue dst aggregate index

theorem extractValue_passes {aggregate : ValueId} (index : Nat) (hb : m.HasBlock b)
    (haggregate : m.HasValue aggregate) :
    Passes (extractValue b aggregate index) (Module.extractValue b aggregate index) m
      fun v m' => m'.HasValue v := by
  refine .given fun hm => .get (.look (valueType_eq haggregate) ?_)
  refine (expectField_passes index (hasTy_valueType hm haggregate)).bind ?_
  rintro field _ - ⟨rfl, hfield, htaken⟩
  refine (expectOpen_passes hb).bind ?_
  rintro _ _ - ⟨rfl, hopen⟩
  exact define_passes hb hopen hfield fun dst m₁ hm₁ hdst hdstTy =>
    hm₁.toExtends.extractValue_typed hdst haggregate (hasTy_valueType hm haggregate)
      (hdstTy ▸ htaken)

/-- An aggregate with another value as its field at an index. -/
def insertValue (b : BlockId) (aggregate value : ValueId) (index : Nat) :
    Checked Error Module ValueId := do
  let m ← get
  let ty ← demand (valueType m aggregate)
  let field ← expectField ty index
  expectType field (← demand (valueType m value))
  expectOpen b
  define b ty fun dst => .insertValue dst aggregate value index

theorem insertValue_passes {aggregate value : ValueId} (index : Nat) (hb : m.HasBlock b)
    (haggregate : m.HasValue aggregate) (hvalue : m.HasValue value) :
    Passes (insertValue b aggregate value index) (Module.insertValue b aggregate value index) m
      fun v m' => m'.HasValue v := by
  refine .given fun hm => .get (.look (valueType_eq haggregate) ?_)
  have hty := hasTy_valueType hm haggregate
  refine (expectField_passes index hty).bind ?_
  rintro field _ - ⟨rfl, hfield, hreplaced⟩
  refine .look (valueType_eq hvalue) ?_
  refine (expectType_passes hfield (hasTy_valueType hm hvalue)).bind ?_
  rintro _ _ - ⟨rfl, rfl⟩
  refine (expectOpen_passes hb).bind ?_
  rintro _ _ - ⟨rfl, hopen⟩
  exact define_passes hb hopen hty fun dst m₁ hm₁ hdst =>
    hm₁.toExtends.insertValue_typed hdst haggregate hvalue hty hreplaced

/-- Compares two integers of one type. -/
def icmp (b : BlockId) (predicate : IntPredicate) (lhs rhs : ValueId) :
    Checked Error Module ValueId := do
  let m ← get
  let ty ← demand (valueType m lhs)
  if (← demand (intWidth? m ty)).isNone then
    refuse (.typeMismatch "integer type" (← demand (typeName m ty)))
  else
    expectType ty (← demand (valueType m rhs))
    expectOpen b
    let bit ← internType (.int 1)
    define b bit fun dst => .icmp dst predicate lhs rhs

theorem icmp_passes {lhs rhs : ValueId} (predicate : IntPredicate) (hb : m.HasBlock b)
    (hlhs : m.HasValue lhs) (hrhs : m.HasValue rhs) :
    Passes (icmp b predicate lhs rhs) (Module.icmp b predicate lhs rhs) m
      fun v m' => m'.HasValue v := by
  refine .given fun hm => ?_
  have hty := hasTy_valueType hm hlhs
  refine .state (.look (valueType_eq hlhs) (.look (intWidth?_eq hty) ?_))
  cases hint : (m.intWidth? (m.valueType lhs)).isNone with
  | true => exact .look (typeName_eq hm hty) (.refused (Module.icmp_of_none hint))
  | false =>
    refine .congr (.look (valueType_eq hrhs) ?_) (Module.icmp_of_int hint)
    refine (expectType_passes hty (hasTy_valueType hm hrhs)).bind ?_
    rintro _ _ - ⟨rfl, htypes⟩
    refine (expectOpen_passes hb).bind ?_
    rintro _ _ - ⟨rfl, hopen⟩
    refine (internType_passes rfl ⟨by simp [Ty.parts], by simp⟩).bind
      fun bit m₁ hm₁ ⟨hbit, htype, hstill⟩ => ?_
    refine define_passes (hm₁.grows.hasBlock hb) (by rwa [hstill.isTerminated]) hbit
      fun dst m₂ hm₂ hdst hdstTy => ?_
    refine (hstill.trans hm₂).toExtends.icmp_typed hdst hlhs hrhs hty
      (by simpa [Option.isSome_iff_ne_none] using hint) htypes.symm ?_
    rw [hdstTy, hm₂.toExtends.type hbit, htype]

/-- Merges one value per block that control may come from. -/
def phi (b : BlockId) (incoming : List (ValueId × BlockId)) : Checked Error Module ValueId := do
  match incoming.head? with
  | none => refuse (.argumentCount "phi" 1 0)
  | some (first, _) =>
    let others ← demand (itemsFrom incoming 1)
    expectTypes (others.map fun _ => first) (others.map (·.1))
    expectOpen b
    define b (← demand (valueType (← get) first)) fun dst => .phi dst incoming

theorem phi_passes {incoming : List (ValueId × BlockId)} (hb : m.HasBlock b)
    (hincoming : ∀ p ∈ incoming, m.HasValue p.1 ∧ m.HasBlock p.2) :
    Passes (phi b incoming) (Module.phi b incoming) m fun v m' => m'.HasValue v := by
  refine .given fun hm => ?_
  match incoming with
  | [] => exact .refused rfl
  | (first, origin) :: others =>
    have hfirst := (hincoming (first, origin) List.mem_cons_self).1
    have hothers : ∀ p ∈ others, m.HasValue p.1 := fun p hp =>
      (hincoming p (List.mem_cons_of_mem _ hp)).1
    refine .look itemsFrom_one ?_
    refine (expectTypes_passes (by simpa using fun _ => hfirst)
      (by simpa using fun a c h => hothers (a, c) h)).bind ?_
    rintro _ _ - ⟨rfl, hzip⟩
    refine (expectOpen_passes hb).bind ?_
    rintro _ _ - ⟨rfl, hopen⟩
    refine .get (.look (valueType_eq hfirst) ?_)
    refine define_passes hb hopen (hasTy_valueType hm hfirst) fun dst m₁ hm₁ hdst hdstTy => ?_
    refine hm₁.toExtends.phi_typed hdst hincoming fun p hp => ?_
    rw [hdstTy]
    exact Module.valueType_of_incoming hzip hp

/-! ## Terminators -/

/-- Closes an open block. -/
def terminate (b : BlockId) (terminator : Terminator) : Checked Error Module PUnit := do
  let data ← demand (block (← get) b)
  if data.terminator.isSome then refuse (.blockTerminated b)
  else
    ofState fun m => (⟨⟩, { m with blocks := m.blocks.modify b.index fun data =>
      { data with terminator := some terminator } })

theorem terminate_passes {t : Terminator} (hb : m.HasBlock b) (ht : t.Known m)
    (htyped : t.Typed m (m.block b).func) :
    Passes (terminate b t) (Module.terminate b t) m fun _ _ => True := by
  refine .state (.look (block_eq hb) ?_)
  change Passes (if m.isTerminated b = true then _ else _) _ m _
  cases hopen : m.isTerminated b with
  | true => exact .refused (by simp [Module.terminate, hopen])
  | false =>
    rw [if_neg Bool.false_ne_true]
    refine .congr (.step fun hm => ⟨?_, trivial⟩) (by simp [Module.terminate, hopen, ofState])
    refine hm.modify (.close (Module.terminator_of_open hopen) t) (fun _ => ?_)
      fun hs hb => (hs.blocks b hb).endBy ⟨ht, htyped⟩
    have hblock := hm.blocks _ (block_mem hb)
    refine ⟨hblock.func, hblock.instrs, ?_⟩
    rintro _ ⟨⟩
    exact ht

/-- Returns a value, or nothing. -/
def ret (b : BlockId) (value : Option ValueId) : Checked Error Module PUnit := do
  let m ← get
  let func ← demand (function m (← demand (block m b)).func)
  match value with
  | some v => expectType func.ret (← demand (valueType m v))
  | none => do
    let void ← internType .void
    expectType func.ret void
  terminate b (.ret value)

theorem ret_passes {value : Option ValueId} (hb : m.HasBlock b)
    (hvalue : ∀ v, value = some v → m.HasValue v) :
    Passes (ret b value) (Module.ret b value) m fun _ _ => True := by
  refine .given fun hm => ?_
  have hfunc := (hm.blocks _ (block_mem hb)).func
  have hret := (hm.functions _ (function_mem hfunc)).ret
  refine .get (.look (block_eq hb) (.look (function_eq hfunc) ?_))
  cases value with
  | some v =>
    have hv := hvalue v rfl
    refine .look (valueType_eq hv) ?_
    refine (expectType_passes hret (hasTy_valueType hm hv)).bind ?_
    rintro _ _ - ⟨rfl, hty⟩
    exact terminate_passes hb ⟨by simpa [Terminator.uses] using hv, by simp [Terminator.successors]⟩
      hty.symm
  | none =>
    refine (internType_passes rfl ⟨by simp [Ty.parts], by simp⟩).bind ?_
    rintro void m₁ hm₁ ⟨hvoid, htype, hstill⟩
    refine (expectType_passes (hm₁.grows.hasTy hret) hvoid).bind ?_
    rintro _ _ - ⟨rfl, hty⟩
    refine terminate_passes (hm₁.grows.hasBlock hb)
      ⟨by simp [Terminator.uses], by simp [Terminator.successors]⟩ ?_
    rw [Terminator.Typed, hstill.block, hstill.function, hty, htype]

/-- Goes to a block. -/
def br (b target : BlockId) : Checked Error Module PUnit := terminate b (.br target)

theorem br_passes {target : BlockId} (hb : m.HasBlock b) (htarget : m.HasBlock target) :
    Passes (br b target) (Module.br b target) m fun _ _ => True :=
  terminate_passes hb ⟨by simp [Terminator.uses], by simpa [Terminator.successors] using htarget⟩
    trivial

/-- Goes to one of two blocks, by a condition of one bit. -/
def condBr (b : BlockId) (condition : ValueId) (onTrue onFalse : BlockId) :
    Checked Error Module PUnit := do
  let bit ← internType (.int 1)
  expectType bit (← demand (valueType (← get) condition))
  terminate b (.condBr condition onTrue onFalse)

theorem condBr_passes {condition : ValueId} {onTrue onFalse : BlockId} (hb : m.HasBlock b)
    (hcondition : m.HasValue condition) (htrue : m.HasBlock onTrue) (hfalse : m.HasBlock onFalse) :
    Passes (condBr b condition onTrue onFalse) (Module.condBr b condition onTrue onFalse) m
      fun _ _ => True := by
  refine (internType_passes rfl ⟨by simp [Ty.parts], by simp⟩).bind
    fun bit m₁ hm₁ ⟨hbit, htype, _⟩ => ?_
  have hcondition := hm₁.grows.hasValue hcondition
  refine .get (.look (valueType_eq hcondition) ?_)
  refine (expectType_passes hbit (hasTy_valueType hm₁.inBounds hcondition)).bind ?_
  rintro _ _ - ⟨rfl, hty⟩
  refine terminate_passes (hm₁.grows.hasBlock hb)
    ⟨by simpa [Terminator.uses] using hcondition, ?_⟩ ?_
  · simpa [Terminator.successors] using ⟨hm₁.grows.hasBlock htrue, hm₁.grows.hasBlock hfalse⟩
  · rw [Terminator.Typed, ← hty, htype]

/-! ## Constants -/

/-- The integer constant a literal denotes at an integer type. -/
def constIntOfText (ty : TyId) (signed : Bool) (text : String) : Checked Error Module ValueId := do
  let m ← get
  match ← demand (intWidth? m ty) with
  | none => refuse (.typeMismatch "integer type" (← demand (typeName m ty)))
  | some bits =>
    match ← demand (parseIntLiteral text bits signed) with
    | .error e => refuse e
    | .ok raw => newValue ty (.constInt raw)

theorem constIntOfText_passes {ty : TyId} (hty : m.HasTy ty) (signed : Bool) (text : String) :
    Passes (constIntOfText ty signed text) (Module.constIntOfText ty signed text) m
      fun v m' => m'.HasValue v := by
  refine .given fun hm => .state (.look (intWidth?_eq hty) ?_)
  cases hwidth : m.intWidth? ty with
  | none => exact .look (typeName_eq hm hty) (.refused (by simp [Module.constIntOfText, hwidth]))
  | some bits =>
    refine .look (parseIntLiteral_eq text (one_le_width hm hty hwidth) signed) ?_
    cases hraw : Ir.parseIntLiteral text bits signed with
    | error e => exact .refused (by simp [Module.constIntOfText, hwidth, hraw])
    | ok raw =>
      refine .congr ((newValue_passes hty (by simp)).mono fun _ _ _ h => h.1) ?_
      simp only [Module.constIntOfText, hwidth, hraw]
      rfl

/-- The integer that a constant stands for in two's complement. -/
def constIntValue? (m : Module) (v : ValueId) : Except Fault (Option Int) := do
  match ← valueKind m v with
  | .constInt raw =>
    let width? ← intWidth? m (← valueType m v)
    return some (Number.signed (min (width?.getD 128) 128) raw)
  | _ => return none

/-- The bit pattern of an integer constant. -/
def constRaw? (m : Module) (v : ValueId) : Except Fault (Option Nat) := do
  match ← valueKind m v with
  | .constInt raw => return some raw
  | _ => return none

theorem constIntValue?_eq (hm : m.InBounds) {v : ValueId} (hv : m.HasValue v) :
    constIntValue? m v = .ok (m.constIntValue? v) := by
  unfold constIntValue? Module.constIntValue?
  rw [valueKind_eq hv]
  cases m.valueKind v with
  | constInt raw =>
    simp only [valueType_eq hv, bind, Except.bind, intWidth?_eq (hasTy_valueType hm hv)]
    rfl
  | _ => rfl

theorem constRaw?_eq {v : ValueId} (hv : m.HasValue v) :
    constRaw? m v = .ok (m.constRaw? v) := by
  unfold constRaw? Module.constRaw?
  rw [valueKind_eq hv]
  cases m.valueKind v <;> rfl

/-! ## Declarations -/

/-- Enters a named struct. -/
def namedStruct (name : String) (fields : List TyId) : Checked Error Module TyId :=
  free (Module.namedStruct name fields)

theorem namedStruct_passes (name : String) {fields : List TyId}
    (hfields : ∀ t ∈ fields, m.HasTy t) :
    Passes (namedStruct name fields) (Module.namedStruct name fields) m fun t m' => m'.HasTy t := by
  refine .free fun hm => (Module.namedStruct_ends name fields m).mono ?_ ?_
  · rintro t m' ⟨-, rfl, rfl⟩
    exact ⟨hm.pushType ⟨hfields, by simp⟩, by simp [Module.HasTy]⟩
  · rintro _ ⟨rfl, -⟩
    exact .refl hm

/-- Declares a function. -/
def declareFunction (symbol : String) (params : List TyId) (ret : TyId) (linkage : Linkage) :
    Checked Error Module FuncId :=
  free (Module.declareFunction symbol params ret linkage)

/-- The values of parameters are the only new ones. -/
theorem mem_values_newParams (func : FuncId) (index : Nat) (tys : List TyId) {v : Value}
    (hv : v ∈ (Module.newParams func index tys m).2.values) :
    v ∈ m.values ∨ ∃ ty ∈ tys, ∃ i, v = ⟨ty, .param func i⟩ := by
  induction tys generalizing index m with
  | nil => exact .inl hv
  | cons ty tys ih =>
    rcases ih (index + 1) hv with hv | ⟨ty', hty', i, rfl⟩
    · exact (Array.mem_push.1 hv).imp_right fun hv => ⟨ty, List.mem_cons_self, index, hv⟩
    · exact .inr ⟨ty', List.mem_cons_of_mem ty hty', i, rfl⟩

theorem declareFunction_passes (symbol : String) {params : List TyId} {ret : TyId}
    (linkage : Linkage) (hparams : ∀ t ∈ params, m.HasTy t) (hret : m.HasTy ret) :
    Passes (declareFunction symbol params ret linkage)
      (Module.declareFunction symbol params ret linkage) m
      fun func m' => m'.HasFunction func ∧ (m'.function func).params.length = params.length := by
  refine .free fun hm => ?_
  have hends := Module.declareFunction_ends symbol params ret linkage m
  refine .intro (fun func m' hrun => ?_) fun e m' hrun => ?_
  · have hdeclared := hends.of_ok hrun
    have hextends := hdeclared.toExtends
    have hsound : m.Sound → m'.Sound := fun hs =>
      (hs.declareFunction symbol linkage hparams hret).of_ok hrun
    obtain ⟨values, hself, hvalues⟩ := hdeclared.function_self
    refine ⟨hm.after hextends hsound (fun ty hty => .inl (hdeclared.types ▸ hty)) (fun v hv => ?_)
      (fun f hf => ?_) fun b hb => .inl (hdeclared.blocks ▸ hb), hdeclared.func_lt, ?_⟩
    · have hmem : v ∈ (Module.newParams ⟨m.functions.size⟩ 0 params m).2.values := by
        rw [Module.declareFunction, hdeclared.free] at hrun
        cases hrun
        exact hv
      refine (mem_values_newParams _ 0 params hmem).imp_right ?_
      rintro ⟨ty, hty, i, rfl⟩
      refine ⟨hextends.hasTy (hparams ty hty), ?_⟩
      rintro _ _ ⟨⟩
      exact hdeclared.func_eq ▸ hdeclared.func_lt
    · obtain ⟨values', hfunctions, hvalues'⟩ := hdeclared.functions
      rw [hfunctions] at hf
      refine (Array.mem_push.1 hf).imp_right ?_
      rintro rfl
      have hknown := hvalues'.flip.imp (S := fun v _ => m'.HasValue v ∧ True)
        fun v _ ⟨i, hvalue⟩ => ⟨(Array.getElem?_eq_some_iff.1 hvalue).1, trivial⟩
      exact ⟨((List.forall₂_and_left _ _).1 hknown).1, hextends.hasTy hret, by simp⟩
    · rw [hself]
      exact hvalues.length_eq.symm
  · obtain ⟨rfl, -⟩ := hends.of_error hrun
    exact .refl hm

/-- Appends an empty block to a function. -/
def appendBlock (func : FuncId) (label : String) : Checked ε Module BlockId := do
  let _ ← demand (function (← get) func)
  ofState (Module.appendBlock func label)

theorem appendBlock_passes {func : FuncId} (label : String) (hfunc : m.HasFunction func) :
    Passes (appendBlock func label : Checked ε Module BlockId)
      (ofState (Module.appendBlock func label)) m fun b m' => m'.HasBlock b := by
  refine .state (.look (function_eq hfunc) (.step fun hm => ?_))
  have hextends := Module.appendBlock_extends m func label
  refine ⟨hm.after hextends (fun hs => hs.appendBlock label hfunc) (fun _ => .inl) (fun _ => .inl)
    (fun f hf => ?_) fun b hb => ?_, ?_⟩
  · have hf : f ∈ m.functions.modify func.index
        fun f => { f with blocks := f.blocks.push ⟨m.blocks.size⟩ } := hf
    refine (mem_modify hf).imp_right ?_
    rintro ⟨hlt, rfl⟩
    have hold := (hm.functions _ (Array.getElem_mem hlt)).mono hextends
    refine ⟨hold.params, hold.ret, fun b hb => ?_⟩
    rcases Array.mem_push.1 hb with hb | rfl
    · exact hold.blocks b hb
    · simp [Module.HasBlock, Module.appendBlock]
  · refine (Array.mem_push.1 hb).imp_right ?_
    rintro rfl
    exact ⟨hextends.hasFunction hfunc, by simp, by simp⟩
  · simp [Module.HasBlock, Module.appendBlock]

/-- Closes every open block of a function as unreachable and returns how many there were. -/
def finishFunction (func : FuncId) : Checked ε Module Nat := do
  let m ← get
  let ids := (← demand (function m func)).blocks
  -- closing one block leaves the others as they are, so all of them may be read first
  let datas ← demand (ids.toList.mapM (block m))
  ofState fun m => ((datas.filter fun data => !data.terminator.isSome).length,
    ids.foldl (fun m b => { m with blocks := m.blocks.modify b.index Module.closeBlock }) m)

/-- Closing blocks as unreachable. -/
theorem closeBlocks_after (ids : List BlockId) (hm : m.InBounds) :
    Bounds.After m (ids.foldl
      (fun m b => { m with blocks := m.blocks.modify b.index Module.closeBlock }) m) := by
  induction ids generalizing m with
  | nil => exact .refl hm
  | cons b ids ih =>
    have hafter : Bounds.After m
        { m with blocks := m.blocks.modify b.index Module.closeBlock } := by
      refine hm.modify (Module.closeBlock_extends _) (fun hb => ?_)
        fun hs hb => (hs.blocks b hb).close
      have hblock := hm.blocks _ (block_mem hb)
      refine ⟨hblock.func, hblock.instrs, fun t ht => ?_⟩
      rcases Module.terminator_closeBlock ht with hold | rfl
      · exact hblock.terminator t hold
      · exact Terminator.unreachable_known m
    exact hafter.trans (ih hafter.inBounds)

theorem finishFunction_passes {func : FuncId} (hfunc : m.HasFunction func) :
    Passes (finishFunction func : Checked ε Module Nat) (ofState (Module.finishFunction func)) m
      fun _ _ => True := by
  refine .given fun hm => .state (.look (function_eq hfunc) ?_)
  have hblocks := (hm.functions _ (function_mem hfunc)).blocks
  refine .look (mapM_eq fun b hb => block_eq (hblocks b (Array.mem_toList_iff.1 hb))) ?_
  have hcount : ((((m.function func).blocks.toList.map m.block).filter
      fun data => !data.terminator.isSome).length) =
      ((m.function func).blocks.filter fun b => !m.isTerminated b).size := by
    rw [List.filter_map, List.length_map, ← Array.length_toList, Array.toList_filter]
    rfl
  refine .congr (.step fun hm => ⟨?_, trivial⟩) ?_
  · rw [← Array.foldl_toList]
    exact closeBlocks_after _ hm
  · simp only [ofState, Module.finishFunction, hcount]

end FormCompiler.Ir.Checked
