import FormCompiler.Proofs.Ir.Semantics

/-!
# Executing What Was Emitted

Code is emitted to one module after the other, and executed in a later one. `s.At m b` says that
execution stands where the code of `m` for the block `b` ends, so that what is emitted to `b` next
is what is executed next. `Advances later m s s'` says that execution in `later` leads from `s` to
`s'` and that the values of `m` are what they were.
-/

namespace FormCompiler.Ir

variable {V M : Type}

/-- Execution stands at the end of a block of the module. -/
structure State.At (s : State V M) (m : Module) (b : BlockId) : Prop where
  block : s.block = b
  index : s.index = (m.block b).instrs.size

namespace State.At

variable {s : State V M} {m m' : Module} {b : BlockId}

/-- The end of a block that was not changed. -/
theorem of_block (h : s.At m b) (hb : m'.block b = m.block b) : s.At m' b :=
  ⟨h.block, by rw [hb]; exact h.index⟩

/-- Types and values may be added. -/
theorem still (h : s.At m b) (hm : m.Still m') : s.At m' b := h.of_block (hm.block b)

end State.At

namespace Machine

variable {machine : Machine V M} {later m m' m'' : Module} {s s' s'' : State V M} {b : BlockId}

/-- Execution leads from one state to the other and leaves the values of a module alone. -/
structure Advances (machine : Machine V M) (later m : Module) (s s' : State V M) : Prop where
  runs : machine.Runs later s s'
  kept : ∀ v : ValueId, v.index < m.values.size → s'.values v = s.values v

namespace Advances

/-- Nothing need be executed. -/
theorem refl (machine : Machine V M) (later m : Module) (s : State V M) :
    machine.Advances later m s s := ⟨.refl, fun _ _ => rfl⟩

/-- Execution may go on. -/
theorem trans (h : machine.Advances later m s s') (h' : machine.Advances later m' s' s'')
    (hm : m.values.size ≤ m'.values.size) : machine.Advances later m s s'' :=
  ⟨h.runs.trans h'.runs, fun v hv => (h'.kept v (Nat.lt_of_lt_of_le hv hm)).trans (h.kept v hv)⟩

/-- One step that changes no value. -/
theorem of_step (hstep : machine.step? later s = some s') (hvalues : s'.values = s.values)
    (m : Module) : machine.Advances later m s s' :=
  ⟨.single hstep, fun _ _ => by rw [hvalues]⟩

/-- A value of the module stands for what it stood for. -/
theorem operand (h : machine.Advances later m s s') {v : ValueId}
    (hv : v.index < m.values.size) :
    machine.operand later s'.values v = machine.operand later s.values v := by
  unfold Machine.operand
  rw [h.kept v hv]

end Advances

/-! ## Operands -/

/-- A value of type `void` reads as the unit. -/
theorem operand_void {values : ValueId → V} {v : ValueId}
    (h : m.type (m.valueType v) = .void) : machine.operand m values v = machine.unit := by
  rw [operand, if_pos h]

/-- The result of an instruction reads as what was set. -/
theorem operand_result {values : ValueId → V} {v : ValueId}
    (hv : m.type (m.valueType v) ≠ .void) (hkind : m.valueKind v = .result) :
    machine.operand m values v = values v := by
  rw [operand, if_neg hv, hkind]

/-- A constant reads as what the machine takes it for. -/
theorem operand_constant {values : ValueId → V} {v : ValueId} {kind : ValueKind}
    (hv : m.type (m.valueType v) ≠ .void) (hkind : m.valueKind v = kind)
    (hresult : kind ≠ .result) (hparam : ∀ f i, kind ≠ .param f i) :
    machine.operand m values v = machine.constant (m.valueType v) kind := by
  rw [operand, if_neg hv, hkind]
  cases kind with
  | param f i => exact absurd rfl (hparam f i)
  | result => exact absurd rfl hresult
  | _ => rfl

@[simp]
theorem set_self (values : ValueId → V) (v : ValueId) (x : V) : set values v x v = x := if_pos rfl

/-- Other values are as they were. -/
theorem set_of_ne {v w : ValueId} (h : w ≠ v) (values : ValueId → V) (x : V) :
    set values v x w = values w := if_neg h

/-! ## Instructions -/

/-- An instruction sets the value it defines and no other, and control stays in the block. -/
theorem execute_frame {i : Instr} (h : machine.execute m s i = some s') :
    s'.block = s.block ∧ s'.index = s.index + 1 ∧
      ∀ v, i.dst? ≠ some v → s'.values v = s.values v := by
  have hset : ∀ {dst v : ValueId} {x : V}, some dst ≠ some v →
      set s.values dst x v = s.values v := fun hne =>
    set_of_ne (fun heq => hne (by rw [heq])) _ _
  cases i with
  | call dst callee arguments =>
    cases h
    cases dst with
    | none => exact ⟨rfl, rfl, fun _ _ => rfl⟩
    | some dst => exact ⟨rfl, rfl, fun v hv => hset hv⟩
  | phi dst incoming =>
    dsimp only [execute] at h
    split at h
    next => cases h; exact ⟨rfl, rfl, fun v hv => hset hv⟩
    next => cases h
  | store value pointer =>
    cases h
    exact ⟨rfl, rfl, fun _ _ => rfl⟩
  | alloca dst ty => cases h; exact ⟨rfl, rfl, fun v hv => hset hv⟩
  | load dst pointer => cases h; exact ⟨rfl, rfl, fun v hv => hset hv⟩
  | extractValue dst aggregate index => cases h; exact ⟨rfl, rfl, fun v hv => hset hv⟩
  | insertValue dst aggregate value index => cases h; exact ⟨rfl, rfl, fun v hv => hset hv⟩
  | icmp dst predicate lhs rhs => cases h; exact ⟨rfl, rfl, fun v hv => hset hv⟩

/-- The instruction that was emitted at the end of the block is the next one. -/
theorem step?_of_emitted {i : Instr} (hemitted : Module.Emitted b i m m')
    (hlater : m'.Extends later) (hb : b.index < m.blocks.size) (hs : s.At m b) :
    machine.step? later s = machine.execute later s i := by
  have hself : (m'.block b).instrs[(m.block b).instrs.size]? = some i := by
    rw [hemitted.block_self hb, Array.getElem?_push_size]
  have hnext : (later.block s.block).instrs[s.index]? = some i := by
    rw [hs.block, hs.index]
    exact (hlater.block b (by rwa [hemitted.size_blocks])).instrs.getElem?_some hself
  rw [step?, hnext]

/-- Executing the instruction that was emitted. -/
theorem advances_of_emitted (machine : Machine V M) {i : Instr} (hemitted : Module.Emitted b i m m')
    (hlater : m'.Extends later) (hb : b.index < m.blocks.size) (hs : s.At m b)
    (hrun : machine.execute later s i = some s') :
    machine.Advances later m s s' ∧ s'.At m' b := by
  obtain ⟨hblock, hindex, hvalues⟩ := execute_frame hrun
  have hstep : machine.step? later s = some s' :=
    (step?_of_emitted hemitted hlater hb hs).trans hrun
  refine ⟨⟨.single hstep, fun v hv => hvalues v fun hdst => ?_⟩, hblock.trans hs.block, ?_⟩
  · exact absurd hv (Nat.not_lt.2 (hemitted.fresh v hdst).1)
  · rw [hindex, hs.index, hemitted.block_self hb, Array.size_push]

/-- What an instruction defines is a result. -/
theorem valueKind_of_emitted {i : Instr} {v : ValueId} (hemitted : Module.Emitted b i m m')
    (hlater : m'.Extends later) (hdst : i.dst? = some v) : later.valueKind v = .result := by
  obtain ⟨-, _, hv⟩ := hemitted.fresh v hdst
  exact Module.valueKind_of_getElem? (hlater.values.getElem?_some hv)

section

variable {v pointer : ValueId}

/-- A slot stands for the address that the machine gives it. -/
theorem advances_alloca (machine : Machine V M) {ty : TyId}
    (hemitted : Module.Emitted b (.alloca v ty) m m') (hlater : m'.Extends later)
    (hb : b.index < m.blocks.size) (hs : s.At m b)
    (hv : later.type (later.valueType v) ≠ .void) :
    ∃ s', machine.Advances later m s s' ∧ s'.At m' b ∧ s'.calls = s.calls ∧
      s'.memory = (machine.alloca ty s.memory).2 ∧
      machine.operand later s'.values v = (machine.alloca ty s.memory).1 := by
  obtain ⟨hadvances, hat⟩ := advances_of_emitted machine hemitted hlater hb hs rfl
  refine ⟨_, hadvances, hat, rfl, rfl, ?_⟩
  rw [operand_result hv (valueKind_of_emitted hemitted hlater rfl)]
  exact set_self _ _ _

/-- What was read is the result. -/
theorem advances_load (machine : Machine V M) (hemitted : Module.Emitted b (.load v pointer) m m')
    (hlater : m'.Extends later) (hb : b.index < m.blocks.size) (hs : s.At m b)
    (hv : later.type (later.valueType v) ≠ .void) :
    ∃ s', machine.Advances later m s s' ∧ s'.At m' b ∧ s'.memory = s.memory ∧
      s'.calls = s.calls ∧ machine.operand later s'.values v =
        machine.load (later.valueType v) s.memory (machine.operand later s.values pointer) := by
  obtain ⟨hadvances, hat⟩ := advances_of_emitted machine hemitted hlater hb hs rfl
  refine ⟨_, hadvances, hat, rfl, rfl, ?_⟩
  rw [operand_result hv (valueKind_of_emitted hemitted hlater rfl)]
  exact set_self _ _ _

/-- What was written is in memory. -/
theorem advances_store (machine : Machine V M) {value : ValueId}
    (hemitted : Module.Emitted b (.store value pointer) m m')
    (hlater : m'.Extends later) (hb : b.index < m.blocks.size) (hs : s.At m b) :
    ∃ s', machine.Advances later m s s' ∧ s'.At m' b ∧ s'.calls = s.calls ∧
      s'.memory = machine.store (later.valueType value) s.memory
        (machine.operand later s.values value) (machine.operand later s.values pointer) := by
  obtain ⟨hadvances, hat⟩ := advances_of_emitted machine hemitted hlater hb hs rfl
  exact ⟨_, hadvances, hat, rfl, rfl⟩

/-- A call is made with the values of its arguments. -/
theorem advances_call (machine : Machine V M) {returned : Option ValueId} {callee : FuncId}
    {arguments : List ValueId}
    (hemitted : Module.Emitted b (.call returned callee arguments) m m')
    (hlater : m'.Extends later) (hb : b.index < m.blocks.size) (hs : s.At m b) :
    ∃ s', machine.Advances later m s s' ∧ s'.At m' b ∧
      s'.memory = (machine.call callee (arguments.map (machine.operand later s.values))
        s.memory).2 ∧
      s'.calls = s.calls ++ [(callee, arguments.map (machine.operand later s.values))] ∧
      ∀ v, returned = some v → later.type (later.valueType v) ≠ .void →
        machine.operand later s'.values v = (machine.call callee
          (arguments.map (machine.operand later s.values)) s.memory).1 := by
  obtain ⟨hadvances, hat⟩ := advances_of_emitted machine hemitted hlater hb hs rfl
  refine ⟨_, hadvances, hat, rfl, rfl, ?_⟩
  rintro v rfl hv
  rw [operand_result hv (valueKind_of_emitted hemitted hlater rfl)]
  exact set_self _ _ _

/-- A value is chosen by the block that control came from. -/
theorem advances_phi (machine : Machine V M) {incoming : List (ValueId × BlockId)} {w : ValueId}
    {source : BlockId}
    (hemitted : Module.Emitted b (.phi v incoming) m m') (hlater : m'.Extends later)
    (hb : b.index < m.blocks.size) (hs : s.At m b)
    (hfound : (incoming.find? fun entry => some entry.2 == s.previous) = some (w, source))
    (hv : later.type (later.valueType v) ≠ .void) :
    ∃ s', machine.Advances later m s s' ∧ s'.At m' b ∧ s'.memory = s.memory ∧
      s'.calls = s.calls ∧
      machine.operand later s'.values v = machine.operand later s.values w := by
  have hrun : machine.execute later s (.phi v incoming) = some { s with
      index := s.index + 1, values := set s.values v (machine.operand later s.values w) } := by
    unfold execute
    dsimp only
    rw [hfound]
  obtain ⟨hadvances, hat⟩ := advances_of_emitted machine hemitted hlater hb hs hrun
  refine ⟨_, hadvances, hat, rfl, rfl, ?_⟩
  rw [operand_result hv (valueKind_of_emitted hemitted hlater rfl)]
  exact set_self _ _ _

end

/-! ## Terminators -/

/-- After the last instruction of a block that was closed its terminator is next. -/
theorem at_closed {t : Terminator} (hclosed : Module.Closed b t m m')
    (hlater : m'.Extends later) (hb : b.index < m.blocks.size) (hs : s.At m b) :
    (later.block s.block).instrs[s.index]? = none ∧
      (later.block s.block).terminator = some t := by
  have hself := hclosed.block_self hb
  have hblock : later.block b = m'.block b :=
    (hlater.block b (by rwa [hclosed.size_blocks])).closed (by rw [hself]; rfl)
  rw [hs.block, hs.index, hblock, hself]
  exact ⟨Array.getElem?_eq_none (Nat.le_refl _), rfl⟩

/-- Going to another block. -/
theorem step?_of_br {target : BlockId} (hclosed : Module.Closed b (.br target) m m')
    (hlater : m'.Extends later) (hb : b.index < m.blocks.size) (hs : s.At m b) :
    machine.step? later s = some (enter s target) := by
  obtain ⟨hnone, hterminator⟩ := at_closed hclosed hlater hb hs
  rw [step?, hnone]
  dsimp only
  rw [hterminator]

/-- Going to one of two blocks. -/
theorem step?_of_condBr {condition : ValueId} {onTrue onFalse : BlockId}
    (hclosed : Module.Closed b (.condBr condition onTrue onFalse) m m')
    (hlater : m'.Extends later) (hb : b.index < m.blocks.size) (hs : s.At m b) :
    machine.step? later s = some (enter s
      (if machine.truth (machine.operand later s.values condition) then onTrue else onFalse)) := by
  obtain ⟨hnone, hterminator⟩ := at_closed hclosed hlater hb hs
  rw [step?, hnone]
  dsimp only
  rw [hterminator]

/-- Control is at the end of a block without instructions when it enters it. -/
theorem at_enter {target : BlockId} (s : State V M) (h : (m.block target).instrs = #[]) :
    (enter s target).At m target :=
  ⟨rfl, by rw [h]; rfl⟩

/-- At the end of an open block execution stops. -/
theorem step?_of_open (hopen : m.isTerminated b = false) (hs : s.At m b) :
    machine.step? m s = none := by
  have hnone : (m.block b).terminator = none := Module.terminator_of_open hopen
  rw [step?, hs.block, hs.index, Array.getElem?_eq_none (Nat.le_refl _)]
  dsimp only
  rw [hnone]

end Machine

end FormCompiler.Ir
