import FormCompiler.Proofs.Ir.Execution
import FormCompiler.Proofs.Ir.Numbering
import Mathlib.Data.List.Nodup

/-!
# What Functions Return

A call of a function is executed from the start of its first block, where the parameters stand for
the arguments, to a block that ends in a return.

* `Machine.Returns`: a call of the function ends with a value; with one only (`Returns.unique`).
* `Meaning`: the value that a function has for its arguments, in any machine.
* `Module.Means`: calls of the function return what the meaning says, now and when the module is
  extended.
* `Module.Evaluates`: the code that was emitted to a block computes what the meaning says.
* `means_of_evaluates`: a function of one block that returns what its code computes.
-/

namespace FormCompiler.Ir

variable {V M : Type}

/-- A type that is not `void` is in the table. -/
theorem Module.lt_of_type_ne_void {m : Module} {ty : TyId} (hty : m.type ty ≠ .void) :
    ty.index < m.types.size := by
  by_contra hge
  refine hty ?_
  rw [Module.type, Array.getD_eq_getD_getElem?, Array.getElem?_eq_none (Nat.le_of_not_lt hge)]
  rfl

/-- A type that is not `void` stays so. -/
theorem Module.Extends.type_ne_void {m m' : Module} (h : m.Extends m') {ty : TyId}
    (hty : m.type ty ≠ .void) : m'.type ty ≠ .void := by
  rwa [h.type (lt_of_type_ne_void hty)]

namespace Machine

section

variable (machine : Machine V M) (m : Module)

/-- The state in which a call of a function begins. -/
def start (f : FuncId) (entry : BlockId) (memory : M) (xs : List V) : State V M where
  block := entry
  index := 0
  previous := none
  values v := (((m.function f).params.zip xs).lookup v).getD machine.unit
  memory := memory
  calls := []

/-- Execution is at the end of a block that returns the value. -/
def AtReturn (s : State V M) (x : V) : Prop :=
  (m.block s.block).instrs[s.index]? = none ∧
    ∃ v, (m.block s.block).terminator = some (.ret (some v)) ∧
      machine.operand m s.values v = x

/-- A call of the function in this memory and with these arguments returns the value. It makes no
calls itself and leaves the memory as it is. -/
def Returns (f : FuncId) (memory : M) (xs : List V) (x : V) : Prop :=
  (m.function f).params.length = xs.length ∧
    ∃ entry s, (m.function f).blocks[0]? = some entry ∧
      machine.Runs m (machine.start m f entry memory xs) s ∧ machine.AtReturn m s x ∧
      s.memory = memory ∧ s.calls = []

end

variable {machine : Machine V M} {m m' m'' later : Module} {s s' s'' : State V M} {b : BlockId}
  {f : FuncId} {memory : M} {xs : List V} {x y : V}

/-- At a return there is no next step. -/
theorem AtReturn.step? (h : machine.AtReturn m s x) : machine.step? m s = none := by
  obtain ⟨hend, v, hterminator, -⟩ := h
  rw [Machine.step?, hend]
  dsimp only
  rw [hterminator]

/-- A state without a next step is the last one of every run to it. -/
theorem Runs.eq_of_final (h : machine.Runs m s s') (hs : machine.step? m s = none) : s = s' := by
  rcases Relation.ReflTransGen.cases_head h with rfl | ⟨next, hstep, -⟩
  · rfl
  · rw [hs] at hstep
    cases hstep

/-- A call returns one value only. -/
theorem Returns.unique (h : machine.Returns m f memory xs x)
    (h' : machine.Returns m f memory xs y) : x = y := by
  obtain ⟨-, entry, s, hentry, hruns, hreturn, -⟩ := h
  obtain ⟨-, entry', s', hentry', hruns', hreturn', -⟩ := h'
  obtain rfl : entry = entry' := Option.some_inj.1 (hentry.symm.trans hentry')
  -- of two runs from one state, one goes on where the other stopped
  have hunique : Relator.RightUnique fun s s' => machine.step? m s = some s' :=
    fun _ _ _ hs hs' => Option.some_inj.1 (hs.symm.trans hs')
  have hsame : s = s' := by
    rcases Relation.ReflTransGen.total_of_right_unique hunique hruns hruns' with hrun | hrun
    · exact Runs.eq_of_final hrun hreturn.step?
    · exact (Runs.eq_of_final hrun hreturn'.step?).symm
  subst hsame
  obtain ⟨-, v, hterminator, hx⟩ := hreturn
  obtain ⟨-, w, hterminator', hy⟩ := hreturn'
  rw [hterminator] at hterminator'
  cases hterminator'
  exact hx.symm.trans hy

/-! ## The start of a call -/

/-- The parameters stand for the arguments. -/
theorem start_values {params : List ValueId} (hnodup : params.Nodup)
    (hlength : params.length = xs.length) (default : V) :
    params.map (fun v => ((params.zip xs).lookup v).getD default) = xs := by
  induction params generalizing xs with
  | nil => exact (List.length_eq_zero_iff.1 hlength.symm).symm
  | cons p ps ih =>
    cases xs with
    | nil => cases hlength
    | cons x xs =>
      obtain ⟨hp, hps⟩ := List.nodup_cons.1 hnodup
      rw [List.map_cons, List.zip_cons_cons, List.lookup_cons_self, Option.getD_some]
      refine congrArg _ (Eq.trans (List.map_congr_left fun v hv => ?_)
        (ih hps (Nat.succ_inj.1 hlength)))
      have hne : (v == p) = false := beq_false_of_ne fun heq => hp (heq ▸ hv)
      rw [List.lookup_cons, hne]

/-- A value that is a parameter reads as what it stands for. -/
theorem operand_param {values : ValueId → V} {v : ValueId} {i : Nat}
    (hv : m.type (m.valueType v) ≠ .void) (hkind : m.valueKind v = .param f i) :
    machine.operand m values v = values v := by
  rw [operand, if_neg hv, hkind]

/-! ## Code that computes a value -/

/-- Execution of the code that was emitted to the block from one module to the other leads to a
state in which `v` stands for `x`. It changes nothing else. -/
structure Computes (machine : Machine V M) (later m : Module) (s : State V M) (b : BlockId)
    (m' : Module) (s' : State V M) (v : ValueId) (x : V) : Prop where
  advances : machine.Advances later m s s'
  ends : s'.At m' b
  memory : s'.memory = s.memory
  calls : s'.calls = s.calls
  value : machine.operand later s'.values v = x

/-- Code that computes a value may be followed by code that computes another one. -/
theorem Computes.trans {v w : ValueId} (h : machine.Computes later m s b m' s' v x)
    (h' : machine.Computes later m' s' b m'' s'' w y) (hm : m.Extends m') :
    machine.Computes later m s b m'' s'' w y where
  advances := h.advances.trans h'.advances hm.values.size_le
  ends := h'.ends
  memory := h'.memory.trans h.memory
  calls := h'.calls.trans h.calls
  value := h'.value

/-- Types and values may be added before the code. -/
theorem Computes.of_still {v : ValueId} (hm : m.Still m')
    (h : machine.Computes later m' s b m'' s' v x) : machine.Computes later m s b m'' s' v x :=
  { h with advances := ⟨h.advances.runs, fun w hw =>
      h.advances.kept w (Nat.lt_of_lt_of_le hw hm.values.size_le)⟩ }

/-- An instruction that sets the value it defines, and does nothing else. -/
theorem computes_of_emitted (machine : Machine V M) {i : Instr} {v : ValueId}
    (hemitted : Module.Emitted b i m m') (hlater : m'.Extends later)
    (hb : b.index < m.blocks.size) (hs : s.At m b)
    (hdst : i.dst? = some v) (hv : m'.type (m'.valueType v) ≠ .void)
    (hrun : machine.execute later s i =
      some { s with index := s.index + 1, values := set s.values v x }) :
    ∃ s', machine.Computes later m s b m' s' v x := by
  obtain ⟨hadvances, hat⟩ := advances_of_emitted machine hemitted hlater hb hs hrun
  obtain ⟨-, _, hvalue⟩ := hemitted.fresh v hdst
  have hcarries : later.type (later.valueType v) ≠ .void := by
    rw [hlater.valueType (Array.getElem?_eq_some_iff.1 hvalue).1]
    exact hlater.type_ne_void hv
  refine ⟨_, hadvances, hat, rfl, rfl, ?_⟩
  rw [operand_result hcarries (valueKind_of_emitted hemitted hlater hdst)]
  exact set_self _ _ _

end Machine

/-- What a function returns for its arguments, in any machine. -/
abbrev Meaning := (V M : Type) → Machine V M → List V → V

namespace Module

variable {m m' m'' later : Module} {b entry : BlockId} {f : FuncId} {meaning : Meaning}

/-- Calls of the function return what the meaning says of the arguments, in every machine and also
when the module is extended. -/
def Means (m : Module) (f : FuncId) (meaning : Meaning) : Prop :=
  ∀ (V M : Type) (machine : Machine V M) (later : Module) (memory : M) (xs : List V),
    m.Extends later → (m.function f).params.length = xs.length →
      machine.Returns later f memory xs (meaning V M machine xs)

/-- The code that was emitted to the block from one module to the other computes what the meaning
says of the values, in every machine and also when the module is extended. -/
def Evaluates (m : Module) (b : BlockId) (values : List ValueId) (meaning : Meaning) (v : ValueId)
    (m' : Module) : Prop :=
  ∀ (V M : Type) (machine : Machine V M) (later : Module) (s : State V M),
    m'.Extends later → s.At m b →
      ∃ s', machine.Computes later m s b m' s' v
        (meaning V M machine (values.map (machine.operand later s.values)))

/-- The function keeps its meaning. -/
theorem Means.mono (h : m.Means f meaning) (hf : f.index < m.functions.size)
    (hm : m.Extends m') : m'.Means f meaning := fun V M machine later memory xs hlater hlength =>
  h V M machine later memory xs (hm.trans hlater)
    ((congrArg List.length (hm.function f hf).params).symm.trans hlength)

/-- The value is a parameter of the function that can hold information. -/
def IsParam (m : Module) (f : FuncId) (v : ValueId) : Prop :=
  v.index < m.values.size ∧ (∃ i, m.valueKind v = .param f i) ∧ m.type (m.valueType v) ≠ .void

/-- A parameter stays one. -/
theorem IsParam.mono {v : ValueId} (h : m.IsParam f v) (hm : m.Extends m') : m'.IsParam f v := by
  obtain ⟨hlt, ⟨i, hkind⟩, hty⟩ := h
  refine ⟨Nat.lt_of_lt_of_le hlt hm.values.size_le, ⟨i, by rw [hm.valueKind hlt, hkind]⟩, ?_⟩
  rw [hm.valueType hlt]
  exact hm.type_ne_void hty

/-- The parameters of a declared function are distinct. -/
theorem declareFunction_nodup (symbol : String) (tys : List TyId) (ret : TyId) (linkage : Linkage)
    (m : Module) :
    Ends (declareFunction symbol tys ret linkage) m
      (fun f m' => (m'.function f).params.Nodup) fun _ => True := by
  unfold Ends declareFunction
  cases m.lookupFunction? symbol with
  | some f => trivial
  | none =>
    dsimp only
    rw [newParams_eq, outcome_ok, Module.function]
    simp only [Array.getD_eq_getD_getElem?, Array.getElem?_push_size, Option.getD_some]
    refine List.nodup_range.map fun i j hij => ?_
    exact Nat.add_left_cancel (congrArg ValueId.index hij)

/-- A function whose only code computes a value and returns it means what the code computes. -/
theorem means_of_evaluates {v : ValueId} (hf : f.index < m.functions.size)
    (hblocks : (m.function f).blocks[0]? = some entry) (hentry : entry.index < m.blocks.size)
    (hempty : (m.block entry).instrs = #[]) (hnodup : (m.function f).params.Nodup)
    (hparams : ∀ p ∈ (m.function f).params, m.IsParam f p)
    (hevaluates : m.Evaluates entry (m.function f).params meaning v m') (hm : m.Extends m')
    (hclosed : Closed entry (.ret (some v)) m' m'') : m''.Means f meaning := by
  intro V M machine later memory xs hlater hlength
  have hm'' : m.Extends m'' := hm.trans hclosed.toExtends
  have hextends : m.Extends later := hm''.trans hlater
  have hfunction := hextends.function f hf
  have hlength' : (m.function f).params.length = xs.length :=
    (congrArg List.length (hm''.function f hf).params).symm.trans hlength
  -- at the start the parameters read as the arguments
  have hstart : (machine.start later f entry memory xs).At m entry := ⟨rfl, by rw [hempty]; rfl⟩
  have harguments : (m.function f).params.map
      (machine.operand later (machine.start later f entry memory xs).values) = xs := by
    refine Eq.trans (List.map_congr_left fun p hp => ?_)
      (Machine.start_values hnodup hlength' machine.unit)
    obtain ⟨-, ⟨i, hkind⟩, hty⟩ := (hparams p hp).mono hextends
    rw [Machine.operand_param hty hkind, Machine.start, hfunction.params]
  obtain ⟨s, hcomputes⟩ := hevaluates V M machine later _
    (hclosed.toExtends.trans hlater) hstart
  rw [harguments] at hcomputes
  have hentry' := Nat.lt_of_lt_of_le hentry hm.blocks
  obtain ⟨hend, hterminator⟩ := Machine.at_closed hclosed hlater hentry' hcomputes.ends
  refine ⟨(congrArg List.length hfunction.params).trans hlength', entry, s, ?_,
    hcomputes.advances.runs, ⟨hend, v, hterminator, hcomputes.value⟩, hcomputes.memory,
    hcomputes.calls⟩
  exact hfunction.blocks.getElem?_some hblocks

/-- A function that was without code means what the code of its new block computes, once that is
returned. -/
theorem ret_means {label : String} {code : Build ValueId} (hf : f.index < m.functions.size)
    (hnone : (m.function f).blocks = #[]) (hnodup : (m.function f).params.Nodup)
    (hparams : ∀ p ∈ (m.function f).params, m.IsParam f p)
    (hcode : Ends code (appendBlock f label m).2
      (fun v m' => (appendBlock f label m).2.Extends m' ∧
        (appendBlock f label m).2.Evaluates ⟨m.blocks.size⟩
          ((appendBlock f label m).2.function f).params meaning v m') fun _ => True) :
    Ends (do
      let v ← code
      ret ⟨m.blocks.size⟩ (some v)) (appendBlock f label m).2
      (fun _ m' => m.Extends m' ∧ m'.Means f meaning) fun _ => True := by
  have happended := appendBlock_extends m f label
  have hfunction := appendBlock_function_self m f label hf
  have hblock := appendBlock_block_self m f label
  have hentry : m.blocks.size < (appendBlock f label m).2.blocks.size := by
    rw [appendBlock_size]
    exact Nat.lt_succ_self _
  refine hcode.bind fun v m' h => (ret_ends _ _ m').mono (fun _ m'' hclosed => ?_)
    fun _ _ => trivial
  have hparams' : ((appendBlock f label m).2.function f).params = (m.function f).params := by
    rw [hfunction]
  refine ⟨(happended.trans h.1).trans hclosed.toExtends, ?_⟩
  have hempty : ((appendBlock f label m).2.block ⟨m.blocks.size⟩).instrs = #[] := by rw [hblock]
  refine means_of_evaluates (Nat.lt_of_lt_of_le hf happended.functions) ?_ hentry hempty
    (hparams'.symm ▸ hnodup) (fun p hp => (hparams p (hparams' ▸ hp)).mono happended) h.2 h.1
    hclosed
  rw [hfunction, hnone]
  rfl

end Module

end FormCompiler.Ir
