import FormCompiler.Ir.Emit
import FormCompiler.Proofs.Grown

/-!
# How Modules Grow

The relations between a module and a later one, from the narrowest to the widest.

* `Still m m'`: at most unnamed types and values were added.
* `Emitted b i m m'`: besides, the instruction `i` was added at the end of the open block `b`.
* `Closed b t m m'`: besides, the open block `b` was closed by `t`.
* `Extends m m'`: entries were added, open blocks may have got longer or have been closed, and
  functions may have got blocks.

Each of the first three is an instance of the last, which is a preorder.
-/

namespace FormCompiler.Ir

/-- The type is known by a name. -/
def Ty.isNamed : Ty → Bool
  | .struct (some _) _ => true
  | _ => false

/-- The value is a constant. -/
def ValueKind.isConstant : ValueKind → Bool
  | constInt _ | constFloat _ | undefined | text _ => true
  | param _ _ | result => false

/-- A block that is closed is not changed any more, an open one only gets longer. -/
structure Block.Extends (b b' : Block) : Prop where
  func : b'.func = b.func
  label : b'.label = b.label
  instrs : Grown b.instrs b'.instrs
  closed : b.terminator.isSome = true → b' = b

namespace Block.Extends

/-- A block extends itself. -/
theorem refl (b : Block) : b.Extends b := ⟨rfl, rfl, .refl _, fun _ => rfl⟩

/-- A block may be extended several times. -/
theorem trans {a b c : Block} (h : a.Extends b) (h' : b.Extends c) : a.Extends c where
  func := h'.func.trans h.func
  label := h'.label.trans h.label
  instrs := h.instrs.trans h'.instrs
  closed ha := by
    have hb : b = a := h.closed ha
    subst hb
    exact h'.closed ha

/-- An open block with one more instruction. -/
theorem push {b : Block} (hb : b.terminator = none) (i : Instr) :
    b.Extends { b with instrs := b.instrs.push i } :=
  ⟨rfl, rfl, .push _ _, fun h => by simp [hb] at h⟩

/-- An open block that is closed. -/
theorem close {b : Block} (hb : b.terminator = none) (t : Terminator) :
    b.Extends { b with terminator := some t } :=
  ⟨rfl, rfl, .refl _, fun h => by simp [hb] at h⟩

end Block.Extends

/-- A function keeps its signature; it only gets further blocks. -/
structure Function.Extends (f f' : Function) : Prop where
  symbol : f'.symbol = f.symbol
  params : f'.params = f.params
  ret : f'.ret = f.ret
  linkage : f'.linkage = f.linkage
  blocks : Grown f.blocks f'.blocks

namespace Function.Extends

/-- A function extends itself. -/
theorem refl (f : Function) : f.Extends f := ⟨rfl, rfl, rfl, rfl, .refl _⟩

/-- A function may be extended several times. -/
theorem trans {f g h : Function} (hf : f.Extends g) (hg : g.Extends h) : f.Extends h :=
  ⟨hg.symbol.trans hf.symbol, hg.params.trans hf.params, hg.ret.trans hf.ret,
    hg.linkage.trans hf.linkage, hf.blocks.trans hg.blocks⟩

end Function.Extends

namespace Module

/-- The types of the second module are those of the first one and unnamed ones. -/
def TypesGrown (m m' : Module) : Prop :=
  ∃ extra, m'.types = m.types ++ extra ∧ ∀ ty ∈ extra, ty.isNamed = false

namespace TypesGrown

variable {m m' m'' : Module}

/-- No type need be added. -/
theorem of_eq (h : m'.types = m.types) : TypesGrown m m' := ⟨#[], by simp [h]⟩

/-- Types may be added several times. -/
theorem trans (h : TypesGrown m m') (h' : TypesGrown m' m'') : TypesGrown m m'' := by
  obtain ⟨first, hfirst, hunnamed⟩ := h
  obtain ⟨second, hsecond, hunnamed'⟩ := h'
  refine ⟨first ++ second, by rw [hsecond, hfirst, Array.append_assoc], fun ty hty => ?_⟩
  rcases Array.mem_append.1 hty with hty | hty
  · exact hunnamed ty hty
  · exact hunnamed' ty hty

/-- The table of types is longer at most. -/
theorem grown (h : TypesGrown m m') : Grown m.types m'.types := by
  obtain ⟨extra, hextra, -⟩ := h
  exact ⟨extra, hextra⟩

/-- The named structs are the same. -/
theorem lookupStruct? (h : TypesGrown m m') (name : String) :
    m'.lookupStruct? name = m.lookupStruct? name := by
  obtain ⟨extra, hextra, hunnamed⟩ := h
  have hnone : extra.findIdx? (isStructNamed name) = none := by
    rw [Array.findIdx?_eq_none_iff]
    intro ty hty
    have := hunnamed ty hty
    unfold isStructNamed
    split <;> simp_all [Ty.isNamed]
  simp [Module.lookupStruct?, hextra, Array.findIdx?_append, hnone]

end TypesGrown

/-! ## Reading a module with one block changed -/

section Modify

variable {m : Module} {b b' : BlockId} {change : Block → Block}

/-- The changed block. -/
theorem block_modify_self (hb : b.index < m.blocks.size) :
    ({ m with blocks := m.blocks.modify b.index change } : Module).block b =
      change (m.block b) := by
  simp [Module.block, Array.getD_eq_getD_getElem?, Array.getElem_modify, hb]

/-- The other blocks. -/
theorem block_modify_of_ne (hne : b' ≠ b) :
    ({ m with blocks := m.blocks.modify b.index change } : Module).block b' = m.block b' := by
  have hindex : b.index ≠ b'.index := fun h => hne (by cases b; cases b'; simp_all)
  simp [Module.block, Array.getD_eq_getD_getElem?, Array.getElem?_modify, hindex]

end Modify

/-! ## The relations -/

/-- At most unnamed types and values were added. -/
structure Still (m m' : Module) : Prop where
  types : TypesGrown m m'
  values : Grown m.values m'.values
  blocks : m'.blocks = m.blocks
  functions : m'.functions = m.functions

/-- Besides, an instruction was added at the end of an open block. A value it defines is new. -/
structure Emitted (b : BlockId) (i : Instr) (m m' : Module) : Prop where
  isOpen : m.isTerminated b = false
  types : TypesGrown m m'
  values : Grown m.values m'.values
  fresh : ∀ v, i.dst? = some v →
    m.values.size ≤ v.index ∧ ∃ ty, m'.values[v.index]? = some ⟨ty, .result⟩
  blocks : m'.blocks = m.blocks.modify b.index fun data =>
    { data with instrs := data.instrs.push i }
  functions : m'.functions = m.functions

/-- Besides, an open block was closed. -/
structure Closed (b : BlockId) (t : Terminator) (m m' : Module) : Prop where
  isOpen : m.isTerminated b = false
  types : TypesGrown m m'
  values : Grown m.values m'.values
  blocks : m'.blocks = m.blocks.modify b.index fun data => { data with terminator := some t }
  functions : m'.functions = m.functions

/-- The second module is the first one with entries added, where open blocks may have got longer
or have been closed and functions may have got blocks. -/
structure Extends (m m' : Module) : Prop where
  types : Grown m.types m'.types
  values : Grown m.values m'.values
  blocks : m.blocks.size ≤ m'.blocks.size
  block : ∀ b : BlockId, b.index < m.blocks.size → (m.block b).Extends (m'.block b)
  functions : m.functions.size ≤ m'.functions.size
  function : ∀ f : FuncId, f.index < m.functions.size → (m.function f).Extends (m'.function f)

namespace Still

variable {m m' m'' : Module}

/-- Nothing need be added. -/
theorem refl (m : Module) : Still m m := ⟨.of_eq rfl, .refl _, rfl, rfl⟩

/-- Types and values may be added several times. -/
theorem trans (h : Still m m') (h' : Still m' m'') : Still m m'' :=
  ⟨h.types.trans h'.types, h.values.trans h'.values, h'.blocks.trans h.blocks,
    h'.functions.trans h.functions⟩

instance : Std.Refl Still := ⟨refl⟩

instance : IsTrans Module Still := ⟨fun _ _ _ => trans⟩

/-- The blocks are the same. -/
theorem block (h : Still m m') (b : BlockId) : m'.block b = m.block b := by
  rw [Module.block, h.blocks, Module.block]

/-- The functions are the same. -/
theorem function (h : Still m m') (f : FuncId) : m'.function f = m.function f := by
  rw [Module.function, h.functions, Module.function]

/-- The same blocks are closed. -/
theorem isTerminated (h : Still m m') (b : BlockId) : m'.isTerminated b = m.isTerminated b := by
  rw [Module.isTerminated, h.block, Module.isTerminated]

/-- Types and values are entries. -/
theorem toExtends (h : Still m m') : Extends m m' where
  types := h.types.grown
  values := h.values
  blocks := Nat.le_of_eq (by rw [h.blocks])
  block b _ := by
    rw [h.block]
    exact .refl _
  functions := Nat.le_of_eq (by rw [h.functions])
  function f _ := by
    rw [h.function]
    exact .refl _

end Still

/-- The terminator of an open block. -/
theorem terminator_of_open {m : Module} {b : BlockId} (h : m.isTerminated b = false) :
    (m.block b).terminator = none := by
  rw [Module.isTerminated] at h
  cases ht : (m.block b).terminator with
  | none => rfl
  | some t => simp [ht] at h

namespace Emitted

variable {m₀ m m' : Module} {b : BlockId} {i : Instr}

/-- Types and values may be added before an instruction. -/
theorem of_still (h : Still m₀ m) (h' : Emitted b i m m') : Emitted b i m₀ m' where
  isOpen := by rw [← h.isTerminated, h'.isOpen]
  types := h.types.trans h'.types
  values := h.values.trans h'.values
  fresh v hv := ⟨Nat.le_trans h.values.size_le (h'.fresh v hv).1, (h'.fresh v hv).2⟩
  blocks := by rw [h'.blocks, h.blocks]
  functions := h'.functions.trans h.functions

/-- The block with the instruction at its end. -/
theorem block_self (h : Emitted b i m m') (hb : b.index < m.blocks.size) :
    m'.block b = { m.block b with instrs := (m.block b).instrs.push i } := by
  rw [Module.block, h.blocks]
  exact block_modify_self (m := m) hb

/-- The other blocks are the same. -/
theorem block_of_ne (h : Emitted b i m m') {b' : BlockId} (hne : b' ≠ b) :
    m'.block b' = m.block b' := by
  rw [Module.block, h.blocks]
  exact block_modify_of_ne (m := m) hne

/-- No block is added. -/
theorem size_blocks (h : Emitted b i m m') : m'.blocks.size = m.blocks.size := by
  rw [h.blocks, Array.size_modify]

/-- The functions are the same. -/
theorem function (h : Emitted b i m m') (f : FuncId) : m'.function f = m.function f := by
  rw [Module.function, h.functions, Module.function]

/-- A block with an instruction more is longer. -/
theorem toExtends (h : Emitted b i m m') : Extends m m' where
  types := h.types.grown
  values := h.values
  blocks := Nat.le_of_eq h.size_blocks.symm
  block b' hb' := by
    by_cases hne : b' = b
    · subst hne
      rw [h.block_self hb']
      exact .push (terminator_of_open h.isOpen) i
    · rw [h.block_of_ne hne]
      exact .refl _
  functions := Nat.le_of_eq (by rw [h.functions])
  function f _ := by
    rw [h.function]
    exact .refl _

/-- The block is still open. -/
theorem isTerminated (h : Emitted b i m m') (hb : b.index < m.blocks.size) :
    m'.isTerminated b = false := by
  rw [Module.isTerminated, h.block_self hb]
  exact h.isOpen

end Emitted

namespace Closed

variable {m₀ m m' : Module} {b : BlockId} {t : Terminator}

/-- Types and values may be added before a block is closed. -/
theorem of_still (h : Still m₀ m) (h' : Closed b t m m') : Closed b t m₀ m' where
  isOpen := by rw [← h.isTerminated, h'.isOpen]
  types := h.types.trans h'.types
  values := h.values.trans h'.values
  blocks := by rw [h'.blocks, h.blocks]
  functions := h'.functions.trans h.functions

/-- The closed block. -/
theorem block_self (h : Closed b t m m') (hb : b.index < m.blocks.size) :
    m'.block b = { m.block b with terminator := some t } := by
  rw [Module.block, h.blocks]
  exact block_modify_self (m := m) hb

/-- The other blocks are the same. -/
theorem block_of_ne (h : Closed b t m m') {b' : BlockId} (hne : b' ≠ b) :
    m'.block b' = m.block b' := by
  rw [Module.block, h.blocks]
  exact block_modify_of_ne (m := m) hne

/-- No block is added. -/
theorem size_blocks (h : Closed b t m m') : m'.blocks.size = m.blocks.size := by
  rw [h.blocks, Array.size_modify]

/-- The functions are the same. -/
theorem function (h : Closed b t m m') (f : FuncId) : m'.function f = m.function f := by
  rw [Module.function, h.functions, Module.function]

/-- An open block may be closed. -/
theorem toExtends (h : Closed b t m m') : Extends m m' where
  types := h.types.grown
  values := h.values
  blocks := Nat.le_of_eq h.size_blocks.symm
  block b' hb' := by
    by_cases hne : b' = b
    · subst hne
      rw [h.block_self hb']
      exact .close (terminator_of_open h.isOpen) t
    · rw [h.block_of_ne hne]
      exact .refl _
  functions := Nat.le_of_eq (by rw [h.functions])
  function f _ := by
    rw [h.function]
    exact .refl _

end Closed

namespace Extends

variable {m m' m'' : Module}

/-- A module extends itself. -/
theorem refl (m : Module) : Extends m m := (Still.refl m).toExtends

/-- A module may be extended several times. -/
theorem trans (h : Extends m m') (h' : Extends m' m'') : Extends m m'' where
  types := h.types.trans h'.types
  values := h.values.trans h'.values
  blocks := Nat.le_trans h.blocks h'.blocks
  block b hb := (h.block b hb).trans (h'.block b (Nat.lt_of_lt_of_le hb h.blocks))
  functions := Nat.le_trans h.functions h'.functions
  function f hf := (h.function f hf).trans (h'.function f (Nat.lt_of_lt_of_le hf h.functions))

instance : Std.Refl Extends := ⟨refl⟩

instance : IsTrans Module Extends := ⟨fun _ _ _ => trans⟩

/-- The types of the first module. -/
theorem type (h : Extends m m') {t : TyId} (ht : t.index < m.types.size) :
    m'.type t = m.type t := h.types.getD ht _

/-- The types of values of the first module. -/
theorem valueType (h : Extends m m') {v : ValueId} (hv : v.index < m.values.size) :
    m'.valueType v = m.valueType v := by
  rw [Module.valueType, h.values.getD hv, Module.valueType]

/-- The values of the first module are what they were. -/
theorem valueKind (h : Extends m m') {v : ValueId} (hv : v.index < m.values.size) :
    m'.valueKind v = m.valueKind v := by
  rw [Module.valueKind, h.values.getD hv, Module.valueKind]

/-- A type that was found is found again. -/
theorem findType? (h : Extends m m') {ty : Ty} {t : TyId} (ht : m.findType? ty = some t) :
    m'.findType? ty = some t := by
  rw [Module.findType?, Option.map_eq_some_iff] at ht ⊢
  obtain ⟨i, hi, rfl⟩ := ht
  exact ⟨i, h.types.findIdx? hi, rfl⟩

/-- An integer type keeps its width. -/
theorem intWidth? (h : Extends m m') {t : TyId} {bits : Nat} (ht : m.intWidth? t = some bits) :
    m'.intWidth? t = some bits := by
  have hlt : t.index < m.types.size := by
    refine Nat.lt_of_not_le fun hge => ?_
    have htype : m.type t = default := by
      rw [Module.type, Array.getD_eq_getD_getElem?, Array.getElem?_eq_none hge, Option.getD_none]
    rw [Module.intWidth?, htype] at ht
    cases ht
  rwa [Module.intWidth?, h.type hlt, ← Module.intWidth?]

end Extends

/-- A module in which a block is replaced by one that extends it. -/
theorem modify_extends {m : Module} {b : BlockId} {change : Block → Block}
    (h : b.index < m.blocks.size → (m.block b).Extends (change (m.block b))) :
    Extends m { m with blocks := m.blocks.modify b.index change } where
  types := .refl _
  values := .refl _
  blocks := Nat.le_of_eq (by simp)
  block b' hb' := by
    by_cases hne : b' = b
    · subst hne
      rw [block_modify_self hb']
      exact h hb'
    · rw [block_modify_of_ne hne]
      exact .refl _
  functions := Nat.le_refl _
  function f _ := .refl _

/-! ## Blocks appended -/

section Append

variable (m : Module) (func : FuncId) (label : String)

/-- The id of an appended block. -/
theorem appendBlock_fst : (appendBlock func label m).1 = ⟨m.blocks.size⟩ := rfl

/-- The blocks after one is appended. -/
theorem appendBlock_size : (appendBlock func label m).2.blocks.size = m.blocks.size + 1 := by
  simp [appendBlock]

/-- An appended block is empty and open. -/
theorem appendBlock_block_self :
    (appendBlock func label m).2.block ⟨m.blocks.size⟩ = ⟨func, label, #[], none⟩ := by
  simp [appendBlock, Module.block]

/-- The blocks there were are the same. -/
theorem appendBlock_block_of_lt {b : BlockId} (hb : b.index < m.blocks.size) :
    (appendBlock func label m).2.block b = m.block b := by
  simp [appendBlock, Module.block, Array.getD_eq_getD_getElem?, Array.getElem?_push,
    Nat.ne_of_lt hb]

/-- An appended block is the last one, empty and open, and the others are the same. -/
theorem appendBlock_spec {m m' : Module} {func : FuncId} {label : String} {b : BlockId}
    (h : appendBlock func label m = (b, m')) :
    b.index = m.blocks.size ∧ m'.blocks.size = m.blocks.size + 1 ∧
      m'.block b = ⟨func, label, #[], none⟩ ∧
      ∀ x : BlockId, x.index < m.blocks.size → m'.block x = m.block x := by
  cases h
  exact ⟨rfl, appendBlock_size m func label, appendBlock_block_self m func label,
    fun _ => appendBlock_block_of_lt m func label⟩

/-- The function gets the block. -/
theorem appendBlock_function_self (hf : func.index < m.functions.size) :
    (appendBlock func label m).2.function func =
      { m.function func with blocks := (m.function func).blocks.push ⟨m.blocks.size⟩ } := by
  simp [appendBlock, Module.function, Array.getD_eq_getD_getElem?, Array.getElem_modify, hf]

/-- The other functions are the same. -/
theorem appendBlock_function_of_ne {f : FuncId} (hne : f ≠ func) :
    (appendBlock func label m).2.function f = m.function f := by
  have hindex : func.index ≠ f.index := fun h => hne (by cases f; cases func; simp_all)
  simp [appendBlock, Module.function, Array.getD_eq_getD_getElem?, Array.getElem?_modify, hindex]

/-- A block may be appended. -/
theorem appendBlock_extends : Extends m (appendBlock func label m).2 where
  types := .refl _
  values := .refl _
  blocks := by
    rw [appendBlock_size]
    exact Nat.le_succ _
  block b hb := by
    rw [appendBlock_block_of_lt m func label hb]
    exact .refl _
  functions := by simp [appendBlock]
  function f hf := by
    by_cases hne : f = func
    · subst hne
      rw [appendBlock_function_self m f label hf]
      exact ⟨rfl, rfl, rfl, rfl, .push _ _⟩
    · rw [appendBlock_function_of_ne m func label hne]
      exact .refl _

end Append

end Module

end FormCompiler.Ir
