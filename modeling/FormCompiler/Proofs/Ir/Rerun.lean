import FormCompiler.Proofs.Ir.Flow
import FormCompiler.Proofs.Ir.WellTyped
import FormCompiler.Proofs.Repetition

/-!
# The Same Operations Run Again

A sequence of operations is run on a module, and later once more, from another block. Types are
entered once, so the second run finds those of the first and its instructions have the same ones.
The values and blocks of each run are new, and made in the same order. So the code of the second run
is that of the first one with the values and blocks of one run put in the place of those of the
other.

* `Instr.rename`, `Terminator.rename`: other values and blocks.
* `Rerun`: the two modules and blocks that the runs begin with, and with `Rerun.value` and
  `Rerun.block` the values and blocks that correspond.
* `Rerun.Holds`: what is known of the module in the first run.
* `Rerun.Mirrors`: the modules stand at corresponding points of the two runs.
-/

namespace FormCompiler.Ir

/-- The instruction with other values and blocks. -/
def Instr.rename (value : ValueId → ValueId) (block : BlockId → BlockId) : Instr → Instr
  | .alloca dst ty => .alloca (value dst) ty
  | .load dst pointer => .load (value dst) (value pointer)
  | .store stored pointer => .store (value stored) (value pointer)
  | .call dst callee arguments => .call (dst.map value) callee (arguments.map value)
  | .extractValue dst aggregate index => .extractValue (value dst) (value aggregate) index
  | .insertValue dst aggregate field index =>
    .insertValue (value dst) (value aggregate) (value field) index
  | .icmp dst predicate lhs rhs => .icmp (value dst) predicate (value lhs) (value rhs)
  | .phi dst incoming => .phi (value dst) (incoming.map fun (v, b) => (value v, block b))

/-- The terminator with other values and blocks. -/
def Terminator.rename (value : ValueId → ValueId) (block : BlockId → BlockId) :
    Terminator → Terminator
  | .ret v => .ret (v.map value)
  | .br target => .br (block target)
  | .condBr condition onTrue onFalse => .condBr (value condition) (block onTrue) (block onFalse)
  | .unreachable => .unreachable

/-- The block with other values and blocks in its code. -/
def Block.rename (value : ValueId → ValueId) (block : BlockId → BlockId) (b : Block) : Block :=
  { b with
    instrs := b.instrs.map (Instr.rename value block)
    terminator := b.terminator.map (Terminator.rename value block) }

/-- Where two runs begin: the modules, and the block that each one first emits into. -/
structure Rerun where
  first : Module
  second : Module
  here : BlockId
  there : BlockId

namespace Rerun

variable (K : Rerun)

/-- The value of the second run that corresponds to one of the first. Values that were there before
correspond to themselves. -/
def value (v : ValueId) : ValueId :=
  if v.index < K.first.values.size then v
  else ⟨v.index - K.first.values.size + K.second.values.size⟩

/-- The block of the second run that corresponds to one of the first. -/
def block (b : BlockId) : BlockId :=
  if b = K.here then K.there
  else if b.index < K.first.blocks.size then b
  else ⟨b.index - K.first.blocks.size + K.second.blocks.size⟩

/-- The first run emits into the block: it begins with the block or has made it. -/
def Owns (b : BlockId) : Prop := b = K.here ∨ K.first.blocks.size ≤ b.index

/-- The instructions that a block of the first run had before. -/
def before (b : BlockId) : Array Instr := if b = K.here then (K.first.block K.here).instrs else #[]

/-- The instructions that the block of the second run had before that corresponds to one of the
first. -/
def before' (b : BlockId) : Array Instr :=
  if b = K.here then (K.second.block K.there).instrs else #[]

/-- What the runs begin with. -/
structure Fits : Prop where
  sound : K.first.Sound
  grown : K.first.Extends K.second
  here : K.first.HasBlock K.here
  there : K.second.HasBlock K.there

/-- The code of the second block is that of the first one, as it goes on from what the blocks had
before. -/
structure Copies (b : BlockId) (data data' : Block) : Prop where
  instrs : ∃ code : Array Instr, data.instrs = K.before b ++ code ∧
    data'.instrs = K.before' b ++ code.map (Instr.rename K.value K.block)
  terminator : data'.terminator = data.terminator.map (Terminator.rename K.value K.block)
  made : b ≠ K.here → data'.func = data.func ∧ data'.label = data.label

/-- What is known of the module in the first run: `blocks` are open and belong to the run, and
`types` are types of the module. -/
structure Holds (blocks : List BlockId) (types : List TyId) (m : Module) : Prop where
  confined : Module.Confined K.here K.first m
  parts : ∀ t, m.HasTy t → ∀ part ∈ (m.type t).parts, m.HasTy part
  valueTypes : ∀ v, m.HasTy (m.valueType v)
  opened : ∀ b ∈ blocks, K.Owns b ∧ m.HasBlock b ∧ m.isTerminated b = false
  distinct : blocks.Nodup
  known : ∀ t ∈ types, m.HasTy t

/-- The modules stand at corresponding points of the two runs. -/
structure Mirrors (m m' : Module) : Prop where
  types : m'.types = K.second.types
  values : ∀ v, m'.values[(K.value v).index]? = m.values[v.index]?
  values_size : m'.values.size + K.first.values.size = m.values.size + K.second.values.size
  blocks_size : m'.blocks.size + K.first.blocks.size = m.blocks.size + K.second.blocks.size
  confined : Module.Confined K.there K.second m'
  code : ∀ b, K.Owns b → m.HasBlock b → K.Copies b (m.block b) (m'.block (K.block b))

/-- The comparison of two runs of operations. -/
def repetition : Repetition Error Module (List BlockId × List TyId) where
  Holds i := K.Holds i.1 i.2
  Grows := Module.Extends
  Covered m := Grown m.types K.second.types
  Mirrors := K.Mirrors
  Stops e _ e' _ := e' = e
  refl := .refl
  trans h h' := h.trans h'
  covered h h' := h.types.trans h'

variable {K} {m m' : Module} {b : BlockId} {blocks : List BlockId} {types : List TyId}

/-! ## Corresponding values and blocks -/

/-- A value that was there before. -/
theorem value_of_lt {v : ValueId} (h : v.index < K.first.values.size) : K.value v = v := if_pos h

/-- Values that were there before, all of them. -/
theorem map_value {vs : List ValueId} (h : ∀ v ∈ vs, K.first.HasValue v) : vs.map K.value = vs :=
  (List.map_congr_left fun v hv => value_of_lt (h v hv)).trans (List.map_id vs)

/-- The next values of the two runs correspond. -/
theorem value_next (hm : K.first.Extends m) (h : K.Mirrors m m') :
    (⟨m'.values.size⟩ : ValueId) = K.value ⟨m.values.size⟩ := by
  have hsize := h.values_size
  have hle := hm.values.size_le
  rw [value, if_neg (Nat.not_lt.2 hle)]
  exact congrArg ValueId.mk (by dsimp only; omega)

/-- The next blocks of the two runs correspond. -/
theorem block_next (hK : K.Fits) (hm : K.first.Extends m) (h : K.Mirrors m m') :
    (⟨m'.blocks.size⟩ : BlockId) = K.block ⟨m.blocks.size⟩ := by
  have hsize := h.blocks_size
  have hle := hm.blocks
  have hhere : (⟨m.blocks.size⟩ : BlockId) ≠ K.here := by
    rintro heq
    have := hK.here
    rw [← heq] at this
    exact absurd this (Nat.not_lt.2 hle)
  rw [block, if_neg hhere, if_neg (Nat.not_lt.2 hle)]
  exact congrArg BlockId.mk (by dsimp only; omega)

/-- Different blocks of the first run correspond to different ones of the second. -/
theorem block_injective (hK : K.Fits) {b b' : BlockId} (hb : K.Owns b) (hb' : K.Owns b')
    (h : K.block b = K.block b') : b = b' := by
  have hhere := hK.here
  have hthere := hK.there
  unfold Module.HasBlock at hhere hthere
  unfold block at h
  -- the block the run begins with was there before, the others of the run were not, and the same
  -- goes for the blocks that correspond to them
  rcases hb with rfl | hb <;> rcases hb' with rfl | hb'
  · rfl
  · by_cases hne : b' = K.here
    · exact hne.symm
    · rw [if_pos rfl, if_neg hne, if_neg (Nat.not_lt.2 hb')] at h
      have := congrArg BlockId.index h
      dsimp only at this
      omega
  · by_cases hne : b = K.here
    · exact hne
    · rw [if_pos rfl, if_neg hne, if_neg (Nat.not_lt.2 hb)] at h
      have := congrArg BlockId.index h
      dsimp only at this
      omega
  · by_cases hne : b = K.here <;> by_cases hne' : b' = K.here
    · rw [hne, hne']
    · subst hne
      omega
    · subst hne'
      omega
    · rw [if_neg hne, if_neg hne', if_neg (Nat.not_lt.2 hb), if_neg (Nat.not_lt.2 hb')] at h
      have := congrArg BlockId.index h
      dsimp only at this
      obtain ⟨i⟩ := b
      obtain ⟨j⟩ := b'
      dsimp only at hb hb' this
      exact congrArg BlockId.mk (by omega)

/-- A block of the first run corresponds to one that the second run emits into. -/
theorem block_owned (hb : K.Owns b) :
    K.block b = K.there ∨ K.second.blocks.size ≤ (K.block b).index := by
  unfold block
  by_cases hne : b = K.here
  · rw [if_pos hne]
    exact .inl rfl
  · rw [if_neg hne, if_neg (Nat.not_lt.2 (hb.resolve_left hne))]
    exact .inr (Nat.le_add_left _ _)

/-- A block of the first run corresponds to one of the second. -/
theorem hasBlock (hK : K.Fits) (hm : K.first.Extends m) (h : K.Mirrors m m') (howns : K.Owns b)
    (hb : m.HasBlock b) : m'.HasBlock (K.block b) := by
  have hsize := h.blocks_size
  have hle := hm.blocks
  have hthere := hK.there
  unfold Module.HasBlock at hb hthere ⊢
  unfold block
  by_cases hne : b = K.here
  · rw [if_pos hne]
    omega
  · have hnew := howns.resolve_left hne
    rw [if_neg hne, if_neg (Nat.not_lt.2 hnew)]
    dsimp only
    omega

/-! ## Reading corresponding modules -/

namespace Mirrors

variable (h : K.Mirrors m m')

include h

/-- Corresponding values have the same type. -/
theorem valueType (v : ValueId) : m'.valueType (K.value v) = m.valueType v := by
  simp only [Module.valueType, Array.getD_eq_getD_getElem?, h.values v]

/-- Corresponding blocks are both open or both closed. -/
theorem isTerminated (howns : K.Owns b) (hb : m.HasBlock b) :
    m'.isTerminated (K.block b) = m.isTerminated b := by
  rw [Module.isTerminated, (h.code b howns hb).terminator, Option.isSome_map, Module.isTerminated]

variable (hcovered : Grown m.types K.second.types)

include hcovered

/-- The types of the first module are those of the second. -/
theorem type {t : TyId} (ht : m.HasTy t) : m'.type t = m.type t := by
  rw [Module.type, h.types]
  exact hcovered.getD ht _

/-- What a pointer type points to. -/
theorem pointee? {t : TyId} (ht : m.HasTy t) : m'.pointee? t = m.pointee? t := by
  rw [Module.pointee?, h.type hcovered ht, Module.pointee?]

/-- A type that is found is found again. -/
theorem findType? {ty : Ty} {t : TyId} (ht : m.findType? ty = some t) :
    m'.findType? ty = some t := by
  rw [Module.findType?, Option.map_eq_some_iff] at ht ⊢
  obtain ⟨i, hi, rfl⟩ := ht
  refine ⟨i, ?_, rfl⟩
  rw [h.types]
  exact hcovered.findIdx? hi

/-- Types have the same names. -/
theorem typeName (hparts : ∀ t, m.HasTy t → ∀ part ∈ (m.type t).parts, m.HasTy part) {t : TyId}
    (ht : m.HasTy t) : m'.typeName t = m.typeName t := by
  have hbelow : ∀ bound t, m.HasTy t → m'.typeNameBelow bound t = m.typeNameBelow bound t := by
    intro bound
    induction bound with
    | zero => exact fun _ _ => rfl
    | succ bound ih =>
      intro t ht
      have hpart := hparts t ht
      unfold Module.typeNameBelow
      rw [h.type hcovered ht]
      cases htype : m.type t with
      | pointer pointee =>
        rw [htype] at hpart
        exact congrArg (· ++ "*") (ih pointee (hpart pointee (by simp [Ty.parts])))
      | struct name fields =>
        rw [htype] at hpart
        cases name with
        | some name => rfl
        | none =>
          have hfields : fields.map (m'.typeNameBelow bound) = fields.map (m.typeNameBelow bound) :=
            List.map_congr_left fun field hfield => ih field (hpart field hfield)
          dsimp only
          rw [hfields]
      | float bits => split <;> simp_all
      | void | int => rfl
  exact hbelow _ t ht

end Mirrors

/-! ## The start -/

section

variable (hK : K.Fits) (hopen : K.first.isTerminated K.here = false)

include hK hopen

/-- What is known when the first run begins. -/
theorem holds_first : K.Holds [K.here] [] K.first where
  confined := .refl _ _
  parts := hK.sound.types
  valueTypes v := by
    by_cases hv : K.first.HasValue v
    · exact hK.sound.values v hv
    · -- an id of no value has the first type, and the function of the block has some type
      have hfunc := (hK.sound.blocks K.here hK.here).func
      have hret := (hK.sound.functions _ hfunc).ret
      rw [Module.valueType, Array.getD_eq_getD_getElem?,
        Array.getElem?_eq_none (Nat.le_of_not_lt hv)]
      exact Nat.zero_lt_of_lt hret
  opened b hb := List.mem_singleton.1 hb ▸ ⟨.inl rfl, hK.here, hopen⟩
  distinct := by simp
  known _ ht := absurd ht List.not_mem_nil

/-- The two runs begin at corresponding points. -/
theorem mirrors_start (hopen' : K.second.isTerminated K.there = false) :
    K.Mirrors K.first K.second where
  types := rfl
  values v := by
    have hgrown := hK.grown.values
    by_cases hv : v.index < K.first.values.size
    · rw [value_of_lt hv, hgrown.getElem? hv]
    · rw [Array.getElem?_eq_none (Nat.le_of_not_lt hv), value, if_neg hv]
      exact Array.getElem?_eq_none (Nat.le_add_left _ _)
  values_size := Nat.add_comm _ _
  blocks_size := Nat.add_comm _ _
  confined := .refl _ _
  code b howns hb := by
    obtain rfl : b = K.here := howns.resolve_right (Nat.not_le.2 hb)
    have hblock : K.block K.here = K.there := if_pos rfl
    refine ⟨⟨#[], ?_, ?_⟩, ?_, fun hne => absurd rfl hne⟩
    · simp [before]
    · simp [before', hblock]
    · rw [hblock, Module.terminator_of_open hopen, Module.terminator_of_open hopen']
      rfl

end

/-! ## What is known -/

namespace Holds

variable (h : K.Holds blocks types m)

include h

/-- Less need be known. -/
theorem weaken {blocks' : List BlockId} {types' : List TyId} (hblocks : blocks' ⊆ blocks)
    (hdistinct : blocks.Nodup → blocks'.Nodup) (htypes : types' ⊆ types) :
    K.Holds blocks' types' m :=
  { h with
    opened := fun b hb => h.opened b (hblocks hb)
    distinct := hdistinct h.distinct
    known := fun t ht => h.known t (htypes ht) }

end Holds

/-! ## Steps of both runs -/

namespace Mirrors

variable (hK : K.Fits) (hm : K.first.Extends m) (h : K.Mirrors m m')

include h

/-- The first run has entered types. -/
theorem of_types (types : Array Ty) : K.Mirrors { m with types } m' :=
  ⟨h.types, h.values, h.values_size, h.blocks_size, h.confined, h.code⟩

include hm hK

/-- Both runs add a value. -/
theorem newValue (ty : TyId) (kind : ValueKind) :
    K.Mirrors (Module.newValue ty kind m).2 (Module.newValue ty kind m').2 where
  types := h.types
  values v := by
    -- a value is the next one of the first run exactly if its image is that of the second
    have hiff : (K.value v).index = m'.values.size ↔ v.index = m.values.size := by
      have hsize := h.values_size
      have hle := hm.values.size_le
      have hgrown := hK.grown.values.size_le
      unfold value
      split
      · omega
      · dsimp only
        omega
    simp only [Module.newValue, Array.getElem?_push, hiff, h.values v]
  values_size := by
    have := h.values_size
    simp only [Module.newValue, Array.size_push]
    omega
  blocks_size := h.blocks_size
  confined := h.confined.trans (.of_still _ (Module.newValue_spec ty kind m').1) (.inl rfl)
  code := h.code

/-- Both runs change corresponding blocks. -/
theorem modify {change change' : Block → Block} (howns : K.Owns b) (hb : m.HasBlock b)
    (hextends : (m'.block (K.block b)).Extends (change' (m'.block (K.block b))))
    (hcopies : K.Copies b (m.block b) (m'.block (K.block b)) →
      K.Copies b (change (m.block b)) (change' (m'.block (K.block b)))) :
    K.Mirrors { m with blocks := m.blocks.modify b.index change }
      { m' with blocks := m'.blocks.modify (K.block b).index change' } where
  types := h.types
  values := h.values
  values_size := h.values_size
  blocks_size := by simpa using h.blocks_size
  confined := h.confined.trans (.of_modify hextends) (block_owned howns)
  code b' howns' hb' := by
    replace hb' : m.HasBlock b' := by simpa [Module.HasBlock] using hb'
    by_cases hne : b' = b
    · subst hne
      rw [Module.block_modify_self hb', Module.block_modify_self (hasBlock hK hm h howns' hb')]
      exact hcopies (h.code b' howns' hb')
    · -- no two blocks of the run have the same image, so the others are as they were
      rw [Module.block_modify_of_ne hne,
        Module.block_modify_of_ne fun heq => hne (block_injective hK howns' howns heq)]
      exact h.code b' howns' hb'

/-- Both runs append a block. -/
theorem appendBlock (func : FuncId) (label : String) :
    K.Mirrors (Module.appendBlock func label m).2 (Module.appendBlock func label m').2 where
  types := h.types
  values := h.values
  values_size := h.values_size
  blocks_size := by
    have := h.blocks_size
    simp only [Module.appendBlock_size]
    omega
  confined := h.confined.trans (.of_append _ m' func label) (.inl rfl)
  code b howns hb := by
    by_cases hlt : m.HasBlock b
    · rw [Module.appendBlock_block_of_lt m func label hlt,
        Module.appendBlock_block_of_lt m' func label (hasBlock hK hm h howns hlt)]
      exact h.code b howns hlt
    · -- the new block is the one whose image the second run appends; both are empty
      have heq : b = ⟨m.blocks.size⟩ := congrArg BlockId.mk
        (Nat.le_antisymm (Nat.lt_succ_iff.1
          (by simpa [Module.HasBlock, Module.appendBlock_size] using hb)) (Nat.le_of_not_lt hlt))
      have hhere : b ≠ K.here := by
        rintro rfl
        exact hlt (hm.hasBlock hK.here)
      have hself := Module.appendBlock_block_self m func label
      have hself' := Module.appendBlock_block_self m' func label
      rw [block_next hK hm h] at hself'
      rw [← heq] at hself hself'
      rw [hself, hself']
      refine ⟨⟨#[], ?_, ?_⟩, rfl, fun _ => ⟨rfl, rfl⟩⟩
      · simp [before, hhere]
      · simp [before', hhere]

end Mirrors

namespace Holds

variable (h : K.Holds blocks types m)

include h

/-- A type of the module may be known. -/
theorem learn {t : TyId} (ht : m.HasTy t) : K.Holds blocks (t :: types) m := by
  refine { h with known := fun t' ht' => ?_ }
  rcases List.mem_cons.1 ht' with rfl | ht'
  · exact ht
  · exact h.known t' ht'

/-- A type was entered. -/
theorem internType {ty : Ty} (hunnamed : ty.isNamed = false)
    (hparts : ∀ part ∈ ty.parts, part ∈ types) :
    K.Holds blocks ((Module.internType ty m).1 :: types) (Module.internType ty m).2 := by
  obtain ⟨hstill, hfound⟩ := Module.internType_spec ty hunnamed m
  have hm := hstill.toExtends
  have hvalues : (Module.internType ty m).2.values = m.values := by
    unfold Module.internType
    split <;> rfl
  refine ⟨h.confined.trans (.of_still _ hstill) (.inl rfl), fun t ht part hpart => ?_,
    fun v => ?_, fun b hb => ?_, h.distinct, ?_⟩
  · rcases Module.hasTy_internType ht with hold | hnew
    · rw [hm.type hold] at hpart
      exact hm.hasTy (h.parts t hold part hpart)
    · rw [hnew] at hpart
      exact hm.hasTy (h.known part (hparts part hpart))
  · rw [Module.valueType, hvalues, ← Module.valueType]
    exact hm.hasTy (h.valueTypes v)
  · obtain ⟨howns, hhas, hopen⟩ := h.opened b hb
    exact ⟨howns, hm.hasBlock hhas, by rw [hstill.isTerminated, hopen]⟩
  · rintro t (_ | ⟨_, ht⟩)
    · exact (Array.getElem?_eq_some_iff.1 (Module.type_of_find hfound)).1
    · exact hm.hasTy (h.known t ht)

/-- A value was added. -/
theorem newValue {ty : TyId} (hty : ty ∈ types) (kind : ValueKind) :
    K.Holds blocks types (Module.newValue ty kind m).2 := by
  have hstill := (Module.newValue_spec ty kind m).1
  refine ⟨h.confined.trans (.of_still _ hstill) (.inl rfl), h.parts, fun v => ?_, h.opened,
    h.distinct, h.known⟩
  -- ids of no value have a default type, so the new value has to be told from all others
  by_cases heq : v.index = m.values.size
  · have hself := Module.valueType_newValue ty kind m
    rw [← heq] at hself
    have hself : (Module.newValue ty kind m).2.valueType v = ty := hself
    rw [hself]
    exact h.known ty hty
  · have hsame : (Module.newValue ty kind m).2.valueType v = m.valueType v := by
      simp [Module.newValue, Module.valueType, Array.getD_eq_getD_getElem?, Array.getElem?_push,
        heq]
    rw [hsame]
    exact h.valueTypes v

/-- An open block was changed. The blocks that are said to be open are so still. -/
theorem modify {change : Block → Block} {blocks' : List BlockId} (hb : b ∈ blocks)
    (hextends : (m.block b).Extends (change (m.block b))) (hblocks : blocks' ⊆ blocks)
    (hdistinct : blocks'.Nodup)
    (hopen : b ∈ blocks' → (change (m.block b)).terminator = none) :
    K.Holds blocks' types { m with blocks := m.blocks.modify b.index change } := by
  have hm : m.Extends { m with blocks := m.blocks.modify b.index change } :=
    Module.modify_extends fun _ => hextends
  refine ⟨h.confined.trans (.of_modify hextends) (h.opened b hb).1, h.parts, h.valueTypes,
    fun b' hb' => ?_, hdistinct, h.known⟩
  obtain ⟨howns, hhas, hopen'⟩ := h.opened b' (hblocks hb')
  refine ⟨howns, hm.hasBlock hhas, ?_⟩
  rw [Module.isTerminated]
  by_cases hne : b' = b
  · subst hne
    rw [Module.block_modify_self hhas, hopen hb', Option.isSome_none]
  · rw [Module.block_modify_of_ne hne]
    exact hopen'

/-- A block was appended. -/
theorem appendBlock (func : FuncId) (label : String) :
    K.Holds (⟨m.blocks.size⟩ :: blocks) types (Module.appendBlock func label m).2 := by
  have hm := Module.appendBlock_extends m func label
  refine ⟨h.confined.trans (.of_append _ m func label) (.inl rfl), h.parts, h.valueTypes, ?_,
    List.nodup_cons.2 ⟨fun hmem => ?_, h.distinct⟩, h.known⟩
  · rintro b (_ | ⟨_, hb⟩)
    · refine ⟨.inr h.confined.extended.blocks, ?_, ?_⟩
      · simp [Module.HasBlock, Module.appendBlock_size]
      · rw [Module.isTerminated, Module.appendBlock_block_self]
        rfl
    · obtain ⟨howns, hhas, hopen⟩ := h.opened b hb
      refine ⟨howns, hm.hasBlock hhas, ?_⟩
      rw [Module.isTerminated, Module.appendBlock_block_of_lt m func label hhas]
      exact hopen
  · exact absurd (h.opened _ hmem).2.1 (Nat.lt_irrefl _)

end Holds

end Rerun

end FormCompiler.Ir
