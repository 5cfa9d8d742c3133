import FormCompiler.Proofs.Ir.Insertion

/-!
# Dominance and Single Assignment

Control goes along the edges between blocks, from the entry of a function on. A block dominates
another one if every path to that one goes through it, so what an instruction of it computes is
available there. In a module of static single assignment form every operand is available where it
is used, and a phi selects among the predecessors of its block.

* `Edge`, `Path`, `Dominates`, `Available`: the flow graph, and what is available at a place.
* `SsaForm`, `Ssa`: the form of one function, and of a module.
* `Flows`: blocks have no edges that they did not have, so what was available there still is.
* `Wired`: blocks were appended, and open ones closed by edges to these.
-/

namespace FormCompiler.Ir.Module

/-- Control may go from the first block to the second one. -/
def Edge (m : Module) (a b : BlockId) : Prop :=
  ∃ t, (m.block a).terminator = some t ∧ b ∈ t.successors

/-- Control may come from the entry to the block by way of these blocks, the last one first. -/
inductive Path (m : Module) (entry : BlockId) : BlockId → List BlockId → Prop
  | entry : Path m entry entry [entry]
  | step {a b : BlockId} {path : List BlockId} (before : Path m entry a path)
      (edge : m.Edge a b) : Path m entry b (b :: path)

/-- Every path from the entry of the function to the second block goes through the first one. -/
def Dominates (m : Module) (f : FuncId) (d b : BlockId) : Prop :=
  ∀ entry path, (m.function f).blocks[0]? = some entry → m.Path entry b path → d ∈ path

/-- The value may be used at a position in a block of the function: it is a constant, a parameter
of the function, or the result of an instruction that comes earlier in the block or in another one
that dominates it. -/
inductive Available (m : Module) (f : FuncId) (b : BlockId) (position : Nat) (v : ValueId) : Prop
  | constant {value : Value} (found : m.values[v.index]? = some value)
      (constant : value.kind.isConstant = true)
  | param (listed : v ∈ (m.function f).params)
  | result {d : BlockId} {i : Nat} {instr : Instr} (listed : d ∈ (m.function f).blocks)
      (found : (m.block d).instrs[i]? = some instr) (dst : instr.dst? = some v)
      (dominates : m.Dominates f d b) (before : d = b → i < position)

/-- The value may be used after all instructions of the block. -/
def AvailableAtEnd (m : Module) (f : FuncId) (b : BlockId) (v : ValueId) : Prop :=
  m.Available f b (m.block b).instrs.size v

/-- There is one incoming value for each predecessor of the block, which may be used at its end. -/
structure Selects (m : Module) (f : FuncId) (b : BlockId) (incoming : List (ValueId × BlockId)) :
    Prop where
  nodup : (incoming.map (·.2)).Nodup
  predecessor : ∀ a, a ∈ incoming.map (·.2) ↔ m.Edge a b
  available : ∀ p ∈ incoming, m.AvailableAtEnd f p.2 p.1

/-- The instruction may stand at a position in a block of the function. -/
inductive Placed (m : Module) (f : FuncId) (b : BlockId) (position : Nat) : Instr → Prop
  | phi {v : ValueId} {incoming : List (ValueId × BlockId)} (first : position = 0)
      (selects : m.Selects f b incoming) : Placed m f b position (.phi v incoming)
  | plain {instr : Instr} (noPhi : ∀ v incoming, instr ≠ .phi v incoming)
      (available : ∀ v ∈ instr.uses, m.Available f b position v) : Placed m f b position instr

/-- A function of static single assignment form: its instructions may stand where they do, and the
operands of its terminators are available. -/
structure SsaForm (m : Module) (f : FuncId) : Prop where
  placed : ∀ b ∈ (m.function f).blocks, ∀ i instr, (m.block b).instrs[i]? = some instr →
    m.Placed f b i instr
  terminators : ∀ b ∈ (m.function f).blocks, ∀ t, (m.block b).terminator = some t →
    ∀ v ∈ t.uses, m.AvailableAtEnd f b v

/-- A module of static single assignment form: its functions are of that form, no value is the
result of two instructions, and blocks, edges and results are within the tables. -/
structure Ssa (m : Module) : Prop where
  form : ∀ f, m.SsaForm f
  single : ∀ (v : ValueId) (b b' : BlockId) (i i' : Nat) (instr instr' : Instr),
    (m.block b).instrs[i]? = some instr → (m.block b').instrs[i']? = some instr' →
    instr.dst? = some v → instr'.dst? = some v → b = b' ∧ i = i'
  owned : ∀ f, ∀ b ∈ (m.function f).blocks, b.index < m.blocks.size ∧ (m.block b).func = f
  targets : ∀ a b, m.Edge a b → b.index < m.blocks.size
  defined : ∀ (b : BlockId) (i : Nat) (instr : Instr) (v : ValueId),
    (m.block b).instrs[i]? = some instr → instr.dst? = some v → v.index < m.values.size

variable {f func : FuncId} {a b d x entry : BlockId} {i : Nat} {v : ValueId} {instr : Instr}
  {path : List BlockId} {m m₁ m₂ m₃ m' m'' : Module}

/-! ## Blocks that are not in the table -/

/-- A block that is not in the table is empty and open. -/
theorem block_of_not_lt (h : ¬ b.index < m.blocks.size) :
    (m.block b).instrs = #[] ∧ (m.block b).terminator = none := by
  rw [Module.block, Array.getD_eq_getD_getElem?, Array.getElem?_eq_none (Nat.le_of_not_lt h)]
  exact ⟨rfl, rfl⟩

/-- A block with an instruction is in the table. -/
theorem lt_of_instr (h : (m.block b).instrs[i]? = some instr) : b.index < m.blocks.size := by
  by_contra hb
  rw [(block_of_not_lt hb).1] at h
  cases h

/-- A block that is closed is in the table. -/
theorem lt_of_terminator {t : Terminator} (h : (m.block b).terminator = some t) :
    b.index < m.blocks.size := by
  by_contra hb
  rw [(block_of_not_lt hb).2] at h
  cases h

/-- Control goes from blocks of the table. -/
theorem Edge.lt (h : m.Edge a b) : a.index < m.blocks.size := by
  obtain ⟨t, ht, -⟩ := h
  exact lt_of_terminator ht

/-- A function with a block is in the table. -/
theorem function_lt (h : b ∈ (m.function f).blocks) : f.index < m.functions.size := by
  by_contra hf
  rw [Module.function, Array.getD_eq_getD_getElem?,
    Array.getElem?_eq_none (Nat.le_of_not_lt hf)] at h
  exact Array.not_mem_empty b h

/-! ## Paths -/

namespace Path

/-- A path leads to its last block. -/
theorem mem_self (h : m.Path entry b path) : b ∈ path := by
  cases h <;> exact List.mem_cons_self

/-- A path leads to each of its blocks. -/
theorem before (h : m.Path entry b path) (ha : a ∈ path) :
    ∃ path', m.Path entry a path' ∧ path' ⊆ path := by
  induction h with
  | entry =>
    rw [List.mem_singleton] at ha
    exact ⟨_, ha ▸ .entry, List.Subset.refl _⟩
  | @step a' b' path hbefore hedge ih =>
    rcases List.mem_cons.1 ha with rfl | ha
    · exact ⟨_, .step hbefore hedge, List.Subset.refl _⟩
    · obtain ⟨path', hpath', hsubset⟩ := ih ha
      exact ⟨path', hpath', List.subset_cons_of_subset _ hsubset⟩

end Path

namespace Dominates

/-- A block dominates itself. -/
theorem refl (m : Module) (f : FuncId) (b : BlockId) : m.Dominates f b b :=
  fun _ _ _ hpath => hpath.mem_self

/-- What dominates a dominator dominates. -/
theorem trans (h : m.Dominates f d a) (h' : m.Dominates f a b) : m.Dominates f d b := by
  intro entry path hentry hpath
  obtain ⟨path', hpath', hsubset⟩ := hpath.before (h' entry path hentry hpath)
  exact hsubset (h entry path' hentry hpath')

/-- What dominates all predecessors of a block other than the entry dominates the block. -/
theorem of_predecessors (hentry : (m.function f).blocks[0]? ≠ some b)
    (h : ∀ a, m.Edge a b → m.Dominates f d a) : m.Dominates f d b := by
  intro entry path hentry' hpath
  cases hpath with
  | entry => exact absurd hentry' hentry
  | step hbefore hedge => exact List.mem_cons_of_mem _ (h _ hedge entry _ hentry' hbefore)

end Dominates

/-! ## Availability -/

/-- What is available at a position is available later in the block. -/
theorem Available.later {position position' : Nat} (h : m.Available f b position v)
    (hle : position ≤ position') : m.Available f b position' v := by
  cases h with
  | constant found constant => exact .constant found constant
  | param listed => exact .param listed
  | result listed found dst dominates before =>
    exact .result listed found dst dominates fun hd => Nat.lt_of_lt_of_le (before hd) hle

namespace AvailableAtEnd

/-- What an instruction of the block computes is available at its end. -/
theorem of_instr (hb : b ∈ (m.function f).blocks) (hinstr : (m.block b).instrs[i]? = some instr)
    (hdst : instr.dst? = some v) : m.AvailableAtEnd f b v :=
  .result hb hinstr hdst (.refl m f b) fun _ => (Array.getElem?_eq_some_iff.1 hinstr).1

/-- What is available at the end of a dominator is available at the end of the block. -/
theorem of_dominates (h : m.AvailableAtEnd f a v) (hdom : m.Dominates f a b) :
    m.AvailableAtEnd f b v := by
  cases h with
  | constant found constant => exact .constant found constant
  | param listed => exact .param listed
  | @result d i instr listed found dst dominates before =>
    refine .result listed found dst (dominates.trans hdom) ?_
    rintro rfl
    exact (Array.getElem?_eq_some_iff.1 found).1

end AvailableAtEnd

/-! ## Modules whose old blocks get no further edges -/

/-- The second module extends the first one, and control does not come to the blocks of the first
one from anywhere else. -/
structure Flows (m m' : Module) : Prop where
  extended : m.Extends m'
  edges : ∀ a b : BlockId, b.index < m.blocks.size → m'.Edge a b → m.Edge a b

/-- Edges stay. -/
theorem Extends.edge (h : m.Extends m') (hedge : m.Edge a b) : m'.Edge a b := by
  obtain ⟨t, ht, hb⟩ := hedge
  have hblock := (h.block a (lt_of_terminator ht)).closed (by rw [ht]; rfl)
  exact ⟨t, by rw [hblock, ht], hb⟩

/-- The blocks of a function stay. -/
theorem Extends.listed (h : m.Extends m') (hb : b ∈ (m.function f).blocks) :
    b ∈ (m'.function f).blocks := by
  obtain ⟨extra, hextra⟩ := (h.function f (function_lt hb)).blocks
  rw [hextra]
  exact Array.mem_append_left _ hb

/-- The entry of a function that has one stays. -/
theorem Extends.entry_eq (h : m.Extends m') (hx : x ∈ (m.function f).blocks) :
    (m'.function f).blocks[0]? = (m.function f).blocks[0]? :=
  (h.function f (function_lt hx)).blocks.getElem? (Array.size_pos_of_mem hx)

namespace Flows

/-- Nothing need be changed. -/
theorem refl (m : Module) : Flows m m := ⟨.refl m, fun _ _ _ h => h⟩

/-- Modules may be extended several times. -/
theorem trans (h : Flows m m') (h' : Flows m' m'') : Flows m m'' where
  extended := h.extended.trans h'.extended
  edges a b hb hedge :=
    h.edges a b hb (h'.edges a b (Nat.lt_of_lt_of_le hb h.extended.blocks) hedge)

/-- There are no further paths to an old block. -/
theorem path_of_lt (h : Flows m m') (hpath : m'.Path entry b path) (hb : b.index < m.blocks.size) :
    m.Path entry b path := by
  induction hpath with
  | entry => exact .entry
  | step _ hedge ih =>
    have hold := h.edges _ _ hb hedge
    exact .step (ih hold.lt) hold

/-- An old block is dominated as before. -/
theorem dominates (h : Flows m m') (hx : x ∈ (m.function f).blocks)
    (hb : b.index < m.blocks.size) (hdom : m.Dominates f d b) : m'.Dominates f d b := by
  intro entry path hentry hpath
  rw [h.extended.entry_eq hx] at hentry
  exact hdom entry path hentry (h.path_of_lt hpath hb)

/-- What was available in an old block still is. -/
theorem available {position : Nat} (h : Flows m m') (hx : x ∈ (m.function f).blocks)
    (hb : b.index < m.blocks.size) (hv : m.Available f b position v) :
    m'.Available f b position v := by
  cases hv with
  | constant found constant => exact .constant (h.extended.values.getElem?_some found) constant
  | param listed =>
    refine .param ?_
    rwa [(h.extended.function f (function_lt hx)).params]
  | result listed found dst dominates before =>
    have hgrown := (h.extended.block _ (lt_of_instr found)).instrs
    exact .result (h.extended.listed listed) (hgrown.getElem?_some found) dst
      (h.dominates hx hb dominates) before

/-- What was available at the end of an old block still is. -/
theorem availableAtEnd (h : Flows m m') (hx : x ∈ (m.function f).blocks)
    (hb : b.index < m.blocks.size) (hv : m.AvailableAtEnd f b v) : m'.AvailableAtEnd f b v :=
  (h.available hx hb hv).later (h.extended.block b hb).instrs.size_le

/-- An instruction may stand where it could. -/
theorem placed {position : Nat} (h : Flows m m') (hx : x ∈ (m.function f).blocks)
    (hb : b.index < m.blocks.size) (hinstr : m.Placed f b position instr) :
    m'.Placed f b position instr := by
  cases hinstr with
  | plain noPhi available => exact .plain noPhi fun v hv => h.available hx hb (available v hv)
  | @phi v incoming first selects =>
    refine .phi first ⟨selects.nodup, fun a => ?_, fun p hp => ?_⟩
    · rw [selects.predecessor]
      exact ⟨h.extended.edge, h.edges a b hb⟩
    · have hedge := (selects.predecessor p.2).1 (List.mem_map_of_mem hp)
      exact h.availableAtEnd hx hedge.lt (selects.available p hp)

end Flows

/-! ## Instructions added -/

namespace Emitted

variable (h : Emitted b instr m m') (hb : b.index < m.blocks.size)

include h hb

/-- Blocks end as before. -/
theorem terminator (x : BlockId) : (m'.block x).terminator = (m.block x).terminator := by
  by_cases hx : x = b
  · rw [hx, h.block_self hb]
  · rw [h.block_of_ne hx]

/-- The only further instruction is the one that was added. -/
theorem instr_of_instr {other : Instr} (hfound : (m'.block x).instrs[i]? = some other) :
    (m.block x).instrs[i]? = some other ∨
      x = b ∧ i = (m.block b).instrs.size ∧ other = instr := by
  by_cases hx : x = b
  · subst hx
    rw [h.block_self hb, Array.getElem?_push] at hfound
    split at hfound
    next hi => exact .inr ⟨rfl, hi, (Option.some.inj hfound).symm⟩
    next => exact .inl hfound
  · rw [h.block_of_ne hx] at hfound
    exact .inl hfound

/-- The instruction stands at the end of its block. -/
theorem instr_self : (m'.block b).instrs[(m.block b).instrs.size]? = some instr := by
  rw [h.block_self hb, Array.getElem?_push_size]

/-- Edges are as before. -/
theorem flows : Flows m m' where
  extended := h.toExtends
  edges a _ _ hedge := by
    obtain ⟨t, ht, hmem⟩ := hedge
    rw [h.terminator hb] at ht
    exact ⟨t, ht, hmem⟩

/-- An instruction that may stand where it is added keeps the form. -/
theorem ssa (hs : m.Ssa) (hplaced : ∀ f, b ∈ (m.function f).blocks →
    m'.Placed f b (m.block b).instrs.size instr) : m'.Ssa where
  form f := by
    -- what stood before still stands in a place that its values reach
    have hflows := h.flows hb
    refine ⟨fun x hx i other hfound => ?_, fun x hx t ht v hv => ?_⟩
    · rw [h.function] at hx
      rcases h.instr_of_instr hb hfound with hold | ⟨rfl, rfl, rfl⟩
      · exact hflows.placed hx (hs.owned f x hx).1 ((hs.form f).placed x hx i other hold)
      · exact hplaced f hx
    · rw [h.function] at hx
      rw [h.terminator hb] at ht
      exact hflows.availableAtEnd hx (hs.owned f x hx).1 ((hs.form f).terminators x hx t ht v hv)
  single v x x' i i' other other' hfound hfound' hdst hdst' := by
    -- what the instruction that was added computes is a new value
    have hnew : instr.dst? = some v → ∀ (y : BlockId) (j : Nat) (old : Instr),
        (m.block y).instrs[j]? = some old → old.dst? ≠ some v := fun hv y j old hold hdst =>
      absurd (hs.defined y j old v hold hdst) (Nat.not_lt.2 (h.fresh v hv).1)
    rcases h.instr_of_instr hb hfound with hold | ⟨rfl, rfl, rfl⟩
    · rcases h.instr_of_instr hb hfound' with hold' | ⟨rfl, rfl, rfl⟩
      · exact hs.single v x x' i i' other other' hold hold' hdst hdst'
      · exact absurd hdst (hnew hdst' x i other hold)
    · rcases h.instr_of_instr hb hfound' with hold' | ⟨rfl, rfl, rfl⟩
      · exact absurd hdst' (hnew hdst x' i' other' hold')
      · exact ⟨rfl, rfl⟩
  owned f x hx := by
    rw [h.function] at hx
    obtain ⟨hlt, howner⟩ := hs.owned f x hx
    exact ⟨by rwa [h.size_blocks], ((h.toExtends.block x hlt).func).trans howner⟩
  targets a c hedge := by
    obtain ⟨t, ht, hmem⟩ := hedge
    rw [h.terminator hb] at ht
    rw [h.size_blocks]
    exact hs.targets a c ⟨t, ht, hmem⟩
  defined x i other v hfound hdst := by
    rcases h.instr_of_instr hb hfound with hold | ⟨rfl, rfl, rfl⟩
    · exact Nat.lt_of_lt_of_le (hs.defined x i other v hold hdst) h.values.size_le
    · obtain ⟨-, ty, hty⟩ := h.fresh v hdst
      exact (Array.getElem?_eq_some_iff.1 hty).1

end Emitted

/-! ## Blocks appended and closed -/

/-- Blocks were appended, and open blocks were closed by terminators that go to these and whose
operands were available. -/
structure Wired (m m' : Module) : Prop where
  extended : m.Extends m'
  instrs : ∀ x : BlockId, x.index < m.blocks.size → (m'.block x).instrs = (m.block x).instrs
  fresh : ∀ x : BlockId, m.blocks.size ≤ x.index →
    (m'.block x).instrs = #[] ∧ (m'.block x).terminator = none
  ends : ∀ (x : BlockId) (t : Terminator), x.index < m.blocks.size →
    (m'.block x).terminator = some t → (m.block x).terminator = some t ∨
      (∀ y ∈ t.successors, m.blocks.size ≤ y.index ∧ y.index < m'.blocks.size) ∧
        ∀ v ∈ t.uses, m.AvailableAtEnd (m.block x).func x v
  listed : ∀ f, ∀ x ∈ (m'.function f).blocks, x ∈ (m.function f).blocks ∨
    (m.blocks.size ≤ x.index ∧ x.index < m'.blocks.size ∧ (m'.block x).func = f)

namespace Wired

/-- The blocks and functions are as they were. -/
theorem of_eq (h : m.Extends m') (hblocks : m'.blocks = m.blocks)
    (hfunctions : ∀ f, (m'.function f).blocks = (m.function f).blocks) : Wired m m' := by
  have hblock : ∀ x, m'.block x = m.block x := fun x => by
    rw [Module.block, hblocks, Module.block]
  refine ⟨h, fun x _ => by rw [hblock], fun x hx => ?_, fun x t _ ht => .inl ?_,
    fun f x hx => .inl ?_⟩
  · rw [hblock]
    exact block_of_not_lt (Nat.not_lt.2 hx)
  · rwa [hblock] at ht
  · rwa [hfunctions] at hx

/-- Types and values may be added. -/
theorem of_still (h : Still m m') : Wired m m' :=
  .of_eq h.toExtends h.blocks fun f => by rw [h.function]

/-- A block may be appended. -/
theorem append {label : String} (h : Wired m m₁) (hfunc : func.index < m₁.functions.size)
    (happend : appendBlock func label m₁ = (b, m₂)) : Wired m m₂ := by
  have hm₂ : m₂ = (appendBlock func label m₁).2 := by rw [happend]
  have hextends : m₁.Extends m₂ := hm₂ ▸ appendBlock_extends m₁ func label
  have hgrows : Grows func b m₁ m₂ := .of_append hfunc happend
  have hsize : m₂.blocks.size = m₁.blocks.size + 1 := by rw [hm₂, appendBlock_size]
  have hold : ∀ x : BlockId, x.index < m₁.blocks.size → m₂.block x = m₁.block x := fun x hx => by
    rw [hm₂, appendBlock_block_of_lt m₁ func label hx]
  have hle := h.extended.blocks
  refine ⟨h.extended.trans hextends, fun x hx => ?_, fun x hx => ?_, fun x t hx ht => ?_,
    fun f x hx => ?_⟩
  · rw [hold x (by omega), h.instrs x hx]
  · -- a block is fresh if it was so before, or is the one appended, or is in no table
    by_cases hlt : x.index < m₁.blocks.size
    · rw [hold x hlt]
      exact h.fresh x hx
    · by_cases hx₂ : x.index < m₂.blocks.size
      · have hself : x = ⟨m₁.blocks.size⟩ := by
          obtain ⟨index⟩ := x
          rw [BlockId.mk.injEq]
          dsimp only at hlt hx₂
          omega
        rw [hself, hm₂, appendBlock_block_self]
        exact ⟨rfl, rfl⟩
      · exact block_of_not_lt hx₂
  · rw [hold x (by omega)] at ht
    rcases h.ends x t hx ht with hsame | ⟨hsuccessors, huses⟩
    · exact .inl hsame
    · exact .inr ⟨fun y hy => ⟨(hsuccessors y hy).1, by have := (hsuccessors y hy).2; omega⟩,
        huses⟩
  · -- only the function that the block is appended to lists another block
    by_cases hf : f = func
    · subst hf
      rcases (hgrows.listed x).1 hx with hx | ⟨hx, hlt⟩
      · rcases h.listed f x hx with hx | ⟨hx, hlt, howner⟩
        · exact .inl hx
        · exact .inr ⟨hx, by omega, by rw [hold x hlt, howner]⟩
      · exact .inr ⟨by omega, hlt, hgrows.owned x hx hlt⟩
    · rw [hgrows.otherFunctions f hf] at hx
      rcases h.listed f x hx with hx | ⟨hx, hlt, howner⟩
      · exact .inl hx
      · exact .inr ⟨hx, by omega, by rw [hold x hlt, howner]⟩

/-- A block may be closed by edges to the appended blocks. -/
theorem close {t : Terminator} (h : Wired m m₁) (hb : b.index < m.blocks.size)
    (hclosed : Closed b t m₁ m₂)
    (hsuccessors : ∀ y ∈ t.successors, m.blocks.size ≤ y.index ∧ y.index < m₁.blocks.size)
    (huses : ∀ v ∈ t.uses, m.AvailableAtEnd (m.block b).func b v) : Wired m m₂ := by
  have hb₁ : b.index < m₁.blocks.size := Nat.lt_of_lt_of_le hb h.extended.blocks
  have hself := hclosed.block_self hb₁
  have hsize := hclosed.size_blocks
  refine ⟨h.extended.trans hclosed.toExtends, fun x hx => ?_, fun x hx => ?_, fun x t' hx ht => ?_,
    fun f x hx => ?_⟩
  · by_cases hne : x = b
    · rw [hne, hself, h.instrs b hb]
    · rw [hclosed.block_of_ne hne, h.instrs x hx]
  · rw [hclosed.block_of_ne (by rintro rfl; omega)]
    exact h.fresh x hx
  · rw [hsize]
    by_cases hne : x = b
    · rw [hne, hself] at ht
      cases ht
      exact .inr ⟨hsuccessors, hne ▸ huses⟩
    · rw [hclosed.block_of_ne hne] at ht
      exact h.ends x t' hx ht
  · rw [hclosed.function] at hx
    rw [hsize]
    rcases h.listed f x hx with hx | ⟨hx, hlt, howner⟩
    · exact .inl hx
    · exact .inr ⟨hx, hlt, by rw [hclosed.block_of_ne (by rintro rfl; omega), howner]⟩

/-- The open blocks of a function may be made unreachable. -/
theorem of_finished (h : Finished func m m') : Wired m m' := by
  have hinstrs : ∀ x, (m'.block x).instrs = (m.block x).instrs := fun x => by
    rcases h.block x with hx | hx
    · rw [hx]
    · rw [hx, closeBlock]
  refine ⟨h.extended, fun x _ => hinstrs x, fun x hx => ?_, fun x t hx ht => ?_, fun f x hx => ?_⟩
  · exact block_of_not_lt (by rw [h.size]; omega)
  · rcases h.block x with hsame | hclosed
    · exact .inl (by rwa [hsame] at ht)
    · rw [hclosed, closeBlock] at ht
      cases hterminator : (m.block x).terminator with
      | some t' =>
        rw [hterminator] at ht
        exact .inl ht
      | none =>
        rw [hterminator] at ht
        cases ht
        exact .inr ⟨nofun, nofun⟩
  · rw [function, h.functions] at hx
    exact .inl hx

/-- A function may be declared. -/
theorem of_declared {symbol : String} {tys : List TyId} {ret : TyId} {linkage : Linkage}
    (h : Declared symbol tys ret linkage func m m') : Wired m m' := by
  refine .of_eq h.toExtends h.blocks fun f => ?_
  by_cases hf : f.index < m.functions.size
  · rw [h.function_of_lt hf]
  · obtain ⟨params, hfunctions, -⟩ := h.functions
    rw [function, function, hfunctions, Array.getD_eq_getD_getElem?, Array.getD_eq_getD_getElem?,
      Array.getElem?_push, Array.getElem?_eq_none (Nat.le_of_not_lt hf)]
    split <;> rfl

variable (h : Wired m m')

include h

/-- Old blocks get no further edges. -/
theorem flows : Flows m m' where
  extended := h.extended
  edges a b hb hedge := by
    obtain ⟨t, ht, hmem⟩ := hedge
    by_cases ha : a.index < m.blocks.size
    · rcases h.ends a t ha ht with hold | ⟨hsuccessors, -⟩
      · exact ⟨t, hold, hmem⟩
      · exact absurd hb (Nat.not_lt.2 (hsuccessors b hmem).1)
    · rw [(h.fresh a (Nat.le_of_not_lt ha)).2] at ht
      cases ht

/-- There are no further instructions. -/
theorem instr_of_instr (hfound : (m'.block x).instrs[i]? = some instr) :
    (m.block x).instrs[i]? = some instr := by
  by_cases hx : x.index < m.blocks.size
  · rwa [h.instrs x hx] at hfound
  · rw [(h.fresh x (Nat.le_of_not_lt hx)).1] at hfound
    cases hfound

/-- The form is kept. -/
theorem ssa (hs : m.Ssa) : m'.Ssa where
  form f := by
    refine ⟨fun x hx i instr hfound => ?_, fun x hx t ht v hv => ?_⟩
    · have hold := h.instr_of_instr hfound
      have hx' := (h.listed f x hx).resolve_right fun hnew =>
        absurd (lt_of_instr hold) (Nat.not_lt.2 hnew.1)
      exact h.flows.placed hx' (lt_of_instr hold) ((hs.form f).placed x hx' i instr hold)
    · -- a terminator of an old block is the old one, or uses what the block had at its end
      by_cases hlt : x.index < m.blocks.size
      · have hx' := (h.listed f x hx).resolve_right fun hnew => absurd hlt (Nat.not_lt.2 hnew.1)
        refine h.flows.availableAtEnd hx' hlt ?_
        rcases h.ends x t hlt ht with hold | ⟨-, huses⟩
        · exact (hs.form f).terminators x hx' t hold v hv
        · exact (hs.owned f x hx').2 ▸ huses v hv
      · rw [(h.fresh x (Nat.le_of_not_lt hlt)).2] at ht
        cases ht
  single v x x' i i' instr instr' hfound hfound' :=
    hs.single v x x' i i' instr instr' (h.instr_of_instr hfound) (h.instr_of_instr hfound')
  owned f x hx := by
    rcases h.listed f x hx with hx | ⟨-, hlt, howner⟩
    · obtain ⟨hlt, howner⟩ := hs.owned f x hx
      exact ⟨Nat.lt_of_lt_of_le hlt h.extended.blocks,
        ((h.extended.block x hlt).func).trans howner⟩
    · exact ⟨hlt, howner⟩
  targets a b hedge := by
    obtain ⟨t, ht, hmem⟩ := hedge
    by_cases ha : a.index < m.blocks.size
    · rcases h.ends a t ha ht with hold | ⟨hsuccessors, -⟩
      · exact Nat.lt_of_lt_of_le (hs.targets a b ⟨t, hold, hmem⟩) h.extended.blocks
      · exact (hsuccessors b hmem).2
    · rw [(h.fresh a (Nat.le_of_not_lt ha)).2] at ht
      cases ht
  defined x i instr v hfound hdst := Nat.lt_of_lt_of_le
    (hs.defined x i instr v (h.instr_of_instr hfound) hdst) h.extended.values.size_le

end Wired

end FormCompiler.Ir.Module
