import FormCompiler.Proofs.Ir.Operations

/-!
# Where Code Is Emitted

Code for an expression goes to the block it is given and to blocks of its own. `Confined b m m'`
says that of the blocks of `m` only `b` was changed, and `Leads b m b' m'` that besides the code
goes on in the open block `b'`, which is `b` itself or a new block. Control may branch to two new
blocks (`Forked`), from which code leads to one block again (`Forked.merged`).
-/

namespace FormCompiler.Ir.Module

/-- Of the blocks there were only `b` was changed. -/
structure Confined (b : BlockId) (m m' : Module) : Prop where
  extended : m.Extends m'
  others : ∀ b' : BlockId, b'.index < m.blocks.size → b' ≠ b → m'.block b' = m.block b'

/-- Besides, code goes on from `b` in `b'`. -/
structure Leads (b : BlockId) (m : Module) (b' : BlockId) (m' : Module) : Prop where
  confined : Confined b m m'
  inTable : b'.index < m'.blocks.size
  isOpen : m'.isTerminated b' = false
  fresh : b' = b ∨ m.blocks.size ≤ b'.index

/-- A block was closed after two blocks were appended, which are empty and open. -/
structure Forked (b : BlockId) (m m' : Module) (onTrue onFalse : BlockId) : Prop where
  confined : Confined b m m'
  indexTrue : onTrue.index = m.blocks.size
  indexFalse : onFalse.index = m.blocks.size + 1
  size : m'.blocks.size = m.blocks.size + 2
  instrsTrue : (m'.block onTrue).instrs = #[]
  instrsFalse : (m'.block onFalse).instrs = #[]
  openTrue : m'.isTerminated onTrue = false
  openFalse : m'.isTerminated onFalse = false

namespace Confined

variable {b b₁ : BlockId} {i : Instr} {t : Terminator} {m m' m'' : Module}

/-- Nothing need be changed. -/
theorem refl (b : BlockId) (m : Module) : Confined b m m := ⟨.refl m, fun _ _ _ => rfl⟩

/-- Types and values may be added. -/
theorem of_still (b : BlockId) (h : Still m m') : Confined b m m' :=
  ⟨h.toExtends, fun b' _ _ => h.block b'⟩

/-- An instruction is added to its block. -/
theorem of_emitted (h : Emitted b i m m') : Confined b m m' :=
  ⟨h.toExtends, fun _ _ hne => h.block_of_ne hne⟩

/-- A block is closed. -/
theorem of_closed (h : Closed b t m m') : Confined b m m' :=
  ⟨h.toExtends, fun _ _ hne => h.block_of_ne hne⟩

/-- A block is appended. -/
theorem of_append (b : BlockId) (m : Module) (func : FuncId) (label : String) :
    Confined b m (appendBlock func label m).2 :=
  ⟨appendBlock_extends m func label, fun _ hb' _ => appendBlock_block_of_lt m func label hb'⟩

/-- The block itself is changed. -/
theorem of_modify {change : Block → Block} (h : (m.block b).Extends (change (m.block b))) :
    Confined b m { m with blocks := m.blocks.modify b.index change } :=
  ⟨modify_extends fun _ => h, fun _ _ hne => block_modify_of_ne hne⟩

/-- The block or a new one may be changed afterwards. -/
theorem trans (h : Confined b m m') (h' : Confined b₁ m' m'')
    (hb₁ : b₁ = b ∨ m.blocks.size ≤ b₁.index) : Confined b m m'' := by
  refine ⟨h.extended.trans h'.extended, fun b' hb' hne => ?_⟩
  rw [h'.others b' (Nat.lt_of_lt_of_le hb' h.extended.blocks), h.others b' hb' hne]
  rcases hb₁ with rfl | hb₁
  · exact hne
  · rintro rfl
    exact absurd hb' (Nat.not_lt.2 hb₁)

end Confined

namespace Leads

variable {b b₁ b₂ : BlockId} {i : Instr} {m m' m'' : Module}

/-- Code goes on in a block that is open. -/
theorem refl (hb : b.index < m.blocks.size) (hopen : m.isTerminated b = false) :
    Leads b m b m := ⟨.refl b m, hb, hopen, .inl rfl⟩

/-- Types and values may be added. -/
theorem of_still (h : Still m m') (hb : b.index < m.blocks.size)
    (hopen : m.isTerminated b = false) : Leads b m b m' :=
  ⟨.of_still b h, by rwa [h.blocks], by rwa [h.isTerminated], .inl rfl⟩

/-- Code goes on after an instruction. -/
theorem of_emitted (h : Emitted b i m m') (hb : b.index < m.blocks.size) : Leads b m b m' :=
  ⟨.of_emitted h, by rwa [h.size_blocks], h.isTerminated hb, .inl rfl⟩

/-- Code may go on several times. -/
theorem trans (h : Leads b m b₁ m') (h' : Leads b₁ m' b₂ m'') : Leads b m b₂ m'' where
  confined := h.confined.trans h'.confined h.fresh
  inTable := h'.inTable
  isOpen := h'.isOpen
  fresh := by
    rcases h'.fresh with rfl | hb₂
    · exact h.fresh
    · exact .inr (Nat.le_trans h.confined.extended.blocks hb₂)

/-- Types and values may be added afterwards. -/
theorem still (h : Leads b m b₁ m') (h' : Still m' m'') : Leads b m b₁ m'' :=
  h.trans (.of_still h' h.inTable h.isOpen)

/-- An instruction may be added afterwards. -/
theorem emitted (h : Leads b m b₁ m') (h' : Emitted b₁ i m' m'') : Leads b m b₁ m'' :=
  h.trans (.of_emitted h' h.inTable)

end Leads

namespace Forked

variable {func : FuncId} {b onTrue onFalse endTrue endFalse target : BlockId}
  {label label' : String} {t t' : Terminator} {m m₁ m₂ m₃ m₄ m₅ m₆ : Module}

/-- Two blocks are appended, and then another one is closed. -/
theorem of_closed (hb : b.index < m.blocks.size)
    (hTrue : appendBlock func label m = (onTrue, m₁))
    (hFalse : appendBlock func label' m₁ = (onFalse, m₂)) (hclosed : Closed b t m₂ m₃) :
    Forked b m m₃ onTrue onFalse := by
  obtain ⟨hindex, hsize, hblock, -⟩ := appendBlock_spec hTrue
  obtain ⟨hindex', hsize', hblock', hold'⟩ := appendBlock_spec hFalse
  have hm₁ : m₁ = (appendBlock func label m).2 := by rw [hTrue]
  have hm₂ : m₂ = (appendBlock func label' m₁).2 := by rw [hFalse]
  have hsize₃ := hclosed.size_blocks
  have hblockTrue : m₃.block onTrue = ⟨func, label, #[], none⟩ := by
    rw [hclosed.block_of_ne (by rintro rfl; omega), hold' onTrue (by omega), hblock]
  have hblockFalse : m₃.block onFalse = ⟨func, label', #[], none⟩ := by
    rw [hclosed.block_of_ne (by rintro rfl; omega), hblock']
  exact {
    confined := ((hm₁ ▸ Confined.of_append b m func label).trans
      (hm₂ ▸ Confined.of_append b m₁ func label') (.inl rfl)).trans (.of_closed hclosed) (.inl rfl)
    indexTrue := hindex
    indexFalse := by omega
    size := by omega
    instrsTrue := by rw [hblockTrue]
    instrsFalse := by rw [hblockFalse]
    openTrue := by rw [isTerminated, hblockTrue]; rfl
    openFalse := by rw [isTerminated, hblockFalse]; rfl }

section

variable (h : Forked b m m₁ onTrue onFalse) (hTrue : Leads onTrue m₁ endTrue m₂)

include h hTrue

omit hTrue in
/-- The first branch is in the table. -/
theorem lt_onTrue : onTrue.index < m₁.blocks.size := by
  rw [h.indexTrue, h.size]
  omega

/-- Code in the first branch leaves the second one alone. -/
theorem onFalse_block : m₂.block onFalse = m₁.block onFalse := by
  have hindex := h.indexTrue
  have hindex' := h.indexFalse
  refine hTrue.confined.others onFalse (by rw [h.size]; omega) ?_
  rintro rfl
  omega

/-- Code may be emitted into the second branch after it was into the first one. -/
theorem ready_onFalse : onFalse.index < m₂.blocks.size ∧ m₂.isTerminated onFalse = false := by
  have hle := hTrue.confined.extended.blocks
  have hsize := h.size
  refine ⟨by rw [h.indexFalse]; omega, ?_⟩
  rw [isTerminated, h.onFalse_block hTrue]
  exact h.openFalse

/-- The first branch does not end in the entry of the second one. -/
theorem endTrue_ne : endTrue ≠ onFalse := by
  have hindex := h.indexTrue
  have hindex' := h.indexFalse
  have hsize := h.size
  rcases hTrue.fresh with rfl | hfresh <;> rintro rfl <;> omega

variable (hFalse : Leads onFalse m₂ endFalse m₃)

include hFalse

/-- Code in the second branch leaves the end of the first one alone. -/
theorem endTrue_block : m₃.block endTrue = m₂.block endTrue :=
  hFalse.confined.others endTrue hTrue.inTable (h.endTrue_ne hTrue)

/-- The branches end in different blocks. -/
theorem ends_ne : endFalse ≠ endTrue := by
  rcases hFalse.fresh with rfl | hfresh
  · exact (h.endTrue_ne hTrue).symm
  · rintro rfl
    exact absurd hTrue.inTable (Nat.not_lt.2 hfresh)

/-- Code goes on in an empty block that both branches go on to. -/
theorem merged (happend : appendBlock func label m₃ = (target, m₄))
    (hclosed : Closed endTrue t m₄ m₅) (hclosed' : Closed endFalse t' m₅ m₆) :
    Leads b m target m₆ ∧ (m₆.block target).instrs = #[] := by
  obtain ⟨hindex, hsize, hblock, -⟩ := appendBlock_spec happend
  have hm₄ : m₄ = (appendBlock func label m₃).2 := by rw [happend]
  have hltTrue : endTrue.index < m₃.blocks.size :=
    Nat.lt_of_lt_of_le hTrue.inTable hFalse.confined.extended.blocks
  have hltFalse := hFalse.inTable
  have hsize₅ := hclosed.size_blocks
  have hsize₆ := hclosed'.size_blocks
  have hle := h.confined.extended.blocks
  have hle₂ := hTrue.confined.extended.blocks
  have hle₃ := hFalse.confined.extended.blocks
  have hlast : m₆.block target = ⟨func, label, #[], none⟩ := by
    rw [hclosed'.block_of_ne (by rintro rfl; omega), hclosed.block_of_ne (by rintro rfl; omega),
      hblock]
  have hindexTrue := h.indexTrue
  have hindexFalse := h.indexFalse
  -- every block that was changed after the fork is new
  have hfresh : m.blocks.size ≤ endTrue.index := by
    rcases hTrue.fresh with rfl | hfresh <;> omega
  have hfresh' : m.blocks.size ≤ endFalse.index := by
    rcases hFalse.fresh with rfl | hfresh <;> omega
  have hbranches : Confined b m m₃ := (h.confined.trans hTrue.confined (.inr (by omega))).trans
    hFalse.confined (.inr (by omega))
  have hconfined : Confined b m m₆ := ((hbranches.trans
    (hm₄ ▸ Confined.of_append b m₃ func label) (.inl rfl)).trans (.of_closed hclosed)
      (.inr hfresh)).trans (.of_closed hclosed') (.inr hfresh')
  refine ⟨⟨hconfined, by omega, ?_, .inr (by omega)⟩, by rw [hlast]⟩
  rw [isTerminated, hlast]
  rfl

end

end Forked

end FormCompiler.Ir.Module
