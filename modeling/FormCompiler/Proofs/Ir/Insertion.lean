import FormCompiler.Proofs.Ir.Flow

/-!
# Insertion Blocks

Code is emitted into one function at a time, at the end of its insertion block. `Grows func b m m'`
says that code was emitted into `func` from `b` on and that nothing else of the module was changed.
If the code goes on in a block `b'`, that is the only one of the blocks involved that is open
(`Inserts`); between the two branches of a conditional there are two of them (`Branches`).
-/

namespace FormCompiler.Ir.Module

variable {func : FuncId} {b b₁ b₂ b' : BlockId} {m m' m'' m₁ m₂ m₃ m₄ : Module}

/-- A block that is closed stays so. -/
theorem Extends.isTerminated (h : m.Extends m') (hb : b.index < m.blocks.size)
    (hclosed : m.isTerminated b = true) : m'.isTerminated b = true := by
  unfold Module.isTerminated at hclosed ⊢
  rwa [(h.block b hb).closed hclosed]

/-- A block that was closed is so. -/
theorem Closed.isTerminated_self {t : Terminator} (h : Closed b t m m')
    (hb : b.index < m.blocks.size) : m'.isTerminated b = true := by
  rw [Module.isTerminated, h.block_self hb]
  rfl

/-- A block that is not changed is open as before. -/
theorem Confined.isTerminated (h : Confined b m m') (hb : b'.index < m.blocks.size)
    (hne : b' ≠ b) : m'.isTerminated b' = m.isTerminated b' := by
  unfold Module.isTerminated
  rw [h.others b' hb hne]

/-- Code was emitted into a function from a block on: blocks were appended to it, and of the
blocks there were only that one was changed. -/
structure Grows (func : FuncId) (b : BlockId) (m m' : Module) : Prop extends Confined b m m' where
  /-- No named type was added. -/
  named : TypesGrown m m'
  functions : m'.functions.size = m.functions.size
  otherFunctions : ∀ f, f ≠ func → m'.function f = m.function f
  listed : ∀ b' : BlockId, b' ∈ (m'.function func).blocks ↔
    b' ∈ (m.function func).blocks ∨ (m.blocks.size ≤ b'.index ∧ b'.index < m'.blocks.size)
  owned : ∀ b' : BlockId, m.blocks.size ≤ b'.index → b'.index < m'.blocks.size →
    (m'.block b').func = func

namespace Grows

/-- The blocks and functions are as they were. -/
theorem of_eq (h : Confined b m m') (hnamed : TypesGrown m m')
    (hblocks : m'.blocks.size = m.blocks.size) (hfunctions : m'.functions = m.functions) :
    Grows func b m m' where
  toConfined := h
  named := hnamed
  functions := by rw [hfunctions]
  otherFunctions f _ := by rw [function, function, hfunctions]
  listed b' := by
    have hno : ¬ (m.blocks.size ≤ b'.index ∧ b'.index < m'.blocks.size) := by omega
    rw [function, function, hfunctions]
    exact ⟨.inl, fun h => h.resolve_right hno⟩
  owned b' hb' hlt := absurd hlt (by omega)

/-- Types and values may be added. -/
theorem of_still (h : Still m m') : Grows func b m m' :=
  .of_eq (.of_still b h) h.types (by rw [h.blocks]) h.functions

/-- An instruction is added to its block. -/
theorem of_emitted {i : Instr} (h : Emitted b i m m') : Grows func b m m' :=
  .of_eq (.of_emitted h) h.types h.size_blocks h.functions

/-- A block is closed. -/
theorem of_closed {t : Terminator} (h : Closed b t m m') : Grows func b m m' :=
  .of_eq (.of_closed h) h.types h.size_blocks h.functions

/-- A block is appended. -/
theorem of_append {label : String} (hfunc : func.index < m.functions.size)
    (h : appendBlock func label m = (b', m')) : Grows func b m m' := by
  have hm' : m' = (appendBlock func label m).2 := by rw [h]
  subst hm'
  have hsize := appendBlock_size m func label
  refine ⟨.of_append b m func label, .of_eq rfl, ?_, fun f hf => ?_, fun b' => ?_,
    fun b' hb' hlt => ?_⟩
  · exact Array.size_modify
  · exact appendBlock_function_of_ne m func label hf
  · rw [appendBlock_function_self m func label hfunc, hsize, Array.mem_push]
    have hindex : b' = ⟨m.blocks.size⟩ ↔
        m.blocks.size ≤ b'.index ∧ b'.index < m.blocks.size + 1 := by
      obtain ⟨i⟩ := b'
      rw [BlockId.mk.injEq]
      dsimp only
      omega
    rw [hindex]
  · have hb : b' = ⟨m.blocks.size⟩ := by
      obtain ⟨i⟩ := b'
      rw [BlockId.mk.injEq]
      dsimp only at hb' hlt ⊢
      omega
    rw [hb, appendBlock_block_self]

/-- Code may be emitted several times, from the block or from a new one on. -/
theorem trans (h : Grows func b m m') (h' : Grows func b₁ m' m'')
    (hb₁ : b₁ = b ∨ m.blocks.size ≤ b₁.index) : Grows func b m m'' where
  toConfined := h.toConfined.trans h'.toConfined hb₁
  named := h.named.trans h'.named
  functions := h'.functions.trans h.functions
  otherFunctions f hf := (h'.otherFunctions f hf).trans (h.otherFunctions f hf)
  listed b' := by
    rw [h'.listed, h.listed]
    have hle := h.extended.blocks
    have hle' := h'.extended.blocks
    constructor
    · rintro ((h | h) | h)
      · exact .inl h
      · exact .inr (by omega)
      · exact .inr (by omega)
    · rintro (h | h)
      · exact .inl (.inl h)
      · by_cases hlt : b'.index < m'.blocks.size
        · exact .inl (.inr ⟨h.1, hlt⟩)
        · exact .inr ⟨Nat.le_of_not_lt hlt, h.2⟩
  owned b' hb' hlt := by
    by_cases hlt' : b'.index < m'.blocks.size
    · rw [(h'.extended.block b' hlt').func]
      exact h.owned b' hb' hlt'
    · exact h'.owned b' (Nat.le_of_not_lt hlt') hlt

end Grows

/-- Code may be emitted into a function at the end of a block. -/
structure Insertion (func : FuncId) (m : Module) (b : BlockId) : Prop where
  inTable : b.index < m.blocks.size
  isOpen : m.isTerminated b = false
  owner : (m.block b).func = func
  funcInTable : func.index < m.functions.size

/-- Code was emitted into a function from a block on and goes on in a block, which is the only one
of the blocks involved that is open. -/
structure Inserts (func : FuncId) (m : Module) (b : BlockId) (m' : Module) (b' : BlockId) :
    Prop where
  start : Insertion func m b
  grows : Grows func b m m'
  stop : Insertion func m' b'
  fresh : b' = b ∨ m.blocks.size ≤ b'.index
  left : b' ≠ b → m'.isTerminated b = true
  closed : ∀ b₁ : BlockId, m.blocks.size ≤ b₁.index → b₁.index < m'.blocks.size → b₁ ≠ b' →
    m'.isTerminated b₁ = true

/-- Control branches from a block; code goes on in two blocks, which are the only ones of the blocks
involved that are open. -/
structure Branches (func : FuncId) (m : Module) (b : BlockId) (m' : Module)
    (onTrue onFalse : BlockId) : Prop where
  start : Insertion func m b
  grows : Grows func b m m'
  readyTrue : Insertion func m' onTrue
  readyFalse : Insertion func m' onFalse
  freshTrue : m.blocks.size ≤ onTrue.index
  freshFalse : m.blocks.size ≤ onFalse.index
  distinct : onTrue ≠ onFalse
  left : m'.isTerminated b = true
  closed : ∀ b₁ : BlockId, m.blocks.size ≤ b₁.index → b₁.index < m'.blocks.size →
    b₁ ≠ onTrue → b₁ ≠ onFalse → m'.isTerminated b₁ = true

namespace Insertion

/-- Code that is emitted into the block leaves it open. -/
theorem inserts (h : Insertion func m b) (hgrows : Grows func b m m')
    (hsize : m'.blocks.size = m.blocks.size) (hopen : m'.isTerminated b = false) :
    Inserts func m b m' b where
  start := h
  grows := hgrows
  stop := ⟨by rw [hsize]; exact h.inTable, hopen,
    ((hgrows.extended.block b h.inTable).func).trans h.owner,
    by rw [hgrows.functions]; exact h.funcInTable⟩
  fresh := .inl rfl
  left hne := absurd rfl hne
  closed b₁ hb₁ hlt := absurd hlt (by omega)

/-- Types and values may be added. -/
theorem still (h : Insertion func m b) (hm : Still m m') : Inserts func m b m' b :=
  h.inserts (.of_still hm) (by rw [hm.blocks]) (by rw [hm.isTerminated, h.isOpen])

/-- An instruction may be added. -/
theorem emitted (h : Insertion func m b) {i : Instr} (hm : Emitted b i m m') :
    Inserts func m b m' b :=
  h.inserts (.of_emitted hm) hm.size_blocks (hm.isTerminated h.inTable)

/-- Code may be emitted into a new block. -/
theorem of_append {label : String} (hfunc : func.index < m.functions.size)
    (h : appendBlock func label m = (b, m')) :
    Insertion func m' b ∧ b.index = m.blocks.size ∧ m'.blocks.size = m.blocks.size + 1 := by
  have hgrows := Grows.of_append (b := b) hfunc h
  have hb : b = ⟨m.blocks.size⟩ := by rw [← appendBlock_fst m func label, h]
  have hm' : m' = (appendBlock func label m).2 := by rw [h]
  have hsize : m'.blocks.size = m.blocks.size + 1 := by rw [hm', appendBlock_size]
  have hblock : m'.block b = ⟨func, label, #[], none⟩ := by
    rw [hb, hm', appendBlock_block_self]
  refine ⟨⟨?_, ?_, ?_, ?_⟩, by rw [hb], hsize⟩
  · rw [hb, hsize]
    exact Nat.lt_succ_self _
  · rw [isTerminated, hblock]
    rfl
  · rw [hblock]
  · rw [hgrows.functions]
    exact hfunc

/-- Another block may be changed. -/
theorem confined (h : Insertion func m b) (hgrows : Grows func b₁ m m') (hne : b ≠ b₁) :
    Insertion func m' b where
  inTable := Nat.lt_of_lt_of_le h.inTable hgrows.extended.blocks
  isOpen := by rw [hgrows.isTerminated h.inTable hne, h.isOpen]
  owner := by rw [hgrows.others b h.inTable hne, h.owner]
  funcInTable := by rw [hgrows.functions]; exact h.funcInTable

end Insertion

/-- Code may go on several times. -/
theorem Inserts.trans (h : Inserts func m b m₁ b₁) (h' : Inserts func m₁ b₁ m₂ b₂) :
    Inserts func m b m₂ b₂ where
  start := h.start
  grows := h.grows.trans h'.grows h.fresh
  stop := h'.stop
  fresh := by
    rcases h'.fresh with rfl | hb₂
    · exact h.fresh
    · exact .inr (Nat.le_trans h.grows.extended.blocks hb₂)
  left hne := by
    by_cases hb₁ : b₁ = b
    · subst hb₁
      exact h'.left hne
    · exact h'.grows.extended.isTerminated
        (Nat.lt_of_lt_of_le h.start.inTable h.grows.extended.blocks) (h.left hb₁)
  closed b' hb' hlt hne := by
    by_cases hlt' : b'.index < m₁.blocks.size
    · by_cases hb₁ : b' = b₁
      · subst hb₁
        exact h'.left hne.symm
      · exact h'.grows.extended.isTerminated hlt' (h.closed b' hb' hlt' hb₁)
    · exact h'.closed b' (Nat.le_of_not_lt hlt') hlt hne

namespace Branches

variable {onTrue onFalse onTrue' target : BlockId}

/-- A block was closed by a branch to two new blocks. -/
theorem of_fork (h : Insertion func m b) {v : ValueId}
    (hTrue : appendBlock func "then" m = (onTrue, m₁))
    (hFalse : appendBlock func "else" m₁ = (onFalse, m₂))
    (hclosed : Closed b (.condBr v onTrue onFalse) m₂ m₃) :
    Branches func m b m₃ onTrue onFalse := by
  obtain ⟨hready, hindex, hsize⟩ := Insertion.of_append h.funcInTable hTrue
  obtain ⟨hready', hindex', hsize'⟩ := Insertion.of_append hready.funcInTable hFalse
  have hgrows := Grows.of_append (b := b) h.funcInTable hTrue
  have hgrows' := Grows.of_append (b := b) hready.funcInTable hFalse
  have hgrows₃ : Grows func b m₂ m₃ := .of_closed hclosed
  have hb := h.inTable
  have hne : onTrue ≠ b := by rintro rfl; omega
  have hne' : onFalse ≠ b := by rintro rfl; omega
  have hsize₃ := hclosed.size_blocks
  exact {
    start := h
    grows := (hgrows.trans hgrows' (.inl rfl)).trans hgrows₃ (.inl rfl)
    readyTrue := (hready.confined hgrows' hne).confined hgrows₃ hne
    readyFalse := hready'.confined hgrows₃ hne'
    freshTrue := Nat.le_of_eq hindex.symm
    freshFalse := by omega
    distinct := by rintro rfl; omega
    left := hclosed.isTerminated_self (by omega)
    closed := fun b₁ hb₁ hlt hTrue hFalse => by
      have hold : b₁.index ≠ onTrue.index := fun h => hTrue (congrArg BlockId.mk h)
      have hnew : b₁.index ≠ onFalse.index := fun h => hFalse (congrArg BlockId.mk h)
      omega }

/-- The branches may be exchanged. -/
theorem swap (h : Branches func m b m' onTrue onFalse) : Branches func m b m' onFalse onTrue :=
  ⟨h.start, h.grows, h.readyFalse, h.readyTrue, h.freshFalse, h.freshTrue, h.distinct.symm, h.left,
    fun b₁ hb₁ hlt hFalse hTrue => h.closed b₁ hb₁ hlt hTrue hFalse⟩

/-- Code may go on in a branch. -/
theorem inserts (h : Branches func m b m₁ onTrue onFalse)
    (h' : Inserts func m₁ onTrue m₂ onTrue') : Branches func m b m₂ onTrue' onFalse where
  start := h.start
  grows := h.grows.trans h'.grows (.inr h.freshTrue)
  readyTrue := h'.stop
  readyFalse := h.readyFalse.confined h'.grows h.distinct.symm
  freshTrue := by
    rcases h'.fresh with rfl | hfresh
    · exact h.freshTrue
    · exact Nat.le_trans h.grows.extended.blocks hfresh
  freshFalse := h.freshFalse
  distinct := by
    rcases h'.fresh with rfl | hfresh
    · exact h.distinct
    · rintro rfl
      exact absurd h.readyFalse.inTable (Nat.not_lt.2 hfresh)
  left := h'.grows.extended.isTerminated
    (Nat.lt_of_lt_of_le h.start.inTable h.grows.extended.blocks) h.left
  -- a block left behind was closed before, or is where the branch began, or came later
  closed b₁ hb₁ hlt hTrue hFalse := by
    by_cases hlt' : b₁.index < m₁.blocks.size
    · by_cases hb₁' : b₁ = onTrue
      · subst hb₁'
        exact h'.left hTrue.symm
      · exact h'.grows.extended.isTerminated hlt' (h.closed b₁ hb₁ hlt' hb₁' hFalse)
    · exact h'.closed b₁ (Nat.le_of_not_lt hlt') hlt hTrue

/-- Both branches go on in a new block. -/
theorem merged (h : Branches func m b m₁ onTrue onFalse)
    (happend : appendBlock func "merge" m₁ = (target, m₂))
    (hTrue : Closed onTrue (.br target) m₂ m₃) (hFalse : Closed onFalse (.br target) m₃ m₄) :
    Inserts func m b m₄ target := by
  obtain ⟨hready, hindex, hsize⟩ := Insertion.of_append h.readyTrue.funcInTable happend
  have happended := Grows.of_append (b := b) h.readyTrue.funcInTable happend
  have hgrowsTrue : Grows func onTrue m₂ m₃ := .of_closed hTrue
  have hgrowsFalse : Grows func onFalse m₃ m₄ := .of_closed hFalse
  have hextends := happended.extended.trans (hgrowsTrue.extended.trans hgrowsFalse.extended)
  have hltTrue := h.readyTrue.inTable
  have hltFalse := h.readyFalse.inTable
  -- the block where both go on is newer than either branch
  have hneTrue : target ≠ onTrue := by rintro rfl; omega
  have hneFalse : target ≠ onFalse := by rintro rfl; omega
  have hle := h.grows.extended.blocks
  have hsize₃ := hTrue.size_blocks
  have hsize₄ := hFalse.size_blocks
  have hb := h.start.inTable
  exact {
    start := h.start
    grows := ((h.grows.trans happended (.inl rfl)).trans hgrowsTrue (.inr h.freshTrue)).trans
      hgrowsFalse (.inr h.freshFalse)
    stop := (hready.confined hgrowsTrue hneTrue).confined hgrowsFalse hneFalse
    fresh := .inr (by omega)
    left := fun _ => hextends.isTerminated (by omega) h.left
    closed := fun b₁ hb₁ hlt hne => by
      have hne' : b₁.index ≠ target.index := fun h => hne (congrArg BlockId.mk h)
      by_cases hTrue' : b₁ = onTrue
      · subst hTrue'
        exact hgrowsFalse.extended.isTerminated (by omega) (hTrue.isTerminated_self (by omega))
      · by_cases hFalse' : b₁ = onFalse
        · subst hFalse'
          exact hFalse.isTerminated_self (by omega)
        · exact hextends.isTerminated (by omega) (h.closed b₁ hb₁ (by omega) hTrue' hFalse') }

end Branches

/-! ## Blocks left open -/

/-- The open blocks of a function were closed; nothing else was changed. -/
structure Finished (func : FuncId) (m m' : Module) : Prop where
  extended : m.Extends m'
  types : m'.types = m.types
  values : m'.values = m.values
  functions : m'.functions = m.functions
  size : m'.blocks.size = m.blocks.size
  block : ∀ b : BlockId, m'.block b = m.block b ∨ m'.block b = closeBlock (m.block b)
  closed : ∀ b ∈ (m.function func).blocks, b.index < m.blocks.size → m'.isTerminated b = true

/-- A block that is made unreachable where it is open is closed. -/
theorem closeBlock_closed (b : Block) : (closeBlock b).terminator.isSome = true := by
  unfold closeBlock
  cases b.terminator <;> rfl

/-- Closing a block twice is closing it once. -/
theorem closeBlock_closeBlock (b : Block) : closeBlock (closeBlock b) = closeBlock b := by
  unfold closeBlock
  cases b.terminator <;> rfl

/-- Closing blocks changes them alone. -/
theorem closeBlocks_spec (ids : List BlockId) (m : Module) :
    ∃ blocks : Array Block,
      ids.foldl (fun m b => { m with blocks := m.blocks.modify b.index closeBlock }) m =
        { m with blocks } ∧ blocks.size = m.blocks.size ∧
      (∀ b : BlockId, ({ m with blocks } : Module).block b = m.block b ∨
        ({ m with blocks } : Module).block b = closeBlock (m.block b)) ∧
      ∀ b ∈ ids, b.index < m.blocks.size → ({ m with blocks } : Module).isTerminated b = true := by
  induction ids generalizing m with
  | nil => exact ⟨m.blocks, rfl, rfl, fun _ => .inl rfl, nofun⟩
  | cons id ids ih =>
    obtain ⟨blocks, hrun, hsize, hblock, hclosed⟩ :=
      ih { m with blocks := m.blocks.modify id.index closeBlock }
    rw [Array.size_modify] at hsize
    have hfirst : ∀ b : BlockId, b.index < m.blocks.size →
        ({ m with blocks := m.blocks.modify id.index closeBlock } : Module).block b =
          if b = id then closeBlock (m.block b) else m.block b := by
      intro b hb
      split
      next h => rw [h, block_modify_self (m := m) (h ▸ hb)]
      next h => exact block_modify_of_ne (m := m) h
    -- a block that is closed twice is closed as it was the first time
    have hboth : ∀ b : BlockId, ({ m with blocks } : Module).block b = m.block b ∨
        ({ m with blocks } : Module).block b = closeBlock (m.block b) := by
      intro b
      by_cases hb : b.index < m.blocks.size
      · have h := hblock b
        rw [hfirst b hb] at h
        split at h
        · rw [closeBlock_closeBlock] at h
          exact .inr (or_self_iff.1 h)
        · exact h
      · refine .inl ?_
        simp only [Module.block, Array.getD_eq_getD_getElem?]
        rw [Array.getElem?_eq_none (by omega), Array.getElem?_eq_none (by omega)]
    refine ⟨blocks, hrun, hsize, hboth, fun b hmem hb => ?_⟩
    rcases List.mem_cons.1 hmem with rfl | hmem
    · have h := hblock b
      rw [hfirst b hb, if_pos rfl, closeBlock_closeBlock, or_self] at h
      exact (congrArg (·.terminator.isSome) h).trans (closeBlock_closed _)
    · exact hclosed b hmem (by rwa [Array.size_modify])

/-- Finishing a function closes its blocks. -/
theorem finishFunction_finished (func : FuncId) (m : Module) :
    Finished func m (finishFunction func m).2 := by
  obtain ⟨blocks, hrun, hsize, hblock, hclosed⟩ :=
    closeBlocks_spec (m.function func).blocks.toList m
  have hm' : (finishFunction func m).2 = { m with blocks } := by
    rw [← hrun, finishFunction, Array.foldl_toList]
  have hextends := finishFunction_extends func m
  rw [hm'] at hextends ⊢
  exact ⟨hextends, rfl, rfl, rfl, hsize, hblock,
    fun b hb => hclosed b (Array.mem_toList_iff.2 hb)⟩

/-- Where every block of a function is closed there is nothing to repair. -/
theorem finishFunction_fst (hclosed : ∀ b ∈ (m.function func).blocks, m.isTerminated b = true) :
    (finishFunction func m).1 = 0 := by
  rw [finishFunction]
  dsimp only
  rw [Array.filter_eq_empty_iff.2 fun b hb => ?_]
  · rfl
  · rw [hclosed b hb]
    simp

/-- A block that is open was so before. -/
theorem Extends.isOpen (h : Extends m m') (hopen : m'.isTerminated b = false) :
    m.isTerminated b = false := by
  by_cases hb : b.index < m.blocks.size
  · by_contra hclosed
    rw [Bool.not_eq_false] at hclosed
    rw [h.isTerminated hb hclosed] at hopen
    cases hopen
  · have hnone := Array.getElem?_eq_none (Nat.le_of_not_lt hb)
    rw [Module.isTerminated, Module.block, Array.getD_eq_getD_getElem?, hnone]
    rfl

/-- No block of a function is left open that was not so before. -/
def Tidy (m m' : Module) : Prop :=
  ∀ (f : FuncId) (b : BlockId), b ∈ (m'.function f).blocks → m'.isTerminated b = false →
    b ∈ (m.function f).blocks ∧ m.isTerminated b = false

namespace Tidy

instance : Std.Refl Tidy := ⟨fun _ _ _ hb hopen => ⟨hb, hopen⟩⟩

instance : IsTrans Module Tidy where
  trans _ _ _ h h' f b hb hopen :=
    have ⟨hb', hopen'⟩ := h' f b hb hopen
    h f b hb' hopen'

/-- Types and values may be added. -/
theorem of_eq (hblocks : m'.blocks = m.blocks) (hfunctions : m'.functions = m.functions) :
    Tidy m m' := by
  intro f b hb hopen
  rw [isTerminated, Module.block, hblocks] at hopen
  rw [function, hfunctions] at hb
  exact ⟨hb, hopen⟩

/-- A function may be declared. -/
theorem of_declared {symbol : String} {tys : List TyId} {ret : TyId} {linkage : Linkage}
    (h : Declared symbol tys ret linkage func m m') : Tidy m m' := by
  intro f b hb hopen
  by_cases hf : f.index < m.functions.size
  · rw [h.function_of_lt hf] at hb
    rw [isTerminated, Module.block, h.blocks] at hopen
    exact ⟨hb, hopen⟩
  · obtain ⟨params, hfunctions, -⟩ := h.functions
    have hnone : (m'.function f).blocks = #[] := by
      rw [function, hfunctions, Array.getD_eq_getD_getElem?, Array.getElem?_push]
      split
      · rfl
      · rw [Array.getElem?_eq_none (by omega)]
        rfl
    rw [hnone] at hb
    exact absurd hb (Array.not_mem_empty b)

/-- Code may be emitted into a new block of a function that had none, if its blocks are closed in
the end. -/
theorem of_grows (h : Grows func b m m₁) (hextends : m₁.Extends m')
    (hfunctions : m'.functions = m₁.functions)
    (hclosed : ∀ b' ∈ (m₁.function func).blocks, m'.isTerminated b' = true) : Tidy m m' := by
  intro f b' hb' hopen
  have hopen₁ := hextends.isOpen hopen
  rw [function, hfunctions] at hb'
  by_cases hf : f = func
  · subst hf
    exact absurd (hclosed b' hb') (by rw [hopen]; exact Bool.false_ne_true)
  · refine ⟨?_, h.extended.isOpen hopen₁⟩
    rw [← h.otherFunctions f hf]
    exact hb'

end Tidy

end FormCompiler.Ir.Module
