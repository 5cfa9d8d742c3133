import FormCompiler.Proofs.Lower.RerunExpressions
import FormCompiler.Proofs.SoundUnits
import Mathlib.Data.Set.Function

/-!
# Expressions Leave Nothing Behind

Processing an expression without macros leaves types, values, blocks and reports behind, and none of
them makes a difference afterwards: the same expression processed again gives the same result and
the same code, up to the ids of what was made, or is refused with the same report
(`process_repeatable`).

* `Ir.SameCode`: the code that was emitted into two modules is the same up to values and blocks.
* `Lower.SameAgain`: the outcomes of two runs correspond.
-/

namespace FormCompiler

namespace Ir

/-- The values that the second module has and the first one has not. -/
def Module.madeValues (m m' : Module) : Set ValueId := {v | ¬ m.HasValue v ∧ m'.HasValue v}

/-- The blocks that the second module has and the first one has not. -/
def Module.madeBlocks (m m' : Module) : Set BlockId := {b | ¬ m.HasBlock b ∧ m'.HasBlock b}

/-- Code was emitted from `b₁` on, which led from `m₁` to `m₁'`, and other code from `b₂` on, which
led from `m₂` to `m₂'`. It is the same code but for the values and blocks that were made: those of
the one correspond to those of the other by `value` and `block`. -/
structure SameCode (value : ValueId → ValueId) (block : BlockId → BlockId) (b₁ : BlockId)
    (m₁ m₁' : Module) (b₂ : BlockId) (m₂ m₂' : Module) : Prop where
  /-- All code is in the first block and in blocks that were made. -/
  confined : Module.Confined b₁ m₁ m₁'
  confined' : Module.Confined b₂ m₂ m₂'
  values : Set.BijOn value (m₁.madeValues m₁') (m₂.madeValues m₂')
  blocks : Set.BijOn block (m₁.madeBlocks m₁') (m₂.madeBlocks m₂')
  /-- What was there before is the same in both. -/
  oldValue : ∀ v, m₁.HasValue v → value v = v
  oldBlock : ∀ b, m₁.HasBlock b → b ≠ b₁ → block b = b
  start : block b₁ = b₂
  /-- Corresponding values have the same type and are made in the same way. -/
  entry : ∀ v, m₂'.values[(value v).index]? = m₁'.values[v.index]?
  /-- The blocks that were made are the same, in the same function. -/
  made : ∀ b ∈ m₁.madeBlocks m₁', m₂'.block (block b) = (m₁'.block b).rename value block
  /-- The same instructions were added to the first block. -/
  added : ∃ code : Array Instr, (m₁'.block b₁).instrs = (m₁.block b₁).instrs ++ code ∧
    (m₂'.block b₂).instrs = (m₂.block b₂).instrs ++ code.map (Instr.rename value block)
  /-- The first block is left open, or was closed in the same way. -/
  closed : (m₂'.block b₂).terminator = (m₁'.block b₁).terminator.map (Terminator.rename value block)

namespace Rerun

variable {K : Rerun} {m m' : Module} {blocks : List BlockId} {types : List TyId}

/-- Ids of a table that were added to another number of them are added to those of another table. -/
theorem bijOn_shift {ι : Type} {index : ι → Nat} {mk : Nat → ι} (hindex : ∀ n, index (mk n) = n)
    (hmk : ∀ i, mk (index i) = i) {f : ι → ι} {size size' sizeAfter sizeAfter' : Nat}
    (hsize : sizeAfter' + size = sizeAfter + size')
    (hf : ∀ i, ¬ index i < size → f i = mk (index i - size + size')) :
    Set.BijOn f {i | ¬ index i < size ∧ index i < sizeAfter}
      {i | ¬ index i < size' ∧ index i < sizeAfter'} := by
  refine ⟨fun i ⟨hnew, hi⟩ => ?_, fun i ⟨hi, _⟩ j ⟨hj, _⟩ heq => ?_, fun j ⟨hnew, hj⟩ => ?_⟩
  · rw [hf i hnew, Set.mem_ofPred_eq, hindex]
    omega
  · have heq := congrArg index heq
    rw [hf i hi, hf j hj, hindex, hindex] at heq
    rw [← hmk i, ← hmk j]
    exact congrArg mk (by omega)
  · have hold : ¬ index (mk (index j - size' + size)) < size := by
      rw [hindex]
      omega
    refine ⟨mk (index j - size' + size), ⟨hold, ?_⟩, ?_⟩
    · rw [hindex]
      omega
    · rw [hf _ hold, hindex]
      exact (congrArg mk (by omega)).trans (hmk j)

/-- At corresponding points, the runs have emitted the same code. -/
theorem Mirrors.sameCode (hK : K.Fits) (hm : K.Holds blocks types m) (h : K.Mirrors m m') :
    SameCode K.value K.block K.here K.first m K.there K.second m' where
  confined := hm.confined
  confined' := h.confined
  values := bijOn_shift (fun _ => rfl) (fun _ => rfl) h.values_size fun _ hv => if_neg hv
  blocks := bijOn_shift (fun _ => rfl) (fun _ => rfl) h.blocks_size fun b hb => by
    have hne : b ≠ K.here := fun heq => hb (heq ▸ hK.here)
    exact (if_neg hne).trans (if_neg hb)
  oldValue _ hv := value_of_lt hv
  oldBlock _ hb hne := (if_neg hne).trans (if_pos hb)
  start := if_pos rfl
  entry := h.values
  made b hb := by
    -- a new block had no instructions before, so all of them are the code of the run
    have hne : b ≠ K.here := fun heq => hb.1 (heq ▸ hK.here)
    obtain ⟨⟨code, hcode, hcode'⟩, hterminator, hmade⟩ :=
      h.code b (.inr (Nat.le_of_not_lt hb.1)) hb.2
    obtain ⟨hfunc, hlabel⟩ := hmade hne
    rw [before, if_neg hne, Array.empty_append] at hcode
    rw [before', if_neg hne, Array.empty_append, ← hcode] at hcode'
    cases hdata : m'.block (K.block b)
    rw [hdata] at hcode' hterminator hfunc hlabel
    dsimp only at hcode' hterminator hfunc hlabel
    rw [Block.rename, hcode', hterminator, hfunc, hlabel]
  added := by
    obtain ⟨code, hcode, hcode'⟩ :=
      (h.code K.here (.inl rfl) (hm.confined.extended.hasBlock hK.here)).instrs
    rw [before, if_pos rfl] at hcode
    rw [before', if_pos rfl, block, if_pos rfl] at hcode'
    exact ⟨code, hcode, hcode'⟩
  closed := by
    have hterminator :=
      (h.code K.here (.inl rfl) (hm.confined.extended.hasBlock hK.here)).terminator
    rwa [block, if_pos rfl] at hterminator

end Rerun

end Ir

namespace Lower

variable {σ : Type}

/-- Two runs, from `b₁` in the unit `u` and from `b₂` in the unit `v`, have outcomes that
correspond. Both give results, which are the same but for values and blocks, by the same code; or
both stop with one report, of the same code and message. -/
def SameAgain (b₁ : Ir.BlockId) (u : Compilation σ) (b₂ : Ir.BlockId) (v : Compilation σ) :
    EStateM.Result Halt (Compilation σ) Result → EStateM.Result Halt (Compilation σ) Result → Prop
  | .ok r u', .ok r' v' => ∃ value block, r' = r.rename value block ∧
    Ir.SameCode value block b₁ u.context.ir u'.context.ir b₂ v.context.ir v'.context.ir
  | .error e u', .error e' v' => e = .reported ∧ e' = .reported ∧
    ∃ d d' : Diagnostic, d'.code = d.code ∧ d'.message = d.message ∧
      u'.context.queue = u.context.queue.emitError d ∧
      v'.context.queue = v.context.queue.emitError d'
  | _, _ => False

variable {u : Compilation σ} {frame : Frame} {b₁ b₂ : Ir.BlockId} {n₁ n₂ : NodeId}

/-- In a unit without macros, with no ids in its module but those of the module, an expression is
processed from an open block on. Then one with the same tree is processed in the unit that this has
led to, with success or without, from a block that is open there. The outcomes correspond.

A module has no other ids in every unit that a caller reaches with ids of the unit
(`ReachedInBounds.sound`). -/
theorem process_repeatable (hu : Reachable u) (hmacros : u.expander = .none)
    (hforest : u.forest.WellBuilt) (hmodule : u.context.ir.Sound)
    (hscope : frame.scope.TypesIn u.context.pool)
    (hvalues : ∀ name v, frame.scope.lookup? name = some v →
      u.context.ir.HasValue v.storage.valueId)
    (hsame : u.forest.tree n₁ = u.forest.tree n₂) (hb₁ : u.context.ir.HasBlock b₁)
    (hopen₁ : u.context.ir.isTerminated b₁ = false)
    (hb₂ : (final (process frame b₁ n₁) u).context.ir.HasBlock b₂)
    (hopen₂ : (final (process frame b₁ n₁) u).context.ir.isTerminated b₂ = false) :
    SameAgain b₁ u b₂ (final (process frame b₁ n₁) u) (process frame b₁ n₁ u)
      (process frame b₂ n₂ (final (process frame b₁ n₁) u)) := by
  have hkept := (process_keeps frame.scope frame.func b₁ n₁).rel_final u
  generalize hv : final (process frame b₁ n₁) u = v at hkept hb₂ hopen₂ ⊢
  -- the second run begins in the unit that the first one leads to, which has all its entries
  let K : Rerun σ := ⟨u, v, b₁, b₂⟩
  have hmodules : K.context.module.Fits := ⟨hmodule, hkept.context.ir, hb₁, hb₂⟩
  have hK : K.Fits := ⟨⟨hmodules, hu.valid, hu.ordered⟩, hforest⟩
  have hframe : K.Knows frame := fun name x hx => ⟨hscope name x hx, hvalues name x hx⟩
  have hrepeats := Rerun.process_repeats hK b₁ [] [] hframe hsame
  have hstatic : K.Static u := ⟨rfl, hmacros, rfl⟩
  have hholds : K.Holds ⟨[b₁], [], []⟩ u :=
    ⟨hstatic, Ir.Rerun.holds_first hmodules hopen₁, Std.Refl.refl _, hu.valid,
      fun _ ht => absurd ht List.not_mem_nil⟩
  have hmirrors : K.Mirrors u v :=
    ⟨⟨hkept.forest hmacros, hkept.expander.trans hmacros, hkept.limit⟩,
      ⟨rfl, Ir.Rerun.mirrors_start hmodules hopen₁ hopen₂, hkept.context.namespaces,
        hkept.context.entered, hkept.context.layouts, hkept.context.onceTag⟩, rfl⟩
  -- the types that the first run enters are there from the beginning of the second
  have hcovered : K.context.Covered (final (process frame b₁ n₁) u).context := by
    rw [hv]
    exact ⟨.refl _, .refl _⟩
  have hagree := hrepeats.agree u v hholds hmirrors hcovered
  have hends := hrepeats.ends u hholds
  rw [show K.block b₁ = b₂ from if_pos rfl] at hagree
  cases hfirst : process frame b₁ n₁ u with
  | ok r u' =>
    rw [hfirst] at hagree
    cases hsecond : process frame b₂ n₂ v with
    | ok r' v' =>
      rw [hsecond] at hagree
      exact ⟨K.value, K.block, hagree.1, Ir.Rerun.Mirrors.sameCode hmodules
        (hends.of_ok hfirst).2.context.module hagree.2.context.within.ir⟩
    | error e v' =>
      rw [hsecond] at hagree
      exact hagree.elim
  | error e u' =>
    rw [hfirst] at hagree
    cases hsecond : process frame b₂ n₂ v with
    | ok r' v' =>
      rw [hsecond] at hagree
      exact hagree.elim
    | error e' v' =>
      rw [hsecond] at hagree
      obtain ⟨he, he', d, d', hd, hqueue, hqueue'⟩ := hagree
      exact ⟨he, he', d, d', hd.code, hd.message, hqueue, hqueue'⟩

/-- A session with a variable `x` of type `int`, and twice the form `(if true x 1)`. -/
def twiceSession : Compilation Unit where
  forest := ⟨#[⟨.token ⟨.symbol, ⟨1⟩⟩, .dummy⟩, ⟨.token ⟨.symbol, ⟨2⟩⟩, .dummy⟩,
    ⟨.token ⟨.symbol, ⟨3⟩⟩, .dummy⟩, ⟨.token ⟨.integer, ⟨4⟩⟩, .dummy⟩,
    ⟨.list [⟨0⟩, ⟨1⟩, ⟨2⟩, ⟨3⟩], .dummy⟩, ⟨.token ⟨.symbol, ⟨3⟩⟩, .dummy⟩,
    ⟨.list [⟨0⟩, ⟨1⟩, ⟨5⟩, ⟨3⟩], .dummy⟩], ⟨#["", "if", "true", "x", "1"]⟩⟩
  context := (Context.openSession "scratch" [⟨"x", .int, false⟩] .void .internal
    (.start .standard)).2
  memory := ()
  expander := .none
  maxExpansions := 128

/-- The function of the session, with the parameter for `x`. -/
def twiceFrame : Frame := ⟨⟨0⟩, ⟨[("x", ⟨.int, .value ⟨0⟩⟩)]⟩⟩

/-- The session is opened in a unit in which nothing is declared, and the forms are added. -/
theorem reachedInBounds_twiceSession : ReachedInBounds twiceSession := by
  have hstart : ReachedInBounds (.start .standard .none () : Compilation Unit) :=
    .start () (by decide) (by decide) Expander.none_keepsBounds
  have hparams : ∀ p ∈ [SessionParam.mk "x" .int false],
      (Context.start .standard).pool.Has p.ty := by decide
  have hreturn : (Context.start .standard).pool.Has .void := by decide
  have hforest : twiceSession.forest.InBounds := by decide
  exact (hstart.step (.openSession "scratch" .internal hparams hreturn)).forest hforest

/-- The form is processed from the first block on, and then again from the block where its branches
have merged. This gives a result in a block where the new branches merge, by the same code. -/
theorem repeatable_twiceSession :
    ∃ r u r' v, process twiceFrame ⟨0⟩ ⟨4⟩ twiceSession = .ok r u ∧
      process twiceFrame ⟨3⟩ ⟨6⟩ u = .ok r' v ∧ r.block = ⟨3⟩ ∧ r'.block = ⟨6⟩ ∧
      SameAgain ⟨0⟩ twiceSession ⟨3⟩ u (.ok r u) (.ok r' v) := by
  have hscope : ∀ name v, twiceFrame.scope.lookup? name = some v →
      v = ⟨.int, .value ⟨0⟩⟩ := fun name v hv => by
    rw [twiceFrame, Scope.lookup?, List.lookup_cons] at hv
    split at hv
    next =>
      cases hv
      rfl
    next => cases hv
  have hrun : Ends (process twiceFrame ⟨0⟩ ⟨4⟩) twiceSession (fun r _ => r.block = ⟨3⟩)
      fun _ => False := by
    unfold Ends
    decide +kernel
  have hrun' : Ends (process twiceFrame ⟨3⟩ ⟨6⟩) (final (process twiceFrame ⟨0⟩ ⟨4⟩) twiceSession)
      (fun r _ => r.block = ⟨6⟩) fun _ => False := by
    unfold Ends
    decide +kernel
  have hsame : twiceSession.forest.tree ⟨4⟩ = twiceSession.forest.tree ⟨6⟩ := rfl
  have hagain := process_repeatable reachedInBounds_twiceSession.reachable rfl (by decide)
    reachedInBounds_twiceSession.sound
    (fun name v hv => hscope name v hv ▸ by decide +kernel)
    (fun name v hv => hscope name v hv ▸ by decide +kernel) hsame
    (show twiceSession.context.ir.HasBlock ⟨0⟩ by decide +kernel) (by decide +kernel)
    (show (final (process twiceFrame ⟨0⟩ ⟨4⟩) twiceSession).context.ir.HasBlock ⟨3⟩ by
      decide +kernel) (by decide +kernel)
  cases hfirst : process twiceFrame ⟨0⟩ ⟨4⟩ twiceSession with
  | error e u => exact (hrun.of_error hfirst).elim
  | ok r u =>
    have hfinal : final (process twiceFrame ⟨0⟩ ⟨4⟩) twiceSession = u := by
      unfold final
      rw [hfirst]
    rw [hfinal] at hrun' hagain
    cases hsecond : process twiceFrame ⟨3⟩ ⟨6⟩ u with
    | error e v => exact (hrun'.of_error hsecond).elim
    | ok r' v =>
      rw [hfirst, hsecond] at hagain
      exact ⟨r, u, r', v, rfl, hsecond, hrun.of_ok hfirst, hrun'.of_ok hsecond, hagain⟩

end Lower

end FormCompiler
