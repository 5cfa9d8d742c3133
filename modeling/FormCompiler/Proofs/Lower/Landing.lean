import FormCompiler.Proofs.CleanupExactness
import FormCompiler.Proofs.Lower.Course
import FormCompiler.Proofs.TypePreservation

/-!
# Where the Code of an Expression Goes On

From an open block, the code of an expression goes on in an open block, which is the same one or
new, and leaves the other blocks alone (`process_leads`). It is enough that the block is open: it
need not be one of the function whose body is processed.

A result whose value has its type may be dropped there: that succeeds and goes on in the same block
(`Result.Typed.destruct_lands`).

`Lower.Lands` says of an expression what the processing of further forms needs to know.
-/

namespace FormCompiler

namespace Ir.Module

/-- Appending a block changes none that there was. -/
theorem append_confined {func : FuncId} {label : String} {new : BlockId} {m m' : Module}
    (b : BlockId) (h : appendBlock func label m = (new, m')) : Confined b m m' := by
  have hm' : m' = (appendBlock func label m).2 := by rw [h]
  exact hm' ▸ .of_append b m func label

/-- Of the blocks there were only `b` was changed, and code goes on in two blocks that are open. -/
structure Parted (b : BlockId) (m m' : Module) (onTrue onFalse : BlockId) : Prop where
  confined : Confined b m m'
  inTrue : onTrue.index < m'.blocks.size
  inFalse : onFalse.index < m'.blocks.size
  freshTrue : m.blocks.size ≤ onTrue.index
  freshFalse : m.blocks.size ≤ onFalse.index
  distinct : onTrue ≠ onFalse
  openTrue : m'.isTerminated onTrue = false
  openFalse : m'.isTerminated onFalse = false

namespace Parted

variable {func : FuncId} {b onTrue onFalse onTrue' target : BlockId} {label : String}
  {t t' : Terminator} {m m₁ m₂ m₃ m₄ : Module}

/-- A fork leads to two new blocks. -/
theorem of_forked (h : Forked b m m₁ onTrue onFalse) : Parted b m m₁ onTrue onFalse where
  confined := h.confined
  inTrue := h.lt_onTrue
  inFalse := by rw [h.indexFalse, h.size]; omega
  freshTrue := Nat.le_of_eq h.indexTrue.symm
  freshFalse := by rw [h.indexFalse]; omega
  distinct heq := by
    have hTrue := h.indexTrue
    have hFalse := h.indexFalse
    rw [heq] at hTrue
    omega
  openTrue := h.openTrue
  openFalse := h.openFalse

/-- The branches may be told in either order. -/
theorem swap (h : Parted b m m₁ onTrue onFalse) : Parted b m m₁ onFalse onTrue :=
  ⟨h.confined, h.inFalse, h.inTrue, h.freshFalse, h.freshTrue, h.distinct.symm, h.openFalse,
    h.openTrue⟩

/-- Code in one branch leaves the other one open. -/
theorem leads (h : Parted b m m₁ onTrue onFalse) (h' : Leads onTrue m₁ onTrue' m₂) :
    Parted b m m₂ onTrue' onFalse where
  confined := h.confined.trans h'.confined (.inr h.freshTrue)
  inTrue := h'.inTable
  inFalse := Nat.lt_of_lt_of_le h.inFalse h'.confined.extended.blocks
  freshTrue := by
    rcases h'.fresh with rfl | hfresh
    · exact h.freshTrue
    · exact Nat.le_trans h.confined.extended.blocks hfresh
  freshFalse := h.freshFalse
  distinct := by
    rcases h'.fresh with rfl | hfresh
    · exact h.distinct
    · rintro rfl
      exact absurd h.inFalse (Nat.not_lt.2 hfresh)
  openTrue := h'.isOpen
  openFalse := by
    rw [isTerminated, h'.confined.others onFalse h.inFalse h.distinct.symm]
    exact h.openFalse

/-- Code goes on in a new block that both branches go on to. -/
theorem merged (h : Parted b m m₁ onTrue onFalse)
    (happend : appendBlock func label m₁ = (target, m₂)) (hTrue : Closed onTrue t m₂ m₃)
    (hFalse : Closed onFalse t' m₃ m₄) : Leads b m target m₄ := by
  obtain ⟨hindex, hsize, hblock, -⟩ := appendBlock_spec happend
  have hsize₃ := hTrue.size_blocks
  have hsize₄ := hFalse.size_blocks
  have hle := h.confined.extended.blocks
  have hltTrue := h.inTrue
  have hltFalse := h.inFalse
  have hlast : m₄.block target = ⟨func, label, #[], none⟩ := by
    rw [hFalse.block_of_ne (by rintro rfl; omega), hTrue.block_of_ne (by rintro rfl; omega), hblock]
  refine ⟨((h.confined.trans (append_confined b happend) (.inl rfl)).trans
    (.of_closed hTrue) (.inr h.freshTrue)).trans (.of_closed hFalse) (.inr h.freshFalse),
    by omega, ?_, .inr (by omega)⟩
  rw [isTerminated, hlast]
  rfl

end Parted

end Ir.Module

open Ir.Module

/-- The course of open blocks: nothing is known of a block but that it is open where code goes
on. -/
def openCourse (func : Ir.FuncId) : Ir.Course func where
  At m b := b.index < m.blocks.size ∧ m.isTerminated b = false
  Usable _ _ _ := True
  Leads m b m' b' := Leads b m b' m'
  Stops m b m' := Confined b m m'
  Forks m b m' onTrue onFalse := Parted b m m' onTrue onFalse
  isOpen h := h
  lands h := ⟨h.inTable, h.isOpen⟩
  trans h h' := h.trans h'
  after h h' := h.confined.trans h' h.fresh
  stops _ := .refl _ _
  extended h := h.confined.extended
  stopped h := h.extended
  stays _ _ := trivial
  constant _ _ := trivial
  still h hm := .of_still hm h.1 h.2
  emitted h _ _ hm := ⟨.of_emitted hm h.1, fun _ _ => trivial⟩
  fork h _ hTrue hFalse hclosed := .of_forked (.of_closed h.1 hTrue hFalse hclosed)
  unforked _ hTrue hFalse hm :=
    ((append_confined _ hTrue).trans (append_confined _ hFalse) (.inl rfl)).trans
      (.of_still _ hm) (.inl rfl)
  merged h happend hTrue hFalse := h.merged happend hTrue hFalse
  phi h _ _ happend hTrue hFalse hm := ⟨(h.merged happend hTrue hFalse).emitted hm, trivial⟩
  distinct h := h.distinct
  forked h := h.confined.extended
  swap h := h.swap
  branch h := ⟨h.inTrue, h.openTrue⟩
  inherits _ _ := trivial
  goesOn h h' := h.leads h'
  stopsIn h h' := h.confined.trans h' (.inr h.freshTrue)
  apart _ _ _ := trivial

namespace Lower

variable {σ : Type} {u u' : Compilation σ} {frame : Frame} {b : Ir.BlockId} {node : NodeId}
  {r : Result}

/-- From an open block, the code of an expression goes on in an open block. -/
theorem process_leads (hb : b.index < u.context.ir.blocks.size)
    (hopen : u.context.ir.isTerminated b = false) (h : process frame b node u = .ok r u') :
    Leads b u.context.ir r.block u'.context.ir :=
  ((process_covered ((openCourse frame.func).account frame) b node u
    ⟨⟨hb, hopen⟩, fun _ _ _ => trivial⟩).of_ok h).leads.leads

end Lower

/-- A result whose value has its type may be dropped where its block is open. That changes the
module alone, and code goes on in the block. -/
theorem Result.Typed.destruct_lands {c : Context} {r : Result} (hr : r.Typed c) (hc : c.Valid)
    (hplaced : c.Placed) {m : Ir.Module} (hm : c.ir.Extends m)
    (hb : r.block.index < m.blocks.size) (hopen : m.isTerminated r.block = false) :
    ∃ m', Context.destruct r (c.withIr m) = .ok r (c.withIr m') ∧ Leads r.block m r.block m' := by
  cases hborrowed : r.borrowed with
  | true => exact ⟨m, Context.destruct_of_borrowed hborrowed _, .refl hb hopen⟩
  | false =>
    have hdisposable : c.Disposable r.ty r.block r.value m :=
      ⟨hm, Nat.lt_of_lt_of_le hr.inTable hm.values.size_le,
        by rw [hm.valueType hr.inTable]; exact hr.backs, hb, hopen⟩
    have hclean := Context.cleanUpBelow_cleansUp hc hplaced r.block (Nat.lt_succ_self r.ty.index)
      r.value m hdisposable
    have hends : Ends (Context.destruct r) (c.withIr m)
        (fun r' c' => r' = r ∧ ∃ m', c' = c.withIr m' ∧ Leads r.block m r.block m')
        fun _ => False := by
      unfold Context.destruct
      rw [if_neg (by simp [hborrowed])]
      refine hclean.bind ?_
      rintro _ _ ⟨rfl, m', rfl, hdestroys⟩
      exact .pure ⟨rfl, m', rfl, ⟨hdestroys.grown, fun b' _ => hdestroys.others b'⟩,
        Nat.lt_of_lt_of_le hb hdestroys.grown.blocks, hdestroys.isOpen, .inl rfl⟩
    obtain ⟨r', _, hrun, rfl, m', rfl, hleads⟩ := hends.succeeds
    exact ⟨m', hrun, hleads⟩

namespace Lower

variable {σ : Type} {u u' u'' : Compilation σ} {frame : Frame} {b : Ir.BlockId} {node : NodeId}
  {r : Result}

/-- Code led from an open block of a reachable unit to the value of a result. -/
structure Lands (s : Scope) (b : Ir.BlockId) (u : Compilation σ) (r : Result)
    (u' : Compilation σ) : Prop where
  reachable : Reachable u'
  kept : Compilation.Kept s u u'
  scope : s.Typed u'.context
  typed : r.Typed u'.context
  leads : Leads b u.context.ir r.block u'.context.ir

/-- An expression that succeeds leads to its result. -/
theorem process_lands (hu : Reachable u) (hscope : frame.scope.Typed u.context)
    (hb : b.index < u.context.ir.blocks.size) (hopen : u.context.ir.isTerminated b = false)
    (h : process frame b node u = .ok r u') : Lands frame.scope b u r u' := by
  have hreachable : Reachable (final (process frame b node) u) :=
    .process frame b node hscope.typesIn hu
  unfold final at hreachable
  rw [h] at hreachable
  have hkept := (process_keeps frame.scope frame.func b node).ends u |>.of_ok h
  obtain ⟨es, hes⟩ := process_lowers h
  exact ⟨hreachable, hkept, hscope.mono hkept.steady hkept.context.ir,
    hes.typed ⟨hu.valid, hscope⟩, process_leads hb hopen h⟩

end Lower

end FormCompiler
