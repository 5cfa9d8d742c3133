import FormCompiler.Proofs.InsertionBlocks
import FormCompiler.Proofs.Ir.Dominance

/-!
# Modules Are of Static Single Assignment Form

The code of an expression uses what is available in the block it is given: constants, parameters,
and what was computed in a block that dominates it. It goes on in a block that this one dominates,
so all of that stays available, and a phi stands first in the block where two branches merge. So
every module that top-level forms build is of static single assignment form, also where a body was
given up halfway (`singleAssignment`).

* `ssaCourse`: dominance and availability while code is emitted, as a course.
* `Context.Change.ssa`: every change of a context keeps the form of the module.
-/

namespace FormCompiler

namespace Ir.Module

variable {func : FuncId} {a b b₁ b₂ x entry onTrue onFalse onTrue' target : BlockId}
  {v : ValueId} {m m₁ m₂ m₃ m₄ m' : Module}

/-! ## Edges added -/

/-- An appended block has no edges. -/
theorem edge_of_append {label : String} (happend : appendBlock func label m = (b, m'))
    (hedge : m'.Edge a x) : m.Edge a x := by
  have hm' : m' = (appendBlock func label m).2 := by rw [happend]
  obtain ⟨t, ht, hmem⟩ := hedge
  by_cases ha : a.index < m.blocks.size
  · rw [hm', appendBlock_block_of_lt m func label ha] at ht
    exact ⟨t, ht, hmem⟩
  · have hlt := lt_of_terminator ht
    have hself : a = ⟨m.blocks.size⟩ := by
      rw [hm', appendBlock_size] at hlt
      obtain ⟨index⟩ := a
      rw [BlockId.mk.injEq]
      dsimp only at ha hlt
      omega
    rw [hself, hm', appendBlock_block_self] at ht
    cases ht

/-- Closing a block gives it edges, and no others. -/
theorem Closed.edge_iff {t : Terminator} (h : Closed b t m m') (hb : b.index < m.blocks.size) :
    m'.Edge a x ↔ a = b ∧ x ∈ t.successors ∨ a ≠ b ∧ m.Edge a x := by
  unfold Edge
  by_cases hne : a = b
  · rw [hne, h.block_self hb]
    simp
  · rw [h.block_of_ne hne]
    simp [hne]

/-- An appended block is not the entry of a function that has one. -/
theorem Ssa.entry_ne {f : FuncId} (hs : m.Ssa) (h : m.Extends m') (hb : b ∈ (m.function f).blocks)
    (hx : m.blocks.size ≤ x.index) : (m'.function f).blocks[0]? ≠ some x := by
  rw [h.entry_eq hb]
  intro hentry
  exact absurd (hs.owned f x (Array.mem_of_getElem? hentry)).1 (Nat.not_lt.2 hx)

/-! ## Code emitted from a block on -/

/-- Code may be emitted into a function of a module of single assignment form, at the end of a
block of it. -/
structure SsaInsertion (func : FuncId) (m : Module) (b : BlockId) : Prop
    extends Insertion func m b where
  listed : b ∈ (m.function func).blocks
  ssa : m.Ssa

/-- Code was emitted from a block on and goes on in a block that this one dominates. -/
structure SsaInserts (func : FuncId) (m : Module) (b : BlockId) (m' : Module) (b' : BlockId) :
    Prop extends Inserts func m b m' b' where
  listed : b ∈ (m.function func).blocks
  ssa : m'.Ssa
  flows : Flows m m'
  dominates : m'.Dominates func b b'

/-- Control branches from a block, and code goes on in two blocks that this one dominates. -/
structure SsaBranches (func : FuncId) (m : Module) (b : BlockId) (m' : Module)
    (onTrue onFalse : BlockId) : Prop extends Branches func m b m' onTrue onFalse where
  listed : b ∈ (m.function func).blocks
  ssa : m'.Ssa
  flows : Flows m m'
  dominatesTrue : m'.Dominates func b onTrue
  dominatesFalse : m'.Dominates func b onFalse

/-- A new block that code was emitted into is one of the function. -/
theorem Grows.listed_of_fresh (h : Grows func b m m') (hb : b ∈ (m.function func).blocks)
    (hx : x = b ∨ m.blocks.size ≤ x.index) (hlt : x.index < m'.blocks.size) :
    x ∈ (m'.function func).blocks := by
  rcases hx with rfl | hx
  · exact h.extended.listed hb
  · exact (h.listed x).2 (.inr ⟨hx, hlt⟩)

namespace SsaInserts

/-- Code goes on where it was led. -/
theorem lands (h : SsaInserts func m b m' b₁) : SsaInsertion func m' b₁ :=
  ⟨h.stop, h.grows.listed_of_fresh h.listed h.fresh h.stop.inTable, h.ssa⟩

/-- Code may go on several times. -/
theorem trans (h : SsaInserts func m b m₁ b₁) (h' : SsaInserts func m₁ b₁ m₂ b₂) :
    SsaInserts func m b m₂ b₂ where
  toInserts := h.toInserts.trans h'.toInserts
  listed := h.listed
  ssa := h'.ssa
  flows := h.flows.trans h'.flows
  dominates := (h'.flows.dominates h.lands.listed h.stop.inTable h.dominates).trans h'.dominates

/-- What was available is available where code goes on. -/
theorem stays (h : SsaInserts func m b m' b₁) (hv : m.AvailableAtEnd func b v) :
    m'.AvailableAtEnd func b₁ v :=
  (h.flows.availableAtEnd h.listed h.start.inTable hv).of_dominates h.dominates

end SsaInserts

namespace SsaInsertion

/-- Types and values may be added. -/
theorem still (h : SsaInsertion func m b) (hm : Still m m') : SsaInserts func m b m' b where
  toInserts := h.toInsertion.still hm
  listed := h.listed
  ssa := (Wired.of_still hm).ssa h.ssa
  flows := (Wired.of_still hm).flows
  dominates := .refl m' func b

/-- An instruction that may stand at the end of the block may be added, and what it computes is
available there. -/
theorem emitted (h : SsaInsertion func m b) {i : Instr} (hm : Emitted b i m m')
    (hplaced : m'.Placed func b (m.block b).instrs.size i) :
    SsaInserts func m b m' b ∧ ∀ v, i.dst? = some v → m'.AvailableAtEnd func b v := by
  refine ⟨⟨h.toInsertion.emitted hm, h.listed, hm.ssa h.inTable h.ssa fun f hf => ?_,
    hm.flows h.inTable, .refl m' func b⟩, fun v hv => ?_⟩
  · have hfunc : f = func := (h.ssa.owned f b hf).2.symm.trans h.owner
    exact hfunc ▸ hplaced
  · exact .of_instr (hm.toExtends.listed h.listed) (hm.instr_self h.inTable) hv

/-- Blocks may be appended. -/
theorem appended {label label' : String} (h : SsaInsertion func m b)
    (hTrue : appendBlock func label m = (onTrue, m₁))
    (hFalse : appendBlock func label' m₁ = (onFalse, m₂)) : Wired m m₂ := by
  have hfunc := (Insertion.of_append h.funcInTable hTrue).1.funcInTable
  exact ((Wired.of_still (.refl m)).append h.funcInTable hTrue).append hfunc hFalse

/-- Control may branch to two new blocks. -/
theorem fork (h : SsaInsertion func m b) (hv : m.AvailableAtEnd func b v)
    (hTrue : appendBlock func "then" m = (onTrue, m₁))
    (hFalse : appendBlock func "else" m₁ = (onFalse, m₂))
    (hclosed : Closed b (.condBr v onTrue onFalse) m₂ m₃) :
    SsaBranches func m b m₃ onTrue onFalse := by
  have hbranches := Branches.of_fork h.toInsertion hTrue hFalse hclosed
  have hsize := hclosed.size_blocks
  have hltTrue := hbranches.readyTrue.inTable
  have hltFalse := hbranches.readyFalse.inTable
  have hwired : Wired m m₃ := by
    refine (h.appended hTrue hFalse).close h.inTable hclosed (fun y hy => ?_) fun w hw => ?_
    · rcases List.mem_pair.1 hy with rfl | rfl
      · exact ⟨hbranches.freshTrue, by omega⟩
      · exact ⟨hbranches.freshFalse, by omega⟩
    · rw [List.mem_singleton.1 hw, h.owner]
      exact hv
  -- the only edges to the new blocks are those from the block that was closed
  have hdominates : ∀ y : BlockId, m.blocks.size ≤ y.index → m₃.Dominates func b y := by
    intro y hy
    refine .of_predecessors (h.ssa.entry_ne hwired.extended h.listed hy) fun a hedge => ?_
    have hb₂ := (h.appended hTrue hFalse).extended.blocks
    rcases (hclosed.edge_iff (Nat.lt_of_lt_of_le h.inTable hb₂)).1 hedge with ⟨rfl, -⟩ | ⟨-, hold⟩
    · exact .refl m₃ func a
    · have hold := edge_of_append hTrue (edge_of_append hFalse hold)
      exact absurd (h.ssa.targets a y hold) (Nat.not_lt.2 hy)
  exact ⟨hbranches, h.listed, hwired.ssa h.ssa, hwired.flows,
    hdominates onTrue hbranches.freshTrue, hdominates onFalse hbranches.freshFalse⟩

end SsaInsertion

namespace SsaBranches

/-- The branches may be exchanged. -/
theorem swap (h : SsaBranches func m b m' onTrue onFalse) :
    SsaBranches func m b m' onFalse onTrue :=
  ⟨h.toBranches.swap, h.listed, h.ssa, h.flows, h.dominatesFalse, h.dominatesTrue⟩

/-- Code may be emitted into a branch. -/
theorem branch (h : SsaBranches func m b m' onTrue onFalse) : SsaInsertion func m' onTrue :=
  ⟨h.readyTrue, h.grows.listed_of_fresh h.listed (.inr h.freshTrue) h.readyTrue.inTable, h.ssa⟩

/-- Code may go on in a branch. -/
theorem inserts (h : SsaBranches func m b m₁ onTrue onFalse)
    (h' : SsaInserts func m₁ onTrue m₂ onTrue') : SsaBranches func m b m₂ onTrue' onFalse where
  toBranches := h.toBranches.inserts h'.toInserts
  listed := h.listed
  ssa := h'.ssa
  flows := h.flows.trans h'.flows
  dominatesTrue :=
    (h'.flows.dominates h.branch.listed h.readyTrue.inTable h.dominatesTrue).trans h'.dominates
  dominatesFalse := h'.flows.dominates h.branch.listed h.readyFalse.inTable h.dominatesFalse

section Merge

variable (h : SsaBranches func m b m₁ onTrue onFalse)
  (happend : appendBlock func "merge" m₁ = (target, m₂))
  (hTrue : Closed onTrue (.br target) m₂ m₃) (hFalse : Closed onFalse (.br target) m₃ m₄)

include h happend hTrue hFalse

/-- Merging wires both branches to the new block. -/
theorem wired : Wired m₁ m₄ := by
  have hready := Insertion.of_append h.readyTrue.funcInTable happend
  have hsize := hTrue.size_blocks
  have happended : Wired m₁ m₂ := (Wired.of_still (.refl m₁)).append h.readyTrue.funcInTable happend
  refine (happended.close h.readyTrue.inTable hTrue (fun y hy => ?_) nofun).close
    h.readyFalse.inTable hFalse (fun y hy => ?_) nofun
  · rw [List.mem_singleton.1 hy]
    omega
  · rw [List.mem_singleton.1 hy]
    omega

/-- The predecessors of the new block are the ends of the branches. -/
theorem edge_iff : m₄.Edge a target ↔ a = onTrue ∨ a = onFalse := by
  obtain ⟨-, hindex, hsize⟩ := Insertion.of_append h.readyTrue.funcInTable happend
  have hsize₃ := hTrue.size_blocks
  have hltTrue := h.readyTrue.inTable
  have hltFalse := h.readyFalse.inTable
  rw [hFalse.edge_iff (by omega), hTrue.edge_iff (by omega)]
  have hnew : ¬ m₂.Edge a target := fun hedge =>
    absurd (h.ssa.targets a target (edge_of_append happend hedge)) (by omega)
  have hmem : target ∈ (Terminator.br target).successors := List.mem_singleton_self _
  have hne := h.distinct
  constructor
  · rintro (⟨rfl, -⟩ | ⟨-, ⟨rfl, -⟩ | ⟨-, hedge⟩⟩)
    · exact .inr rfl
    · exact .inl rfl
    · exact absurd hedge hnew
  · rintro (rfl | rfl)
    · exact .inr ⟨hne, .inl ⟨rfl, hmem⟩⟩
    · exact .inl ⟨rfl, hmem⟩

/-- Code goes on in the new block, which the block where control branched dominates. -/
theorem merged : SsaInserts func m b m₄ target := by
  have hwired := h.wired happend hTrue hFalse
  have hinserts := h.toBranches.merged happend hTrue hFalse
  have hindex := (Insertion.of_append h.readyTrue.funcInTable happend).2.1
  refine ⟨hinserts, h.listed, hwired.ssa h.ssa, h.flows.trans hwired.flows,
    .of_predecessors (h.ssa.entry_ne hwired.extended h.branch.listed (by omega)) fun a hedge => ?_⟩
  rcases (h.edge_iff happend hTrue hFalse).1 hedge with rfl | rfl
  · exact hwired.flows.dominates h.branch.listed h.readyTrue.inTable h.dominatesTrue
  · exact hwired.flows.dominates h.branch.listed h.readyFalse.inTable h.dominatesFalse

/-- A phi in the new block selects between the ends of the branches. -/
theorem phi {w y : ValueId} {m₅ : Module} (hv : m₁.AvailableAtEnd func onTrue v)
    (hw : m₁.AvailableAtEnd func onFalse w)
    (hm : Emitted target (.phi y [(v, onTrue), (w, onFalse)]) m₄ m₅) :
    SsaInserts func m b m₅ target ∧ m₅.AvailableAtEnd func target y := by
  have hmerged := h.merged happend hTrue hFalse
  have hwired := h.wired happend hTrue hFalse
  have hindex := (Insertion.of_append h.readyTrue.funcInTable happend).2.1
  have hempty : (m₄.block target).instrs.size = 0 := by
    rw [(hwired.fresh target (by omega)).1]
    rfl
  have hflows := hwired.flows.trans (hm.flows hmerged.stop.inTable)
  have hselects : m₅.Selects func target [(v, onTrue), (w, onFalse)] := by
    refine ⟨by simpa using h.distinct, fun a => ?_, fun p hp => ?_⟩
    · have hedge : m₅.Edge a target ↔ m₄.Edge a target := by
        unfold Edge
        rw [hm.terminator hmerged.stop.inTable]
      rw [hedge, h.edge_iff happend hTrue hFalse]
      simp
    · rcases List.mem_pair.1 hp with rfl | rfl
      · exact hflows.availableAtEnd h.branch.listed h.readyTrue.inTable hv
      · exact hflows.availableAtEnd h.branch.listed h.readyFalse.inTable hw
  obtain ⟨hinserts, hdst⟩ := hmerged.lands.emitted hm (.phi hempty hselects)
  exact ⟨hmerged.trans hinserts, hdst y rfl⟩

end Merge

end SsaBranches

end Ir.Module

open Ir.Module

/-- The course of single assignment: code uses what is available at the end of its block, and goes
on in blocks that this one dominates. -/
def ssaCourse (func : Ir.FuncId) : Ir.Course func where
  At := SsaInsertion func
  Usable m b v := m.AvailableAtEnd func b v
  Leads := SsaInserts func
  Stops m _ m' := Flows m m' ∧ m'.Ssa
  Forks := SsaBranches func
  isOpen h := ⟨h.inTable, h.isOpen⟩
  lands h := h.lands
  trans h h' := h.trans h'
  after h h' := ⟨h.flows.trans h'.1, h'.2⟩
  stops h := ⟨.refl _, h.ssa⟩
  extended h := h.flows.extended
  stopped h := h.1.extended
  stays hv h := h.stays hv
  constant hv hkind := .constant hv hkind
  still h hm := h.still hm
  emitted h huses hphi hm := h.emitted hm (.plain hphi fun v hv =>
    (hm.flows h.inTable).available h.listed h.inTable (huses v hv))
  fork h hv hTrue hFalse hclosed := h.fork hv hTrue hFalse hclosed
  unforked h hTrue hFalse hm :=
    have hwired := h.appended hTrue hFalse
    ⟨hwired.flows.trans (Wired.of_still hm).flows, (Wired.of_still hm).ssa (hwired.ssa h.ssa)⟩
  merged h happend hTrue hFalse := h.merged happend hTrue hFalse
  phi h hv hw happend hTrue hFalse hm := h.phi happend hTrue hFalse hv hw hm
  distinct h := h.distinct
  forked h := h.flows.extended
  swap h := h.swap
  branch h := h.branch
  inherits hv h :=
    (h.flows.availableAtEnd h.listed h.start.inTable hv).of_dominates h.dominatesTrue
  goesOn h h' := h.inserts h'
  stopsIn h h' := ⟨h.flows.trans h'.1, h'.2⟩
  apart h hv h' := h'.flows.availableAtEnd h.branch.listed h.readyFalse.inTable hv

namespace Ir.Module

variable {func : FuncId} {entry : BlockId} {m m₁ m₂ m' : Module}

/-- Code may be emitted into the entry of a function, and it may use the parameters. -/
theorem starts_ssaCourse (hs : m.Ssa) (hfunc : func.index < m.functions.size)
    (hentry : appendBlock func "entry" m = (entry, m₁)) : (ssaCourse func).Starts m₁ entry := by
  have hgrows := Grows.of_append (b := entry) hfunc hentry
  obtain ⟨hready, hindex, -⟩ := Insertion.of_append hfunc hentry
  have hlisted : entry ∈ (m₁.function func).blocks :=
    (hgrows.listed entry).2 (.inr ⟨Nat.le_of_eq hindex.symm, hready.inTable⟩)
  exact ⟨⟨hready, hlisted, ((Wired.of_still (.refl m)).append hfunc hentry).ssa hs⟩,
    fun _ hv => .param hv⟩

/-- The body of a function keeps the form, whether it returns or is given up. -/
theorem Bodied.ssa (h : Bodied func m m') (hs : m.Ssa) : m'.Ssa := by
  obtain ⟨hfunc, -, entry, m₁, m₂, hentry, hcode⟩ := h
  have hstart := starts_ssaCourse hs hfunc hentry
  have hfinish : m₂.Ssa → (finishFunction func m₂).2.Ssa :=
    (Wired.of_finished (finishFunction_finished func m₂)).ssa
  have hreturned : (ssaCourse func).Returns m₁ entry m₂ → m₂.Ssa := by
    rintro ⟨m₃, b₃, value, hlead, hvalue, hclosed⟩
    replace hlead : SsaInserts func m₁ entry m₃ b₃ := hlead
    refine ((Wired.of_still (.refl m₃)).close hlead.stop.inTable hclosed nofun fun v hv => ?_).ssa
      hlead.ssa
    rw [hlead.stop.owner]
    exact hvalue v (Option.mem_toList.1 hv)
  rcases hcode with ⟨hreturns, rfl | rfl⟩ | ⟨hstops, rfl⟩
  · exact hreturned (hreturns _ hstart)
  · exact hfinish (hreturned (hreturns _ hstart))
  · exact hfinish (hstops _ hstart).2

/-- The module without any entry is of the form. -/
theorem ssa_empty (name : String) : (empty name).Ssa := by
  have hblock : ∀ b : BlockId, ((empty name).block b).instrs = #[] ∧
      ((empty name).block b).terminator = none := fun b => block_of_not_lt (Nat.not_lt_zero _)
  have hfunction : ∀ (f : FuncId) (b : BlockId), b ∉ ((empty name).function f).blocks :=
    fun f b hb => absurd (function_lt hb) (Nat.not_lt_zero _)
  refine ⟨fun f => ⟨fun b hb => absurd hb (hfunction f b), fun b hb => absurd hb (hfunction f b)⟩,
    fun v b b' i i' instr instr' hfound => ?_, fun f b hb => absurd hb (hfunction f b),
    fun a b hedge => absurd hedge.lt (Nat.not_lt_zero _), fun b i instr v hfound => ?_⟩
  · exact absurd (lt_of_instr hfound) (Nat.not_lt_zero _)
  · exact absurd (lt_of_instr hfound) (Nat.not_lt_zero _)

end Ir.Module

namespace Context

variable {c c' : Context}

/-- A change of a context keeps the form of the module. -/
theorem Change.ssa (h : Change c c') (hs : c.ir.Ssa) : c'.ir.Ssa := by
  cases h with
  | checked within _ => exact (Wired.of_still within.ir).ssa hs
  | enter name h => rwa [h, enter_ir]
  | leave h => rwa [h]
  | struct _ _ _ h _ =>
    obtain ⟨-, c₁, c₂, layout, hwithin, -, -, rfl, rfl⟩ := h
    exact (Wired.of_eq (extends_push_type c₁.ir _) rfl fun _ => rfl).ssa
      ((Wired.of_still hwithin.ir).ssa hs)
  | enum _ _ _ _ _ h _ =>
    obtain ⟨-, -, c₁, c₂, c₃, member, hwithin, -, -, rfl, -, rfl, rfl⟩ := h
    exact (Wired.of_eq (extends_push_type c₁.ir _) rfl fun _ => rfl).ssa
      ((Wired.of_still hwithin.ir).ssa hs)
  | function _ _ _ _ _ h _ _ =>
    obtain ⟨-, c₁, tys, ret, ir, hwithin, -, -, hdeclared, rfl⟩ := h
    exact (Wired.of_declared hdeclared).ssa ((Wired.of_still hwithin.ir).ssa hs)
  | body _ _ _ h => exact h.ssa hs

end Context

/-- Every module that top-level forms build is of static single assignment form. -/
theorem singleAssignment {σ : Type} {u : Compilation σ} (h : Built u) : u.context.ir.Ssa := by
  obtain ⟨options, hdevelops⟩ := h.develops
  have hkept : ∀ c, Relation.ReflTransGen Context.Change (.start options) c → c.ir.Ssa := by
    intro c hchanges
    induction hchanges with
    | refl => exact ssa_empty _
    | tail _ hchange ih => exact hchange.ssa ih
  exact hkept _ (hdevelops (Context.valid_start options))

/-- The form `(def pick (fn intern int ((a int)) (if true a 1)))`, before it is processed. -/
def pickForest : Compilation Unit where
  forest := ⟨#[⟨.token ⟨.symbol, ⟨1⟩⟩, .dummy⟩, ⟨.token ⟨.symbol, ⟨2⟩⟩, .dummy⟩,
    ⟨.token ⟨.symbol, ⟨3⟩⟩, .dummy⟩, ⟨.token ⟨.symbol, ⟨4⟩⟩, .dummy⟩,
    ⟨.token ⟨.symbol, ⟨5⟩⟩, .dummy⟩, ⟨.token ⟨.symbol, ⟨6⟩⟩, .dummy⟩,
    ⟨.token ⟨.symbol, ⟨7⟩⟩, .dummy⟩, ⟨.token ⟨.symbol, ⟨8⟩⟩, .dummy⟩,
    ⟨.token ⟨.integer, ⟨9⟩⟩, .dummy⟩, ⟨.list [⟨5⟩, ⟨4⟩], .dummy⟩, ⟨.list [⟨9⟩], .dummy⟩,
    ⟨.list [⟨6⟩, ⟨7⟩, ⟨5⟩, ⟨8⟩], .dummy⟩, ⟨.list [⟨2⟩, ⟨3⟩, ⟨4⟩, ⟨10⟩, ⟨11⟩], .dummy⟩,
    ⟨.list [⟨0⟩, ⟨1⟩, ⟨12⟩], .dummy⟩],
    ⟨#["", "def", "pick", "fn", "intern", "int", "a", "if", "true", "1"]⟩⟩
  context := .start .standard
  memory := ()
  expander := .none
  maxExpansions := 128

/-- The module of a function that selects by a phi is of the form. -/
theorem ssa_pickForest :
    Built (final (Lower.processTopLevel ⟨13⟩) pickForest) ∧
      (final (Lower.processTopLevel ⟨13⟩) pickForest).context.ir.Ssa ∧
      ((final (Lower.processTopLevel ⟨13⟩) pickForest).context.ir.block ⟨3⟩).instrs =
        #[.phi ⟨5⟩ [(⟨3⟩, ⟨1⟩), (⟨4⟩, ⟨2⟩)]] := by
  have hbuilt : Built (final (Lower.processTopLevel ⟨13⟩) pickForest) :=
    .topLevel ⟨13⟩ (.forest pickForest.forest (.start .standard .none ()))
  refine ⟨hbuilt, singleAssignment hbuilt, ?_⟩
  decide +kernel

end FormCompiler
