import FormCompiler.Proofs.Ir.Insertion
import FormCompiler.Proofs.Reachable

/-!
# The Discipline of Insertion Blocks

Code for an expression is emitted at the end of the block it is given and in blocks of its own, and
goes on in the one of them that is still open (`insertion_discipline`). So a body whose code is
complete has no open block left, and a top-level form leaves none open whether it succeeds or not.

* `insertionCourse`: what is known of blocks while code is emitted, as a course.
* `Context.Change.tidy`: no change of a context leaves a block of a function open.
-/

namespace FormCompiler

open Ir.Module

/-- The course of insertion blocks: of the blocks involved one is open where code goes on, and two
are between the branches of a conditional. -/
def insertionCourse (func : Ir.FuncId) : Ir.Course func where
  At := Insertion func
  Usable _ _ _ := True
  Leads := Inserts func
  Stops m b m' := Grows func b m m'
  Forks := Branches func
  isOpen h := ⟨h.inTable, h.isOpen⟩
  lands h := h.stop
  trans h h' := h.trans h'
  after h h' := h.grows.trans h' h.fresh
  stops _ := .of_still (.refl _)
  extended h := h.grows.extended
  stopped h := h.extended
  stays _ _ := trivial
  constant _ _ := trivial
  still h hm := h.still hm
  emitted h _ _ hm := ⟨h.emitted hm, fun _ _ => trivial⟩
  fork h _ hTrue hFalse hclosed := .of_fork h hTrue hFalse hclosed
  unforked h hTrue hFalse hm :=
    have hready := (Insertion.of_append h.funcInTable hTrue).1
    ((Grows.of_append h.funcInTable hTrue).trans
      (Grows.of_append hready.funcInTable hFalse) (.inl rfl)).trans (.of_still hm) (.inl rfl)
  merged h happend hTrue hFalse := h.merged happend hTrue hFalse
  phi h _ _ happend hTrue hFalse hm :=
    have hmerged := h.merged happend hTrue hFalse
    ⟨hmerged.trans (hmerged.stop.emitted hm), trivial⟩
  distinct h := h.distinct
  forked h := h.grows.extended
  swap h := h.swap
  branch h := h.readyTrue
  inherits _ _ := trivial
  goesOn h h' := h.inserts h'
  stopsIn h h' := h.grows.trans h' (.inr h.freshTrue)
  apart _ _ _ := trivial

namespace Ir.Module

variable {func : FuncId} {entry : BlockId} {m m₁ m₂ m' : Module}

/-- Code may be emitted into the entry of a function. -/
theorem starts_insertionCourse (hfunc : func.index < m.functions.size)
    (hentry : appendBlock func "entry" m = (entry, m₁)) :
    (insertionCourse func).Starts m₁ entry :=
  ⟨(Insertion.of_append hfunc hentry).1, fun _ _ => trivial⟩

/-- The blocks of a function that had none are closed when its body has returned. -/
theorem closed_of_returns (hfunc : func.index < m.functions.size)
    (hblocks : (m.function func).blocks = #[])
    (hentry : appendBlock func "entry" m = (entry, m₁))
    (hreturns : (insertionCourse func).Returns m₁ entry m₂) :
    Grows func entry m m₂ ∧ ∀ b ∈ (m₂.function func).blocks, m₂.isTerminated b = true := by
  obtain ⟨m₃, b₃, value, hinserts, -, hclosed⟩ := hreturns
  replace hinserts : Inserts func m₁ entry m₃ b₃ := hinserts
  obtain ⟨-, hindex, hsize⟩ := Insertion.of_append hfunc hentry
  have hlt := hinserts.stop.inTable
  have hsize₂ := hclosed.size_blocks
  have hgrows : Grows func entry m m₂ :=
    ((Grows.of_append hfunc hentry).trans hinserts.grows (.inl rfl)).trans
      (.of_closed hclosed) (by
        rcases hinserts.fresh with h | h
        · exact .inl h
        · exact .inr (by omega))
  refine ⟨hgrows, fun b hb => ?_⟩
  rw [hgrows.listed, hblocks] at hb
  obtain ⟨hfresh, hb⟩ := hb.resolve_left (Array.not_mem_empty b)
  by_cases hne : b = b₃
  · exact hne ▸ hclosed.isTerminated_self hlt
  -- a block other than the last one was closed before that one returned
  · refine hclosed.toExtends.isTerminated (by omega) ?_
    by_cases hself : b = entry
    · subst hself
      exact hinserts.left (Ne.symm hne)
    · have hne' : b.index ≠ entry.index := fun h => hself (congrArg BlockId.mk h)
      exact hinserts.closed b (by omega) (by omega) hne

/-- The code of a body is emitted from a new block on and changes no other function, and is followed
by the blocks that were left open being closed, if any were. -/
theorem Bodied.grows (h : Bodied func m m') :
    ∃ entry m₂, m.blocks.size ≤ entry.index ∧ Grows func entry m m₂ ∧
      ((m' = m₂ ∧ ∀ b ∈ (m₂.function func).blocks, m₂.isTerminated b = true) ∨
        m' = (finishFunction func m₂).2) := by
  obtain ⟨hfunc, hblocks, entry, m₁, m₂, hentry, hcode⟩ := h
  have hstart := starts_insertionCourse hfunc hentry
  have hnew := Nat.le_of_eq (Insertion.of_append hfunc hentry).2.1.symm
  refine ⟨entry, m₂, hnew, ?_⟩
  rcases hcode with ⟨hreturns, hm'⟩ | ⟨hstops, hm'⟩
  · obtain ⟨hgrows, hclosed⟩ := closed_of_returns hfunc hblocks hentry (hreturns _ hstart)
    exact ⟨hgrows, hm'.imp_left fun heq => ⟨heq, hclosed⟩⟩
  · have hgrows : Grows func entry m₁ m₂ := hstops _ hstart
    exact ⟨(Grows.of_append hfunc hentry).trans hgrows (.inl rfl), .inr hm'⟩

/-- The body of a function leaves no block of it open. -/
theorem Bodied.tidy (h : Bodied func m m') : Tidy m m' := by
  have hblocks := h.noBlocks
  obtain ⟨entry, m₂, -, hgrows, ⟨rfl, hclosed⟩ | rfl⟩ := h.grows
  · exact .of_grows hgrows (.refl _) rfl hclosed
  · have hfinished := finishFunction_finished func m₂
    refine .of_grows hgrows hfinished.extended hfinished.functions fun b hb => ?_
    -- what is finished is closed, as its blocks are in the table
    have hlisted := hb
    rw [hgrows.listed, hblocks] at hlisted
    exact hfinished.closed b hb (hlisted.resolve_left (Array.not_mem_empty b)).2

end Ir.Module

namespace Context

/-- No block of a function is left open that was not so before. -/
def Tidy (c c' : Context) : Prop := Ir.Module.Tidy c.ir c'.ir

instance : Std.Refl Tidy := ⟨fun c => Std.Refl.refl c.ir⟩

instance : IsTrans Context Tidy where
  trans c c' c'' h h' := IsTrans.trans c.ir c'.ir c''.ir h h'

variable {c c' : Context}

/-- Entering a namespace does not concern the module. -/
theorem enter_ir (name : String) (c : Context) : (enter name c).2.ir = c.ir := by
  unfold enter
  split <;> rfl

/-- A change of a context leaves no block of a function open. -/
theorem Change.tidy (h : Change c c') : Tidy c c' := by
  cases h with
  | checked within _ => exact .of_eq within.ir.blocks within.ir.functions
  | enter name h => exact .of_eq (by rw [h, enter_ir]) (by rw [h, enter_ir])
  | leave h => exact .of_eq (by rw [h]; rfl) (by rw [h]; rfl)
  | struct _ _ _ h _ =>
    obtain ⟨-, c₁, c₂, layout, hwithin, -, -, rfl, rfl⟩ := h
    exact .of_eq hwithin.ir.blocks hwithin.ir.functions
  | enum _ _ _ _ _ h _ =>
    obtain ⟨-, -, c₁, c₂, c₃, member, hwithin, -, -, rfl, -, rfl, rfl⟩ := h
    exact .of_eq hwithin.ir.blocks hwithin.ir.functions
  | function _ _ _ _ _ h _ _ =>
    obtain ⟨-, c₁, tys, ret, ir, hwithin, -, -, hdeclared, rfl⟩ := h
    have hstill : Ir.Module.Tidy c.ir c₁.ir := .of_eq hwithin.ir.blocks hwithin.ir.functions
    exact IsTrans.trans _ _ _ hstill (.of_declared hdeclared)
  | body _ _ _ h => exact h.tidy

end Context

namespace Lower

variable {σ : Type} {u u' : Compilation σ}

/-- A body that succeeds leaves nothing to repair. -/
theorem defineFunction_finished {nameNode bodyNode linkageNode tyNode paramsNode first : NodeId}
    {name : String} {rest : List NodeId}
    (h : defineFunction nameNode name bodyNode
      (linkageNode :: tyNode :: paramsNode :: first :: rest) u = .ok ⟨⟩ u') :
    ∃ (func : Ir.FuncId) (params : List (Param × Span)) (returnType : TypeId)
      (u₁ u₂ : Compilation σ), body func params returnType first rest u₁ = .ok ⟨⟩ u₂ ∧
        u' = u₂.withContext (Context.onModule (finishFunction func) u₂.context).2 ∧
        (finishFunction func u₂.context.ir).1 = 0 := by
  obtain ⟨returnType, -, params, places, linkage, func, u₁, c, u₂, -, -, hdeclared, hbody, rfl⟩ :=
    defineFunction_ok h
  obtain ⟨entry, m₁, hentry⟩ : ∃ entry m₁, appendBlock func "entry" c.ir = (entry, m₁) :=
    ⟨_, _, rfl⟩
  have hfunc := hdeclared.func_lt
  have hstart := starts_insertionCourse hfunc hentry
  have hreturns := (body_covered (u := u₁.withContext c) _ returnType first rest hentry
    hstart.ready.funcInTable hstart).of_ok hbody
  exact ⟨func, _, returnType, _, u₂, hbody, rfl,
    finishFunction_fst (closed_of_returns hfunc hdeclared.noBlocks hentry hreturns).2⟩

/-- The code of an expression is emitted at the end of the block it is given and in blocks of its
own, which are closed except for the one where code goes on; no other function or block is changed,
and no namespace. So a body that succeeds leaves nothing to repair, and a top-level form leaves no
block open. -/
theorem insertion_discipline (h : Reachable u) :
    (∀ (frame : Frame) (b : Ir.BlockId) (node : NodeId), Insertion frame.func u.context.ir b →
      Ends (process frame b node) u
        (fun r u' => u.context.Within Pool.Extends (Grows frame.func b) u'.context ∧
          Inserts frame.func u.context.ir b u'.context.ir r.block)
        fun u' => u.context.Within Pool.Extends (Grows frame.func b) u'.context) ∧
    (∀ (nameNode : NodeId) (name : String) (bodyNode linkageNode tyNode paramsNode first : NodeId)
      (rest : List NodeId) (u' : Compilation σ),
      defineFunction nameNode name bodyNode
        (linkageNode :: tyNode :: paramsNode :: first :: rest) u = .ok ⟨⟩ u' →
      ∃ (func : Ir.FuncId) (params : List (Param × Span)) (returnType : TypeId)
        (u₁ u₂ : Compilation σ), body func params returnType first rest u₁ = .ok ⟨⟩ u₂ ∧
          u' = u₂.withContext (Context.onModule (finishFunction func) u₂.context).2 ∧
          (finishFunction func u₂.context.ir).1 = 0) ∧
    (∀ node : NodeId, u.context.Tidy (final (processTopLevel node) u).context ∧
      u.context.Tidy (final (declareEnum node) u).context) ∧
    (Built u → ∀ (f : Ir.FuncId) (b : Ir.BlockId), b ∈ (u.context.ir.function f).blocks →
      u.context.ir.isTerminated b = true) := by
  refine ⟨fun frame b node hb => ?_, fun _ _ _ _ _ _ _ _ _ => defineFunction_finished,
    fun node => ⟨?_, ?_⟩, fun hbuilt f b hb => ?_⟩
  · have hready : ((insertionCourse frame.func).account frame).At u.context b :=
      ⟨hb, fun _ _ _ => trivial⟩
    have hof : ∀ c, Context.Within (Pool.Kept frame.scope) Ir.Module.Extends u.context c →
        Grows frame.func b u.context.ir c.ir →
        u.context.Within Pool.Extends (Grows frame.func b) c := fun c hc hgrows =>
      ⟨hc.pool.grown, hgrows, hc.namespaces, hc.entered, hc.layouts, hc.onceTag⟩
    refine (process_covered _ b node u hready).mono (fun r u' hr => ?_) fun u' hu' => ?_
    · have hinserts : Inserts frame.func u.context.ir b u'.context.ir r.block := hr.leads.leads
      exact ⟨hof _ hr.leads.within hinserts.grows, hinserts⟩
    · exact hof _ hu'.within hu'.stops
  · exact Context.Develops.rel (fun _ _ _ => Context.Change.tidy)
      ((topLevel_develops.processTopLevel_keeps node).rel_final u) h.valid
  · exact Context.Develops.rel (fun _ _ _ => Context.Change.tidy)
      ((topLevel_develops.declareEnum_keeps node).rel_final u) h.valid
  · obtain ⟨options, hdevelops⟩ := hbuilt.develops
    have htidy := hdevelops.rel (fun _ _ _ => Context.Change.tidy) (Context.valid_start options)
    by_contra hopen
    exact Array.not_mem_empty b (htidy f b hb (Bool.eq_false_iff.2 hopen)).1

/-- A session without variables, and the form `(if true 1 1)`. -/
def branchSession : Compilation Unit where
  forest := ⟨#[⟨.token ⟨.symbol, ⟨1⟩⟩, .dummy⟩, ⟨.token ⟨.symbol, ⟨2⟩⟩, .dummy⟩,
    ⟨.token ⟨.integer, ⟨3⟩⟩, .dummy⟩, ⟨.list [⟨0⟩, ⟨1⟩, ⟨2⟩, ⟨2⟩], .dummy⟩],
    ⟨#["", "if", "true", "1"]⟩⟩
  context := (Context.openSession "scratch" [] .void .internal (.start .standard)).2
  memory := ()
  expander := .none
  maxExpansions := 128

/-- The code of the conditional goes on in the block where its branches merge. -/
theorem inserts_branchSession :
    Reachable branchSession ∧ Insertion ⟨0⟩ branchSession.context.ir ⟨0⟩ ∧
      ∃ r u', process ⟨⟨0⟩, .empty⟩ ⟨0⟩ ⟨3⟩ branchSession = .ok r u' ∧ r.block = ⟨3⟩ ∧
        Inserts ⟨0⟩ branchSession.context.ir ⟨0⟩ u'.context.ir ⟨3⟩ := by
  have hreachable : Reachable branchSession := by
    have hstart : Reachable (.start .standard .none () : Compilation Unit) := .start _ _ _
    have hparams : ∀ p ∈ ([] : List SessionParam),
        (Compilation.start .standard .none () : Compilation Unit).context.Grounded p.ty := nofun
    exact (hstart.openSession "scratch" hparams .void .internal).forest branchSession.forest
  have hready : Insertion ⟨0⟩ branchSession.context.ir ⟨0⟩ :=
    ⟨by decide +kernel, by decide +kernel, by decide +kernel, by decide +kernel⟩
  have hrun : Ends (process ⟨⟨0⟩, .empty⟩ ⟨0⟩ ⟨3⟩) branchSession (fun r _ => r.block = ⟨3⟩)
      fun _ => False := by
    unfold Ends
    decide +kernel
  obtain ⟨hprocess, -⟩ := insertion_discipline hreachable
  have hends := hprocess ⟨⟨0⟩, .empty⟩ ⟨0⟩ ⟨3⟩ hready
  cases h : process ⟨⟨0⟩, .empty⟩ ⟨0⟩ ⟨3⟩ branchSession with
  | error e u' => exact (hrun.of_error h).elim
  | ok r u' =>
    have hblock := hrun.of_ok h
    exact ⟨hreachable, hready, r, u', rfl, hblock, hblock ▸ (hends.of_ok h).2⟩

end Lower

end FormCompiler
