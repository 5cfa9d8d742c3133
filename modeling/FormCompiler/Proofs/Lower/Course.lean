import FormCompiler.Proofs.Lower.Account

/-!
# Courses of Code

A `Course` says what is known of a module while the code of an expression is emitted into a
function, in terms of single instructions: that they keep what is known (`emitted`), and that
branching and merging do (`fork`, `merged`, `phi`). The types of operands play no part in it, and
whatever is refused leaves the module as it is, types and values aside.

`Course.account` derives the account of expressions from it.
-/

namespace FormCompiler

namespace Ir

/-- What is known of a module while code is emitted into a function. -/
structure Course (func : FuncId) where
  /-- Code may be emitted into the block. -/
  At : Module → BlockId → Prop
  /-- Code at the end of the block may use the value. -/
  Usable : Module → BlockId → ValueId → Prop
  /-- Code was emitted from the first block on and goes on in the second one. -/
  Leads : Module → BlockId → Module → BlockId → Prop
  /-- Code was emitted from the block on until something was refused. -/
  Stops : Module → BlockId → Module → Prop
  /-- Control branches; code was emitted in both branches, and goes on in the two blocks. -/
  Forks : Module → BlockId → Module → BlockId → BlockId → Prop
  isOpen {m : Module} {b : BlockId} : At m b →
    b.index < m.blocks.size ∧ m.isTerminated b = false
  lands {m m' : Module} {b b' : BlockId} : Leads m b m' b' → At m' b'
  trans {m m₁ m₂ : Module} {b b₁ b₂ : BlockId} :
    Leads m b m₁ b₁ → Leads m₁ b₁ m₂ b₂ → Leads m b m₂ b₂
  after {m m₁ m₂ : Module} {b b₁ : BlockId} :
    Leads m b m₁ b₁ → Stops m₁ b₁ m₂ → Stops m b m₂
  stops {m : Module} {b : BlockId} : At m b → Stops m b m
  extended {m m' : Module} {b b' : BlockId} : Leads m b m' b' → m.Extends m'
  stopped {m m' : Module} {b : BlockId} : Stops m b m' → m.Extends m'
  stays {m m' : Module} {b b' : BlockId} {v : ValueId} :
    Usable m b v → Leads m b m' b' → Usable m' b' v
  constant {m : Module} {b : BlockId} {v : ValueId} {ty : TyId} {kind : ValueKind} :
    m.values[v.index]? = some ⟨ty, kind⟩ → kind.isConstant = true → Usable m b v
  still {m m' : Module} {b : BlockId} : At m b → m.Still m' → Leads m b m' b
  emitted {m m' : Module} {b : BlockId} {i : Instr} :
    At m b → (∀ v ∈ i.uses, Usable m b v) → (∀ v incoming, i ≠ .phi v incoming) →
      Module.Emitted b i m m' →
      Leads m b m' b ∧ ∀ v, i.dst? = some v → Usable m' b v
  fork {m m₁ m₂ m₃ : Module} {b onTrue onFalse : BlockId} {v : ValueId} :
    At m b → Usable m b v → Module.appendBlock func "then" m = (onTrue, m₁) →
      Module.appendBlock func "else" m₁ = (onFalse, m₂) →
      Module.Closed b (.condBr v onTrue onFalse) m₂ m₃ → Forks m b m₃ onTrue onFalse
  /-- The blocks of the branches were appended, but branching was refused. -/
  unforked {m m₁ m₂ m₃ : Module} {b onTrue onFalse : BlockId} :
    At m b → Module.appendBlock func "then" m = (onTrue, m₁) →
      Module.appendBlock func "else" m₁ = (onFalse, m₂) → m₂.Still m₃ → Stops m b m₃
  merged {m m₁ m₂ m₃ m₄ : Module} {b onTrue onFalse target : BlockId} :
    Forks m b m₁ onTrue onFalse → Module.appendBlock func "merge" m₁ = (target, m₂) →
      Module.Closed onTrue (.br target) m₂ m₃ → Module.Closed onFalse (.br target) m₃ m₄ →
      Leads m b m₄ target
  phi {m m₁ m₂ m₃ m₄ m₅ : Module} {b onTrue onFalse target : BlockId} {v w x : ValueId} :
    Forks m b m₁ onTrue onFalse → Usable m₁ onTrue v → Usable m₁ onFalse w →
      Module.appendBlock func "merge" m₁ = (target, m₂) →
      Module.Closed onTrue (.br target) m₂ m₃ → Module.Closed onFalse (.br target) m₃ m₄ →
      Module.Emitted target (.phi x [(v, onTrue), (w, onFalse)]) m₄ m₅ →
      Leads m b m₅ target ∧ Usable m₅ target x
  distinct {m m' : Module} {b onTrue onFalse : BlockId} :
    Forks m b m' onTrue onFalse → onTrue ≠ onFalse
  forked {m m' : Module} {b onTrue onFalse : BlockId} :
    Forks m b m' onTrue onFalse → m.Extends m'
  swap {m m' : Module} {b onTrue onFalse : BlockId} :
    Forks m b m' onTrue onFalse → Forks m b m' onFalse onTrue
  branch {m m' : Module} {b onTrue onFalse : BlockId} :
    Forks m b m' onTrue onFalse → At m' onTrue
  inherits {m m' : Module} {b onTrue onFalse : BlockId} {v : ValueId} :
    Usable m b v → Forks m b m' onTrue onFalse → Usable m' onTrue v
  goesOn {m m₁ m₂ : Module} {b onTrue onFalse onTrue' : BlockId} :
    Forks m b m₁ onTrue onFalse → Leads m₁ onTrue m₂ onTrue' → Forks m b m₂ onTrue' onFalse
  stopsIn {m m₁ m₂ : Module} {b onTrue onFalse : BlockId} :
    Forks m b m₁ onTrue onFalse → Stops m₁ onTrue m₂ → Stops m b m₂
  apart {m m₁ m₂ : Module} {b onTrue onFalse onTrue' : BlockId} {v : ValueId} :
    Forks m b m₁ onTrue onFalse → Usable m₁ onFalse v → Leads m₁ onTrue m₂ onTrue' →
      Usable m₂ onFalse v

namespace Course

open Ir.Module

variable {func : FuncId} (C : Course func) {α : Type} {m : Module} {b : BlockId}

/-- An operation was refused. -/
theorem refused {m' : Module} (hat : C.At m b) (h : m.Still m') : C.Stops m b m' :=
  C.after (C.still hat h) (C.stops (C.lands (C.still hat h)))

/-- An operation that emits an instruction or is refused. -/
theorem instr {op : Build α} {i : α → Instr} {R : α → Module → Prop} (hat : C.At m b)
    (hop : Ends op m (fun a m' => Emitted b (i a) m m' ∧ R a m') (Still m))
    (huses : ∀ a, ∀ v ∈ (i a).uses, C.Usable m b v)
    (hphi : ∀ a v incoming, i a ≠ .phi v incoming) :
    Ends op m (fun a m' => C.Leads m b m' b ∧ ∀ v, (i a).dst? = some v → C.Usable m' b v)
      (C.Stops m b) :=
  hop.mono (fun a _ h => C.emitted hat (huses a) (hphi a) h.1) fun _ => C.refused hat

variable (hat : C.At m b) {v w : ValueId}

include hat

/-- Making a stack slot. -/
theorem alloca (ty : TyId) :
    Ends (alloca b ty) m (fun v m' => C.Leads m b m' b ∧ C.Usable m' b v) (C.Stops m b) :=
  (C.instr hat (alloca_ends b ty m) nofun nofun).mono (fun _ _ h => ⟨h.1, h.2 _ rfl⟩)
    fun _ h => h

/-- Reading. -/
theorem load (hv : C.Usable m b v) :
    Ends (load b v) m (fun w m' => C.Leads m b m' b ∧ C.Usable m' b w) (C.Stops m b) :=
  (C.instr hat (load_ends b v m) (by simpa [Instr.uses] using hv) nofun).mono
    (fun _ _ h => ⟨h.1, h.2 _ rfl⟩) fun _ h => h

/-- Writing. -/
theorem store (hv : C.Usable m b v) (hw : C.Usable m b w) :
    Ends (store b w v) m (fun _ m' => C.Leads m b m' b) (C.Stops m b) :=
  (C.instr hat (store_ends b w v m) (by simpa [Instr.uses] using ⟨hw, hv⟩) nofun).mono
    (fun _ _ h => h.1) fun _ h => h

/-- Calling. -/
theorem call (callee : FuncId) {vs : List ValueId} (hvs : ∀ v ∈ vs, C.Usable m b v) :
    Ends (call b callee vs) m
      (fun returned m' => C.Leads m b m' b ∧ ∀ v, returned = some v → C.Usable m' b v)
      (C.Stops m b) :=
  C.instr hat (call_ends b callee vs m) (fun _ => hvs) nofun

/-- Taking a field. -/
theorem extractValue (index : Nat) (hv : C.Usable m b v) :
    Ends (extractValue b v index) m (fun w m' => C.Leads m b m' b ∧ C.Usable m' b w)
      (C.Stops m b) :=
  (C.instr hat (extractValue_ends b v index m) (by simpa [Instr.uses] using hv) nofun).mono
    (fun _ _ h => ⟨h.1, h.2 _ rfl⟩) fun _ h => h

/-- Storing a value in a new slot. -/
theorem spillInstrs (ty : TyId) (hv : C.Usable m b v) :
    Ends (Lower.spillInstrs b ty v) m (fun w m' => C.Leads m b m' b ∧ C.Usable m' b w)
      (C.Stops m b) := by
  refine (C.alloca hat ty).bind ?_
  rintro slot m₁ ⟨hlead, hslot⟩
  refine (C.store (C.lands hlead) hslot (C.stays hv hlead)).andThen (fun _ => C.after hlead) ?_
  exact fun _ m₂ hstore => .pure ⟨C.trans hlead hstore, C.stays hslot hstore⟩

/-- Calling a destructor on a slot that holds the value. -/
theorem callDestructor (ty : TyId) (destructor : FuncId) (hv : C.Usable m b v) :
    Ends (Context.callDestructor b ty v destructor) m (fun _ m' => C.Leads m b m' b)
      (C.Stops m b) := by
  refine (C.alloca hat ty).bind ?_
  rintro slot m₁ ⟨hlead, hslot⟩
  refine (C.store (C.lands hlead) hslot (C.stays hv hlead)).andThen (fun _ => C.after hlead)
    fun _ m₂ hstore => ?_
  have hlead₂ := C.trans hlead hstore
  have hargument : ∀ v ∈ [slot], C.Usable m₂ b v := by simpa using C.stays hslot hstore
  refine (C.call (C.lands hstore) destructor hargument).andThen (fun _ => C.after hlead₂) ?_
  exact fun _ m₃ hcall => .pure (C.trans hlead₂ hcall.1)

/-- Copying a value by way of two slots. -/
theorem copyInstrs (ty : TyId) (copy : FuncId) (hv : C.Usable m b v) :
    Ends (Lower.copyInstrs b ty v copy) m (fun w m' => C.Leads m b m' b ∧ C.Usable m' b w)
      (C.Stops m b) := by
  refine (C.alloca hat ty).bind ?_
  rintro source m₁ ⟨hlead, hsource⟩
  refine (C.store (C.lands hlead) hsource (C.stays hv hlead)).andThen (fun _ => C.after hlead)
    fun _ m₂ hstore => ?_
  have hlead₂ := C.trans hlead hstore
  refine (C.alloca (C.lands hstore) ty).andThen (fun _ => C.after hlead₂) ?_
  rintro fresh m₃ ⟨halloca, hfresh⟩
  have hlead₃ := C.trans hlead₂ halloca
  have harguments : ∀ v ∈ [fresh, source], C.Usable m₃ b v := by
    simpa using ⟨hfresh, C.stays (C.stays hsource hstore) halloca⟩
  refine (C.call (C.lands halloca) copy harguments).andThen (fun _ => C.after hlead₃) ?_
  rintro _ m₄ ⟨hcall, -⟩
  have hlead₄ := C.trans hlead₃ hcall
  exact (C.load (C.lands hcall) (C.stays hfresh hcall)).mono
    (fun _ _ h => ⟨C.trans hlead₄ h.1, h.2⟩) fun _ => C.after hlead₄

omit hat in
/-- Both branches go on in a new block. -/
theorem join {m₁ m₂ : Module} {onTrue onFalse target : BlockId}
    (hforks : C.Forks m b m₁ onTrue onFalse)
    (happend : appendBlock func "merge" m₁ = (target, m₂)) :
    Ends (Lower.join onTrue onFalse target) m₂
      (fun _ m₄ => ∃ m₃, Closed onTrue (.br target) m₂ m₃ ∧ Closed onFalse (.br target) m₃ m₄)
      fun _ => False := by
  obtain ⟨hlt, hopen⟩ := C.isOpen (C.branch hforks)
  obtain ⟨hlt', hopen'⟩ := C.isOpen (C.branch (C.swap hforks))
  have hblock : ∀ b' : BlockId, b'.index < m₁.blocks.size → m₂.block b' = m₁.block b' := by
    intro b' hb'
    have hm₂ : m₂ = (appendBlock func "merge" m₁).2 := by rw [happend]
    rw [hm₂, appendBlock_block_of_lt m₁ func "merge" hb']
  refine (br_accepted target ?_).bind fun _ m₃ hclosed => ?_
  · rwa [isTerminated, hblock _ hlt]
  · refine (br_accepted target ?_).mono (fun _ m₄ hclosed' => ⟨m₃, hclosed, hclosed'⟩)
      fun _ h => h
    rwa [isTerminated, hclosed.block_of_ne (C.distinct hforks).symm, hblock _ hlt']

end Course

end Ir

/-- The value or the address that a variable stands for. -/
def Storage.operand : Storage → Ir.ValueId
  | slot address => address
  | value v => v

namespace Ir.Course

variable {func : FuncId} (C : Course func) {α : Type} {s : Scope} {c c₁ c' : Context}
  {b b₁ : BlockId}

/-! ## The account of a course -/

/-- Code may be emitted into the block, and it may use the variables in scope. -/
structure Ready (s : Scope) (c : Context) (b : BlockId) : Prop where
  ready : C.At c.ir b
  scope : ∀ name v, s.lookup? name = some v → C.Usable c.ir b v.storage.operand

/-- Code was emitted from a block on and goes on in another one. -/
structure Emits (s : Scope) (c : Context) (b : BlockId) (c' : Context) (b' : BlockId) : Prop where
  start : C.Ready s c b
  within : c.Within (Pool.Kept s) Module.Extends c'
  leads : C.Leads c.ir b c'.ir b'

/-- Code was emitted from a block on until something was refused. -/
structure Halts (s : Scope) (c : Context) (b : BlockId) (c' : Context) : Prop where
  within : c.Within (Pool.Kept s) Module.Extends c'
  stops : C.Stops c.ir b c'.ir

/-- Code was emitted in both branches from a block. -/
structure Splits (s : Scope) (c : Context) (b : BlockId) (c' : Context) (onTrue onFalse : BlockId) :
    Prop where
  start : C.Ready s c b
  within : c.Within (Pool.Kept s) Module.Extends c'
  forks : C.Forks c.ir b c'.ir onTrue onFalse

variable {C}

/-- Types and values may be added to the module, and pointers to the pool. -/
theorem Ready.still (h : C.Ready s c b) (hc : c.Within (Pool.Kept s) Module.Still c') :
    C.Emits s c b c' b :=
  ⟨h, hc.mono (fun _ _ hp => hp) fun _ _ => Module.Still.toExtends, C.still h.ready hc.ir⟩

/-- The account of an operation that leads on. -/
theorem Ready.emitOr (h : C.Ready s c b) {op : Build α} {b' : α → BlockId}
    {P : α → Module → Prop} (refusal : Error → Diagnostic)
    (hop : Ends op c.ir (fun a m => C.Leads c.ir b m (b' a) ∧ P a m) (C.Stops c.ir b)) :
    Ends (Context.emitOr refusal op) c (fun a c' => C.Emits s c b c' (b' a) ∧ P a c'.ir)
      (C.Halts s c b) := by
  refine (Context.emitOr_ends refusal hop).mono ?_ ?_
  · rintro a _ ⟨ir, rfl, hlead, hP⟩
    exact ⟨⟨h, .of_ir (C.extended hlead), hlead⟩, hP⟩
  · rintro _ ⟨ir, queue, rfl, hstops⟩
    exact ⟨⟨Std.Refl.refl _, C.stopped hstops, rfl, rfl, rfl, rfl⟩, hstops⟩

/-- Where code leads on, the variables are still in scope. -/
theorem Emits.lands (h : C.Emits s c b c' b₁) : C.Ready s c' b₁ :=
  ⟨C.lands h.leads, fun name v hv => C.stays (h.start.scope name v hv) h.leads⟩

/-- Code may lead on several times. -/
theorem Emits.trans {c₂ : Context} {b₂ : BlockId} (h : C.Emits s c b c₁ b₁)
    (h' : C.Emits s c₁ b₁ c₂ b₂) : C.Emits s c b c₂ b₂ :=
  ⟨h.start, IsTrans.trans _ _ _ h.within h'.within, C.trans h.leads h'.leads⟩

/-- Something was refused after code led on. -/
theorem Emits.after {c₂ : Context} (h : C.Emits s c b c₁ b₁) (h' : C.Halts s c₁ b₁ c₂) :
    C.Halts s c b c₂ :=
  ⟨IsTrans.trans _ _ _ h.within h'.within, C.after h.leads h'.stops⟩

/-- The account of an operation after types were entered. -/
theorem Emits.emitOr (h : C.Emits s c b c₁ b₁) {op : Build α} {b' : α → BlockId}
    {P : α → Module → Prop} (refusal : Error → Diagnostic)
    (hop : Ends op c₁.ir (fun a m => C.Leads c₁.ir b₁ m (b' a) ∧ P a m) (C.Stops c₁.ir b₁)) :
    Ends (Context.emitOr refusal op) c₁ (fun a c' => C.Emits s c b c' (b' a) ∧ P a c'.ir)
      (C.Halts s c b) :=
  (h.lands.emitOr refusal hop).mono (fun _ _ hc => ⟨h.trans hc.1, hc.2⟩) fun _ => h.after

/-- Asking for a backend type leads on. -/
theorem Ready.backendType (h : C.Ready s c b) {t : TypeId} {ty : TyId}
    (hty : Context.backendType t c = (ty, c₁)) : C.Emits s c b c₁ b := by
  have hmoves := Context.backendType_moves t c
  rw [hty] at hmoves
  exact h.still (hmoves.mono (fun _ _ => .of_eq) fun _ _ hm => hm)

/-- The value of type `void` may be used. -/
theorem Ready.voidValue (h : C.Ready s c b) {v : ValueId}
    (hv : Context.voidValue c = (v, c')) : C.Emits s c b c' b ∧ C.Usable c'.ir b v := by
  have hmoves := Context.voidValue_moves c
  rw [hv] at hmoves
  refine ⟨h.still (hmoves.mono (fun _ _ => .of_eq) fun _ _ hm => hm), ?_⟩
  have hfresh := Module.newValue_fresh (Module.internType .void c.ir).1 .undefined
    (Module.internType .void c.ir).2
  have hrun : Context.voidValue c =
      ((Module.newValue (Module.internType .void c.ir).1 .undefined
        (Module.internType .void c.ir).2).1, c.withIr (Module.newValue
          (Module.internType .void c.ir).1 .undefined (Module.internType .void c.ir).2).2) := rfl
  rw [hrun] at hv
  cases hv
  exact C.constant hfresh.value rfl

/-- The types of the arguments of a call play no part. -/
theorem usable_of_forall₂ {tys : List TypeId} {vs : List ValueId}
    (h : List.Forall₂ (fun _ v => C.Usable c.ir b v) tys vs) : ∀ v ∈ vs, C.Usable c.ir b v := by
  induction h with
  | nil => exact nofun
  | cons hv _ ih => exact List.forall_mem_cons.2 ⟨hv, ih⟩

/-- Branching splits the code. -/
theorem Ready.fork (h : C.Ready s c b) {v : ValueId} (hv : C.Usable c.ir b v)
    {onTrue onFalse : BlockId} {m m' : Module} (span : Span)
    (hTrue : Module.appendBlock func "then" c.ir = (onTrue, m))
    (hFalse : Module.appendBlock func "else" m = (onFalse, m')) :
    Ends (Context.emit span (Module.condBr b v onTrue onFalse)) (c.withIr m')
      (fun _ c' => C.Splits s c b c' onTrue onFalse) (C.Halts s c b) := by
  refine (Context.emitOr_ends _ (Module.condBr_ends b v onTrue onFalse m')).mono ?_ ?_
  · rintro _ _ ⟨ir, rfl, hclosed⟩
    have hforks := C.fork h.ready hv hTrue hFalse hclosed
    exact ⟨h, .of_ir (C.forked hforks), hforks⟩
  · rintro _ ⟨ir, queue, rfl, hstill⟩
    have hstops := C.unforked h.ready hTrue hFalse hstill
    exact ⟨⟨Std.Refl.refl _, C.stopped hstops, rfl, rfl, rfl, rfl⟩, hstops⟩

/-- Both branches lead to the block where they merge. -/
theorem Splits.merge {onTrue onFalse target : BlockId} (h : C.Splits s c b c₁ onTrue onFalse)
    {t : TypeId} {v w : ValueId} {m : Module} (span : Span) (hv : C.Usable c₁.ir onTrue v)
    (hw : C.Usable c₁.ir onFalse w)
    (happend : Module.appendBlock func "merge" c₁.ir = (target, m)) :
    Ends (Context.emit span (Lower.join onTrue onFalse target)) (c₁.withIr m)
      (fun _ c₂ =>
        (c₂.pool.isVoid t = true → ∀ x c', Context.voidValue c₂ = (x, c') →
          C.Emits s c b c' target ∧ C.Usable c'.ir target x) ∧
        (c₂.pool.isVoid t = false → ∀ span, Ends
          (Context.emit span (Module.phi target [(v, onTrue), (w, onFalse)])) c₂
          (fun x c' => C.Emits s c b c' target ∧ C.Usable c'.ir target x) (C.Halts s c b)))
      (C.Halts s c b) := by
  refine (Context.emitOr_ends _ (C.join h.forks happend)).mono ?_ ?_
  · rintro _ _ ⟨m₄, rfl, m₃, hTrue, hFalse⟩
    have hlead := C.merged h.forks happend hTrue hFalse
    have hemits : C.Emits s c b (c₁.withIr m₄) target :=
      ⟨h.start, ⟨h.within.pool, C.extended hlead, h.within.namespaces, h.within.entered,
        h.within.layouts, h.within.onceTag⟩, hlead⟩
    refine ⟨fun _ x c' hx => ?_, fun _ span => ?_⟩
    · obtain ⟨hvoid, husable⟩ := hemits.lands.voidValue hx
      exact ⟨hemits.trans hvoid, husable⟩
    · refine (Context.emitOr_ends _ (Module.phi_ends target _ m₄)).mono ?_ ?_
      · rintro x _ ⟨m₅, rfl, hemitted, -⟩
        obtain ⟨hlead', husable⟩ := C.phi h.forks hv hw happend hTrue hFalse hemitted
        exact ⟨⟨h.start, ⟨h.within.pool, C.extended hlead', h.within.namespaces,
          h.within.entered, h.within.layouts, h.within.onceTag⟩, hlead'⟩, husable⟩
      · rintro _ ⟨m₅, queue, rfl, hstill⟩
        refine hemits.after ⟨⟨Std.Refl.refl _, hstill.toExtends, rfl, rfl, rfl, rfl⟩, ?_⟩
        exact C.refused hemits.lands.ready hstill
  · rintro _ ⟨_, _, _, h⟩
    exact h.elim

/-- The address of a variable in scope may be used at its type. -/
theorem Ready.address (h : C.Ready s c b) {name : String} {t : TypeId} {a : ValueId}
    (ha : s.lookup? name = some ⟨t, .slot a⟩) :
    C.Emits s c b (c.withPool (c.pool.pointerTo t).2) b :=
  h.still (.of_pool ⟨(Pool.intern_spec _ _).1, fun hs hp => hp.pointerTo (hs name _ ha),
    Pool.unnamed_pointerTo _ _⟩)

/-- A call leads on, to its result or to the value of type `void`. -/
theorem Ready.call (h : C.Ready s c b) {vs : List ValueId} (callee : FuncId) (span : Span)
    (hvs : ∀ v ∈ vs, C.Usable c.ir b v) :
    Ends (Context.emit span (Module.call b callee vs)) c
      (fun returned c₁ => ∀ v c', (returned = some v ∧ c' = c₁) ∨
          (returned = none ∧ Context.voidValue c₁ = (v, c')) →
        C.Emits s c b c' b ∧ C.Usable c'.ir b v) (C.Halts s c b) := by
  refine (h.emitOr _ (C.call h.ready callee hvs)).mono ?_ fun _ h => h
  rintro returned c₁ ⟨hlead, husable⟩ v c' (⟨rfl, rfl⟩ | ⟨-, hv⟩)
  · exact ⟨hlead, husable v rfl⟩
  · obtain ⟨hvoid, hv⟩ := hlead.lands.voidValue hv
    exact ⟨hlead.trans hvoid, hv⟩

/-- A branch goes on from its block, with the variables in scope. -/
theorem Splits.branch {onTrue onFalse : BlockId} (h : C.Splits s c b c' onTrue onFalse) :
    C.Ready s c' onTrue :=
  ⟨C.branch h.forks, fun name v hv => C.inherits (h.start.scope name v hv) h.forks⟩

/-- The account of expressions that a course gives. -/
def account (frame : Frame) (C : Course frame.func) : Account frame where
  At := C.Ready frame.scope
  Usable c b _ _ v := C.Usable c.ir b v
  Leads := C.Emits frame.scope
  Stops := C.Halts frame.scope
  Forks := C.Splits frame.scope
  refl h := h.still (Std.Refl.refl _)
  trans h h' := h.trans h'
  lands h := h.lands
  kept h := h.within
  stays h h' := C.stays h h'.leads
  lends h := h
  unfinished h := ⟨Std.Refl.refl _, C.stops h.ready⟩
  rejects h h' := ⟨h'.within.mono (fun _ _ => .of_eq) fun _ _ => Module.Still.toExtends,
    C.refused h.ready h'.within.ir⟩
  after h h' := h.after h'
  constant h h' := by
    obtain ⟨_, _, hvalue, hkind⟩ := h'.constant
    exact ⟨h.still h'.within, C.constant hvalue hkind⟩
  value h hv := h.scope _ _ hv
  slot _ h hv := h.emitOr _ (C.load h.ready (h.scope _ _ hv))
  address h hv := ⟨h.address hv, h.scope _ _ hv⟩
  pointer _ hv _ _ := hv
  load _ h hv _ _ := h.emitOr _ (C.load h.ready hv)
  store _ h hv hw _ := (h.emitOr _ ((C.store h.ready hv hw).mono (fun _ _ hm => ⟨hm, trivial⟩)
    fun _ hm => hm)).mono (fun _ _ hc => hc.1) fun _ hc => hc
  effect _ h _ hvs := (h.emitOr _ (C.call h.ready _ (usable_of_forall₂ hvs))).mono
    (fun _ _ hc => hc.1) fun _ hc => hc
  call span h _ hvs := h.call _ span (usable_of_forall₂ hvs)
  copy _ h hv _ hty :=
    have hlead := h.backendType hty
    hlead.emitOr _ (C.copyInstrs hlead.lands.ready _ _ (C.stays hv hlead.leads))
  destroy h hv _ hty :=
    have hlead := h.backendType hty
    (hlead.emitOr _ ((C.callDestructor hlead.lands.ready _ _ (C.stays hv hlead.leads)).mono
      (fun _ _ hm => ⟨hm, trivial⟩) fun _ hm => hm)).mono (fun _ _ hc => hc.1) fun _ hc => hc
  extract h hv _ _ := h.emitOr _ (C.extractValue h.ready _ hv)
  fork span h hv hTrue hFalse := h.fork hv span hTrue hFalse
  merge span h hv hw happend := h.merge span hv hw happend
  swap h := ⟨h.start, h.within, C.swap h.forks⟩
  branch h := h.branch
  goesOn h h' := ⟨h.start, IsTrans.trans _ _ _ h.within h'.within, C.goesOn h.forks h'.leads⟩
  stopsIn h h' := ⟨IsTrans.trans _ _ _ h.within h'.within, C.stopsIn h.forks h'.stops⟩
  apart h hv h' := C.apart h.forks hv h'.leads

end Ir.Course

end FormCompiler
