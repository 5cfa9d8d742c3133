import FormCompiler.Proofs.BranchOwnership
import FormCompiler.Proofs.Context.Clashes
import FormCompiler.Proofs.InsertionBlocks

/-!
# Values Fit Where They Are Used

The value of an expression fits its source type: it has the backend type of the source type or, if
it is not owned, that of a stray pointer to `void` (`Context.Fits`). Code is emitted with values
that fit into blocks that are open, so the backend refuses nothing of it but types that clash
(`fittingAccount`). Where it goes on nothing was reported, and where it stops there is one report,
of a check of the source or of such types (`Context.Objects`).
-/

namespace FormCompiler

open Ir.Module Relation

namespace Context

/-- The report is one of a check of the source, or of types that clash. -/
def Admits (c : Context) (d : Diagnostic) : Prop := d.IsSource ∨ c.Clashes d

/-- One report was made at most, which is admitted. -/
def Objects (c c' : Context) : Prop :=
  c'.queue = c.queue ∨ ∃ d, c'.Admits d ∧ c'.queue = c.queue.emitError d

/-- The value may be used as one of the type, and cleaned up if it is owned. -/
structure Fits (c : Context) (owned : Bool) (t : TypeId) (v : Ir.ValueId) : Prop where
  inTable : v.index < c.ir.values.size
  stands : c.Stands t (c.ir.valueType v)
  backs : owned = true → c.Backs t (c.ir.valueType v)

/-- The types that clash in a context with the module. -/
def ClashIn (c : Context) (m : Ir.Module) : Ir.TyId → Ir.TyId → Prop := (c.withIr m).Clash

variable {α : Type} {c c₁ c' : Context} {b : Ir.BlockId} {owned : Bool} {t : TypeId}
  {v w : Ir.ValueId} {i : Ir.Instr} {m : Ir.Module}

/-- A report stays admitted. -/
theorem Admits.mono {d : Diagnostic} (h : c.Admits d) (hc : c.Steady c') : c'.Admits d :=
  h.imp_right fun h => h.mono hc

/-- An error of a check of the source may be reported. -/
theorem Objects.of_source {d : Diagnostic} (hqueue : c'.queue = c.queue.emitError d)
    (hd : d.IsSource) : c.Objects c' := .inr ⟨d, .inl hd, hqueue⟩

/-- A check of the source may fail. -/
theorem Objects.of_rejects (h : c.Rejects c') : c.Objects c' := by
  obtain ⟨d, hd, hqueue⟩ := h.reported
  exact .of_source hqueue hd

/-- Nothing was reported before a report. -/
theorem Objects.after (h : c₁.Objects c') (hqueue : c₁.queue = c.queue) : c.Objects c' := by
  unfold Objects
  rw [← hqueue]
  exact h

/-- A value of the backend type of a type fits it. -/
theorem Fits.of_backs (hv : v.index < c.ir.values.size) (h : c.Backs t (c.ir.valueType v)) :
    c.Fits owned t v := ⟨hv, .backs h, fun _ => h⟩

/-- A value that is not owned fits a type for which its backend type stands. -/
theorem Fits.of_stands (hv : v.index < c.ir.values.size) (h : c.Stands t (c.ir.valueType v)) :
    c.Fits false t v := ⟨hv, h, fun ho => absurd ho Bool.false_ne_true⟩

/-- A value that fits does so later, too. -/
theorem Fits.mono (h : c.Fits owned t v) (hc : c.Steady c') (hir : c.ir.Extends c'.ir) :
    c'.Fits owned t v where
  inTable := Nat.lt_of_lt_of_le h.inTable hir.values.size_le
  stands := by
    rw [hir.valueType h.inTable]
    exact h.stands.mono hc
  backs ho := by
    rw [hir.valueType h.inTable]
    exact (h.backs ho).mono hc

/-- A value that code defines with the backend type of a type fits it. -/
theorem Fits.of_emitted (h : Emitted b i c.ir m) (hi : i.dst? = some v)
    (hbacks : c.Backs t (m.valueType v)) : (c.withIr m).Fits owned t v := by
  obtain ⟨-, _, hv⟩ := h.fresh v hi
  exact .of_backs (c := c.withIr m) (Array.getElem?_eq_some_iff.1 hv).1
    (hbacks.mono (.of_ir h.toExtends))

/-- The value of type `void` fits. -/
theorem fits_voidValue (hc : c.Valid) (ht : t.index < c.pool.types.size)
    (hvoid : c.pool.isVoid t = true) (h : voidValue c = (v, c')) :
    c'.queue = c.queue ∧ c'.Fits owned t v := by
  obtain rfl := eq_void_of_isVoid hc.pool ht hvoid
  have hfound := (internType_spec .void rfl c.ir).2
  have hfresh := newValue_fresh (internType .void c.ir).1 .undefined (internType .void c.ir).2
  have hrun : voidValue c = ((newValue (internType .void c.ir).1 .undefined
      (internType .void c.ir).2).1, c.withIr (newValue (internType .void c.ir).1 .undefined
        (internType .void c.ir).2).2) := rfl
  rw [hrun] at h
  cases h
  refine ⟨rfl, .of_backs (Array.getElem?_eq_some_iff.1 hfresh.value).1 ?_⟩
  refine .primitive (hc.pool.primitives .void) ?_
  change (newValue _ _ _).2.findType? .void = some ((newValue _ _ _).2.valueType _)
  rw [valueType_of_getElem? hfresh.value]
  exact hfresh.still.toExtends.findType? hfound

/-- The types of arguments that fit agree with those of the parameters or clash with them. -/
theorem Implements.arguments_agree {f : Function} (hf : c.Implements f) (hc : c.pool.Sound)
    {vs : List Ir.ValueId} (hvs : List.Forall₂ (c.Fits false) f.paramTypes vs) :
    List.Forall₂ (fun param argument =>
      ReflGen c.Clash (c.ir.valueType param) (c.ir.valueType argument))
      (c.ir.function f.backend).params vs := by
  have hparams := hf.params
  rw [Function.paramTypes] at hvs
  generalize (c.ir.function f.backend).params = params at hparams
  generalize f.params = declared at hparams hvs
  induction hparams generalizing vs with
  | nil =>
    cases hvs
    exact .nil
  | cons hparam _ ih =>
    cases hvs with
    | cons hv hvs => exact .cons ((Stands.backs hparam.2).agree hc hv.stands) (ih hvs)

/-- A function that takes pointers to a type is an overload for them. -/
theorem exists_of_pointerFunction? {name : String} {count : Nat} {f : Ir.FuncId}
    (h : c.pointerFunction? name t count = some f) :
    ∃ pointer overload, c.pool.types[pointer.index]? = some (.pointer t) ∧
      c.lookupFunction? name (List.replicate count pointer) = some overload ∧
      overload.backend = f := by
  unfold pointerFunction? at h
  cases hpointer : c.pool.pointerTo? t with
  | none =>
    rw [hpointer] at h
    cases h
  | some pointer =>
    rw [hpointer] at h
    obtain ⟨overload, hoverload, hbackend⟩ := Option.map_eq_some_iff.1 h
    exact ⟨pointer, overload, Pool.type_of_find hpointer, hoverload, hbackend⟩

/-- The code that copies a value is refused at most for types that clash. -/
theorem copyInstrs_refusedFor {pointer : TypeId} {overload : Function} {ty : Ir.TyId}
    (hc : c.pool.Sound) (hpointer : c.pool.types[pointer.index]? = some (.pointer t))
    (hf : c.Implements overload) (hparams : overload.paramTypes = [pointer, pointer])
    (hbacks : c.Backs t ty) (hv : c.Fits false t v) (hb : b.index < c.ir.blocks.size)
    (hopen : c.ir.isTerminated b = false) :
    RefusedFor c.ClashIn (Lower.copyInstrs b ty v overload.backend) c.ir := by
  refine .andThen (alloca_accepted ty hopen) ?_
  rintro source m₁ ⟨hsource, hsourceTy⟩
  have hb₁ : b.index < m₁.blocks.size := by rwa [hsource.size_blocks]
  have hsteady₁ : c.Steady (c.withIr m₁) := .of_ir hsource.toExtends
  have hstored : ReflGen (c.ClashIn m₁) ty (m₁.valueType v) :=
    (Stands.backs (hbacks.mono hsteady₁)).agree (c := c.withIr m₁) hc
      (hv.mono hsteady₁ hsource.toExtends).stands
  refine .bind (.store (Lower.pointee?_of_find hsourceTy) hstored (hsource.isTerminated hb))
    fun _ m₂ hok => ?_
  obtain ⟨hstore, -⟩ := (store_ends _ _ _ _).of_ok hok
  have hb₂ : b.index < m₂.blocks.size := by rwa [hstore.size_blocks]
  refine .andThen (alloca_accepted ty (hstore.isTerminated hb₁)) ?_
  rintro fresh m₃ ⟨hfresh, hfreshTy⟩
  have hb₃ : b.index < m₃.blocks.size := by rwa [hfresh.size_blocks]
  have hgrown₃ := (hsource.toExtends.trans hstore.toExtends).trans hfresh.toExtends
  have hsteady₃ : c.Steady (c.withIr m₃) := .of_ir hgrown₃
  -- both slots are pointers to values of the type, as the parameters are
  have hslot : ∀ {slot : Ir.ValueId}, slot.index < m₃.values.size →
      m₃.findType? (.pointer ty) = some (m₃.valueType slot) →
      (c.withIr m₃).Fits false pointer slot := fun hlt hfound =>
    .of_stands hlt (stands_slot (c := c.withIr m₃) hc hpointer (hbacks.mono hsteady₃) hfound)
  obtain ⟨-, _, hsourceValue⟩ := hsource.fresh source rfl
  have hsourceLt := (Array.getElem?_eq_some_iff.1 hsourceValue).1
  have hgrown₁₃ := hstore.toExtends.trans hfresh.toExtends
  have hsourceFits := hslot (Nat.lt_of_lt_of_le hsourceLt hgrown₁₃.values.size_le)
    (by rw [hgrown₁₃.valueType hsourceLt]; exact hgrown₁₃.findType? hsourceTy)
  obtain ⟨-, _, hfreshValue⟩ := hfresh.fresh fresh rfl
  have hfreshLt := (Array.getElem?_eq_some_iff.1 hfreshValue).1
  have hfreshFits := hslot hfreshLt hfreshTy
  have hvalues : List.Forall₂ ((c.withIr m₃).Fits false) overload.paramTypes [fresh, source] := by
    rw [hparams]
    exact .cons hfreshFits (.cons hsourceFits .nil)
  have harguments := (hf.mono hsteady₃ hgrown₃).arguments_agree (c := c.withIr m₃) hc hvalues
  refine .bind (.call harguments (hfresh.isTerminated hb₂)) fun _ m₄ hok => ?_
  obtain ⟨hcall, -⟩ := (call_ends _ _ _ _).of_ok hok
  have hfound := hcall.toExtends.findType? hfreshTy
  rw [← hcall.toExtends.valueType hfreshLt] at hfound
  exact .of_accepted (load_accepted (Lower.pointee?_of_find hfound) (hcall.isTerminated hb₃))

/-! ## Reports of refusals -/

/-- An operation whose refusals are reported in an admitted way. -/
theorem emitOr_objects {op : Ir.Build α} {V : α → Ir.Module → Prop}
    (refusal : Ir.Error → Diagnostic)
    (hadmits : ∀ e m, op c.ir = .error e m → (c.withIr m).Admits (refusal e))
    (hop : Ends op c.ir V fun _ => True) :
    Ends (emitOr refusal op) c
      (fun a c' => c'.queue = c.queue ∧ ∃ m, c' = c.withIr m ∧ V a m) c.Objects := by
  unfold Ends
  cases hrun : op c.ir with
  | ok a m =>
    rw [emitOr_of_ok refusal hrun]
    exact ⟨rfl, m, rfl, hop.of_ok hrun⟩
  | error e m =>
    rw [emitOr_of_error refusal hrun]
    have hsteady : Steady (c.withIr m)
        { c.withIr m with queue := (c.withIr m).queue.emitError (refusal e) } :=
      ⟨.refl _, .refl _, fun _ _ h => h⟩
    exact .inr ⟨_, (hadmits e m hrun).mono hsteady, rfl⟩

/-- A refusal of types that clash is admitted. -/
theorem admits_of_refusedFor {op : Ir.Build α} {e : Ir.Error} {span : Span}
    (h : RefusedFor c.ClashIn op c.ir) (hrun : op c.ir = .error e m) :
    (c.withIr m).Admits (Report.backendError span e.message) := by
  obtain ⟨expected, found, hclash, rfl⟩ := h e m hrun
  exact .inr ⟨span, expected, found, hclash, rfl⟩

end Context

/-- What a variable holds fits its type, or what is in its slot has the backend type of its type. -/
inductive Variable.Fits (c : Context) : Variable → Prop
  | value {ty : TypeId} {v : Ir.ValueId} (fits : c.Fits false ty v) : Fits c ⟨ty, .value v⟩
  | slot {ty : TypeId} {address : Ir.ValueId} {inner : Ir.TyId}
      (inTable : address.index < c.ir.values.size) (backs : c.Backs ty inner)
      (pointer : c.ir.findType? (.pointer inner) = some (c.ir.valueType address)) :
      Fits c ⟨ty, .slot address⟩

/-- What the variables of a scope hold fits. -/
def Scope.Fits (c : Context) (s : Scope) : Prop :=
  ∀ name v, s.lookup? name = some v → v.Fits c

section

variable {c c' : Context}

/-- What stands for values of a type is in the pool. -/
theorem Context.Stands.index_lt {t : TypeId} {ty : Ir.TyId} (h : c.Stands t ty) :
    t.index < c.pool.types.size := by
  cases h with
  | backs backs => exact backs.index_lt
  | stray type => exact (Array.getElem?_eq_some_iff.1 type).1

/-- What a variable holds fits later, too. -/
theorem Variable.Fits.mono {v : Variable} (h : v.Fits c) (hc : c.Steady c')
    (hir : c.ir.Extends c'.ir) : v.Fits c' := by
  cases h with
  | value fits => exact .value (fits.mono hc hir)
  | slot inTable backs pointer =>
    refine .slot (Nat.lt_of_lt_of_le inTable hir.values.size_le) (backs.mono hc) ?_
    rw [hir.valueType inTable]
    exact hc.findType? pointer

/-- The types of variables are in the pool. -/
theorem Scope.Fits.typesIn {s : Scope} (h : s.Fits c) : s.TypesIn c.pool := by
  intro name v hv
  cases h name v hv with
  | value fits => exact fits.stands.index_lt
  | slot _ backs => exact backs.index_lt

end

namespace Fitting

/-- Code may be emitted into the block, in a valid context where the variables in scope fit. -/
structure At (frame : Frame) (c : Context) (b : Ir.BlockId) : Prop where
  ready : (insertionCourse frame.func).Ready frame.scope c b
  valid : c.Valid
  placed : c.Placed
  scope : frame.scope.Fits c

/-- Code was emitted from a block on and goes on in another one, and nothing was reported. -/
structure Leads (frame : Frame) (c : Context) (b : Ir.BlockId) (c' : Context) (b' : Ir.BlockId) :
    Prop where
  start : At frame c b
  emits : (insertionCourse frame.func).Emits frame.scope c b c' b'
  queue : c'.queue = c.queue

/-- Code was emitted from a block on until something was refused. -/
structure Stops (frame : Frame) (c : Context) (b : Ir.BlockId) (c' : Context) : Prop where
  halts : (insertionCourse frame.func).Halts frame.scope c b c'
  objects : c.Objects c'

/-- Code was emitted in both branches from a block, and nothing was reported. -/
structure Forks (frame : Frame) (c : Context) (b : Ir.BlockId) (c' : Context)
    (onTrue onFalse : Ir.BlockId) : Prop where
  start : At frame c b
  splits : (insertionCourse frame.func).Splits frame.scope c b c' onTrue onFalse
  queue : c'.queue = c.queue

variable {α : Type} {frame : Frame} {c c₁ c' : Context} {b b₁ b' : Ir.BlockId} {owned : Bool}
  {t : TypeId} {v : Ir.ValueId}

/-- What expressions change leaves contexts as code may be emitted in. -/
theorem At.later (h : At frame c b)
    (hwithin : c.Within (Pool.Kept frame.scope) Ir.Module.Extends c')
    (hready : (insertionCourse frame.func).Ready frame.scope c' b') : At frame c' b' where
  ready := hready
  valid := h.valid.of_within hwithin hwithin.pool.grown hwithin.ir
    (hwithin.pool.sound h.scope.typesIn h.valid.pool) hwithin.pool.unnamed
  placed := h.placed.of_eq hwithin.namespaces
  scope name v hv := (h.scope name v hv).mono
    (.of_within hwithin (fun hp => hp.grown) fun hm => hm.types) hwithin.ir

/-- A variable that fits may be bound. -/
theorem At.bind {func : Ir.FuncId} {scope : Scope} {bound : Variable}
    (h : At ⟨func, scope⟩ c b) (name : String) (hv : bound.Fits c) :
    At ⟨func, (scope.bind name bound).2⟩ c b where
  ready := ⟨h.ready.ready, fun _ _ _ => trivial⟩
  valid := h.valid
  placed := h.placed
  scope name' v' hv' := by
    rw [Scope.lookup?_bind] at hv'
    split at hv'
    · cases hv'
      exact hv
    · exact h.scope name' v' hv'

/-- Where code leads on, it may be emitted. -/
theorem Leads.lands (h : Leads frame c b c' b') : At frame c' b' :=
  h.start.later h.emits.within h.emits.lands

/-- Code may lead on several times. -/
theorem Leads.trans (h : Leads frame c b c₁ b₁) (h' : Leads frame c₁ b₁ c' b') :
    Leads frame c b c' b' := ⟨h.start, h.emits.trans h'.emits, h'.queue.trans h.queue⟩

/-- Something was refused after code led on. -/
theorem Leads.after (h : Leads frame c b c₁ b₁) (h' : Stops frame c₁ b₁ c') :
    Stops frame c b c' := ⟨h.emits.after h'.halts, h'.objects.after h.queue⟩

/-- Types are entered and values added at most. -/
theorem Leads.steady (h : Leads frame c b c' b') : c.Steady c' :=
  .of_within h.emits.within (fun hp => hp.grown) fun hm => hm.types

/-- A value that fits does so where code goes on. -/
theorem Leads.fits (h : Leads frame c b c' b') (hv : c.Fits owned t v) : c'.Fits owned t v :=
  hv.mono h.steady h.emits.within.ir

/-- An operation that every course follows, and whose refusals are reported in an admitted way. -/
theorem At.emitOr (h : At frame c b) {op : Ir.Build α} {b' : α → Ir.BlockId}
    {P V : α → Ir.Module → Prop} (refusal : Ir.Error → Diagnostic)
    (hcourse : Ends op c.ir
      (fun a m => (insertionCourse frame.func).Leads c.ir b m (b' a) ∧ P a m)
      ((insertionCourse frame.func).Stops c.ir b))
    (hadmits : ∀ e m, op c.ir = .error e m → (c.withIr m).Admits (refusal e))
    (hop : Ends op c.ir V fun _ => True) :
    Ends (Context.emitOr refusal op) c
      (fun a c' => Leads frame c b c' (b' a) ∧ ∃ m, c' = c.withIr m ∧ V a m)
      (Stops frame c b) :=
  ((h.ready.emitOr refusal hcourse).and (Context.emitOr_objects refusal hadmits hop)).mono
    (fun _ _ hc => ⟨⟨h, hc.1.1, hc.2.1⟩, hc.2.2⟩) fun _ hc => ⟨hc.1, hc.2⟩

/-! ## Single steps -/

/-- The block is open and belongs to the function. -/
theorem At.insertion (h : At frame c b) : Insertion frame.func c.ir b := h.ready.ready

section

variable (h : At frame c b) (span : Span)

include h

/-- Asking for a backend type leads on. -/
theorem At.backendType {ty : Ir.TyId} (hty : Context.backendType t c = (ty, c₁)) :
    Leads frame c b c₁ b := by
  have hqueue := (Context.backendType_silent t c).queue
  rw [hty] at hqueue
  exact ⟨h, h.ready.backendType hty, hqueue⟩

/-- The value of type `void` may be used. -/
theorem At.voidValue (ht : t.index < c.pool.types.size) (hvoid : c.pool.isVoid t = true)
    (hv : Context.voidValue c = (v, c')) : Leads frame c b c' b ∧ c'.Fits owned t v := by
  obtain ⟨hqueue, hfits⟩ : c'.queue = c.queue ∧ c'.Fits owned t v :=
    Context.fits_voidValue h.valid ht hvoid hv
  exact ⟨⟨h, (h.ready.voidValue hv).1, hqueue⟩, hfits⟩

/-- What a pointer points to may be read. -/
theorem At.load {inner : Ir.TyId} (hbacks : c.Backs t inner)
    (hpointer : c.ir.findType? (.pointer inner) = some (c.ir.valueType v)) :
    Ends (Context.emit span (Ir.Module.load b v)) c
      (fun w c' => Leads frame c b c' b ∧ c'.Fits false t w) (Stops frame c b) := by
  have haccepted := load_accepted (Lower.pointee?_of_find hpointer) h.insertion.isOpen
  refine (h.emitOr _ ((insertionCourse frame.func).load h.ready.ready trivial)
    (fun e m hrun => (haccepted.of_error hrun).elim)
    (haccepted.mono (fun _ _ hm => hm) fun _ _ => trivial)).mono ?_ fun _ hc => hc
  rintro w _ ⟨hleads, m, rfl, hemitted, hty⟩
  exact ⟨hleads, .of_emitted hemitted rfl (hty ▸ hbacks)⟩

/-- What fits may be written through a pointer, or its type clashes with what is pointed to. -/
theorem At.store {pointee : TypeId} {w : Ir.ValueId} (hv : c.Fits false t v)
    (hw : c.Fits false pointee w) (hpointee : c.pool.pointee? t = some pointee) :
    Ends (Context.emit span (Ir.Module.store b w v)) c (fun _ c' => Leads frame c b c' b)
      (Stops frame c b) := by
  obtain ⟨inner, hinner, hty⟩ := hv.stands.pointee_agree h.valid.pool hpointee hw.stands
  have hrefused : RefusedFor c.ClashIn (Ir.Module.store b w v) c.ir :=
    .store hinner hty h.insertion.isOpen
  have hcourse := ((insertionCourse frame.func).store (v := v) (w := w) h.ready.ready trivial
    trivial).mono (fun _ _ hm => And.intro hm trivial) fun _ hm => hm
  exact (h.emitOr _ hcourse (fun e m => Context.admits_of_refusedFor hrefused)
    ((store_ends b w v c.ir).mono (fun _ _ hm => hm) fun _ _ => trivial)).mono
    (fun _ _ hc => hc.1) fun _ hc => hc

/-- A function in scope may be called with arguments that fit, or the types of some clash. What it
returns fits. -/
theorem At.call {name : String} {tys : List TypeId} {vs : List Ir.ValueId} {f : Function}
    (hlookup : c.lookupFunction? name tys = some f)
    (hvs : List.Forall₂ (c.Fits false) tys vs) :
    Ends (Context.emit span (Ir.Module.call b f.backend vs)) c
      (fun returned c₁ => Leads frame c b c₁ b ∧ ∀ v c', (returned = some v ∧ c' = c₁) ∨
          (returned = none ∧ Context.voidValue c₁ = (v, c')) →
        Leads frame c b c' b ∧ c'.Fits true f.returnType v) (Stops frame c b) := by
  have hf := h.valid.implements_of_lookup hlookup
  rw [← Context.paramTypes_of_lookup hlookup] at hvs
  have hrefused : RefusedFor c.ClashIn (Ir.Module.call b f.backend vs) c.ir :=
    .call (hf.arguments_agree h.valid.pool hvs) h.insertion.isOpen
  refine (h.emitOr _ ((insertionCourse frame.func).call h.ready.ready f.backend fun _ _ => trivial)
    (fun e m => Context.admits_of_refusedFor hrefused)
    ((call_ends b f.backend vs c.ir).mono (fun _ _ hm => hm) fun _ _ => trivial)).mono ?_
    fun _ hc => hc
  rintro returned _ ⟨hleads, m, rfl, hemitted, hreturned⟩
  refine ⟨hleads, fun v c' hv => ?_⟩
  obtain ⟨rfl, rfl⟩ | ⟨rfl, hv⟩ := hv
  · exact ⟨hleads, .of_emitted hemitted rfl (hreturned.2 ▸ hf.ret)⟩
  · have hret := hf.ret.mono hleads.steady
    have hvoid := (hf.ret.void_iff h.valid.layouts).1 hreturned
    rw [← hleads.steady.isVoid hf.ret.index_lt] at hvoid
    obtain ⟨hleads', hfits⟩ := hleads.lands.voidValue hret.index_lt hvoid hv
    exact ⟨hleads.trans hleads', hfits⟩

/-- A value that fits may be copied, or its type clashes with that of the copy. -/
theorem At.copy {f : Ir.FuncId} {ty : Ir.TyId} (hv : c.Fits false t v)
    (hcopy : c.pointerFunction? Context.copyAssignName t 2 = some f)
    (hty : Context.backendType t c = (ty, c₁)) :
    Ends (Context.emit span (Lower.copyInstrs b ty v f)) c₁
      (fun w c' => Leads frame c b c' b ∧ c'.Fits true t w) (Stops frame c b) := by
  obtain ⟨pointer, overload, hpointer, hlookup, rfl⟩ := Context.exists_of_pointerFunction? hcopy
  have hbackend := (h.valid.grounded hv.stands.index_lt).backendType_spec
  rw [hty] at hbackend
  obtain ⟨hwithin, hbacks⟩ := hbackend
  have hleads := h.backendType hty
  have hat := hleads.lands
  have hf := (h.valid.implements_of_lookup hlookup).mono hleads.steady hwithin.ir.toExtends
  have hrefused := Context.copyInstrs_refusedFor hat.valid.pool
    (hleads.steady.pool.types.getElem?_some hpointer) hf (Context.paramTypes_of_lookup hlookup)
    hbacks (hleads.fits hv) hat.insertion.inTable hat.insertion.isOpen
  have hvalue : Ends (Lower.copyInstrs b ty v overload.backend) c₁.ir
      (fun w m => c₁.ir.Extends m ∧ w.index < m.values.size ∧ m.valueType w = ty)
      fun _ => True :=
    .intro (fun w m hrun => ⟨(Lower.copyInstrs_keeps b ty v _).ok hrun,
      Lower.copyInstrs_ok hrun⟩) fun _ _ _ => trivial
  refine (hat.emitOr _ ((insertionCourse frame.func).copyInstrs hat.ready.ready ty _ trivial)
    (fun e m => Context.admits_of_refusedFor hrefused) hvalue).mono ?_ fun _ => hleads.after
  rintro w _ ⟨hcopied, m, rfl, hextends, hlt, hwTy⟩
  refine ⟨hleads.trans hcopied, .of_backs hlt ?_⟩
  change (c₁.withIr m).Backs t (m.valueType w)
  rw [hwTy]
  exact hbacks.mono hcopied.steady

omit span in
/-- The destructor of a value that is owned may be called. -/
theorem At.destroy {f : Ir.FuncId} {ty : Ir.TyId} (hv : c.Fits true t v)
    (hf : c.destructor? t = some f) (hty : Context.backendType t c = (ty, c₁)) :
    Ends (Context.emitOr Context.cleanupRefused (Context.callDestructor b ty v f)) c₁
      (fun _ c' => Leads frame c b c' b) (Stops frame c b) := by
  have hbacks := hv.backs rfl
  cases hbacks.backendType.symm.trans hty
  have haccepted := Context.callDestructor_destroys h.valid hf (.refl c.ir) hv.inTable hbacks
    h.insertion.inTable h.insertion.isOpen
  have hcourse := ((insertionCourse frame.func).callDestructor (v := v) h.ready.ready
    (c.ir.valueType v) f trivial).mono (fun _ _ hm => And.intro hm trivial) fun _ hm => hm
  exact (h.emitOr _ hcourse (fun e m hrun => (haccepted.of_error hrun).elim)
    (haccepted.mono (fun _ _ hm => hm) fun _ _ => trivial)).mono (fun _ _ hc => hc.1)
    fun _ hc => hc

omit span in
/-- A member may be taken of a struct that is owned, and is owned. -/
theorem At.extract {s : Struct} {index : Nat} {member : TypeId} (hv : c.Fits true t v)
    (hs : c.structOfType? t = some s) (hmember : s.memberTypes[index]? = some member) :
    Ends (Context.emitOr Context.cleanupRefused (Ir.Module.extractValue b v index)) c
      (fun w c' => Leads frame c b c' b ∧ c'.Fits true member w) (Stops frame c b) := by
  obtain ⟨field, hbacks, hfield⟩ :=
    h.placed.fieldType h.valid hs (hv.backs rfl) (.refl c.ir) hmember
  have haccepted := extractValue_accepted hfield h.insertion.isOpen
  refine (h.emitOr _ ((insertionCourse frame.func).extractValue h.ready.ready index trivial)
    (fun e m hrun => (haccepted.of_error hrun).elim)
    (haccepted.mono (fun _ _ hm => hm) fun _ _ => trivial)).mono ?_ fun _ hc => hc
  rintro w _ ⟨hleads, m, rfl, hemitted, hty⟩
  exact ⟨hleads, .of_emitted hemitted rfl (hty ▸ hbacks)⟩

/-- Control may branch by a truth value. -/
theorem At.fork {onTrue onFalse : Ir.BlockId} {m m' : Ir.Module} (hv : c.Fits false .bool v)
    (hTrue : appendBlock frame.func "then" c.ir = (onTrue, m))
    (hFalse : appendBlock frame.func "else" m = (onFalse, m')) :
    Ends (Context.emit span (condBr b v onTrue onFalse)) (c.withIr m')
      (fun _ c' => Forks frame c b c' onTrue onFalse) (Stops frame c b) := by
  have hprimitive := h.valid.pool.primitives .bool
  have hbit := (hv.stands.of_not_pointer fun htype => by
    cases htype.symm.trans hprimitive).of_primitive (p := .bool) hprimitive
  have hgrows := (append_confined b hTrue).trans (append_confined b hFalse) (.inl rfl)
  have hopen : m'.isTerminated b = false := by
    rw [isTerminated, (appendBlock_spec hFalse).2.2.2 _
      (Nat.lt_of_lt_of_le h.insertion.inTable (append_confined b hTrue).extended.blocks),
      (appendBlock_spec hTrue).2.2.2 _ h.insertion.inTable]
    exact h.insertion.isOpen
  have hbit' : m'.findType? (.int 1) = some (m'.valueType v) := by
    rw [hgrows.extended.valueType hv.inTable]
    exact hgrows.extended.findType? hbit
  have haccepted := condBr_accepted onTrue onFalse hbit' hopen
  exact ((h.ready.fork trivial span hTrue hFalse).and
    (Context.emitOr_objects (c := c.withIr m') _ (fun e m hrun => (haccepted.of_error hrun).elim)
      (haccepted.mono (fun _ _ hm => hm) fun _ _ => trivial))).mono
    (fun _ _ hc => ⟨h, hc.1, hc.2.1⟩) fun _ hc => ⟨hc.1, hc.2⟩

end

/-- Two branches give values of one type, which are merged, or whose types clash. -/
theorem Forks.merge {onTrue onFalse target : Ir.BlockId} {w : Ir.ValueId} {m : Ir.Module}
    (h : Forks frame c b c₁ onTrue onFalse) (span : Span) (hv : c₁.Fits owned t v)
    (hw : c₁.Fits owned t w) (happend : appendBlock frame.func "merge" c₁.ir = (target, m)) :
    Ends (Context.emit span (Lower.join onTrue onFalse target)) (c₁.withIr m)
      (fun _ c₂ =>
        (c₂.pool.isVoid t = true → ∀ x c', Context.voidValue c₂ = (x, c') →
          Leads frame c b c' target ∧ c'.Fits owned t x) ∧
        (c₂.pool.isVoid t = false → ∀ span, Ends
          (Context.emit span (Ir.Module.phi target [(v, onTrue), (w, onFalse)])) c₂
          (fun x c' => Leads frame c b c' target ∧ c'.Fits owned t x) (Stops frame c b)))
      (Stops frame c b) := by
  have hjoin := (insertionCourse frame.func).join h.splits.forks happend
  have hmerge := h.splits.merge (t := t) (v := v) (w := w) span trivial trivial happend
  refine (hmerge.and (Context.emitOr_ends _ hjoin)).mono ?_ ?_
  · rintro _ _ ⟨⟨-, hphi⟩, m₁, rfl, m', hTrue, hFalse⟩
    have hextends := ((append_confined b happend).extended.trans hTrue.toExtends).trans
      hFalse.toExtends
    have hlead := (insertionCourse frame.func).merged h.splits.forks happend hTrue hFalse
    have hleads : Leads frame c b (c₁.withIr m₁) target :=
      ⟨h.start, ⟨h.splits.start, ⟨h.splits.within.pool, hlead.grows.extended,
        h.splits.within.namespaces, h.splits.within.entered, h.splits.within.layouts,
        h.splits.within.onceTag⟩, hlead⟩, h.queue⟩
    have hat := hleads.lands
    have hsteady : c₁.Steady (c₁.withIr m₁) := .of_ir hextends
    have hv₁ := hv.mono hsteady hextends
    have hw₁ := hw.mono hsteady hextends
    refine ⟨fun hvoid x c' hx => ?_, fun hvoid span => ?_⟩
    · obtain ⟨hleads', hfits⟩ := hat.voidValue hv₁.stands.index_lt hvoid hx
      exact ⟨hleads.trans hleads', hfits⟩
    · have hrefused : RefusedFor (c₁.withIr m₁).ClashIn
          (Ir.Module.phi target [(v, onTrue), (w, onFalse)]) m₁ :=
        .phi onTrue onFalse (hv₁.stands.agree hat.valid.pool hw₁.stands) hat.insertion.isOpen
      refine ((hphi hvoid span).and (Context.emitOr_objects (c := c₁.withIr m₁) _
        (fun e m => Context.admits_of_refusedFor hrefused)
        ((phi_ends target _ m₁).mono (fun _ _ hm => hm) fun _ _ => trivial))).mono ?_ ?_
      · rintro x _ ⟨⟨hemits, -⟩, -, m₂, rfl, hemitted, hty⟩
        refine ⟨⟨h.start, hemits, h.queue⟩, ?_⟩
        -- what is merged fits as the value of the first branch does
        obtain ⟨-, _, hx⟩ := hemitted.fresh x rfl
        have hsteady₂ : (c₁.withIr m₁).Steady (c₁.withIr m₂) := .of_ir hemitted.toExtends
        have hfirst := hv₁.mono hsteady₂ hemitted.toExtends
        have hsame : (c₁.withIr m₂).ir.valueType x = (c₁.withIr m₂).ir.valueType v := by
          change m₂.valueType x = m₂.valueType v
          rw [hty _ rfl, hemitted.toExtends.valueType hv₁.inTable]
        exact ⟨(Array.getElem?_eq_some_iff.1 hx).1, hsame ▸ hfirst.stands, hsame ▸ hfirst.backs⟩
      · exact fun c' hc => ⟨hc.1, hc.2.after h.queue⟩
  · rintro _ ⟨-, _, _, -, hfalse⟩
    exact hfalse.elim

end Fitting

open Fitting in
/-- Values fit where code uses them: the account of expressions that says so. -/
def fittingAccount (frame : Frame) : Account frame where
  At := At frame
  Usable c _ owned t v := c.Fits owned t v
  Leads := Leads frame
  Stops := Stops frame
  Forks := Forks frame
  refl h := ⟨h, h.ready.still (Std.Refl.refl _), rfl⟩
  trans h h' := h.trans h'
  lands h := h.lands
  kept h := h.emits.within
  stays hv h := h.fits hv
  lends hv := .of_stands hv.inTable hv.stands
  unfinished h := ⟨⟨Std.Refl.refl _, .of_still (.refl _)⟩, .inl rfl⟩
  rejects h h' := ⟨((insertionCourse frame.func).account frame).rejects h.ready h',
    .of_rejects h'⟩
  after h h' := h.after h'
  constant h h' := ⟨⟨h, h.ready.still h'.within, h'.queue⟩, by
    obtain ⟨_, _, hvalue, -⟩ := h'.constant
    exact .of_backs (Array.getElem?_eq_some_iff.1 hvalue).1 (h'.backs h.valid)⟩
  value h hv := by
    cases h.scope _ _ hv with
    | value fits => exact fits
  slot span h hv := by
    cases h.scope _ _ hv with
    | slot _ backs pointer => exact h.load span backs pointer
  address {c b _ t _} h hv := by
    have hleads : Leads frame c b _ b := ⟨h, h.ready.address hv, rfl⟩
    have htype := Pool.type_of_find (Pool.intern_spec c.pool (.pointer t)).2
    cases h.scope _ _ hv with
    | slot inTable backs pointer =>
      have hstands := Context.stands_slot hleads.lands.valid.pool htype (backs.mono hleads.steady)
        pointer
      exact ⟨hleads, .of_stands inTable hstands⟩
  pointer h hv hpointee hvoid :=
    ⟨hv.inTable, hv.stands, fun _ => hv.stands.of_pointee? h.valid.pool hpointee hvoid⟩
  load span h hv hpointee hvoid := by
    obtain ⟨inner, hinner, hfound⟩ :=
      (hv.stands.of_pointee? h.valid.pool hpointee hvoid).of_pointee? hpointee hvoid
    exact h.load span hinner hfound
  store span h hv hw hpointee := h.store span hv hw hpointee
  effect span h hlookup hvs := (h.call span hlookup hvs).mono (fun _ _ hc => hc.1) fun _ hc => hc
  call span h hlookup hvs := (h.call span hlookup hvs).mono (fun _ _ hc => hc.2) fun _ hc => hc
  copy span h hv hcopy hty := h.copy span hv hcopy hty
  destroy h hv hf hty := h.destroy hv hf hty
  extract h hv hs hmember := h.extract hv hs hmember
  fork span h hv hTrue hFalse := h.fork span hv hTrue hFalse
  merge span h hv hw happend := h.merge span hv hw happend
  swap h := ⟨h.start, ((insertionCourse frame.func).account frame).swap h.splits, h.queue⟩
  branch h := h.start.later h.splits.within h.splits.branch
  goesOn h h' := ⟨h.start,
    ((insertionCourse frame.func).account frame).goesOn h.splits h'.emits,
    h'.queue.trans h.queue⟩
  stopsIn h h' := ⟨((insertionCourse frame.func).account frame).stopsIn h.splits h'.halts,
    h'.objects.after h.queue⟩
  apart h hv h' := h'.fits hv

end FormCompiler
