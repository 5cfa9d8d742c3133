import FormCompiler.Proofs.Conduct
import FormCompiler.Proofs.Lower.Declarations
import FormCompiler.Proofs.Lower.Reports

/-!
# The Conduct of Steps on the Context

A conduct that lasts while code is emitted and functions are declared governs the declaration of
functions and the cleanup of members, and one that lasts while anything is declared governs the
registration of structs and enums as well.

* `Context.Proceeds`: code was emitted.
* `Context.Checking`: conducts that last while code is emitted and end where a check fails.
* `Context.Lasting`: conducts that last while code is emitted and functions are declared.
* `Context.Registering`: conducts that last while anything is declared.
* `Context.MindsQueue`: conducts that mind only the queue.
-/

namespace FormCompiler

/-- Types without names were entered at most. -/
structure Pool.Enlarged (p p' : Pool) : Prop where
  grown : p.Extends p'
  unnamed : p.Unnamed p'

instance : Std.Refl Pool.Enlarged := ⟨fun p => ⟨.refl p, .refl p⟩⟩

instance : IsTrans Pool Pool.Enlarged where
  trans _ _ _ h h' := ⟨h.grown.trans h'.grown, h.unnamed.trans h'.unnamed h'.grown.types⟩

namespace Context

variable {α : Type} {c c' : Context}

/-! ## Emitting code -/

/-- Code was emitted from the first context to the second: nothing was declared or reported. -/
structure Proceeds (c c' : Context) : Prop where
  within : c.Within Pool.Enlarged (fun _ _ => True) c'
  queue : c'.queue = c.queue

instance : Std.Refl Proceeds := ⟨fun _ => ⟨⟨Std.Refl.refl _, trivial, rfl, rfl, rfl, rfl⟩, rfl⟩⟩

instance : IsTrans Context Proceeds where
  trans _ _ _ h h' := ⟨⟨IsTrans.trans _ _ _ h.within.pool h'.within.pool, trivial,
    h'.within.namespaces.trans h.within.namespaces, h'.within.entered.trans h.within.entered,
    h'.within.layouts.trans h.within.layouts, h'.within.onceTag.trans h.within.onceTag⟩,
    h'.queue.trans h.queue⟩

/-- Another module. -/
theorem Proceeds.of_ir (ir : Ir.Module) : Proceeds c (c.withIr ir) :=
  ⟨⟨Std.Refl.refl _, trivial, rfl, rfl, rfl, rfl⟩, rfl⟩

/-- A step on the module. -/
theorem onModule_proceeds (step : StateM Ir.Module α) : Moves Proceeds (onModule step) :=
  fun _ => .of_ir _

/-- An operation on the module, accepted or refused. -/
theorem attempt_proceeds (op : Ir.Build α) : Moves Proceeds (attempt op) := fun c => by
  rw [attempt_run]
  cases op c.ir <;> exact .of_ir _

/-- Entering a pointer type. -/
theorem pointerTo_proceeds (t : TypeId) : Moves Proceeds (onPool (·.pointerTo t)) := fun _ =>
  ⟨⟨⟨(Pool.intern_spec _ _).1, Pool.unnamed_pointerTo _ _⟩, trivial, rfl, rfl, rfl, rfl⟩, rfl⟩

/-- Entering a backend type. -/
theorem backendType_proceeds (t : TypeId) : Moves Proceeds (backendType t) := fun c =>
  have h := backendType_silent t c
  ⟨h.within.mono (fun p _ hp => hp ▸ Std.Refl.refl p) fun _ _ _ => trivial, h.queue⟩

/-- Entering backend types. -/
theorem backendTypes_proceeds (ts : List TypeId) : Moves Proceeds (backendTypes ts) := by
  induction ts with
  | nil => exact .pure _
  | cons t ts ih => exact .bind (backendType_proceeds t) fun b => .bind ih fun bs => .pure _

/-- The value of type `void`. -/
theorem voidValue_proceeds : Moves Proceeds voidValue :=
  .bind (onModule_proceeds _) fun _ => onModule_proceeds _

/-! ## Conducts that last -/

/-- The conduct allows code to be emitted, and checks of the source to fail. -/
structure Checking (K : Conduct Context) : Prop where
  proceeds {c c' : Context} : K.Holds c → c.Proceeds c' → K.Holds c'
  rejects {c : Context} (d : Diagnostic) :
    d.IsSource → K.Holds c → K.Stops .reported { c with queue := c.queue.emitError d }

/-- The conduct also allows any error to be reported, and functions to be declared. -/
structure Lasting (K : Conduct Context) : Prop extends Checking K where
  reports {c : Context} (d : Diagnostic) :
    K.Holds c → K.Stops .reported { c with queue := c.queue.emitError d }
  addFunction {c : Context} (f : Function) : K.Holds c → K.Holds (Context.addFunction f c).2
  rejects := fun d _ => reports d

/-- Emitting code without a refusal. -/
theorem Checking.always {K : Conduct Context} (hK : Checking K) {step : StateM Context α}
    (h : Moves Proceeds step) : K.Governs (Context.always step) := fun c hc =>
  hK.proceeds hc (h c)

/-- A check of the source that fails. -/
theorem Checking.fail {K : Conduct Context} (hK : Checking K) {d : Diagnostic} (hd : d.IsSource) :
    K.Governs (Context.fail d : Check α) := fun _ => hK.rejects d hd

/-- Dropping a result, if cleaning up its value is governed. -/
theorem destruct_governed {K : Conduct Context} (r : Result)
    (h : K.Governs (cleanUpBelow (r.ty.index + 1) r.block r.ty r.value)) :
    K.Governs (destruct r) := by
  unfold destruct
  split
  · exact .pure r
  · exact .bind h fun b => .pure _

namespace Lasting

variable {K : Conduct Context} (hK : Lasting K)

include hK

/-- Stopping with a report. -/
theorem fail (d : Diagnostic) : K.Governs (Context.fail d : Check α) := fun _ => hK.reports d

/-- An operation on the module whose refusal is reported. -/
theorem emitOr (refusal : Ir.Error → Diagnostic) (op : Ir.Build α) :
    K.Governs (Context.emitOr refusal op) :=
  .bind (hK.always (attempt_proceeds op)) fun outcome => by
    cases outcome with
    | ok a => exact .pure a
    | error e => exact hK.fail _

/-- Cleaning up members, if cleaning up each of them is governed. -/
theorem cleanUpMembers {cleanUp : Ir.BlockId → TypeId → Ir.ValueId → Check Ir.BlockId}
    (aggregate : Ir.ValueId) (b : Ir.BlockId) (index : Nat) {members : List TypeId}
    (h : ∀ member ∈ members, ∀ b v, K.Governs (cleanUp b member v)) :
    K.Governs (Context.cleanUpMembers cleanUp aggregate b index members) := by
  induction members generalizing b index with
  | nil => exact .pure b
  | cons member members ih =>
    have hrest := fun b => ih b (index + 1) fun m hm => h m (List.mem_cons_of_mem _ hm)
    refine .get fun c _ => ?_
    split
    · exact .bind (hK.emitOr _ _) fun field =>
        .bind (h member List.mem_cons_self b field) fun b => hrest b
    · exact hrest b

/-- Cleaning up a value, if cleaning up the members of its struct is governed below the bound. -/
theorem cleanUpBelow_succ (bound : Nat) (b : Ir.BlockId) (t : TypeId) (value : Ir.ValueId)
    (h : ∀ c, K.Holds c → ∀ s, c.structOfType? t = some s →
      ∀ member ∈ s.memberTypes, ∀ b v, K.Governs (Context.cleanUpBelow bound b member v)) :
    K.Governs (Context.cleanUpBelow (bound + 1) b t value) := by
  refine .get fun c _ => ?_
  split
  · exact .bind (hK.always (backendType_proceeds t)) fun ty =>
      .bind (hK.emitOr _ _) fun _ => .pure b
  · refine .get fun c hc => ?_
    split
    next s hs => exact hK.cleanUpMembers value b 0 (h c hc s hs)
    next => exact .pure b

/-- Declaring a function. -/
theorem declareFunction (name : String) (params : List Param) (returnType : TypeId)
    (linkage : Ir.Linkage) (span : Span) :
    K.Governs (Context.declareFunction name params returnType linkage span) := by
  refine .get fun c _ => ?_
  dsimp only
  split
  · exact hK.fail _
  · exact .get fun c _ => .bind (hK.always (backendTypes_proceeds _)) fun tys =>
      .bind (hK.always (backendType_proceeds _)) fun ret => .bind (hK.emitOr _ _) fun backend =>
      .bind (fun c hc => hK.addFunction _ hc) fun _ => .pure _

/-- A function of one block: either its declaration or its body is refused. -/
theorem defineOneBlock (name : String) (params : List Param) (returnType : TypeId)
    (linkage : Ir.Linkage) (span : Span)
    (body : Ir.BlockId → List Ir.ValueId → Ir.Build Ir.ValueId) :
    K.Governs (Context.defineOneBlock name params returnType linkage span body) := by
  refine .bind (hK.declareFunction _ _ _ _ _) fun func =>
    .bind (hK.always (onModule_proceeds _)) fun entry => .get fun c _ =>
    .bind (hK.always (attempt_proceeds _)) fun outcome => ?_
  split
  · exact .pure _
  · exact .bind (hK.always (onModule_proceeds _)) fun _ => hK.fail _

/-- Declaring the functions of an enum: the first one that is refused is the last one tried. -/
theorem defineEnumFunctions (name : String) (enumTy underlying : TypeId) (linkage : Ir.Linkage)
    (span : Span) :
    K.Governs (Context.defineEnumFunctions name enumTy underlying linkage span) := by
  have hcomparisons : ∀ signed comparisons,
      K.Governs (defineComparisons enumTy signed linkage span comparisons) := by
    intro signed comparisons
    induction comparisons with
    | nil => exact .pure _
    | cons comparison rest ih => exact .bind (hK.defineOneBlock _ _ _ _ _ _) fun _ => ih
  exact .bind (hK.always (backendType_proceeds _)) fun backing =>
    .bind (hK.defineOneBlock _ _ _ _ _ _) fun _ => .get fun c _ =>
    .bind (hK.defineOneBlock _ _ _ _ _ _) fun _ => .get fun c _ => hcomparisons _ _

end Lasting

/-! ## Conducts that let declarations through -/

/-- The conduct also allows types to be declared and the current namespace to be replaced. -/
structure Registering (K : Conduct Context) : Prop extends Lasting K where
  pool {c : Context} (p : Pool) : K.Holds c → K.Holds (c.withPool p)
  layouts {c : Context} (entries : List (TypeId × Ir.TyId)) :
    K.Holds c → K.Holds { c with layouts := entries }
  update {c : Context} (changed? : Option Namespace) : K.Holds c → K.Holds (c.update changed?).2

namespace Registering

variable {K : Conduct Context} (hK : Registering K)

include hK

/-- Declaring a type. -/
theorem onPool (step : Pool → α × Pool) :
    K.Governs (Context.always (Context.onPool step)) := fun _ => hK.pool _

/-- Registering a struct. -/
theorem registerStruct (name : String) (members : List (String × TypeId)) (linkage : Ir.Linkage)
    (nameSpan : Span) : K.Governs (Lower.registerStruct name members linkage nameSpan) := by
  refine .get fun c _ => ?_
  dsimp only
  split
  · exact hK.fail _
  · exact .bind (hK.always (backendTypes_proceeds _)) fun layout => .get fun c _ =>
      .bind (hK.emitOr _ _) fun backend => .get fun c _ => .get fun c _ =>
      .bind (hK.onPool _) fun t => .bind (fun _ => hK.layouts _) fun _ =>
      .bind (fun _ => hK.update _) fun _ => .pure _

/-- Registering an enum, its struct and its functions. -/
theorem registerEnum (name : String) (builder : EnumBuilder) (linkage : Ir.Linkage)
    (underlying : TypeId) (nameSpan bodySpan : Span) :
    K.Governs (Lower.registerEnum name builder linkage underlying nameSpan bodySpan) := by
  rw [Lower.registerEnum_eq]
  refine .bind (.get fun c _ => ?_) fun enumTy => hK.defineEnumFunctions _ _ _ _ _
  split
  · exact hK.fail _
  refine .get fun c _ => ?_
  split
  · exact hK.fail _
  exact .bind (hK.always (backendType_proceeds _)) fun member => .get fun c _ =>
    .bind (hK.emitOr _ _) fun backing => .get fun c _ => .get fun c _ =>
    .bind (hK.onPool _) fun enumTy => .bind (hK.onPool _) fun structTy =>
    .bind (fun _ => hK.layouts _) fun _ => .bind (fun _ => hK.layouts _) fun _ =>
    .bind (fun _ => hK.update _) fun _ => .bind (fun _ => hK.update _) fun _ => .pure _

end Registering

/-! ## Conducts that mind only the queue -/

/-- Nothing was reported from the first context to the second. -/
def SameQueue (c c' : Context) : Prop := c'.queue = c.queue

/-- A step on the pool reports nothing. -/
theorem onPool_sameQueue (step : Pool → α × Pool) : Moves SameQueue (onPool step) := fun _ => rfl

/-- Replacing the current namespace reports nothing. -/
theorem update_sameQueue (c : Context) (changed? : Option Namespace) :
    SameQueue c (c.update changed?).2 := by
  cases changed? <;> rfl

/-- Asking for backend types reports nothing. -/
theorem backendTypes_sameQueue (ts : List TypeId) : Moves SameQueue (backendTypes ts) :=
  (backendTypes_proceeds ts).mono fun _ _ h => h.queue

/-- Entering a namespace reports nothing. -/
theorem enter_sameQueue (name : String) : Moves SameQueue (enter name) := fun c => by
  unfold enter SameQueue
  split <;> rfl

/-- The conduct allows everything that reports nothing, and stopping with a report. -/
structure MindsQueue (K : Conduct Context) : Prop where
  silent {c c' : Context} : K.Holds c → c.SameQueue c' → K.Holds c'
  reports {c : Context} (d : Diagnostic) :
    K.Holds c → K.Stops .reported { c with queue := c.queue.emitError d }

namespace MindsQueue

variable {K : Conduct Context} (hK : MindsQueue K)

include hK

/-- Anything may be emitted and declared. -/
theorem registering : Registering K where
  proceeds hc h := hK.silent hc h.queue
  reports := hK.reports
  addFunction _ hc := hK.silent hc (update_sameQueue _ _)
  pool _ hc := hK.silent hc rfl
  layouts _ hc := hK.silent hc rfl
  update _ hc := hK.silent hc (update_sameQueue _ _)

/-- Code and functions are allowed in particular. -/
theorem lasting : Lasting K := hK.registering.toLasting

end MindsQueue

end Context

end FormCompiler
