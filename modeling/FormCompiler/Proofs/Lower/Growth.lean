import FormCompiler.Lower.Expression
import FormCompiler.Proofs.Context.Growth

/-!
# What Expressions Leave Alone

Processing an expression, whether it succeeds or not, adds to the module and enters pointer types;
the namespaces, the layouts, the expander and the limits stay as they are, and without macros the
forest does too. `Kept s u u'` says so of two units, where `s` is the scope of the expression.

`process_satisfies` is the induction by which properties of `process` are proved: what holds of a
handler, if it holds of the functions for the parts and for an expansion, holds of `process`.
-/

namespace FormCompiler

/-- The primitive types are in the pool, each pointee stands before the pointer, and no type stands
there twice. -/
structure Pool.Sound (p : Pool) : Prop where
  primitives : ∀ q : Primitive, p.types[q.index]? = some (.primitive q)
  pointees : ∀ (i : Nat) (t : TypeId), p.types[i]? = some (.pointer t) → t.index < i
  distinct : ∀ (i j : Nat) (type : SourceType), p.types[i]? = some type →
    p.types[j]? = some type → i = j

/-- A type that is entered does not stand in the pool twice. -/
theorem Pool.Sound.distinct_intern {p : Pool} (h : p.Sound) (type : SourceType) (i j : Nat)
    (other : SourceType) (hi : (p.intern type).2.types[i]? = some other)
    (hj : (p.intern type).2.types[j]? = some other) : i = j := by
  unfold intern at hi hj
  cases hfind : p.find? type with
  | some _ =>
    rw [hfind] at hi hj
    exact h.distinct i j other hi hj
  | none =>
    rw [hfind] at hi hj
    have hdistinct : Distinct p.types := h.distinct
    rw [find?, Option.map_eq_none_iff] at hfind
    exact hdistinct.push (ne_of_findIdx?_eq_none hfind) i j other hi hj

/-- The primitive types are all in the pool that is started with, once each. -/
theorem Pool.sound_start (target : Target) : (start target).Sound := by
  have hpool : ∀ i : Nat, (start target).types[i]? = Primitive.all[i]?.map SourceType.primitive :=
    fun i => by simp [start]
  refine ⟨fun q => by cases q <;> rfl, fun i t ht => ?_, fun i j type hi hj => ?_⟩
  · have hmem := Array.mem_of_getElem? ht
    simp [start] at hmem
  · rw [hpool, Option.map_eq_some_iff] at hi hj
    obtain ⟨p, hi, rfl⟩ := hi
    obtain ⟨q, hj, hq⟩ := hj
    cases hq
    have hnodup : Primitive.all.Nodup := by decide
    exact (List.getElem?_inj (List.getElem?_eq_some_iff.1 hi).1 hnodup).1 (hi.trans hj.symm)

/-- No struct or enum was entered. -/
def Pool.Unnamed (p p' : Pool) : Prop :=
  ∀ (i : Nat) (type : SourceType), p.types.size ≤ i → p'.types[i]? = some type →
    type.has .isNamed = false

namespace Pool.Unnamed

/-- Nothing need be entered. -/
theorem refl (p : Pool) : p.Unnamed p := fun _ _ hi htype =>
  absurd (Array.getElem?_eq_some_iff.1 htype).1 (Nat.not_lt.2 hi)

/-- No struct or enum was entered before or after. -/
theorem trans {p p' p'' : Pool} (h : p.Unnamed p') (h' : p'.Unnamed p'')
    (hgrown : Grown p'.types p''.types) : p.Unnamed p'' := by
  intro i type hi htype
  by_cases hlt : i < p'.types.size
  · rw [hgrown.getElem? hlt] at htype
    exact h i type hi htype
  · exact h' i type (Nat.le_of_not_lt hlt) htype

end Pool.Unnamed

/-- Entering a pointer enters no struct or enum. -/
theorem Pool.unnamed_pointerTo (p : Pool) (t : TypeId) : p.Unnamed (p.pointerTo t).2 := by
  intro i type hi htype
  unfold pointerTo intern at htype
  cases hfind : p.find? (.pointer t) with
  | some _ =>
    rw [hfind] at htype
    exact absurd (Array.getElem?_eq_some_iff.1 htype).1 (Nat.not_lt.2 hi)
  | none =>
    rw [hfind] at htype
    dsimp only at htype
    rw [Array.getElem?_push] at htype
    split at htype
    next =>
      cases htype
      rfl
    next => exact absurd (Array.getElem?_eq_some_iff.1 htype).1 (Nat.not_lt.2 hi)

/-- A type may be entered if its pointee is in the pool. -/
theorem Pool.Sound.intern {p : Pool} (h : p.Sound) {type : SourceType}
    (htype : ∀ pointee, type = .pointer pointee → pointee.index < p.types.size) :
    (p.intern type).2.Sound := by
  refine ⟨fun q => (intern_spec p _).1.types.getElem?_some (h.primitives q), fun i s hs => ?_,
    h.distinct_intern _⟩
  unfold Pool.intern at hs
  cases hfind : p.find? type with
  | some _ =>
    rw [hfind] at hs
    exact h.pointees i s hs
  | none =>
    rw [hfind, Array.getElem?_push] at hs
    split at hs
    next hi => exact hi ▸ htype s (Option.some.inj hs)
    next => exact h.pointees i s hs

/-- A pointer to a type of the pool may be entered. -/
theorem Pool.Sound.pointerTo {p : Pool} (h : p.Sound) {t : TypeId}
    (ht : t.index < p.types.size) : (p.pointerTo t).2.Sound :=
  h.intern fun _ heq => SourceType.pointer.inj heq ▸ ht

/-- The types of the variables are in the pool. -/
def Scope.TypesIn (s : Scope) (p : Pool) : Prop :=
  ∀ name v, s.lookup? name = some v → v.ty.index < p.types.size

/-- The pool was extended soundly, as far as the types of the variables are in it. -/
structure Pool.Kept (s : Scope) (p p' : Pool) : Prop where
  grown : p.Extends p'
  sound : s.TypesIn p → p.Sound → p'.Sound
  unnamed : p.Unnamed p'

namespace Pool.Kept

variable {s : Scope} {p p' : Pool}

instance : Std.Refl (Pool.Kept s) := ⟨fun p => ⟨.refl p, fun _ h => h, .refl p⟩⟩

instance : IsTrans Pool (Pool.Kept s) where
  trans _ _ _ h h' := ⟨h.grown.trans h'.grown, fun hs hp =>
    h'.sound (fun name v hv => Nat.lt_of_lt_of_le (hs name v hv) h.grown.types.size_le)
      (h.sound hs hp), h.unnamed.trans h'.unnamed h'.grown.types⟩

/-- Nothing need be entered. -/
theorem of_eq (h : p = p') : Pool.Kept s p p' := h ▸ Std.Refl.refl p

end Pool.Kept

namespace Compilation

variable {σ : Type}

/-- The unit with another context. -/
def withContext (u : Compilation σ) (context : Context) : Compilation σ := { u with context }

/-- The unit with another module. -/
def withIr (u : Compilation σ) (ir : Ir.Module) : Compilation σ :=
  u.withContext (u.context.withIr ir)

@[simp]
theorem context_withContext (u : Compilation σ) (c : Context) :
    (u.withContext c).context = c := rfl

@[simp]
theorem forest_withContext (u : Compilation σ) (c : Context) :
    (u.withContext c).forest = u.forest := rfl

end Compilation

/-- The contexts are related, and nothing but them, the forest and the expander's memory may have
changed; without macros the forest has not. -/
structure Compilation.Within {σ : Type} (P : Pool → Pool → Prop)
    (R : Ir.Module → Ir.Module → Prop) (u u' : Compilation σ) : Prop where
  context : u.context.Within P R u'.context
  expander : u'.expander = u.expander
  limit : u'.maxExpansions = u.maxExpansions
  forest : u.expander = .none → u'.forest = u.forest

namespace Compilation.Within

variable {σ : Type} {P P' : Pool → Pool → Prop} {R R' : Ir.Module → Ir.Module → Prop}
  {u u' : Compilation σ}

instance [Std.Refl P] [Std.Refl R] : Std.Refl (Compilation.Within (σ := σ) P R) :=
  ⟨fun _ => ⟨Std.Refl.refl _, rfl, rfl, fun _ => rfl⟩⟩

instance [IsTrans Pool P] [IsTrans Ir.Module R] :
    IsTrans (Compilation σ) (Compilation.Within P R) where
  trans _ _ _ h h' := ⟨IsTrans.trans _ _ _ h.context h'.context,
    h'.expander.trans h.expander, h'.limit.trans h.limit,
    fun hu => (h'.forest (h.expander.trans hu)).trans (h.forest hu)⟩

/-- Wider relations of the parts. -/
theorem mono (h : Compilation.Within P R u u') (hP : ∀ p p', P p p' → P' p p')
    (hR : ∀ m m', R m m' → R' m m') : Compilation.Within P' R' u u' :=
  ⟨h.context.mono hP hR, h.expander, h.limit, h.forest⟩

end Compilation.Within

/-- What processing an expression in a scope does to a unit. -/
abbrev Compilation.Kept {σ : Type} (s : Scope) : Compilation σ → Compilation σ → Prop :=
  Compilation.Within (Pool.Kept s) Ir.Module.Extends

namespace Ir.Module

variable {b : BlockId}

/-- An operation that emits an instruction or is refused extends the module. -/
theorem keeps_of_emitted {α : Type} {op : Build α} {Q : α → Module → Module → Prop}
    (h : ∀ m, Ends op m (fun a m' => Q a m m') (Still m))
    (hQ : ∀ a m m', Q a m m' → Extends m m') : Keeps Extends op :=
  fun m => (h m).mono (fun a m' => hQ a m m') fun _ => Still.toExtends

/-- Making a stack slot extends the module. -/
theorem alloca_keeps (b : BlockId) (ty : TyId) : Keeps Extends (alloca b ty) :=
  keeps_of_emitted (fun m => alloca_ends b ty m) fun _ _ _ h => h.1.toExtends

/-- Reading extends the module. -/
theorem load_keeps (b : BlockId) (pointer : ValueId) : Keeps Extends (load b pointer) :=
  keeps_of_emitted (fun m => load_ends b pointer m) fun _ _ _ h => h.1.toExtends

/-- Writing extends the module. -/
theorem store_keeps (b : BlockId) (value pointer : ValueId) :
    Keeps Extends (store b value pointer) :=
  keeps_of_emitted (fun m => store_ends b value pointer m) fun _ _ _ h => h.1.toExtends

/-- Calling extends the module. -/
theorem call_keeps (b : BlockId) (callee : FuncId) (arguments : List ValueId) :
    Keeps Extends (call b callee arguments) :=
  keeps_of_emitted (fun m => call_ends b callee arguments m) fun _ _ _ h => h.1.toExtends

/-- Taking a field extends the module. -/
theorem extractValue_keeps (b : BlockId) (aggregate : ValueId) (index : Nat) :
    Keeps Extends (extractValue b aggregate index) :=
  keeps_of_emitted (fun m => extractValue_ends b aggregate index m) fun _ _ _ h =>
    h.1.toExtends

/-- Replacing a field extends the module. -/
theorem insertValue_keeps (b : BlockId) (aggregate value : ValueId) (index : Nat) :
    Keeps Extends (insertValue b aggregate value index) :=
  keeps_of_emitted (fun m => insertValue_ends b aggregate value index m) fun _ _ _ h =>
    h.1.toExtends

/-- Comparing extends the module. -/
theorem icmp_keeps (b : BlockId) (predicate : IntPredicate) (lhs rhs : ValueId) :
    Keeps Extends (icmp b predicate lhs rhs) :=
  keeps_of_emitted (fun m => icmp_ends b predicate lhs rhs m) fun _ _ _ h => h.1.toExtends

/-- Merging values extends the module. -/
theorem phi_keeps (b : BlockId) (incoming : List (ValueId × BlockId)) :
    Keeps Extends (phi b incoming) :=
  keeps_of_emitted (fun m => phi_ends b incoming m) fun _ _ _ h => h.1.toExtends

/-- Returning extends the module. -/
theorem ret_keeps (b : BlockId) (value : Option ValueId) : Keeps Extends (ret b value) :=
  keeps_of_emitted (fun m => ret_ends b value m) fun _ _ _ h => h.toExtends

/-- Going to a block extends the module. -/
theorem br_keeps (b target : BlockId) : Keeps Extends (br b target) :=
  keeps_of_emitted (fun m => br_ends b target m) fun _ _ _ h => h.toExtends

/-- Going to one of two blocks extends the module. -/
theorem condBr_keeps (b : BlockId) (condition : ValueId) (onTrue onFalse : BlockId) :
    Keeps Extends (condBr b condition onTrue onFalse) :=
  keeps_of_emitted (fun m => condBr_ends b condition onTrue onFalse m) fun _ _ _ h =>
    h.toExtends

/-- Appending a block extends the module. -/
theorem appendBlock_moves (func : FuncId) (label : String) :
    Moves Extends (appendBlock func label) := fun m => appendBlock_extends m func label

/-- A constant of a text adds a value. -/
theorem constIntOfText_keeps (ty : TyId) (signed : Bool) (text : String) :
    Keeps Still (constIntOfText ty signed text) := by
  intro m
  unfold Ends constIntOfText
  cases m.intWidth? ty with
  | none => exact .refl m
  | some bits =>
    dsimp only
    cases parseIntLiteral text bits signed with
    | error e => exact .refl m
    | ok raw => exact (newValue_spec ty _ m).1

/-- A constant text adds a value. -/
theorem globalText_moves (text : String) : Moves Still (globalText text) := fun m => by
  obtain ⟨_, hfresh, -⟩ := globalText_spec text m
  exact hfresh.still

end Ir.Module

/-! ## Cleanup -/

namespace Context

/-- Entering a backend type is a special case of emitting code. -/
theorem backendType_keeps (s : Scope) (t : TypeId) :
    Keeps (Within (Pool.Kept s) Ir.Module.Extends) (always (backendType t)) :=
  always_keeps ((backendType_moves t).mono fun _ _ h =>
    h.mono (fun _ _ => .of_eq) fun _ _ => Ir.Module.Still.toExtends)

/-- Calling a destructor extends the module. -/
theorem callDestructor_keeps (b : Ir.BlockId) (ty : Ir.TyId) (value : Ir.ValueId)
    (destructor : Ir.FuncId) :
    Keeps Ir.Module.Extends (callDestructor b ty value destructor) :=
  .bind (Ir.Module.alloca_keeps b ty) fun slot => .bind (Ir.Module.store_keeps b value slot)
    fun _ => .bind (Ir.Module.call_keeps b destructor [slot]) fun _ => .pure _

variable (s : Scope)

/-- Cleaning up members keeps what cleaning up values keeps. -/
theorem cleanUpMembers_keeps {cleanUp : Ir.BlockId → TypeId → Ir.ValueId → Check Ir.BlockId}
    (h : ∀ b t v, Keeps (Within (Pool.Kept s) Ir.Module.Extends) (cleanUp b t v))
    (aggregate : Ir.ValueId) (b : Ir.BlockId) (index : Nat) (members : List TypeId) :
    Keeps (Within (Pool.Kept s) Ir.Module.Extends)
      (cleanUpMembers cleanUp aggregate b index members) := by
  induction members generalizing b index with
  | nil => exact .pure b
  | cons member members ih =>
    unfold cleanUpMembers
    refine .bind .get fun c => ?_
    split
    · exact .bind (emitOr_keeps _ (Ir.Module.extractValue_keeps b aggregate index)) fun field =>
        .bind (h b member field) fun b => ih b (index + 1)
    · exact ih b (index + 1)

/-- Cleaning up a value declares nothing. -/
theorem cleanUpBelow_keeps (bound : Nat) (b : Ir.BlockId) (t : TypeId) (value : Ir.ValueId) :
    Keeps (Within (Pool.Kept s) Ir.Module.Extends) (cleanUpBelow bound b t value) := by
  induction bound generalizing b t value with
  | zero => exact .throw _
  | succ bound ih =>
    unfold cleanUpBelow
    refine .bind .get fun c => ?_
    cases c.destructor? t with
    | some destructor =>
      exact .bind (backendType_keeps s t) fun ty =>
        .bind (emitOr_keeps _ (callDestructor_keeps b ty value destructor)) fun _ => .pure b
    | none =>
      refine .bind .get fun c => ?_
      cases c.structOfType? t with
      | some struct => exact cleanUpMembers_keeps s ih value b 0 _
      | none => exact .pure b

/-- Dropping a result declares nothing. -/
theorem destruct_keeps (r : Result) :
    Keeps (Within (Pool.Kept s) Ir.Module.Extends) (destruct r) := by
  unfold destruct
  split
  · exact .pure r
  · exact .bind (cleanUpBelow_keeps s _ _ _ _) fun b => .pure _

section

variable {c : Context} {t : TypeId}

/-- A member that owns no resources is left out. -/
theorem cleanUpMembers_skip {member : TypeId} (h : c.ownsResources member = false)
    (cleanUp : Ir.BlockId → TypeId → Ir.ValueId → Check Ir.BlockId) (aggregate : Ir.ValueId)
    (b : Ir.BlockId) (index : Nat) (members : List TypeId) :
    cleanUpMembers cleanUp aggregate b index (member :: members) c =
      cleanUpMembers cleanUp aggregate b (index + 1) members c := by
  conv_lhs => unfold cleanUpMembers
  rw [get_run, h, if_neg Bool.false_ne_true]

/-- A value without a destructor is cleaned up member by member if its type stands for a struct. -/
theorem cleanUpBelow_of_struct {s : Struct} (hdestructor : c.destructor? t = none)
    (hs : c.structOfType? t = some s) (bound : Nat) (b : Ir.BlockId) (value : Ir.ValueId) :
    cleanUpBelow (bound + 1) b t value c =
      cleanUpMembers (cleanUpBelow bound) value b 0 s.memberTypes c := by
  unfold cleanUpBelow
  rw [get_run, hdestructor]
  dsimp only
  rw [get_run, hs]

/-- A value without a destructor takes no cleanup if its type stands for no struct. -/
theorem cleanUpBelow_of_no_struct (hdestructor : c.destructor? t = none)
    (hs : c.structOfType? t = none) (bound : Nat) (b : Ir.BlockId) (value : Ir.ValueId) :
    cleanUpBelow (bound + 1) b t value c = .ok b c := by
  unfold cleanUpBelow
  rw [get_run, hdestructor]
  dsimp only
  rw [get_run, hs]
  rfl

/-- Dropping a result changes nothing if there is nothing to clean up. -/
theorem destruct_of_cleanUp {r : Result}
    (h : cleanUpBelow (r.ty.index + 1) r.block r.ty r.value c = .ok r.block c) :
    destruct r c = .ok r c := by
  unfold destruct
  split
  · rfl
  · rw [bind_run h]
    rfl

end

end Context

namespace Lower

variable {σ α : Type} {P : Pool → Pool → Prop} {R : Ir.Module → Ir.Module → Prop}
  {u : Compilation σ}

/-! ## Steps on units -/

/-- Reading the unit keeps every reflexive relation. -/
theorem read_keeps {S : Compilation σ → Compilation σ → Prop} [Std.Refl S]
    (f : Compilation σ → α) : Keeps S (fun u => .ok (f u) u : Lower σ α) :=
  fun u => Std.Refl.refl u

/-- A step on the context. -/
theorem onContext_keeps {step : Check α} (h : Keeps (Context.Within P R) step) :
    Keeps (Compilation.Within P R) (onContext step : Lower σ α) := by
  intro u
  have hc := h.ends u.context
  unfold Ends onContext
  dsimp only
  cases hstep : step u.context with
  | ok a c => exact ⟨hc.of_ok hstep, rfl, rfl, fun _ => rfl⟩
  | error e c => exact ⟨hc.of_error hstep, rfl, rfl, fun _ => rfl⟩

/-- A step on the context that never stops. -/
theorem onState_keeps {step : StateM Context α} (h : Moves (Context.Within P R) step) :
    Keeps (Compilation.Within P R) (onState step : Lower σ α) :=
  onContext_keeps (Context.always_keeps h)

/-- A step on the module that never stops. -/
theorem onModule_keeps [Std.Refl P] {step : StateM Ir.Module α} (h : Moves R step) :
    Keeps (Compilation.Within P R) (onModule step : Lower σ α) :=
  onState_keeps (Context.onModule_moves h)

/-- Stopping with a report. -/
theorem fail_keeps [Std.Refl P] [Std.Refl R] (d : Diagnostic) :
    Keeps (Compilation.Within P R) (fail d : Lower σ α) :=
  onContext_keeps (Context.fail_keeps d)

/-- The outcomes of a step on the context. -/
theorem onContext_ends {step : Check α} {Q : α → Context → Prop} {E : Context → Prop}
    (h : Ends step u.context Q E) :
    Ends (onContext step) u (fun a u' => ∃ c, u' = u.withContext c ∧ Q a c)
      fun u' => ∃ c, u' = u.withContext c ∧ E c := by
  unfold Ends onContext
  dsimp only
  cases hstep : step u.context with
  | ok a c => exact ⟨c, rfl, h.of_ok hstep⟩
  | error e c => exact ⟨c, rfl, h.of_error hstep⟩

/-- Reading the unit. -/
theorem read_ends (f : Compilation σ → α) (u : Compilation σ) :
    Ends (fun u => .ok (f u) u : Lower σ α) u (fun a u' => f u = a ∧ u = u') fun _ => False :=
  ⟨rfl, rfl⟩

/-- Stopping with a report. -/
theorem fail_refuses (d : Diagnostic) :
    Refuses (Compilation.Within (· = ·) Ir.Module.Still) (fail d : Lower σ α) :=
  fun _ => ⟨.of_queue, rfl, rfl, fun _ => rfl⟩

/-- Asking the expander changes the forest and its memory only. -/
theorem offer_keeps [Std.Refl P] [Std.Refl R] (node : NodeId) :
    Keeps (Compilation.Within P R) (offer node : Lower σ Expansion) := by
  rintro ⟨forest, context, memory, expander, limit⟩
  refine ⟨Std.Refl.refl _, rfl, rfl, fun hu => ?_⟩
  change expander = .none at hu
  subst hu
  rfl

section

variable [Std.Refl P] [IsTrans Pool P] [Std.Refl R] [IsTrans Ir.Module R]

/-- An operation on the module whose refusal is reported. -/
theorem emit_keeps (node : NodeId) {op : Ir.Build α} (h : Keeps R op) :
    Keeps (Compilation.Within P R) (emit node op : Lower σ α) :=
  .bind (read_keeps _) fun span => onContext_keeps (Context.emit_keeps span h)

/-- Reporting the shape of a node. -/
theorem failWith_keeps (node : NodeId) (d : Span → Diagnostic) :
    Keeps (Compilation.Within P R) (do fail (d (← span node)) : Lower σ α) :=
  .bind (read_keeps _) fun _ => fail_keeps _

/-- Trying to expand a form changes the forest and the memory of the expander only. -/
theorem tryExpand_keeps (left : Nat) (node : NodeId) :
    Keeps (Compilation.Within P R) (tryExpand left node : Lower σ (Option NodeId)) := by
  unfold tryExpand
  split
  · exact .bind .get fun u => failWith_keeps _ _
  · refine .bind (offer_keeps node) fun expansion => ?_
    cases expansion with
    | expanded result => exact .pure _
    | notApplicable => exact .pure _
    | failed detail => exact failWith_keeps _ _

end

/-! ## Handlers -/

variable (s : Scope)

/-- Entering a backend type. -/
theorem backendType_keeps (t : TypeId) :
    Keeps (Compilation.Kept s) (onState (Context.backendType t) : Lower σ Ir.TyId) :=
  onContext_keeps (Context.backendType_keeps s t)

/-- Dropping a result. -/
theorem drop_keeps (r : Result) : Keeps (Compilation.Kept s) (drop r : Lower σ Ir.BlockId) :=
  .bind (onContext_keeps (Context.destruct_keeps s r)) fun _ => .pure _

/-- Dropping several results. -/
theorem dropAll_keeps (b : Ir.BlockId) (rs : List Result) :
    Keeps (Compilation.Kept s) (dropAll b rs : Lower σ Ir.BlockId) := by
  induction rs generalizing b with
  | nil => exact .pure b
  | cons r rs ih => exact .bind (drop_keeps s _) fun b => ih b

/-- A step that adds values only. -/
theorem still_keeps {step : StateM Ir.Module α} (h : Moves Ir.Module.Still step) :
    Keeps (Compilation.Kept s) (onModule step : Lower σ α) :=
  onModule_keeps (h.mono fun _ _ => Ir.Module.Still.toExtends)

/-- Adding a value. -/
theorem newValue_keeps (ty : Ir.TyId) (kind : Ir.ValueKind) :
    Keeps (Compilation.Kept s) (onModule (Ir.Module.newValue ty kind) : Lower σ Ir.ValueId) :=
  still_keeps s fun m => (Ir.Module.newValue_spec ty kind m).1

/-- Reporting a malformed literal. -/
theorem failMalformed_keeps (node : NodeId) (expected : String) :
    Keeps (Compilation.Kept s) (failMalformed node expected : Lower σ α) :=
  .bind (read_keeps _) fun _ => .bind (read_keeps _) fun _ => fail_keeps _

/-- An integer token. -/
theorem integerToken_keeps (b : Ir.BlockId) (node : NodeId) (text : String) :
    Keeps (Compilation.Kept s) (integerToken b node text : Lower σ Result) := by
  refine .bind (backendType_keeps s _) fun ty => ?_
  have hconst : Keeps Ir.Module.Extends (Ir.Module.constIntOfText ty true text) :=
    (Ir.Module.constIntOfText_keeps ty true text).mono fun _ _ => Ir.Module.Still.toExtends
  refine .bind (onState_keeps (Context.attempt_moves hconst)) fun outcome => ?_
  split
  · exact .pure _
  · exact .bind (read_keeps _) fun _ => .bind (read_keeps _) fun _ => fail_keeps _
  · exact failMalformed_keeps s _ _

/-- A float token. -/
theorem floatToken_keeps (b : Ir.BlockId) (node : NodeId) (text : String) :
    Keeps (Compilation.Kept s) (floatToken b node text : Lower σ Result) := by
  unfold floatToken
  split
  · exact .bind (backendType_keeps s _) fun _ => .bind (newValue_keeps s _ _) fun _ => .pure _
  · exact failMalformed_keeps s _ _

/-- A pointer to a type of the pool. -/
theorem pointerTo_keeps (t : TypeId)
    (ht : ∀ p : Pool, s.TypesIn p → p.Sound → t.index < p.types.size) :
    Keeps (Compilation.Kept s) (onState (Context.onPool (·.pointerTo t)) : Lower σ TypeId) :=
  onState_keeps (Context.onPool_moves fun p =>
    ⟨(Pool.intern_spec p _).1, fun hs hp => hp.pointerTo (ht p hs hp), p.unnamed_pointerTo t⟩)

/-- A string token. -/
theorem stringToken_keeps (b : Ir.BlockId) (text : String) :
    Keeps (Compilation.Kept s) (stringToken b text : Lower σ Result) := by
  refine .bind (pointerTo_keeps s _ fun p _ hp => ?_) fun ty =>
    .bind (still_keeps s (Ir.Module.globalText_moves text)) fun _ => .pure _
  exact (Array.getElem?_eq_some_iff.1 (hp.primitives .char)).1

/-- A truth value. -/
theorem truthValue_keeps (b : Ir.BlockId) (value : Bool) :
    Keeps (Compilation.Kept s) (truthValue b value : Lower σ Result) :=
  .bind (backendType_keeps s _) fun ty => .bind (still_keeps s fun m =>
    (Ir.Module.newValue_spec ty _ m).1) fun _ => .pure _

/-- A variable. -/
theorem variableRead_keeps (func : Ir.FuncId) (b : Ir.BlockId) (node : NodeId) (name : String) :
    Keeps (Compilation.Kept s) (variableRead ⟨func, s⟩ b node name : Lower σ Result) := by
  unfold variableRead
  dsimp only
  cases hlookup : s.lookup? name with
  | none => exact failWith_keeps _ _
  | some v =>
    obtain ⟨ty, storage⟩ := v
    cases storage with
    | value v => exact .pure _
    | slot address =>
      exact .bind (emit_keeps node (Ir.Module.load_keeps b address)) fun v =>
        .bind (pointerTo_keeps s ty fun p hs _ => hs name _ hlookup) fun _ => .pure _

/-- A token. -/
theorem token_keeps (func : Ir.FuncId) (b : Ir.BlockId) (node : NodeId) (kind : TokenKind)
    (text : String) :
    Keeps (Compilation.Kept s) (token ⟨func, s⟩ b node kind text : Lower σ Result) := by
  cases kind with
  | integer => exact integerToken_keeps s b node text
  | float => exact floatToken_keeps s b node text
  | string => exact stringToken_keeps s b text
  | symbol =>
    unfold token symbolToken
    dsimp only
    split
    · exact truthValue_keeps s b true
    · split
      · exact truthValue_keeps s b false
      · exact variableRead_keeps s func b node text

/-- Requiring a pointer. -/
theorem expectPointee_keeps (r : Result) (node : NodeId) :
    Keeps (Compilation.Kept s) (expectPointee r node : Lower σ TypeId) := by
  refine .bind (read_keeps _) fun c => ?_
  split
  · exact .pure _
  · exact .bind (read_keeps _) fun _ => .bind (read_keeps _) fun _ => fail_keeps _

section

variable {sub again : Sub σ} (hsub : ∀ b node, Keeps (Compilation.Kept s) (sub b node))
  (hagain : ∀ b node, Keeps (Compilation.Kept s) (again b node))

include hsub

/-- Reading through a pointer. -/
theorem dereference_keeps (b : Ir.BlockId) (node : NodeId) (arguments : List NodeId)
    (addressOnly marked : Bool) :
    Keeps (Compilation.Kept s) (dereference sub b node arguments addressOnly marked) := by
  unfold dereference
  split
  next argument =>
    refine .bind (hsub b argument) fun pointer => .bind (expectPointee_keeps s pointer argument)
      fun pointee => .bind (read_keeps _) fun c => ?_
    split
    · exact failWith_keeps _ _
    · dsimp only
      split
      · exact .bind (.pure _) fun r => .bind (drop_keeps s pointer) fun b => .pure _
      · exact .bind (emit_keeps node (Ir.Module.load_keeps _ _)) fun v =>
          .bind (.pure _) fun r => .bind (drop_keeps s pointer) fun b => .pure _
  next => exact failWith_keeps _ _

omit hsub in
/-- Looking for a form that reads through a pointer. -/
theorem derefArguments?_keeps (node : NodeId) :
    Keeps (Compilation.Kept s) (derefArguments? node : Lower σ (Option (List NodeId))) := by
  refine .bind (read_keeps _) fun items => ?_
  split
  · refine .bind (read_keeps _) fun name => ?_
    split
    · refine .bind (read_keeps _) fun c => ?_
      split <;> exact .pure _
    · exact .pure _
  · exact .pure _

/-- Taking an address. -/
theorem addressOf_keeps (b : Ir.BlockId) (node : NodeId) (arguments : List NodeId) :
    Keeps (Compilation.Kept s) (addressOf sub b node arguments) := by
  unfold addressOf
  split
  next operand =>
    refine .bind (derefArguments?_keeps s operand) fun inner => ?_
    split
    · exact dereference_keeps s hsub _ _ _ _ _
    · refine .bind (hsub b operand) fun r => ?_
      split
      · exact .pure _
      · exact failWith_keeps _ _
  next => exact failWith_keeps _ _

/-- Assigning. -/
theorem assignment_keeps (b : Ir.BlockId) (node : NodeId) (arguments : List NodeId) :
    Keeps (Compilation.Kept s) (assignment sub b node arguments) := by
  unfold assignment
  split
  next destNode valueNode =>
    refine .bind (hsub b destNode) fun dest => .bind (expectPointee_keeps s dest destNode)
      fun pointee => .bind (hsub dest.block valueNode) fun value => ?_
    split
    · exact .bind (read_keeps _) fun _ => .bind (read_keeps _) fun _ =>
        .bind (read_keeps _) fun _ => fail_keeps _
    · refine .bind (read_keeps _) fun c => ?_
      dsimp only
      split
      · exact .bind (emit_keeps node (Ir.Module.call_keeps _ _ _)) fun _ =>
          .bind (drop_keeps s value) fun b => .bind (drop_keeps s _) fun b =>
            truthValue_keeps s b true
      · exact .bind (emit_keeps node (Ir.Module.store_keeps _ _ _)) fun _ =>
          .bind (.pure _) fun b => .bind (drop_keeps s _) fun b => truthValue_keeps s b true
  next => exact failWith_keeps _ _

/-- Processing forms one after the other. -/
theorem forms_keeps (b : Ir.BlockId) (first : NodeId) (rest : List NodeId) :
    Keeps (Compilation.Kept s) (forms sub b first rest) := by
  induction rest generalizing b first with
  | nil => exact hsub b first
  | cons next rest ih =>
    exact .bind (hsub b first) fun r => .bind (drop_keeps s r) fun b => ih b next

/-- A sequence. -/
theorem sequence_keeps (b : Ir.BlockId) (node : NodeId) (arguments : List NodeId) :
    Keeps (Compilation.Kept s) (sequence sub b node arguments) := by
  unfold sequence
  split
  · exact failWith_keeps _ _
  · exact forms_keeps s hsub b _ _

omit hsub in
/-- The instructions of a copy extend the module. -/
theorem copyInstrs_keeps (b : Ir.BlockId) (ty : Ir.TyId) (value : Ir.ValueId)
    (copy : Ir.FuncId) : Keeps Ir.Module.Extends (copyInstrs b ty value copy) :=
  .bind (Ir.Module.alloca_keeps _ _) fun _ =>
    .bind (Ir.Module.store_keeps _ _ _) fun _ => .bind (Ir.Module.alloca_keeps _ _) fun _ =>
      .bind (Ir.Module.call_keeps _ _ _) fun _ => Ir.Module.load_keeps _ _

omit hsub in
/-- Copying a borrowed result. -/
theorem copyBorrowed_keeps (node : NodeId) (r : Result) :
    Keeps (Compilation.Kept s) (copyBorrowed node r : Lower σ Result) := by
  refine .bind (read_keeps _) fun c => ?_
  split
  next copy _ =>
    exact .bind (backendType_keeps s _) fun ty =>
      .bind (emit_keeps node (copyInstrs_keeps _ ty _ copy)) fun v => .pure _
  next => exact .bind (read_keeps _) fun _ => .bind (read_keeps _) fun _ => fail_keeps _

omit hsub in
/-- Giving two results the same ownership. -/
theorem unifyOwnership_keeps (node : NodeId) (onTrue onFalse : Result) :
    Keeps (Compilation.Kept s) (unifyOwnership node onTrue onFalse : Lower σ _) := by
  unfold unifyOwnership
  split
  · exact .pure _
  · refine .bind (read_keeps _) fun c => ?_
    split
    · exact .pure _
    · split
      · exact .bind (copyBorrowed_keeps s node onTrue) fun _ => .pure _
      · exact .bind (copyBorrowed_keeps s node onFalse) fun _ => .pure _

omit hsub in
/-- Merging two branches. -/
theorem merge_keeps (frame : Frame) (node : NodeId) (onTrue onFalse : Result) :
    Keeps (Compilation.Kept s) (merge frame node onTrue onFalse : Lower σ Result) := by
  have hvoid : Moves (Context.Within (Pool.Kept s) Ir.Module.Extends) Context.voidValue :=
    Context.voidValue_moves.mono fun _ _ h =>
      h.mono (fun _ _ => .of_eq) fun _ _ => Ir.Module.Still.toExtends
  refine .bind (onModule_keeps (Ir.Module.appendBlock_moves frame.func "merge")) fun target =>
    .bind (emit_keeps node (.bind (Ir.Module.br_keeps _ _) fun _ => Ir.Module.br_keeps _ _))
      fun _ => .bind (read_keeps _) fun c => ?_
  dsimp only
  split
  · exact .bind (onState_keeps hvoid) fun v => .pure _
  · exact .bind (emit_keeps node (Ir.Module.phi_keeps _ _)) fun v => .pure _

/-- A conditional. -/
theorem conditional_keeps (frame : Frame) (b : Ir.BlockId) (node : NodeId)
    (arguments : List NodeId) :
    Keeps (Compilation.Kept s) (conditional frame sub b node arguments) := by
  unfold conditional
  split
  next conditionNode thenNode elseNode =>
    refine .bind (hsub b conditionNode) fun condition => ?_
    split
    · exact .bind (read_keeps _) fun _ => .bind (read_keeps _) fun _ => fail_keeps _
    · refine .bind (drop_keeps s condition) fun b =>
        .bind (onModule_keeps (Ir.Module.appendBlock_moves _ _)) fun thenEntry =>
        .bind (onModule_keeps (Ir.Module.appendBlock_moves _ _)) fun elseEntry =>
        .bind (emit_keeps node (Ir.Module.condBr_keeps _ _ _ _)) fun _ =>
        .bind (hsub thenEntry thenNode) fun onTrue =>
        .bind (hsub elseEntry elseNode) fun onFalse => ?_
      split
      · exact .bind (read_keeps _) fun _ => .bind (read_keeps _) fun _ =>
          .bind (read_keeps _) fun _ => fail_keeps _
      · exact .bind (unifyOwnership_keeps s node onTrue onFalse) fun _ =>
          merge_keeps s frame node _ _
  next => exact failWith_keeps _ _

/-- A core form. -/
theorem coreForm_keeps (frame : Frame) (b : Ir.BlockId) (node : NodeId) (form : CoreForm)
    (arguments : List NodeId) (marked : Bool) :
    Keeps (Compilation.Kept s) (coreForm frame sub b node form arguments marked) := by
  cases form with
  | deref => exact dereference_keeps s hsub _ _ _ _ _
  | addressOf => exact addressOf_keeps s hsub _ _ _
  | setf => exact assignment_keeps s hsub _ _ _
  | sequence => exact sequence_keeps s hsub _ _ _
  | conditional => exact conditional_keeps s hsub _ _ _ _
  | core => exact failWith_keeps _ _

/-- A marked core form. -/
theorem marked_keeps (frame : Frame) (b : Ir.BlockId) (node : NodeId) (arguments : List NodeId) :
    Keeps (Compilation.Kept s) (marked frame sub b node arguments) := by
  have hrefuse : ∀ place : NodeId, Keeps (Compilation.Kept s) (do
      fail (Report.unexpectedElement (← span place) "core form name" "`core`"
        (← display place)) : Lower σ Result) := fun place =>
    .bind (read_keeps _) fun _ => .bind (read_keeps _) fun _ => fail_keeps _
  unfold marked
  split
  · exact hrefuse node
  · refine .bind (read_keeps _) fun name => ?_
    split
    · split
      · exact hrefuse _
      · exact coreForm_keeps s hsub _ _ _ _ _ _
    · exact hrefuse _

/-- Arguments. -/
theorem arguments_keeps (b : Ir.BlockId) (nodes : List NodeId) :
    Keeps (Compilation.Kept s) (arguments sub b nodes) := by
  induction nodes generalizing b with
  | nil => exact .pure _
  | cons node nodes ih => exact .bind (hsub b node) fun r => .bind (ih r.block) fun _ => .pure _

/-- A call. -/
theorem call_keeps (b : Ir.BlockId) (node : NodeId) (name : String)
    (argumentNodes : List NodeId) :
    Keeps (Compilation.Kept s) (call sub b node name argumentNodes) := by
  have hvoid : Moves (Context.Within (Pool.Kept s) Ir.Module.Extends) Context.voidValue :=
    Context.voidValue_moves.mono fun _ _ h =>
      h.mono (fun _ _ => .of_eq) fun _ _ => Ir.Module.Still.toExtends
  unfold call
  refine .bind (arguments_keeps s hsub b argumentNodes) fun results => ?_
  obtain ⟨rs, b⟩ := results
  refine .bind (read_keeps _) fun c => ?_
  split
  · exact .bind (read_keeps _) fun _ => failWith_keeps _ _
  · refine .bind (emit_keeps node (Ir.Module.call_keeps _ _ _)) fun returned => ?_
    dsimp only
    split
    · exact .bind (.pure _) fun v => .bind (dropAll_keeps s _ _) fun b => .pure _
    · exact .bind (onState_keeps hvoid) fun v => .bind (dropAll_keeps s _ _) fun b => .pure _

include hagain

/-- A call, or what a rewriter makes of it. -/
theorem callOrExpand_keeps (left : Nat) (b : Ir.BlockId) (node : NodeId) (name : String)
    (argumentNodes : List NodeId) :
    Keeps (Compilation.Kept s) (callOrExpand left sub again b node name argumentNodes) := by
  refine .bind (tryExpand_keeps left node) fun expansion => ?_
  cases expansion with
  | some result => exact hagain b result
  | none => exact call_keeps s hsub b node name argumentNodes

/-- A list. -/
theorem list_keeps (frame : Frame) (left : Nat) (b : Ir.BlockId) (node : NodeId)
    (items : List NodeId) :
    Keeps (Compilation.Kept s) (list frame left sub again b node items) := by
  unfold list
  split
  · exact failWith_keeps _ _
  next head argumentNodes =>
    refine .bind (read_keeps _) fun name? => ?_
    cases name? with
    | none => exact .bind (read_keeps _) fun _ => .bind (read_keeps _) fun _ => fail_keeps _
    | some name =>
      refine .bind (read_keeps _) fun c => ?_
      have hcall := callOrExpand_keeps s hsub hagain left b node name argumentNodes
      dsimp only
      split
      · exact marked_keeps s hsub _ _ _ _
      · split
        · exact hcall
        · exact coreForm_keeps s hsub _ _ _ _ _ _
      · exact hcall

/-- A form. -/
theorem form_keeps (func : Ir.FuncId) (left : Nat) (b : Ir.BlockId) (node : NodeId) :
    Keeps (Compilation.Kept s) (form ⟨func, s⟩ left sub again b node) := by
  refine .bind (read_keeps _) fun f => ?_
  split
  · exact token_keeps s func b node _ _
  · exact list_keeps s hsub hagain _ _ _ _ _

end

/-! ## Expressions -/

/-- A way to process parts whose outcomes have a property. -/
def Satisfies (Q : Ir.BlockId → NodeId → Compilation σ →
    EStateM.Result Halt (Compilation σ) Result → Prop) (sub : Sub σ) : Prop :=
  ∀ b node u, Q b node u (sub b node u)

/-- A property of outcomes that handlers pass on from the parts of a form, and from its expansion,
holds of the outcomes of expressions. -/
theorem process_satisfies (frame : Frame)
    {Q : Ir.BlockId → NodeId → Compilation σ →
      EStateM.Result Halt (Compilation σ) Result → Prop}
    (stop : ∀ b node u, Q b node u (.error .unfinished u))
    (step : ∀ left sub again, Satisfies Q sub → Satisfies Q again →
      Satisfies Q (form frame left sub again)) :
    Satisfies Q (process frame) := by
  have hbelow : ∀ left again, Satisfies Q again → ∀ bound,
      Satisfies Q (expressionBelow frame left again bound) := by
    intro left again hagain bound
    induction bound with
    | zero => exact stop
    | succ bound ih => exact step left _ _ ih hagain
  have hexpression : ∀ left, Satisfies Q (expression frame left) := by
    intro left
    induction left with
    | zero => exact fun b node => hbelow 0 _ stop _ b node
    | succ left ih => exact fun b node => hbelow (left + 1) _ ih _ b node
  exact fun b node u => hexpression u.maxExpansions b node u

/-- Processing an expression declares nothing. -/
theorem process_keeps (func : Ir.FuncId) (b : Ir.BlockId) (node : NodeId) :
    Keeps (Compilation.Kept s) (process ⟨func, s⟩ b node : Lower σ Result) :=
  process_satisfies ⟨func, s⟩
    (Q := fun _ _ u outcome => Outcome outcome (fun _ => Compilation.Kept s u)
      (Compilation.Kept s u))
    (fun _ _ u => Std.Refl.refl u)
    (fun left _ _ hsub hagain b node => form_keeps s hsub hagain func left b node) b node

end Lower

end FormCompiler
