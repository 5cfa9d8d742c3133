import FormCompiler.Proofs.Context.Reporting
import FormCompiler.Proofs.EnumAtomicity

/-!
# How Declarations Are Refused

A declaration that is refused by the tables of the unit reports one error, that something is
declared already, and one that is accepted reports nothing (`FailsWith`). No other refusal of the
module is met on the way: the functions of an enum have bodies that the module accepts.
-/

namespace FormCompiler

namespace Context

variable {α β : Type} {c c' : Context} {d : Diagnostic}

/-- The step reports nothing if it gives a result, and one certain error if it stops. -/
def FailsWith (d : Diagnostic) (x : Check α) : Prop :=
  ∀ c, Ends x c (fun _ c' => c'.queue = c.queue) fun c' => c'.queue = c.queue.emitError d

namespace FailsWith

/-- Stopping with the report. -/
theorem fail : FailsWith d (fail d : Check α) := fun _ => rfl

/-- A step that never stops and reports nothing. -/
theorem always {step : StateM Context α} (h : Moves SameQueue step) :
    FailsWith d (always step) := fun c => h c

/-- Without effect. -/
theorem pure (a : α) : FailsWith d (pure a : Check α) := fun _ => rfl

/-- Reading the context. -/
theorem get : FailsWith d (get : Check Context) := fun _ => rfl

/-- A sequence stops in its first part or in its second one. -/
theorem bind {x : Check α} {f : α → Check β} (hx : FailsWith d x) (hf : ∀ a, FailsWith d (f a)) :
    FailsWith d (x >>= f) := fun c =>
  (hx c).bind fun a c' h => by
    rw [← h]
    exact hf a c'

/-- An operation on the module, all of whose refusals are reported in this way. -/
theorem emitOr {refusal : Ir.Error → Diagnostic} {op : Ir.Build α}
    (h : ∀ m e m', op m = .error e m' → refusal e = d) : FailsWith d (emitOr refusal op) := by
  intro c
  unfold Ends
  cases hop : op c.ir with
  | ok a ir =>
    rw [emitOr_of_ok refusal hop]
    rfl
  | error e ir =>
    rw [emitOr_of_error refusal hop, h _ _ _ hop]
    rfl

end FailsWith

/-! ## Declarations -/

/-- A function is declared, or refused as declared already. -/
theorem declareFunction_failsWith (name : String) (params : List Param) (returnType : TypeId)
    (linkage : Ir.Linkage) (span : Span) :
    FailsWith (Report.redeclaration .functionRedeclared span name)
      (declareFunction name params returnType linkage span) := by
  refine .bind .get fun c => ?_
  dsimp only
  split
  · exact .fail
  refine .bind .get fun c => .bind (.always (backendTypes_sameQueue _)) fun tys =>
    .bind (.always ((backendType_silent _).mono fun _ _ h => h.queue)) fun ret =>
    .bind (.emitOr fun m e m' h => ?_) fun func =>
    .bind (.always fun c => update_sameQueue c _) fun _ => .pure _
  unfold Ir.Module.declareFunction at h
  split at h <;> cases h
  rfl

/-! ## The functions of enums -/

/-- The step declares functions and reports nothing, or it stops at one that is declared already. -/
def DeclaresAt (span : Span) (c : Context) (x : Check α) : Prop :=
  Ends x c (fun _ c' => c.Develops c' ∧ c'.queue = c.queue)
    fun c' => ∃ name, c'.queue =
      c.queue.emitError (Report.redeclaration .functionRedeclared span name)

variable {span : Span}

/-- Functions may be declared one after the other. -/
theorem DeclaresAt.bind {x : Check α} {f : α → Check β} (hx : DeclaresAt span c x)
    (hf : ∀ a c', c.Develops c' → DeclaresAt span c' (f a)) : DeclaresAt span c (x >>= f) := by
  refine Ends.bind hx fun a c₁ h => ?_
  obtain ⟨hdevelops, hqueue⟩ := h
  have hrest := hf a c₁ hdevelops
  unfold DeclaresAt at hrest
  rw [hqueue] at hrest
  exact hrest.mono (fun _ _ h => ⟨IsTrans.trans _ _ _ hdevelops h.1, h.2⟩) fun _ h => h

/-- A function whose body computes its result is declared, or refused as declared already. -/
theorem defineOneBlock_declaresAt (name : String) (params : List Param) {returnType : TypeId}
    (linkage : Ir.Linkage) (span : Span)
    {body : Ir.BlockId → List Ir.ValueId → Ir.Build Ir.ValueId} (hcovered : Covered body)
    (hc : c.Valid) (hparams : ∀ p ∈ params, c.Grounded p.ty) (hret : c.Grounded returnType)
    (hbody : c.Computes body ⟨name, params.map (·.ty), returnType⟩) :
    DeclaresAt span c (defineOneBlock name params returnType linkage span body) := by
  have hdevelops : Ends (defineOneBlock name params returnType linkage span body) c
      (fun _ => c.Develops) c.Develops :=
    defineOneBlock_develops name params hcovered hparams hret
  have houtcome := defineOneBlock_outcome name params linkage span hc hparams hret hbody
  have hreports := declareFunction_failsWith name params returnType linkage span c
  have hdeclare := declareFunction_ends name params returnType linkage span c
  suffices hqueue : Ends (defineOneBlock name params returnType linkage span body) c
      (fun _ c' => c'.queue = c.queue) fun c' => ∃ name, c'.queue =
        c.queue.emitError (Report.redeclaration .functionRedeclared span name) from
    (hdevelops.and hqueue).mono (fun _ _ h => h) fun _ h => h.2
  have hfirst : Ends (declareFunction name params returnType linkage span) c
      (fun func c₁ => declareFunction name params returnType linkage span c = .ok func c₁)
      fun c' => ∃ name, c'.queue =
        c.queue.emitError (Report.redeclaration .functionRedeclared span name) :=
    .intro (fun _ _ h => h) fun _ _ h => ⟨name, hreports.of_error h⟩
  refine hfirst.bind fun func c₁ hrun => ?_
  -- what comes after the declaration does not stop, as the signature was free
  refine ((houtcome.of_next hrun).and (Q := fun _ c' => c'.queue = c.queue) (F := fun _ => True)
    ?_).mono (fun _ _ h => h.2) fun _ h => (h.1.1 (hdeclare.of_ok hrun).signature_free).elim
  rw [← hreports.of_ok hrun]
  refine .next rfl (.next rfl ?_)
  refine (always_keeps ((attempt_proceeds _).mono fun _ _ h => h.queue) _).andThen
    (fun _ _ => trivial) fun outcome c₂ hqueue => ?_
  cases outcome with
  | ok => exact .pure hqueue
  | error e => exact (always_ends _ _).andThen (fun _ h => h.elim) fun _ _ _ => trivial

section

variable {enumTy underlying : TypeId} {backing member : Ir.TyId}

/-- The comparisons of an enum are declared, or one of them is refused as declared already. -/
theorem defineComparisons_declaresAt {signed : Bool} {linkage : Ir.Linkage}
    (comparisons : List Comparison) (hc : c.Valid) (henum : c.Grounded enumTy)
    (hwraps : Wraps c enumTy underlying backing member) :
    DeclaresAt span c (defineComparisons enumTy signed linkage span comparisons) := by
  induction comparisons generalizing c with
  | nil => exact .pure ⟨Std.Refl.refl c, rfl⟩
  | cons comparison rest ih =>
    refine (defineOneBlock_declaresAt _ _ linkage span (covered_comparisonBody _) hc
      (by simpa using henum) (hc.grounded_primitive .bool)
      (hwraps.comparison hc comparison.operator _)).bind fun _ c₁ hdevelops => ?_
    obtain ⟨hvalid, hsteady⟩ := hdevelops.safe hc
    exact ih hvalid (henum.mono hsteady) (hwraps.mono hsteady)

/-- The functions of an enum are declared, or one of them is refused as declared already. -/
theorem defineEnumFunctions_declaresAt (name : String) (linkage : Ir.Linkage) (hc : c.Valid)
    (henum : c.Grounded enumTy) (hunder : c.Grounded underlying)
    (hwraps : Wraps c enumTy underlying backing member) :
    DeclaresAt span c (defineEnumFunctions name enumTy underlying linkage span) := by
  refine .next (always_of_eq hwraps.enum.backendType) ?_
  refine (defineOneBlock_declaresAt _ _ linkage span (covered_constructorBody backing) hc
    (by simpa using hunder) henum (hwraps.constructor name)).bind fun _ c₁ hdevelops => ?_
  obtain ⟨hvalid, hsteady⟩ := hdevelops.safe hc
  refine .next rfl ?_
  refine (defineOneBlock_declaresAt _ _ linkage span covered_conversionBody hvalid
    (by simpa using henum.mono hsteady) (hunder.mono hsteady)
    ((hwraps.mono hsteady).conversion _)).bind fun _ c₂ hdevelops' => ?_
  obtain ⟨hvalid', hsteady'⟩ := hdevelops'.safe hvalid
  have hsteady₂ := hsteady.trans hsteady'
  exact .next rfl (defineComparisons_declaresAt _ hvalid' (henum.mono hsteady₂)
    (hwraps.mono hsteady₂))

end

end Context

namespace Lower

open Context

/-- A struct of a name that is free in the module is entered, or refused as declared already. -/
theorem emitOr_namedStruct_failsWith {refusal : Ir.Error → Diagnostic} {d : Diagnostic}
    (symbol : String) (fields : List Ir.TyId) (h : refusal (.duplicateSymbol symbol) = d) :
    FailsWith d (emitOr refusal (Ir.Module.namedStruct symbol fields)) := by
  refine .emitOr fun m e m' hrun => ?_
  unfold Ir.Module.namedStruct at hrun
  split at hrun <;> cases hrun
  exact h

/-- A struct is registered, or refused as declared already. -/
theorem registerStruct_failsWith (name : String) (members : List (String × TypeId))
    (linkage : Ir.Linkage) (nameSpan : Span) :
    FailsWith (Report.redeclaration .structRedeclared nameSpan name)
      (registerStruct name members linkage nameSpan) := by
  refine .bind .get fun c => ?_
  dsimp only
  split
  · exact .fail
  exact .bind (.always (backendTypes_sameQueue _)) fun layout => .bind .get fun c =>
    .bind (emitOr_namedStruct_failsWith _ _ rfl) fun backend => .bind .get fun c =>
    .bind .get fun c =>
    .bind (.always (onPool_sameQueue _)) fun t => .bind (.always fun _ => rfl) fun _ =>
    .bind (.always fun c => update_sameQueue c _) fun _ => .pure _

/-- An enum and its struct are registered, or refused as declared already: as an enum, if there is
one of the name, and else as a struct. -/
theorem registerTypes_reports (name : String) (builder : EnumBuilder) (linkage : Ir.Linkage)
    (underlying : TypeId) (nameSpan : Span) (c : Context) :
    Ends (registerTypes name builder linkage underlying nameSpan) c
      (fun _ c' => c'.queue = c.queue)
      fun c' => c'.queue = c.queue.emitError (Report.redeclaration
        (if c.hasLocalEnum name then .enumRedeclared else .structRedeclared) nameSpan name) := by
  refine .next rfl ?_
  cases henum : c.hasLocalEnum name with
  | true => exact FailsWith.fail c
  | false =>
    rw [if_neg Bool.false_ne_true, if_neg Bool.false_ne_true]
    refine FailsWith.bind .get (fun c => ?_) c
    split
    · exact .fail
    exact .bind (.always ((backendType_silent _).mono fun _ _ h => h.queue)) fun member =>
      .bind .get fun c => .bind (emitOr_namedStruct_failsWith _ _ rfl) fun backing =>
      .bind .get fun c => .bind .get fun c =>
      .bind (.always (onPool_sameQueue _)) fun enumTy =>
      .bind (.always (onPool_sameQueue _)) fun structTy =>
      .bind (.always fun _ => rfl) fun _ => .bind (.always fun _ => rfl) fun _ =>
      .bind (.always fun c => update_sameQueue c _) fun _ =>
      .bind (.always fun c => update_sameQueue c _) fun _ => .pure _

/-- Neither an enum nor a struct of the name stands in the current namespace, and the module has no
struct with the backend name it gets. -/
structure TypesFree (name : String) (c : Context) : Prop where
  noEnum : c.current.enum? name = none
  noStruct : c.current.struct? name = none
  noBacking : c.ir.lookupStruct? (c.structSymbol name) = none

/-- An enum is registered with its struct and functions, or one of them is refused as declared
already: a function only after the enum and its struct were registered. -/
theorem registerEnum_reports {c : Context} (hc : c.Valid) (name : String) (builder : EnumBuilder)
    (linkage : Ir.Linkage) {underlying : TypeId} (hunder : c.Grounded underlying)
    (hint : c.pool.isInteger underlying = true) (nameSpan bodySpan : Span) :
    Ends (registerEnum name builder linkage underlying nameSpan bodySpan) c
      (fun _ c' => TypesFree name c ∧ c'.queue = c.queue)
      fun c' => (¬ TypesFree name c ∧ c.Within (· = ·) Ir.Module.Still c' ∧
          c'.queue = c.queue.emitError (Report.redeclaration
            (if c.hasLocalEnum name then .enumRedeclared else .structRedeclared) nameSpan name)) ∨
        (TypesFree name c ∧ ∃ f, c'.queue =
          c.queue.emitError (Report.redeclaration .functionRedeclared bodySpan f)) := by
  rw [registerEnum_eq]
  refine ((registerTypes_ends hc name builder linkage underlying nameSpan).and
    (registerTypes_reports name builder linkage underlying nameSpan c)).andThen ?_ ?_
  · rintro c' ⟨⟨hwithin, htaken⟩, hqueue⟩
    refine .inl ⟨fun hfree => ?_, hwithin, hqueue⟩
    simp [hfree.noEnum, hfree.noStruct, hfree.noBacking] at htaken
  · rintro enumTy c₁ ⟨hregistered, hqueue⟩
    obtain ⟨hvalid, hsteady, hgrounded⟩ := hregistered.safe hc hunder
    obtain ⟨backing, member, hwraps⟩ := hregistered.wraps hunder hint
    have hfree : TypesFree name c :=
      ⟨hregistered.noEnum, hregistered.noStruct, hregistered.noBacking⟩
    have hfunctions : DeclaresAt bodySpan c₁
        (defineEnumFunctions name enumTy underlying linkage bodySpan) :=
      defineEnumFunctions_declaresAt name linkage hvalid hgrounded (hunder.mono hsteady) hwraps
    unfold DeclaresAt at hfunctions
    rw [hqueue] at hfunctions
    exact hfunctions.mono (fun _ _ h => ⟨hfree, h.2⟩) fun _ h => .inr ⟨hfree, h⟩

end Lower

end FormCompiler
