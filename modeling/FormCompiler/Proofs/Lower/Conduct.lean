import FormCompiler.Lower.TopLevel
import FormCompiler.Proofs.Lower.Coupling

/-!
# The Conduct of Definitions

A conduct that lasts while code is emitted, functions are declared and forms are offered governs the
parts of a definition, as far as it governs the expressions and the types in it.

* `Conduct.inside`: what a conduct of units asks of their context.
* `Lower.Checking`: conducts that last and end where a check fails. They govern types and the
  elements of enums.
* `Lower.Lasting`: conducts that last.

Whether a conduct governs an expression or a type depends on how deep these are followed, so it is a
hypothesis of the theorems about definitions.
-/

namespace FormCompiler

variable {σ α β : Type}

/-- What a conduct of units asks of the context while the rest of the unit stays. -/
def Conduct.inside (K : Conduct (Compilation σ)) (u : Compilation σ) : Conduct Context where
  Holds c := K.Holds (u.withContext c)
  Stops e c := K.Stops e (u.withContext c)

namespace Lower

/-- The conduct allows code to be emitted, checks of the source to fail and forms to be offered. -/
structure Checking (K : Conduct (Compilation σ)) : Prop where
  checks (u : Compilation σ) : Context.Checking (K.inside u)
  offer (node : NodeId) : K.Governs (offer node)

/-- The conduct also allows any error to be reported, and functions to be declared. -/
structure Lasting (K : Conduct (Compilation σ)) : Prop extends Checking K where
  context (u : Compilation σ) : Context.Lasting (K.inside u)
  checks := fun u => (context u).toChecking

variable {K : Conduct (Compilation σ)}

/-- A step on the context. -/
theorem onContext_governed {step : Check α} (h : ∀ u, (K.inside u).Governs step) :
    K.Governs (onContext step) := by
  intro u hu
  have hstep := h u u.context hu
  unfold onContext
  dsimp only
  cases hrun : step u.context with
  | ok a c => exact hstep.of_ok hrun
  | error e c => exact hstep.of_error hrun

/-- What is done afterwards in any case may turn a conduct into another one. -/
theorem ensuring_allowed {K' : Conduct (Compilation σ)} {x : Lower σ α} {after : StateM Context β}
    {u : Compilation σ} (hx : K.Allows (x u))
    (hok : ∀ u, K.Holds u → K'.Holds (u.withContext (after u.context).2))
    (herr : ∀ e u, K.Stops e u → K'.Stops e (u.withContext (after u.context).2)) :
    K'.Allows (ensuring x after u) := by
  rw [ensuring_run]
  cases hrun : x u with
  | ok a u' => exact hok u' (hx.of_ok hrun)
  | error e u' => exact herr e u' (hx.of_error hrun)

namespace Checking

variable (hK : Checking K)

include hK

/-! ## Checks -/

/-- A check of the source that fails. -/
theorem fail {d : Diagnostic} (hd : d.IsSource) : K.Governs (Lower.fail d : Lower σ α) :=
  onContext_governed fun u => (hK.checks u).fail hd

/-- A check that fails at a node. -/
theorem failAt (node : NodeId) {d : Span → Diagnostic} (hd : ∀ place, (d place).IsSource) :
    K.Governs (do Lower.fail (d (← span node)) : Lower σ α) := .read fun _ _ => hK.fail (hd _)

/-- A check that fails at a node, and shows something of the unit. -/
theorem failShown (node : NodeId) (f : Compilation σ → String) {d : Span → String → Diagnostic}
    (hd : ∀ place text, (d place text).IsSource) :
    K.Governs (do Lower.fail (d (← span node) (← fun u => .ok (f u) u)) : Lower σ α) :=
  .read fun _ _ => .read fun _ _ => hK.fail (hd _ _)

/-- A step on the context that emits code. -/
theorem onState {step : StateM Context α} (h : Moves Context.Proceeds step) :
    K.Governs (Lower.onState step : Lower σ α) :=
  onContext_governed fun u => (hK.checks u).always h

/-- Offering a form. -/
theorem tryExpand (left : Nat) (node : NodeId) :
    K.Governs (Lower.tryExpand left node : Lower σ (Option NodeId)) := by
  unfold Lower.tryExpand
  split
  · exact .get fun _ _ => hK.failAt _ fun _ => rfl
  · refine .bind (hK.offer node) fun answer => ?_
    split
    · exact .pure _
    · exact .pure _
    · exact hK.failAt _ fun _ => rfl

/-! ## Shapes of forms and types -/

/-- A list is required. -/
theorem expectList (node : NodeId) (what : String) :
    K.Governs (Lower.expectList node what : Lower σ (List NodeId)) := by
  refine .read fun _ _ => ?_
  split
  · exact .pure _
  · exact hK.failShown _ _ fun _ _ => rfl

/-- A symbol is required. -/
theorem expectSymbol (node : NodeId) (what : String) :
    K.Governs (Lower.expectSymbol node what : Lower σ String) := by
  refine .read fun _ _ => ?_
  split
  · exact .pure _
  · exact hK.failShown _ _ fun _ _ => rfl

/-- A linkage word is required. -/
theorem expectLinkage (node : NodeId) :
    K.Governs (Lower.expectLinkage node : Lower σ Ir.Linkage) := by
  refine .read fun _ _ => ?_
  split
  · exact .pure _
  · exact hK.failShown _ _ fun _ _ => rfl

/-- A type, if its parts are governed below the bound. -/
theorem resolveTypeBelow_succ (bound : Nat) (node : NodeId)
    (h : ∀ u, K.Holds u → ∀ items, u.forest.kind node = .list items →
      ∀ part ∈ items, K.Governs (resolveTypeBelow bound part)) :
    K.Governs (resolveTypeBelow (bound + 1) node : Lower σ TypeId) := by
  refine .read fun u hu => ?_
  split
  · split
    · refine .read fun _ _ => .read fun _ _ => ?_
      split
      · exact .pure _
      · exact hK.failAt _ fun _ => rfl
    · exact hK.failShown _ _ fun _ _ => rfl
  next head pointee hkind =>
    refine .read fun _ _ => ?_
    split
    · exact .bind (h u hu _ hkind pointee (by simp)) fun t =>
        hK.onState (Context.pointerTo_proceeds t)
    · exact hK.failShown _ _ fun _ _ => rfl
  · exact hK.failShown _ _ fun _ _ => rfl

/-- Pairs of a name and a type. -/
theorem typedNames (hresolve : ∀ node, K.Governs (resolveType node)) (what : String)
    (done : List (String × TypeId)) (nodes : List NodeId) :
    K.Governs (Lower.typedNames what done nodes : Lower σ _) := by
  induction nodes generalizing done with
  | nil => exact .pure _
  | cons node nodes ih =>
    refine .bind (hK.expectList _ _) fun pair => ?_
    split
    · refine .bind (hK.expectSymbol _ _) fun name => ?_
      split
      · exact hK.failAt _ fun _ => rfl
      · exact .bind (hresolve _) fun t => ih _
    · exact hK.failAt _ fun _ => rfl

/-! ## Elements of enums -/

/-- A member that is added or refused. -/
theorem memberAdded (outcome : Except MemberError EnumBuilder) (node : NodeId) (name : String)
    (underlying : TypeId) :
    K.Governs (Lower.memberAdded outcome node name underlying : Lower σ EnumBuilder) := by
  unfold Lower.memberAdded
  split
  · exact .pure _
  · exact hK.failAt _ fun _ => rfl
  · exact hK.failShown _ _ fun _ _ => rfl

/-- The value of a literal. -/
theorem memberLiteral (node : NodeId) (text : String) (underlying : TypeId) :
    K.Governs (Lower.memberLiteral node text underlying : Lower σ Int) := by
  have hrange : K.Governs (failOutOfRange node text underlying : Lower σ Int) :=
    hK.failShown _ _ fun _ _ => rfl
  refine .read fun _ _ => .bind (hK.onState (Context.backendType_proceeds _)) fun ty =>
    .bind (hK.onState (Context.attempt_proceeds _)) fun outcome => ?_
  split
  · refine .read fun _ _ => ?_
    dsimp only
    split
    · exact .pure _
    · exact hrange
  · exact hrange
  · exact hK.failAt _ fun _ => rfl

/-- An element, if what it expands to is governed. -/
theorem element (underlying : TypeId) (left : Nat)
    {again : EnumBuilder → NodeId → Lower σ EnumBuilder}
    (hagain : left ≠ 0 → ∀ builder node, K.Governs (again builder node)) (builder : EnumBuilder)
    (node : NodeId) : K.Governs (Lower.element underlying left again builder node) := by
  have hnone : K.Governs (failElement node : Lower σ EnumBuilder) := hK.failShown _ _ fun _ _ => rfl
  refine .read fun _ _ => ?_
  split
  · exact hK.memberAdded _ _ _ _
  · exact hnone
  · split
    · exact .bind (hK.memberLiteral _ _ _) fun value => hK.memberAdded _ _ _ _
    · refine .bindOf (hK.tryExpand left node) fun answer u u' hrun => ?_
      split
      · exact hagain (tryExpand_left hrun) _ _
      · exact hnone

/-- An element with its expansions. -/
theorem elementWith (underlying : TypeId) (left : Nat) (builder : EnumBuilder) (node : NodeId) :
    K.Governs (Lower.elementWith underlying left builder node : Lower σ EnumBuilder) := by
  induction left generalizing builder node with
  | zero => exact hK.element underlying 0 (fun h => absurd rfl h) builder node
  | succ left ih => exact hK.element underlying (left + 1) (fun _ => ih) builder node

/-- The elements of an enum: after the first one that fails, none is looked at. -/
theorem elements (underlying : TypeId) (builder : EnumBuilder) (nodes : List NodeId) :
    K.Governs (Lower.elements underlying builder nodes : Lower σ EnumBuilder) := by
  induction nodes generalizing builder with
  | nil => exact .pure _
  | cons node nodes ih =>
    exact .get fun _ _ => .bind (hK.elementWith _ _ _ _) fun builder => ih builder

end Checking

namespace Lasting

variable (hK : Lasting K)

include hK

/-! ## Steps on units -/

/-- Stopping with a report. -/
theorem fail (d : Diagnostic) : K.Governs (Lower.fail d : Lower σ α) :=
  onContext_governed fun u => (hK.context u).fail d

/-- Stopping with a report about a node. -/
theorem failAt (node : NodeId) (d : Span → Diagnostic) :
    K.Governs (do Lower.fail (d (← span node)) : Lower σ α) := .read fun _ _ => hK.fail _

/-- Stopping with a report about a node that shows something of the unit. -/
theorem failShown (node : NodeId) (f : Compilation σ → String) (d : Span → String → Diagnostic) :
    K.Governs (do Lower.fail (d (← span node) (← fun u => .ok (f u) u)) : Lower σ α) :=
  .read fun _ _ => .read fun _ _ => hK.fail _

/-- An operation on the module whose refusal is reported at a place. -/
theorem emitAt (place : Span) (op : Ir.Build α) :
    K.Governs (onContext (Context.emit place op) : Lower σ α) :=
  onContext_governed fun u => (hK.context u).emitOr _ op

/-- An operation on the module whose refusal is reported at a node. -/
theorem emit (node : NodeId) (op : Ir.Build α) : K.Governs (Lower.emit node op : Lower σ α) :=
  .read fun _ _ => hK.emitAt _ op

/-! ## Enums and structs -/

/-- The declaration of an enum, if registering is governed. -/
theorem defineEnum
    (hregister : ∀ u name builder linkage underlying nameSpan bodySpan, (K.inside u).Governs
      (registerEnum name builder linkage underlying nameSpan bodySpan))
    (hresolve : ∀ node, K.Governs (resolveType node)) (nameNode : NodeId) (name : String)
    (body : NodeId) (parts : List NodeId) :
    K.Governs (Lower.defineEnum nameNode name body parts) := by
  unfold Lower.defineEnum
  split
  · refine .bind (hK.expectLinkage _) fun linkage => .bind (hresolve _) fun underlying =>
      .read fun _ _ => ?_
    split
    · exact hK.failShown _ _ _
    · refine .bind (hK.expectList _ _) fun nodes => .read fun _ _ => ?_
      split
      · exact hK.failAt _ _
      · exact .read fun _ _ => .bind (hK.elements _ _ _) fun builder => .read fun _ _ =>
          .read fun _ _ => onContext_governed fun u => hregister u _ _ _ _ _ _
  · exact hK.failAt _ _

/-- The declaration of a struct, if registering is governed. -/
theorem defineStruct
    (hregister : ∀ u name members linkage nameSpan,
      (K.inside u).Governs (registerStruct name members linkage nameSpan))
    (hresolve : ∀ node, K.Governs (resolveType node)) (nameNode : NodeId) (name : String)
    (body : NodeId) (parts : List NodeId) :
    K.Governs (Lower.defineStruct nameNode name body parts) := by
  unfold Lower.defineStruct
  split
  · exact .bind (hK.expectLinkage _) fun linkage => .bind (hK.expectList _ _) fun nodes =>
      .bind (hK.typedNames hresolve _ _ _) fun members => .read fun _ _ =>
      onContext_governed fun u => hregister u _ _ _ _
  · exact hK.failAt _ _

/-! ## Functions -/

/-- Storing the parameters of a function. -/
theorem spillParams (b : Ir.BlockId) (index : Nat) (frame : Frame) (params : List (Param × Span)) :
    K.Governs (Lower.spillParams b index frame params : Lower σ Frame) := by
  induction params generalizing index frame with
  | nil => exact .pure _
  | cons param rest ih =>
    refine .read fun _ _ => ?_
    split
    · exact hK.fail _
    · exact .bind (hK.onState (Context.backendType_proceeds _)) fun ty =>
        .bind (hK.emitAt _ _) fun slot => ih _ _

section

variable (hdrop : ∀ r, K.Governs (drop r : Lower σ Ir.BlockId))

include hdrop

omit hK in
/-- The forms of a body: after the first one that fails, none is processed. -/
theorem bodyForms {frame : Frame}
    (hprocess : ∀ b node, K.Governs (process frame b node : Lower σ Result)) (b : Ir.BlockId)
    (first : NodeId) (rest : List NodeId) :
    K.Governs (Lower.bodyForms frame b first rest : Lower σ (NodeId × Result)) := by
  induction rest generalizing b first with
  | nil => exact .bind (hprocess b first) fun r => .pure _
  | cons next rest ih =>
    exact .bind (hprocess b first) fun r => .bind (hdrop r) fun b => ih b next

/-- Returning a result. -/
theorem returnResult (returnType : TypeId) (last : NodeId) (r : Result) :
    K.Governs (Lower.returnResult returnType last r : Lower σ PUnit) := by
  refine .read fun _ _ => ?_
  split
  · exact .bind (hdrop r) fun b => hK.emit _ _
  · split
    · exact .read fun _ _ => .read fun _ _ => .read fun _ _ => hK.fail _
    · exact hK.emit _ _

/-- The body of a function. -/
theorem body
    (hprocess : ∀ frame b node, K.Governs (process frame b node : Lower σ Result))
    (func : Ir.FuncId) (params : List (Param × Span)) (returnType : TypeId) (first : NodeId)
    (rest : List NodeId) :
    K.Governs (Lower.body func params returnType first rest : Lower σ PUnit) :=
  .bind (hK.onState (Context.onModule_proceeds _)) fun _ =>
    .bind (hK.spillParams _ _ _ _) fun _ =>
    .bind (bodyForms hdrop (hprocess _) _ _ _) fun _ => hK.returnResult hdrop _ _ _

/-- The declaration of a function, if the conduct also lets code follow the body where it stops. -/
theorem defineFunction
    (hprocess : ∀ frame b node, K.Governs (process frame b node : Lower σ Result))
    (hresolve : ∀ node, K.Governs (resolveType node))
    (hstopped : ∀ e u c, K.Stops e u → u.context.Proceeds c → K.Stops e (u.withContext c))
    (nameNode : NodeId) (name : String) (bodyNode : NodeId) (parts : List NodeId) :
    K.Governs (Lower.defineFunction nameNode name bodyNode parts) := by
  unfold Lower.defineFunction
  split
  · refine .bind (hK.expectLinkage _) fun linkage => .bind (hresolve _) fun returnType =>
      .bind (hK.expectList _ _) fun paramNodes => .bind (hK.typedNames hresolve _ _ _) fun named =>
      .read fun _ _ => .bind (onContext_governed fun u => (hK.context u).declareFunction _ _ _ _ _)
        fun func => ?_
    split
    · exact .pure _
    · have hfinish := Context.onModule_proceeds (Ir.Module.finishFunction func)
      exact .read fun _ _ => fun u hu =>
        ensuring_allowed (hK.body hdrop hprocess _ _ _ _ _ u hu)
          (fun u hu => (hK.context u).proceeds hu (hfinish u.context))
          fun e u hu => hstopped e u _ hu (hfinish u.context)
  · exact hK.failAt _ _

end

end Lasting

/-! ## Definitions -/

section

variable (hK : Lasting K)
  (henum : ∀ nameNode name body parts, K.Governs (defineEnum nameNode name body parts))

include hK henum

/-- A definition is allowed if what it defines is. The declaration of a function begins in the unit
that the definition is met in. -/
theorem definition_allowed
    (hstruct : ∀ nameNode name body parts, K.Governs (defineStruct nameNode name body parts))
    (node : NodeId) (arguments : List NodeId) {u : Compilation σ} (hu : K.Holds u)
    (hfunction : ∀ nameNode name body parts,
      K.Allows (defineFunction nameNode name body parts u)) :
    K.Allows (definition node arguments u) := by
  unfold definition
  split
  next nameNode body =>
    refine (hK.expectSymbol _ _ u hu).bind fun name u₁ hrun _ => ?_
    obtain ⟨-, rfl⟩ := (expectSymbol_ends nameNode _ u).of_ok hrun
    refine (hK.expectList _ _ u hu).bind fun items u₁ hrun _ => ?_
    obtain ⟨-, rfl⟩ := (expectList_ends body _ u).of_ok hrun
    dsimp only
    -- the word is `none` for an empty list, and read for any other
    split
    all_goals
      refine .next rfl ?_
      split
      · exact henum _ _ _ _ u hu
      split
      · exact hstruct _ _ _ _ u hu
      split
      · exact hfunction _ _ _ _
      · exact hK.failShown _ _ _ u hu
  next => exact hK.failAt _ _ u hu

/-- A definition that is taken for that of an enum. -/
theorem declareEnum_governed (node : NodeId) : K.Governs (declareEnum node) := by
  refine .bind (hK.expectList _ _) fun items => ?_
  dsimp only
  -- as for a definition
  split
  all_goals
    refine .bind (fun _ hu => hu) fun word? => ?_
    split
    · split
      · exact .bind (hK.expectSymbol _ _) fun name => .bind (hK.expectList _ _) fun parts =>
          henum _ _ _ _
      · exact hK.failAt _ _
    · exact hK.failShown _ _ _

end

end Lower

end FormCompiler
