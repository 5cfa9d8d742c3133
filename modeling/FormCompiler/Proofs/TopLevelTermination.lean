import FormCompiler.Proofs.ErrorReporting
import FormCompiler.Proofs.Lower.Finishing
import FormCompiler.Proofs.Termination

/-!
# Rewrites of Top-Level Forms

A top-level form is rewritten as often as its unit allows, and then refused. The forms inside a
namespace form are processed with all rewrites left, also if the namespace form is what a form was
rewritten to. So the limit bounds the rewrites along a chain of nested calls only since the last
namespace was entered, and it bounds them all, and the processing terminates, if the expander puts
no namespace form in the place of another form.

* `Dispatch.Leads`: chains of nested calls.
* `Expander.Flat`: no form is rewritten to a namespace form.
* `topLevel_terminates`: the bound, and termination, for flat expanders.
* `not_bounded_unfoldingUnit`: a macro that gives a namespace form with the macro inside goes on for
  ever.
-/

namespace FormCompiler

variable {σ : Type}

/-- The expander puts no namespace form in the place of a form that is none. -/
def Expander.Flat (e : Expander σ) : Prop :=
  ∀ memory f node result, Lower.namespace? f node = Option.none →
    (e memory f node).1 = .expanded result →
      Lower.namespace? (e memory f node).2.2 result = Option.none

/-- Rules that keep the forms they are about give no namespace forms. -/
theorem Rule.expander_flat {rules : List Rule} (h : ∀ rule ∈ rules, rule.action = .keep) :
    (Rule.expander rules).Flat := by
  intro memory f node result hnode hanswer
  unfold Rule.expander at hanswer ⊢
  split at hanswer
  next => cases hanswer
  next items hitems =>
    dsimp only
    split at hanswer
    next => cases hanswer
    next rule hrule =>
      have happly : rule.apply f node items = (.expanded node, f) := by
        rw [Rule.apply, h rule (List.mem_of_find?_eq_some hrule)]
      rw [happly] at hanswer ⊢
      cases hanswer
      exact hnode

/-- What top-level forms find and leave in a unit that began as another one. -/
def Compilation.Standing (o : Compilation σ) : Compilation σ → Prop :=
  o.Founded fun c => c.Valid ∧ c.Placed

/-- The forms in a namespace form stand before it. -/
theorem Forest.WellBuilt.namespace?_lt {f : Forest} (hf : f.WellBuilt) {node : NodeId}
    {name : String} {nodes : List NodeId} (h : Lower.namespace? f node = some (name, nodes)) :
    ∀ part ∈ nodes, part.index < node.index := by
  unfold Lower.namespace? at h
  split at h
  next head nameNode nodes' hitems =>
    split at h
    next =>
      obtain ⟨_, -, heq⟩ := Option.map_eq_some_iff.1 h
      cases heq
      intro part hpart
      exact hf node _ (Forest.items?_eq_some.1 hitems) part (by simp [hpart])
    next => cases h
  next => cases h

/-- A namespace may be entered. -/
theorem Compilation.Standing.entering {o u : Compilation σ} (hu : o.Standing u) (name : String) :
    o.Standing (u.entering name) :=
  ⟨hu.expander, hu.limit, hu.forest, (Context.enter_safe name u.context hu.context.1).1,
    hu.context.2.enter hu.context.1 name⟩

namespace Lower

/-! ## Chains of calls -/

/-- A top-level form that is processed in a unit with a number of rewrites left. -/
structure Dispatch (σ : Type) where
  left : Nat
  node : NodeId
  unit : Compilation σ

namespace Dispatch

/-- A form that is processed by itself, or as one of a list. -/
def start (node : NodeId) (u : Compilation σ) : Dispatch σ := ⟨u.maxExpansions, node, u⟩

/-- Processing the first form calls for processing the second one: the first one is rewritten to the
second one, or is a namespace form with the second one in it, after other forms that were processed.
-/
inductive Calls : Call → Dispatch σ → Dispatch σ → Prop
  | rewritten {left : Nat} {node result : NodeId} {u u' : Compilation σ}
      (h : rewrite? node u = some (result, u')) :
      Calls (.rewritten result) ⟨left + 1, node, u⟩ ⟨left, result, u'⟩
  | part {left : Nat} {node part : NodeId} {name : String} {before after : List NodeId}
      {u u' : Compilation σ} (h : namespace? u.forest node = some (name, before ++ part :: after))
      (hbefore : processAll before (u.entering name) = .ok ⟨⟩ u' ∨
        processAll before (u.entering name) = .error .reported u') :
      Calls (.part part) ⟨left, node, u⟩ (start part u')

/-- A chain of nested calls leads from the first form to the second one. The innermost call stands
first. -/
inductive Leads (d : Dispatch σ) : List Call → Dispatch σ → Prop
  | here : Leads d [] d
  | call {call : Call} {chain : List Call} {d' d'' : Dispatch σ} (h : Leads d chain d')
      (hcall : Calls call d' d'') : Leads d (call :: chain) d''

end Dispatch

/-! ## Forms that are rewritten -/

section

variable {o u u' : Compilation σ} {node result : NodeId}

/-- What a form is rewritten to by a flat expander is no namespace form. -/
theorem namespace?_of_rewrite? (hflat : u.expander.Flat)
    (h : rewrite? node u = some (result, u')) : namespace? u'.forest result = none := by
  obtain ⟨hanswer, rfl⟩ := rewrite?_eq_some h
  exact hflat _ _ _ _ (rewrite?_offered h).2 hanswer

/-- The unit that a form was rewritten in. -/
theorem standing_of_rewrite? (ho : o.expander.Builds) (hu : o.Standing u)
    (h : rewrite? node u = some (result, u')) : o.Standing u' :=
  (offer_finishes ho node u hu).of_ok (rewrite?_offered h).1

/-- The unit that a form was rewritten in any number of times, and what is known if there is a
namespace form then. -/
theorem settled_standing (ho : o.expander.Builds) (hflat : o.expander.Flat) (left : Nat)
    (node : NodeId) (u : Compilation σ) (hu : o.Standing u) :
    o.Standing (settled left node u).2 ∧
      (settled left node u = (node, u) ∨ namespace? (settled left node u).2.forest
        (settled left node u).1 = none) := by
  induction left generalizing node u with
  | zero => exact ⟨hu, .inl rfl⟩
  | succ left ih =>
    unfold settled
    split
    next result u' h =>
      obtain ⟨hstanding, hsettled⟩ := ih result u' (standing_of_rewrite? ho hu h)
      refine ⟨hstanding, .inr (hsettled.elim (fun heq => ?_) id)⟩
      rw [heq]
      exact namespace?_of_rewrite? (hu.expander ▸ hflat) h
    next => exact ⟨hu, .inl rfl⟩

end

/-! ## Top-level forms -/

section

variable {o : Compilation σ} (ho : o.expander.Builds)

/-- Development keeps what top-level forms find. -/
theorem standing_of_develops {α : Type} {x : Lower σ α} {u : Compilation σ}
    (hkeeps : Keeps Compilation.Develops x) (hu : o.Standing u)
    (h : (Conduct.ending (o.Founded fun _ => True)).Allows (x u)) :
    (Conduct.ending o.Standing).Allows (x u) := by
  obtain ⟨hvalid, hplaced⟩ := hu.context
  have hcontext : ∀ {u' : Compilation σ}, u.Develops u' → u'.context.Valid ∧ u'.context.Placed :=
    fun h => ⟨(h.safe hvalid).1, Reachable.placed_of_develops hvalid hplaced h⟩
  exact h.mono (fun _ _ hrun h => ⟨h.expander, h.limit, h.forest, hcontext (hkeeps.ok hrun)⟩)
    fun _ _ hrun h =>
      ⟨h.1, h.2.expander, h.2.limit, h.2.forest, hcontext ((hkeeps u).of_error hrun)⟩

/-- A list of forms comes to an end if every form in it does. -/
theorem every_finishes {P : Compilation σ → Prop} {step : NodeId → Lower σ PUnit}
    {nodes : List NodeId} (h : ∀ node ∈ nodes, (Conduct.ending P).Governs (step node)) :
    (Conduct.ending P).Governs (every step nodes) := by
  induction nodes with
  | nil => exact .pure _
  | cons node nodes ih =>
    intro u hu
    have hfirst := h node List.mem_cons_self u hu
    have hrest := ih fun n hn => h n (List.mem_cons_of_mem _ hn)
    unfold every
    cases hrun : step node u with
    | ok a u₁ => exact hrest u₁ (hfirst.of_ok hrun)
    | error e u₁ =>
      obtain ⟨rfl, hu₁⟩ := hfirst.of_error hrun
      -- the rest is processed in any case, and the failure is handed on
      have hafter := hrest u₁ hu₁
      dsimp only
      cases hrun' : every step nodes u₁ with
      | ok b u₂ => exact ⟨rfl, hafter.of_ok hrun'⟩
      | error e u₂ => exact hafter.of_error hrun'

include ho

/-- A form that is neither a namespace form nor rewritten comes to an end. -/
theorem topForm_concludes {inner : List NodeId → Lower σ PUnit} {again : NodeId → Lower σ PUnit}
    {left : Nat} {node : NodeId} {u : Compilation σ} (hu : o.Standing u)
    (hnamespace : namespace? u.forest node = none) (hrewrite : left ≠ 0 → rewrite? node u = none) :
    (Conduct.ending (o.Founded fun _ => True)).Allows (topForm inner left again node u) :=
  have hordered : o.Founded Context.Ordered u :=
    ⟨hu.expander, hu.limit, hu.forest, hu.context.2.ordered hu.context.1⟩
  topForm_allowed left (lasting_founded ho Context.lasting_true) hu.forget
    (fun arguments => definition_concludes ho node arguments hordered) hnamespace hrewrite

/-- With a flat expander, a form comes to an end if the bound is above its id. -/
theorem topFormBelow_finishes (hflat : o.expander.Flat) (depth : Nat) (node : NodeId)
    (hnode : node.index < depth) :
    (Conduct.ending o.Standing).Governs (topFormBelow depth node) := by
  induction depth generalizing node with
  | zero => exact absurd hnode (Nat.not_lt_zero _)
  | succ depth ih =>
    intro u hu
    refine standing_of_develops (topLevel_develops.topFormBelow_keeps (depth + 1) node) hu ?_
    have hrun : topFormBelow (depth + 1) node u =
        topFormWith (every (topFormBelow depth)) u.maxExpansions node u := rfl
    obtain ⟨left', again, hlast, hsettled⟩ :=
      topFormWith_settled (every (topFormBelow depth)) u.maxExpansions node u
    obtain ⟨hstanding, hcase⟩ := settled_standing ho hflat u.maxExpansions node u hu
    rw [hrun, hsettled]
    cases hnamespace : namespace? (settled u.maxExpansions node u).2.forest
        (settled u.maxExpansions node u).1 with
    | none => exact topForm_concludes ho hstanding hnamespace hlast
    | some found =>
      obtain ⟨name, nodes⟩ := found
      have hsame := hcase.resolve_right (by simp [hnamespace])
      rw [topForm_namespace left' hnamespace]
      rw [hsame] at hnamespace ⊢
      -- the forms in the namespace stand before the namespace form
      have hinside : (Conduct.ending o.Standing).Allows
          (every (topFormBelow depth) nodes (u.entering name)) := by
        refine every_finishes (fun part hpart => ih part ?_) _ (hu.entering name)
        have hbefore : part.index < node.index := hu.forest.namespace?_lt hnamespace part hpart
        omega
      exact ensuring_allowed hinside
        (fun u' hu' => ⟨hu'.expander, hu'.limit, hu'.forest, trivial⟩)
        fun _ u' hu' => ⟨hu'.1, hu'.2.expander, hu'.2.limit, hu'.2.forest, trivial⟩

end

/-! ## The bound -/

/-- How many rewrites were applied along a chain since a namespace was entered last. -/
def rewritesSince : List Call → Nat
  | .rewritten _ :: chain => rewritesSince chain + 1
  | _ => 0

/-- Since a namespace was entered last, the rewrites along a chain and those that are left are as
many as the unit allows. -/
theorem Dispatch.Leads.rewritesSince {u : Compilation σ} {node : NodeId} {chain : List Call}
    {d : Dispatch σ} (h : (Dispatch.start node u).Leads chain d) :
    rewritesSince chain + d.left = d.unit.maxExpansions := by
  induction h with
  | here => exact Nat.zero_add _
  | call _ hcall ih =>
    cases hcall with
    | @rewritten left node result u u' hrewrite =>
      have hlimit : u'.maxExpansions = u.maxExpansions := by
        rw [(rewrite?_eq_some hrewrite).2]
      change Lower.rewritesSince _ + (left + 1) = u.maxExpansions at ih
      change Lower.rewritesSince _ + 1 + left = u'.maxExpansions
      omega
    | part => exact Nat.zero_add _

/-- What holds of a form that is processed in a chain of calls, with a flat expander. -/
structure Dispatch.Flat (o : Compilation σ) (chain : List Call) (d : Dispatch σ) : Prop where
  standing : o.Standing d.unit
  exact : rewritesOf chain + d.left = o.maxExpansions
  original : rewritesOf chain = 0 → d.node.index < maxNamespaceDepth
  flat : rewritesOf chain ≠ 0 → namespace? d.unit.forest d.node = none

/-- With a flat expander, namespaces are entered before the first rewrite only. -/
theorem Dispatch.Flat.calls {o : Compilation σ} (ho : o.expander.Builds) (hflat : o.expander.Flat)
    {chain : List Call} {call : Call} {d d' : Dispatch σ} (h : d.Flat o chain)
    (hcall : Calls call d d') : d'.Flat o (call :: chain) := by
  cases hcall with
  | rewritten hrewrite =>
    have hexact := h.exact
    refine ⟨standing_of_rewrite? ho h.standing hrewrite, ?_, ?_, fun _ => ?_⟩
    · rw [rewritesOf_cons, Call.rewrites]
      dsimp only at hexact ⊢
      omega
    · rw [rewritesOf_cons, Call.rewrites]
      omega
    · exact namespace?_of_rewrite? (h.standing.expander ▸ hflat) hrewrite
  | @part left node part name before after u u' hnamespace hbefore =>
    -- a namespace form was not made by a rewrite, since a flat expander makes none
    have hzero : rewritesOf chain = 0 := by
      by_contra hne
      rw [h.flat hne] at hnamespace
      cases hnamespace
    have hnode : node.index < maxNamespaceDepth := h.original hzero
    have hbelow := h.standing.forest.namespace?_lt hnamespace
    have hfinishes : (Conduct.ending o.Standing).Allows (processAll before (u.entering name)) := by
      refine every_finishes (fun n hn => topFormBelow_finishes ho hflat _ n ?_) _
        (h.standing.entering name)
      exact Nat.lt_trans (hbelow n (by simp [hn])) hnode
    have hstanding : o.Standing u' := hbefore.elim (fun hrun => hfinishes.of_ok hrun)
      fun hrun => (hfinishes.of_error hrun).2
    have hrewrites : rewritesOf (.part part :: chain) = 0 := by
      rw [rewritesOf_cons, Call.rewrites, hzero]
    refine ⟨hstanding, ?_, fun _ => ?_, fun hne => absurd hrewrites hne⟩
    · rw [hrewrites, Nat.zero_add]
      exact hstanding.limit
    · exact Nat.lt_trans (hbelow part (by simp)) hnode

/-- **Processing a top-level form terminates** if macros give no namespace forms, also for a macro
that keeps producing itself, and along any chain of nested calls no more rewrites are applied than
the unit allows. Namespace forms nest at most as deep as the id of the form says. -/
theorem topLevel_terminates {u : Compilation σ} (hu : Reachable u) (hforest : u.forest.WellBuilt)
    (hexpander : u.expander.Builds) (hflat : u.expander.Flat) (node : NodeId)
    (hnode : node.index < maxNamespaceDepth) :
    Concludes (fun u' => u'.maxExpansions = u.maxExpansions) (processTopLevel node) u ∧
      ∀ chain d, (Dispatch.start node u).Leads chain d → rewritesOf chain ≤ u.maxExpansions := by
  have hstanding : u.Standing u := ⟨rfl, rfl, hforest, hu.valid, hu.placed⟩
  constructor
  · exact concludes_iff.2 ((topFormBelow_finishes hexpander hflat _ node hnode u hstanding).mono
      (fun _ _ _ h => h.limit) fun _ _ _ h => ⟨h.1, h.2.limit⟩)
  · intro chain d hleads
    have hd : d.Flat u chain := by
      induction hleads with
      | here => exact ⟨hstanding, Nat.zero_add _, fun _ => hnode, fun hne => absurd rfl hne⟩
      | call _ hcall ih => exact ih.calls hexpander hflat hcall
    have hexact := hd.exact
    omega

/-- A macro that keeps its form is applied 128 times at most. -/
theorem topLevel_terminates_runawayUnit :
    Reachable runawayUnit ∧ runawayUnit.forest.WellBuilt ∧ runawayUnit.expander.Builds ∧
      runawayUnit.expander.Flat ∧ (⟨1⟩ : NodeId).index < maxNamespaceDepth ∧
      (Concludes (fun u' => u'.maxExpansions = 128) (processTopLevel ⟨1⟩) runawayUnit ∧
        ∀ chain d, (Dispatch.start ⟨1⟩ runawayUnit).Leads chain d → rewritesOf chain ≤ 128) := by
  have hreachable : Reachable runawayUnit :=
    Reachable.forest runawayUnit.forest (.start .standard runawayUnit.expander ⟨⟩)
  have hforest : runawayUnit.forest.WellBuilt := by decide
  have hexpander : runawayUnit.expander.Builds := Rule.expander_builds _
  have hflat : runawayUnit.expander.Flat := Rule.expander_flat fun rule hrule => by
    rw [List.eq_of_mem_singleton hrule]
  exact ⟨hreachable, hforest, hexpander, hflat, by decide,
    topLevel_terminates hreachable hforest hexpander hflat ⟨1⟩ (by decide)⟩

/-! ## Macros that give namespace forms -/

/-- A unit with the form `(m)` at node 3, for an expander that answers every form with
`(namespace a (m))`. -/
def unfoldingUnit : Compilation PUnit where
  forest :=
    let f := (Forest.empty.pushToken .symbol "m" .dummy).2
    let f := (f.pushToken .symbol "namespace" .dummy).2
    let f := (f.pushToken .symbol "a" .dummy).2
    let f := (f.pushList [⟨0⟩] .dummy).2
    (f.pushList [⟨1⟩, ⟨2⟩, ⟨3⟩] .dummy).2
  context := .start .standard
  memory := ⟨⟩
  expander := fun memory forest _ => (.expanded ⟨4⟩, memory, forest)
  maxExpansions := 1

/-- The form is rewritten to the namespace form in any context. -/
theorem rewrite?_unfoldingUnit (c : Context) :
    rewrite? ⟨3⟩ (unfoldingUnit.withContext c) = some (⟨4⟩, unfoldingUnit.withContext c) := by
  have hitems : unfoldingUnit.forest.items? ⟨3⟩ = some [⟨0⟩] := by decide +kernel
  have hword : unfoldingUnit.forest.symbol? ⟨0⟩ = some "m" := by decide +kernel
  unfold rewrite?
  rw [Compilation.forest_withContext, hitems]
  dsimp only
  rw [hword, if_neg (by decide)]
  rfl

/-- The namespace form holds the form. -/
theorem namespace?_unfoldingUnit (c : Context) : namespace? (unfoldingUnit.withContext c).forest
    ⟨4⟩ = some ("a", [⟨3⟩]) := by
  rw [Compilation.forest_withContext]
  decide +kernel

/-- A form that is not followed to its end stops the list. -/
theorem every_unfinished {step : NodeId → Lower σ PUnit} {node : NodeId} {nodes : List NodeId}
    {u u' : Compilation σ} (h : step node u = .error .unfinished u') :
    every step (node :: nodes) u = .error .unfinished u' := by
  unfold every
  rw [h]

/-- The form is not followed to its end, however deep namespaces may nest. -/
theorem topFormBelow_unfoldingUnit (depth : Nat) (c : Context) :
    ∃ u, topFormBelow depth ⟨3⟩ (unfoldingUnit.withContext c) = .error .unfinished u := by
  induction depth generalizing c with
  | zero => exact ⟨_, rfl⟩
  | succ depth ih =>
    obtain ⟨u, hu⟩ := ih (Context.enter "a" c).2
    refine ⟨u.withContext (Context.leave u.context).2, ?_⟩
    calc topFormBelow (depth + 1) ⟨3⟩ (unfoldingUnit.withContext c)
        = topFormWith (every (topFormBelow depth)) 1 ⟨3⟩ (unfoldingUnit.withContext c) := rfl
      _ = topFormWith (every (topFormBelow depth)) 0 ⟨4⟩ (unfoldingUnit.withContext c) :=
        topForm_rewrite 0 (rewrite?_unfoldingUnit c)
      _ = ensuring (every (topFormBelow depth) [⟨3⟩]) Context.leave
          (unfoldingUnit.withContext (Context.enter "a" c).2) :=
        topForm_namespace 0 (namespace?_unfoldingUnit c)
      _ = .error .unfinished (u.withContext (Context.leave u.context).2) := by
        rw [ensuring_run, every_unfinished hu]

/-- Any number of rewrites are applied along some chain of calls that leads back to the form. -/
theorem leads_unfoldingUnit (number : Nat) : ∃ chain c,
    (Dispatch.start ⟨3⟩ unfoldingUnit).Leads chain
      (Dispatch.start ⟨3⟩ (unfoldingUnit.withContext c)) ∧ rewritesOf chain = number := by
  induction number with
  | zero => exact ⟨[], _, .here, rfl⟩
  | succ number ih =>
    obtain ⟨chain, c, hleads, hnumber⟩ := ih
    have hinside : namespace? (unfoldingUnit.withContext c).forest ⟨4⟩ =
        some ("a", [] ++ ⟨3⟩ :: []) := namespace?_unfoldingUnit c
    refine ⟨.part ⟨3⟩ :: .rewritten ⟨4⟩ :: chain, (Context.enter "a" c).2,
      (hleads.call (.rewritten (rewrite?_unfoldingUnit c))).call (.part hinside (.inl rfl)), ?_⟩
    rw [rewritesOf_cons, rewritesOf_cons, hnumber, Call.rewrites, Call.rewrites]
    omega

/-- **The limit does not bound macros that give namespace forms.** For a macro that gives a
namespace form with its own call inside, processing does not terminate, and more rewrites are
applied along a chain of calls than the unit allows. -/
theorem not_bounded_unfoldingUnit :
    (¬ ∃ depth, Concludes (fun _ => True) (topFormBelow depth ⟨3⟩) unfoldingUnit) ∧
      ∃ chain d, (Dispatch.start ⟨3⟩ unfoldingUnit).Leads chain d ∧
        unfoldingUnit.maxExpansions < rewritesOf chain := by
  constructor
  · rintro ⟨depth, hconcludes⟩
    obtain ⟨u, hu⟩ := topFormBelow_unfoldingUnit depth unfoldingUnit.context
    cases ((concludes_iff.1 hconcludes).of_error hu).1
  · obtain ⟨chain, c, hleads, hnumber⟩ := leads_unfoldingUnit 2
    exact ⟨chain, _, hleads, hnumber ▸ Nat.lt_succ_self 1⟩

end Lower

end FormCompiler
