import FormCompiler.Proofs.Lower.Reporting

/-!
# Every Failure Is Reported Once

The count of errors says how many forms failed. An expression, a type, a cleanup or a definition
that gives a result leaves the count alone, and one that fails raises it by one. Top-level forms
that fail do not stop the forms after them, so a list of them raises it by the number of those that
failed, where a namespace form stands for the forms in it.

* `CountsOnce`: at most one error, and one exactly if there is no result.
* `CountsAll`: a number of errors, and none exactly if there is a result.
* `contents?`: the forms inside the namespace that a top-level form leads into, if it is a namespace
  form or rewritten to one. A malformed namespace form leads into no namespace.
* `failures`: how many forms of a list fail that do not lead into a namespace, at any depth.
-/

namespace FormCompiler

variable {σ α : Type}

/-- The step raises the count of errors by one if it fails, and leaves it alone if it gives a
result. A step that is not followed to its end does neither. -/
def CountsOnce (queue : σ → Queue) (x : EStateM Halt σ α) (s : σ) : Prop :=
  match x s with
  | .ok _ s' => (queue s').errorCount = (queue s).errorCount
  | .error .reported s' => (queue s').errorCount = (queue s).errorCount + 1
  | .error .unfinished _ => True

/-- The step raises the count of errors by a number, and it fails exactly if the count rose. -/
def CountsAll (queue : σ → Queue) (x : EStateM Halt σ α) (s : σ) (number : Nat) : Prop :=
  match x s with
  | .ok _ s' => (queue s').errorCount = (queue s).errorCount + number ∧
      ¬ (queue s).errorCount < (queue s').errorCount
  | .error .reported s' => (queue s').errorCount = (queue s).errorCount + number ∧
      (queue s).errorCount < (queue s').errorCount
  | .error .unfinished _ => True

/-- What reports once counts once. -/
theorem countsOnce_of_reports {queue : σ → Queue} {x : EStateM Halt σ α} {s : σ}
    (h : (reporting queue (queue s)).Allows (x s)) : CountsOnce queue x s := by
  unfold CountsOnce
  match hrun : x s with
  | .ok _ s' => exact congrArg Queue.errorCount (h.of_ok hrun)
  | .error .reported s' =>
    obtain ⟨d, hd⟩ := h.of_error hrun
    exact (congrArg Queue.errorCount hd).trans (Queue.errorCount_emitError _ d)
  | .error .unfinished s' => trivial

/-- The unit inside a namespace. -/
def Compilation.entering (u : Compilation σ) (name : String) : Compilation σ :=
  u.withContext (Context.enter name u.context).2

namespace Lower

/-! ## Where a top-level form leads -/

/-- The form that the expander puts in the place of a top-level form, and the unit then. Namespace
forms and definitions are not offered. -/
def rewrite? (node : NodeId) (u : Compilation σ) : Option (NodeId × Compilation σ) :=
  match u.forest.items? node with
  | some (head :: _) =>
    if u.forest.symbol? head = some "namespace" ∨ u.forest.symbol? head = some "def" then none
    else
      match offer node u with
      | .ok (.expanded result) u' => some (result, u')
      | _ => none
  | _ => none

/-- What a form is rewritten to with a number of expansions left, and the unit then. -/
def settled : (left : Nat) → NodeId → Compilation σ → NodeId × Compilation σ
  | 0, node, u => (node, u)
  | left + 1, node, u =>
    match rewrite? node u with
    | some (result, u') => settled left result u'
    | none => (node, u)

/-- The name and the forms of a namespace form. -/
def namespace? (f : Forest) (node : NodeId) : Option (String × List NodeId) :=
  match f.items? node with
  | some (head :: nameNode :: nodes) =>
    if f.symbol? head = some "namespace" then (f.symbol? nameNode).map (·, nodes) else none
  | _ => none

/-- The forms in the namespace that a form leads into with a number of expansions left, and the unit
inside that namespace. -/
def contentsWith? (left : Nat) (node : NodeId) (u : Compilation σ) :
    Option (List NodeId × Compilation σ) :=
  let (form, u') := settled left node u
  (namespace? u'.forest form).map fun (name, nodes) => (nodes, u'.entering name)

/-- The forms in the namespace that a top-level form leads into, and the unit inside it. -/
def contents? (node : NodeId) (u : Compilation σ) : Option (List NodeId × Compilation σ) :=
  contentsWith? u.maxExpansions node u

/-! ## Counting the forms that fail -/

/-- The step fails. -/
def fails (x : Lower σ α) (u : Compilation σ) : Bool :=
  match x u with
  | .error .reported _ => true
  | _ => false

/-- How many forms fail in a list that is processed by `step`, if `count` says it of one form. -/
def failuresIn (count : NodeId → Compilation σ → Nat) (step : NodeId → Lower σ PUnit) :
    List NodeId → Compilation σ → Nat
  | [], _ => 0
  | node :: nodes, u => count node u + failuresIn count step nodes (final (step node) u)

/-- How many forms fail in a top-level form in which namespace forms nest less than `depth` deep:
the form itself, unless it leads into a namespace. -/
def formFailures : (depth : Nat) → NodeId → Compilation σ → Nat
  | 0, _, _ => 0
  | depth + 1, node, u =>
    match contents? node u with
    | some (nodes, u') => failuresIn (formFailures depth) (topFormBelow depth) nodes u'
    | none => (fails (topFormBelow (depth + 1) node) u).toNat

/-- How many forms of a list fail that do not lead into a namespace, at any depth. -/
def failures (depth : Nat) (nodes : List NodeId) (u : Compilation σ) : Nat :=
  failuresIn (formFailures depth) (topFormBelow depth) nodes u

/-! ## One top-level form -/

section

variable {inner : List NodeId → Lower σ PUnit} {again : NodeId → Lower σ PUnit} {node : NodeId}
  {u u' : Compilation σ} (left : Nat)

/-- A namespace form processes its contents inside the namespace. -/
theorem topForm_namespace {name : String} {nodes : List NodeId}
    (h : namespace? u.forest node = some (name, nodes)) :
    topForm inner left again node u =
      ensuring (inner nodes) Context.leave (u.entering name) := by
  unfold namespace? at h
  split at h
  next head nameNode nodes' hitems =>
    split at h
    next hword =>
      rw [Option.map_eq_some_iff] at h
      obtain ⟨name', hname, heq⟩ := h
      cases heq
      refine (bind_run (expectList_run hitems _)).trans ((bind_run rfl).trans ?_)
      rw [if_pos hword]
      exact (bind_run (expectSymbol_run hname _)).trans (bind_run rfl)
    next => cases h
  next => cases h

/-- A form that is rewritten goes on as what it is rewritten to. -/
theorem topForm_rewrite {result : NodeId} (h : rewrite? node u = some (result, u')) :
    topForm inner (left + 1) again node u = again result u' := by
  unfold rewrite? at h
  split at h
  next head arguments hitems =>
    split at h
    next => cases h
    next hword =>
      rw [not_or] at hword
      split at h
      next answer u'' hoffer =>
        cases h
        refine (bind_run (expectList_run hitems _)).trans ((bind_run rfl).trans ?_)
        rw [if_neg hword.1, if_neg hword.2]
        have htry : tryExpand (left + 1) node u = .ok (some result) u' := by
          rw [tryExpand, if_neg (Nat.succ_ne_zero left)]
          exact bind_run hoffer
        exact bind_run htry
      next => cases h
  next => cases h

/-- Any other form is a definition, a malformed namespace form, or nothing that has a meaning. It is
allowed if definitions are. -/
theorem topForm_allowed {K : Conduct (Compilation σ)} (hK : Lasting K) (hu : K.Holds u)
    (hdefinition : ∀ arguments, K.Allows (definition node arguments u))
    (hnamespace : namespace? u.forest node = none)
    (hrewrite : left ≠ 0 → rewrite? node u = none) :
    K.Allows (topForm inner left again node u) := by
  refine (hK.expectList node _ u hu).bind fun items u₁ hrun _ => ?_
  obtain ⟨hitems, rfl⟩ := (expectList_ends node _ u).of_ok hrun
  match items with
  | [] => exact hK.failAt node _ u hu
  | head :: arguments =>
    change K.Allows ((if u.forest.symbol? head = some "namespace" then _ else _ : Lower σ _) u)
    split
    next hword =>
      -- a namespace form with a name would have contents
      match arguments with
      | [] => exact hK.failAt node _ u hu
      | nameNode :: nodes =>
        refine (hK.expectSymbol nameNode _ u hu).bind fun name u₁ hrun _ => ?_
        obtain ⟨hname, rfl⟩ := (expectSymbol_ends nameNode _ u).of_ok hrun
        simp [namespace?, hitems, hword, hname] at hnamespace
    next hword =>
      split
      next => exact hdefinition arguments
      next hdef =>
        refine (hK.tryExpand left node u hu).bind fun answer u₁ hrun hu₁ => ?_
        cases answer with
        | some result =>
          have hoffer := tryExpand_ok hrun
          simp [rewrite?, hitems, hword, hdef, hoffer] at hrewrite
          exact absurd hrewrite (tryExpand_left hrun)
        | none => exact hK.failShown head _ _ u₁ hu₁

end

/-! ## Forms that are rewritten -/

section

variable {node result : NodeId} {u u' : Compilation σ}

/-- A form that is rewritten was offered, so it is no namespace form. -/
theorem rewrite?_offered (h : rewrite? node u = some (result, u')) :
    offer node u = .ok (.expanded result) u' ∧ namespace? u.forest node = none := by
  unfold rewrite? at h
  split at h
  next head arguments hitems =>
    split at h
    next => cases h
    next hword =>
      rw [not_or] at hword
      split at h
      next hrun =>
        cases h
        refine ⟨hrun, ?_⟩
        rw [namespace?, hitems]
        cases arguments with
        | nil => rfl
        | cons nameNode nodes => exact if_neg hword.1
      next => cases h
  next => cases h

/-- The expander alone acts when a form is rewritten. -/
theorem rewrite?_eq_some (h : rewrite? node u = some (result, u')) :
    (u.expander u.memory u.forest node).1 = .expanded result ∧
      u' = { u with
        memory := (u.expander u.memory u.forest node).2.1
        forest := (u.expander u.memory u.forest node).2.2 } := by
  have hoffer := (rewrite?_offered h).1
  rw [offer_run] at hoffer
  injection hoffer with hanswer hu'
  exact ⟨hanswer, hu'.symm⟩

end

section

variable (inner : List NodeId → Lower σ PUnit) (left : Nat) (node : NodeId) (u : Compilation σ)

/-- Nothing about the context changes while a form is rewritten. -/
theorem settled_context : (settled left node u).2.context = u.context := by
  induction left generalizing node u with
  | zero => rfl
  | succ left ih =>
    unfold settled
    split
    next result u' hrewrite =>
      obtain ⟨-, rfl⟩ := rewrite?_eq_some hrewrite
      exact ih result _
    next => rfl

/-- A form is processed as what it is rewritten to: that is not rewritten again, or no expansions
are left for it. -/
theorem topFormWith_settled :
    ∃ left' again, (left' ≠ 0 → rewrite? (settled left node u).1 (settled left node u).2 = none) ∧
      topFormWith inner left node u =
        topForm inner left' again (settled left node u).1 (settled left node u).2 := by
  induction left generalizing node u with
  | zero => exact ⟨0, _, fun h => (h rfl).elim, rfl⟩
  | succ left ih =>
    unfold settled
    split
    next result u' hrewrite =>
      obtain ⟨left', again, hlast, hrun⟩ := ih result u'
      exact ⟨left', again, hlast, (topForm_rewrite left hrewrite).trans hrun⟩
    next hnone => exact ⟨left + 1, _, fun _ => hnone, rfl⟩

/-- A form that leads into no namespace reports once. -/
theorem topFormWith_reports (h : contentsWith? left node u = none) :
    (reporting Compilation.queue u.queue).Allows (topFormWith inner left node u) := by
  obtain ⟨left', again, hlast, hrun⟩ := topFormWith_settled inner left node u
  have hqueue : (settled left node u).2.queue = u.queue :=
    congrArg Context.queue (settled_context left node u)
  rw [hrun]
  exact topForm_allowed left' (lasting_reporting u.queue) hqueue
    (fun arguments => definition_reportsOnce _ arguments _ _ hqueue)
    (Option.map_eq_none_iff.1 h) hlast

/-- A form that leads into a namespace processes the forms there, and leaves it. -/
theorem topFormWith_contents {nodes : List NodeId} {u' : Compilation σ}
    (h : contentsWith? left node u = some (nodes, u')) :
    u'.queue = u.queue ∧
      topFormWith inner left node u = ensuring (inner nodes) Context.leave u' := by
  obtain ⟨left', again, -, hrun⟩ := topFormWith_settled inner left node u
  obtain ⟨⟨name, nodes'⟩, hnamespace, heq⟩ := Option.map_eq_some_iff.1 h
  cases heq
  refine ⟨?_, hrun.trans (topForm_namespace left' hnamespace)⟩
  exact (Context.enter_sameQueue name _).trans
    (congrArg Context.queue (settled_context left node u))

end

/-! ## Lists of forms -/

/-- What reports once counts the failure of the whole. -/
theorem countsAll_of_reports {x : Lower σ α} {u : Compilation σ}
    (h : (reporting Compilation.queue u.queue).Allows (x u)) :
    CountsAll Compilation.queue x u (fails x u).toNat := by
  unfold CountsAll fails
  match hrun : x u with
  | .ok a u' =>
    have hqueue : u'.queue = u.queue := h.of_ok hrun
    simp [hqueue]
  | .error .reported u' =>
    obtain ⟨d, hd⟩ := h.of_error hrun
    simp [hd, Queue.errorCount_emitError]
  | .error .unfinished u' => trivial

/-- The same counts after a step that reports nothing. -/
theorem ensuring_countsAll {β : Type} {x : Lower σ α} {after : StateM Context β}
    {u : Compilation σ} {number : Nat} (h : CountsAll Compilation.queue x u number)
    (hafter : Moves Context.SameQueue after) :
    CountsAll Compilation.queue (ensuring x after) u number := by
  have hqueue : ∀ u' : Compilation σ,
      (u'.withContext (after u'.context).2).queue = u'.queue := fun u' => hafter u'.context
  unfold CountsAll at h ⊢
  rw [ensuring_run]
  match hrun : x u with
  | .ok _ u' => simpa only [hrun, hqueue] using h
  | .error .reported u' => simpa only [hrun, hqueue] using h
  | .error .unfinished u' => trivial

/-- The failures in a list add up. -/
theorem every_countsAll {count : NodeId → Compilation σ → Nat} {step : NodeId → Lower σ PUnit}
    (h : ∀ node u, CountsAll Compilation.queue (step node) u (count node u))
    (nodes : List NodeId) (u : Compilation σ) :
    CountsAll Compilation.queue (every step nodes) u (failuresIn count step nodes u) := by
  induction nodes generalizing u with
  | nil =>
    change _ ∧ _
    simp [failuresIn]
  | cons node nodes ih =>
    have hfirst := h node u
    have hrest := ih (final (step node) u)
    unfold CountsAll at hfirst hrest ⊢
    unfold every failuresIn
    unfold final at hrest ⊢
    match hrun : step node u with
    | .ok _ u₁ | .error .reported u₁ =>
      simp only [hrun] at hfirst hrest ⊢
      -- the first form counts on the way to the rest, the rest on from there
      match hrun' : every step nodes u₁ with
      | .ok _ u₂ | .error .reported u₂ =>
        simp only [hrun'] at hrest ⊢
        omega
      | .error .unfinished u₂ => trivial
    | .error .unfinished u₁ => trivial

/-- A form counts its failures, or those of the forms in the namespace it leads into. -/
theorem topFormBelow_countsAll (depth : Nat) (node : NodeId) (u : Compilation σ) :
    CountsAll Compilation.queue (topFormBelow depth node) u (formFailures depth node u) := by
  induction depth generalizing node u with
  | zero => trivial
  | succ depth ih =>
    have hrun : topFormBelow (depth + 1) node u =
        topFormWith (every (topFormBelow depth)) u.maxExpansions node u := rfl
    unfold formFailures
    split
    next nodes u' hcontents =>
      obtain ⟨hqueue, hinside⟩ := topFormWith_contents (every (topFormBelow depth)) _ _ _ hcontents
      have hleave : Moves Context.SameQueue Context.leave := fun _ => rfl
      have hcount := ensuring_countsAll (every_countsAll ih nodes u') hleave
      unfold CountsAll at hcount ⊢
      rw [hrun, hinside]
      rwa [hqueue] at hcount
    next hnone =>
      refine countsAll_of_reports ?_
      rw [hrun]
      exact topFormWith_reports _ _ _ _ hnone

/-! ## The main result -/

/-- **Every failure is reported exactly once.** Processing an expression, dropping a result,
resolving a type, declaring an enum and processing a top-level form that leads into no namespace
leave the count of errors alone if they give a result and raise it by one if they fail. A list of
top-level forms, and a form that leads into a namespace, fail exactly if the count rose, and it
rises by the number of forms in them that failed and lead into no namespace. -/
theorem failures_reported_once (u : Compilation σ) (frame : Frame) (b : Ir.BlockId) (node : NodeId)
    (r : Result) (nodes : List NodeId) :
    CountsOnce Compilation.queue (process frame b node) u ∧
      CountsOnce Context.queue (Context.destruct r) u.context ∧
      CountsOnce Compilation.queue (resolveType node) u ∧
      CountsOnce Compilation.queue (declareEnum node) u ∧
      (match contents? node u with
        | none => CountsOnce Compilation.queue (processTopLevel node) u
        | some (inside, u') =>
          CountsAll Compilation.queue (processTopLevel node) u
            (failures (maxNamespaceDepth - 1) inside u')) ∧
      CountsAll Compilation.queue (processAll nodes) u (failures maxNamespaceDepth nodes u) := by
  refine ⟨countsOnce_of_reports (process_reportsOnce frame b node _ u rfl),
    countsOnce_of_reports (Context.destruct_reportsOnce r _ u.context rfl),
    countsOnce_of_reports (resolveType_reportsOnce node _ u rfl),
    countsOnce_of_reports (declareEnum_reportsOnce node _ u rfl), ?_,
    every_countsAll (topFormBelow_countsAll _) nodes u⟩
  have hdepth : maxNamespaceDepth = maxNamespaceDepth - 1 + 1 :=
    (Nat.sub_add_cancel (Nat.pow_pos (by decide))).symm
  unfold processTopLevel
  rw [hdepth, Nat.add_sub_cancel]
  generalize maxNamespaceDepth - 1 = depth
  have hall := topFormBelow_countsAll (depth + 1) node u
  unfold formFailures at hall
  match hcontents : contents? node u with
  | some (inside, u') => simpa only [hcontents, failures] using hall
  | none =>
    have hreports := topFormWith_reports (every (topFormBelow depth)) _ _ _ hcontents
    exact countsOnce_of_reports hreports

end Lower

end FormCompiler
