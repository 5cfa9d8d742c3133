import FormCompiler.Proofs.Lower.Coupling
import FormCompiler.Proofs.Tree.Expansion

/-!
# Expansion Before Processing

A form whose macros are expanded on the way is processed like its full expansion by a unit without
macros.

* `list_run`: which handler a list gets can be told from its tree.
* `expanding`: the coupling of a unit with macros and one without, whose forest holds the
  expansions.
* `expand_alike`: a form and its full expansion are processed alike.
-/

namespace FormCompiler

variable {σ τ : Type}

namespace Lower

/-! ## What the tree says about the handler -/

section

variable {u : Compilation σ} (frame : Frame) (left : Nat) (sub again : Sub σ) (b : Ir.BlockId)
  (n : NodeId)

/-- A marked list is refused, or it is a core form. -/
theorem marked_run (second : NodeId) (rest : List NodeId) :
    match (u.forest.symbol? second).bind CoreForm.ofName? with
    | some .core | none => ∃ u', marked frame sub b n (second :: rest) u = .error .reported u'
    | some form =>
      marked frame sub b n (second :: rest) u = coreForm frame sub b n form rest true u := by
  have hread : symbol? second u = .ok (u.forest.symbol? second) u := rfl
  cases hword : (u.forest.symbol? second).bind CoreForm.ofName? with
  | none => exact ⟨_, (bind_run hread).trans (by rw [hword]; rfl)⟩
  | some form =>
    have hrun : marked frame sub b n (second :: rest) u = _ :=
      (bind_run hread).trans (by rw [hword])
    cases form with
    | core => exact ⟨_, hrun⟩
    | deref | addressOf | setf | sequence | conditional => exact hrun

variable {shadowed : String → Bool}
  (hshadowed : ∀ name, u.context.hasFunction name = shadowed name)

include hshadowed

/-- The handler of a list. -/
theorem list_run (items : List NodeId) :
    match Tree.manner shadowed (items.map u.forest.tree) with
    | .refused => ∃ u', list frame left sub again b n items u = .error .reported u'
    | .core form leading => list frame left sub again b n items u =
        coreForm frame sub b n form (items.drop leading) (leading = 2) u
    | .call name => list frame left sub again b n items u =
        callOrExpand left sub again b n name (items.drop 1) u := by
  match items with
  | [] => exact ⟨_, rfl⟩
  | head :: rest =>
    simp only [List.map_cons, Tree.manner, Forest.tree_symbol?]
    have hread : symbol? head u = .ok (u.forest.symbol? head) u := rfl
    cases hsymbol : u.forest.symbol? head with
    | none =>
      rw [hsymbol] at hread
      exact ⟨_, bind_run hread⟩
    | some name =>
      rw [hsymbol] at hread
      -- the head and the context are read before anything is decided
      have hrun : list frame left sub again b n (head :: rest) u = _ :=
        (bind_run hread).trans (bind_run rfl)
      dsimp only at hrun ⊢
      cases hword : CoreForm.ofName? name with
      | none =>
        rw [hword] at hrun
        exact hrun
      | some form =>
        rw [hword, hshadowed] at hrun
        -- after the word for core forms the second part names the form, and no function shadows it
        cases form with
        | core =>
          cases rest with
          | nil => exact ⟨_, hrun⟩
          | cons second rest =>
            have hmarked := marked_run (u := u) frame sub b n second rest
            simp only [List.map_cons, Forest.tree_symbol?]
            cases hform : (u.forest.symbol? second).bind CoreForm.ofName? with
            | none =>
              rw [hform] at hmarked
              exact hmarked.imp fun _ => hrun.trans
            | some form =>
              rw [hform] at hmarked
              cases form with
              | core => exact hmarked.imp fun _ => hrun.trans
              | deref | addressOf | setf | sequence | conditional => exact hrun.trans hmarked
        | deref | addressOf | setf | sequence | conditional =>
          cases hname : shadowed name <;> rw [hname] at hrun <;> exact hrun

/-- The look at the form of a part can be told from its tree. -/
theorem isDeref_iff {inner : List NodeId} :
    u.IsDeref n inner ↔ ∃ items, u.forest.items? n = some items ∧
      Tree.manner shadowed (items.map u.forest.tree) = .core .deref 1 ∧ inner = items.drop 1 := by
  constructor
  · rintro ⟨head, name, hitems, hsymbol, hword, hfree⟩
    refine ⟨_, hitems, ?_, rfl⟩
    rw [hshadowed] at hfree
    simp [Tree.manner, Forest.tree_symbol?, hsymbol, hword, hfree]
  · rintro ⟨items, hitems, hmanner, rfl⟩
    cases items with
    | nil => cases hmanner
    | cons head rest =>
      simp only [List.map_cons, Tree.manner, Forest.tree_symbol?] at hmanner
      cases hsymbol : u.forest.symbol? head with
      | none =>
        rw [hsymbol] at hmanner
        cases hmanner
      | some name =>
        refine ⟨head, name, hitems, hsymbol, ?_⟩
        rw [hsymbol] at hmanner
        dsimp only at hmanner
        rw [hshadowed]
        grind

/-- Reading through a pointer can be told from the tree. -/
theorem readsThrough_iff (hforest : u.forest.WellBuilt) :
    (u.forest.tree n).readsThrough shadowed = true ↔ ∃ inner, u.IsDeref n inner := by
  cases hkind : u.forest.kind n with
  | token token =>
    have hitems : u.forest.items? n = none := by rw [Forest.items?, hkind]
    simp [Forest.tree_token hkind, Tree.readsThrough, isDeref_iff n hshadowed, hitems]
  | list items =>
    have hitems : u.forest.items? n = some items := by rw [Forest.items?, hkind]
    simp [hforest.tree_list hkind, Tree.readsThrough, isDeref_iff n hshadowed, hitems]

end

/-- The handler of a form that is a token. -/
theorem token_run {u : Compilation σ} (frame : Frame) (left : Nat) (again : Sub σ) (bound : Nat)
    (b : Ir.BlockId) {n : NodeId} {kind : TokenKind} {name : Name}
    (h : u.forest.kind n = .token ⟨kind, name⟩) :
    expressionBelow frame left again (bound + 1) b n u =
      token frame b n kind (u.forest.names.text name) u :=
  (bind_run rfl).trans (by rw [h])

/-- The handler of a form that is a list. -/
theorem expressionBelow_run {u : Compilation σ} {shadowed : String → Bool}
    (hshadowed : ∀ name, u.context.hasFunction name = shadowed name) (frame : Frame) (left : Nat)
    (again : Sub σ) (bound : Nat) (b : Ir.BlockId) {n : NodeId} {items : List NodeId}
    (hkind : u.forest.kind n = .list items) {ts : List Tree} (hts : items.map u.forest.tree = ts) :
    match Tree.manner shadowed ts with
    | .refused => ∃ u', expressionBelow frame left again (bound + 1) b n u = .error .reported u'
    | .core form leading => expressionBelow frame left again (bound + 1) b n u =
        coreForm frame (expressionBelow frame left again bound) b n form (items.drop leading)
          (leading = 2) u
    | .call name => expressionBelow frame left again (bound + 1) b n u =
        callOrExpand left (expressionBelow frame left again bound) again b n name
          (items.drop 1) u := by
  have hform : expressionBelow frame left again (bound + 1) b n u =
      list frame left (expressionBelow frame left again bound) again b n items u :=
    (bind_run rfl).trans (by rw [hkind])
  rw [hform, ← hts]
  exact list_run frame left _ again b n hshadowed items

end Lower

/-! ## The coupling -/

/-- The first unit expands macros in a forest that has grown from another one. The second unit has
no macros, and a forest of its own. -/
structure Expanding (m : Macros) (f g : Forest) (u : Compilation σ) (v : Compilation τ) :
    Prop where
  context : v.context = u.context
  shadowed : ∀ name, u.context.hasFunction name = m.shadowed name
  built : u.forest.WellBuilt
  grown : f.Extends u.forest
  follows : u.expander.Follows m.reply
  forest : v.forest = g
  plain : v.expander = .none

/-- A run with macros and one without. -/
def expanding (σ τ : Type) (m : Macros) (f g : Forest) : Coupling σ τ where
  States := Expanding m f g
  Stops e _ e' _ := e' = e
  Nodes _ _ := True
  context h := h.context
  proceeds h hc := ⟨rfl, fun name => (hc.within.hasFunction name).trans (h.shadowed name), h.built,
    h.grown, h.follows, h.forest, h.plain⟩
  reports _ _ := rfl
  refuses _ _ _ := rfl
  unfinished _ _ := rfl

variable {m : Macros} {f f' g : Forest} {u : Compilation σ} {v : Compilation τ}

/-- What has grown from a forest has grown from an earlier one. -/
theorem Expanding.shrink (h : Expanding m f' g u v) (hf : f.Extends f') : Expanding m f g u v :=
  { h with grown := hf.trans h.grown }

/-- Runs may be compared from an earlier forest on. -/
theorem expanding_shrink {α : Type} {x : Lower σ α} {y : Lower τ α} (hf : f.Extends f')
    (h : (expanding σ τ m f' g).Runs x u y v) : (expanding σ τ m f g).Runs x u y v := by
  unfold Coupling.Runs at h ⊢
  cases hx : x u <;> cases hy : y v <;> rw [hx, hy] at h
  case ok.ok => exact ⟨h.1, h.2.shrink hf⟩
  all_goals exact h

section

variable {n q : NodeId} {ns qs : List NodeId} (h : Expanding m f g u v)

include h

/-- What the first unit has at a list of the forest it has grown from. -/
theorem Expanding.list_left (hf : f.WellBuilt) (hn : n.index < f.size)
    (hns : f.kind n = .list ns) :
    u.forest.kind n = .list ns ∧ ns.map u.forest.tree = ns.map f.tree :=
  ⟨(h.grown.kind n hn).trans hns, List.map_congr_left fun item hitem =>
    h.grown.tree hf (Nat.lt_trans (hf n ns hns item hitem) hn)⟩

/-- What the second unit has at a list. -/
theorem Expanding.list_right (hqs : g.kind q = .list qs) :
    v.forest.kind q = .list qs ∧ qs.map v.forest.tree = qs.map g.tree := by
  rw [h.forest]
  exact ⟨hqs, rfl⟩

end

namespace Lower

/-! ## Offered forms -/

/-- The expander is asked, and answers for the tree. -/
theorem tryExpand_follows {left : Nat} (hleft : left ≠ 0) (h : Expanding m f g u v) {n : NodeId}
    (hn : n.index < u.forest.size) :
    match m.reply (u.forest.tree n) with
    | .expanded t => ∃ result u', tryExpand left n u = .ok (some result) u' ∧
        f.Extends u'.forest ∧ result.index < u'.forest.size ∧ u'.forest.tree result = t ∧
        Expanding m u'.forest g u' v
    | .notApplicable => ∃ u', tryExpand left n u = .ok none u' ∧ Expanding m f g u' v
    | .failed _ => True := by
  have hgrown := h.grown.trans (h.follows.adds u.memory u.forest n h.built)
  have hbuilt := h.follows.builds u.memory u.forest n h.built
  have hanswers := h.follows.answers u.memory u.forest n h.built hn
  have hrun : tryExpand left n u = _ :=
    (congrFun (if_neg hleft) u).trans (bind_run (offer_run u n))
  -- what is known of the answer is carried along, since the answer is now taken apart
  revert hgrown hbuilt hanswers hrun
  generalize u.expander u.memory u.forest n = response
  obtain ⟨answer, memory, forest⟩ := response
  intro hgrown hbuilt hanswers hrun
  cases hreply : m.reply (u.forest.tree n) with
  | failed detail => trivial
  | expanded t =>
    rw [hreply] at hanswers
    cases answer with
    | expanded result =>
      exact ⟨result, _, hrun, hgrown, hanswers.1, hanswers.2, h.context, h.shadowed, hbuilt,
        .refl _, h.follows, h.forest, h.plain⟩
    | notApplicable | failed detail => exact hanswers.elim
  | notApplicable =>
    rw [hreply] at hanswers
    cases answer with
    | notApplicable =>
      exact ⟨_, hrun, h.context, h.shadowed, hbuilt, hgrown, h.follows, h.forest, h.plain⟩
    | expanded result | failed detail => exact hanswers.elim

/-- Without macros, the expander is asked in vain. -/
theorem tryExpand_plain {left : Nat} (hleft : left ≠ 0) (hv : v.expander = .none) (n : NodeId) :
    tryExpand left n v = .ok none v := by
  obtain ⟨forest, context, memory, expander, limit⟩ := v
  obtain rfl : expander = .none := hv
  exact (congrFun (if_neg hleft) _).trans (bind_run (offer_run _ n))

/-! ## Lists -/

/-- A form that reads as one tree is processed like a form that reads as another one. -/
def ProcessedAs (m : Macros) (g : Forest) (sub : Nat → Sub σ) (sub' : Nat → Sub τ)
    (t t' : Tree) : Prop :=
  ∀ ⦃f : Forest⦄ ⦃n q : NodeId⦄ ⦃bound bound' : Nat⦄, f.WellBuilt → n.index < f.size →
    f.tree n = t → g.tree q = t' → n.index < bound → q.index < bound' →
    (expanding σ τ m f g).Alike (sub bound) (sub' bound') n q ∧
      (t.readsThrough m.shadowed = true →
        (expanding σ τ m f g).SeesAlike (sub bound) (sub' bound') n q)

/-- A form that reads as one tree, which another one was rewritten to, is processed like a form that
reads as another one. -/
def RewrittenAs (m : Macros) (g : Forest) (again : Sub σ) (sub' : Nat → Sub τ)
    (t t' : Tree) : Prop :=
  ∀ ⦃f : Forest⦄ ⦃n q : NodeId⦄ ⦃bound' : Nat⦄, f.WellBuilt → n.index < f.size →
    f.tree n = t → g.tree q = t' → q.index < bound' →
    (expanding σ τ m f g).Alike again (sub' bound') n q

/-- Forms that read as one list of trees are processed like forms that read as another one, after a
number of leading ones. If they are operands of `#`, then the same is seen there. -/
def PartsProcessedAs (m : Macros) (g : Forest) (sub : Nat → Sub σ) (sub' : Nat → Sub τ)
    (operands : Bool) (leading : Nat) (ts ts' : List Tree) : Prop :=
  ∀ ⦃f : Forest⦄ ⦃ns qs : List NodeId⦄ ⦃bound bound' : Nat⦄, f.WellBuilt →
    (∀ n ∈ ns, n.index < f.size ∧ n.index < bound) → ns.map f.tree = ts →
    (∀ q ∈ qs, q.index < bound') → qs.map g.tree = ts' →
    List.Forall₂ ((expanding σ τ m f g).Alike (sub bound) (sub' bound')) (ns.drop leading)
        (qs.drop leading) ∧
      (operands = true →
        List.Forall₂ ((expanding σ τ m f g).SeesAlike (sub bound) (sub' bound'))
          (ns.drop leading) (qs.drop leading))

/-- The items of two lists are processed alike by any forms that go through their nodes. -/
theorem parts_alike {items items' : List Tree} (hg : g.WellBuilt) {sub : Nat → Sub σ}
    {sub' : Nat → Sub τ} {operands : Bool} {leading : Nat}
    (h : PartsProcessedAs m g sub sub' operands leading items items')
    {f : Forest} (hf : f.WellBuilt) {n q : NodeId} {ns qs : List NodeId} (hn : n.index < f.size)
    (hns : f.kind n = .list ns) (hnsitems : ns.map f.tree = items) (hqs : g.kind q = .list qs)
    (hqsitems : qs.map g.tree = items') {bound bound' : Nat} (hbound : n.index ≤ bound)
    (hbound' : q.index ≤ bound') :
    List.Forall₂ ((expanding σ τ m f g).Alike (sub bound) (sub' bound')) (ns.drop leading)
        (qs.drop leading) ∧
      (operands = true →
        List.Forall₂ ((expanding σ τ m f g).SeesAlike (sub bound) (sub' bound'))
          (ns.drop leading) (qs.drop leading)) := by
  refine h hf (fun item hitem => ?_) hnsitems (fun item hitem => ?_) hqsitems
  · have hitem := hf n ns hns item hitem
    omega
  · have hitem := hg q qs hqs item hitem
    omega

section

variable (frame : Frame) (more limit : Nat) {again : Sub σ} {again' : Sub τ} (hg : g.WellBuilt)
  {items items' : List Tree}

include hg

/-- A list that is refused. -/
theorem refused_alike (hmanner : Tree.manner m.shadowed items = .refused) :
    ProcessedAs m g (expressionBelow frame more again) (expressionBelow frame limit again')
      (.list items) (.list items) := by
  intro f n q bound bound' hf hn hnt hqt hbound hbound'
  obtain ⟨ns, hns, hnsitems⟩ := hf.kind_of_tree_list hnt
  obtain ⟨qs, hqs, hqsitems⟩ := hg.kind_of_tree_list hqt
  obtain ⟨bound, rfl⟩ := Nat.exists_eq_succ_of_ne_zero (Nat.ne_zero_of_lt hbound)
  obtain ⟨bound', rfl⟩ := Nat.exists_eq_succ_of_ne_zero (Nat.ne_zero_of_lt hbound')
  refine ⟨⟨trivial, fun {u v} h b => ?_⟩, fun hreads => ?_⟩
  · have hu := expressionBelow_run h.shadowed frame more again bound b
      (h.list_left hf hn hns).1 ((h.list_left hf hn hns).2.trans hnsitems)
    have hv := expressionBelow_run (h.context ▸ h.shadowed) frame limit again' bound' b
      (h.list_right hqs).1 ((h.list_right hqs).2.trans hqsitems)
    rw [hmanner] at hu hv
    obtain ⟨u', hu⟩ := hu
    obtain ⟨v', hv⟩ := hv
    unfold Coupling.Runs
    rw [hu, hv]
    rfl
  · rw [Tree.readsThrough, hmanner] at hreads
    cases hreads

/-- A core form with arguments that are processed alike. -/
theorem core_alike {form : CoreForm} {leading : Nat}
    (hmanner : Tree.manner m.shadowed items = .core form leading)
    (hmanner' : Tree.manner m.shadowed items' = .core form leading)
    (hparts : PartsProcessedAs m g (expressionBelow frame more again)
      (expressionBelow frame limit again') (form = .addressOf) leading items items') :
    ProcessedAs m g (expressionBelow frame more again) (expressionBelow frame limit again')
      (.list items) (.list items') := by
  intro f n q bound bound' hf hn hnt hqt hbound hbound'
  obtain ⟨ns, hns, hnsitems⟩ := hf.kind_of_tree_list hnt
  obtain ⟨qs, hqs, hqsitems⟩ := hg.kind_of_tree_list hqt
  refine ⟨⟨trivial, fun {u v} h b => ?_⟩, fun hreads {u v} h => ?_⟩
  · obtain ⟨bound, rfl⟩ := Nat.exists_eq_succ_of_ne_zero (Nat.ne_zero_of_lt hbound)
    obtain ⟨bound', rfl⟩ := Nat.exists_eq_succ_of_ne_zero (Nat.ne_zero_of_lt hbound')
    -- both lists are the same form in the same manner, and only their parts differ
    have hu := expressionBelow_run h.shadowed frame more again bound b
      (h.list_left hf hn hns).1 ((h.list_left hf hn hns).2.trans hnsitems)
    have hv := expressionBelow_run (h.context ▸ h.shadowed) frame limit again' bound' b
      (h.list_right hqs).1 ((h.list_right hqs).2.trans hqsitems)
    rw [hmanner] at hu
    rw [hmanner'] at hv
    obtain ⟨halike, hsees⟩ := parts_alike hg hparts hf hn hns hnsitems hqs hqsitems
      (Nat.le_of_lt_succ hbound) (Nat.le_of_lt_succ hbound')
    unfold Coupling.Runs
    rw [hu, hv]
    exact Coupling.coreForm_runs h trivial b halike frame form _ fun hform =>
      hsees (decide_eq_true hform)
  · -- the parts are the same whichever form processes them
    obtain ⟨halike, -⟩ :=
      parts_alike hg hparts hf hn hns hnsitems hqs hqsitems (Nat.le_of_lt hbound)
      (Nat.le_of_lt hbound')
    have hderef : Tree.manner m.shadowed items = .core .deref 1 := of_decide_eq_true hreads
    obtain ⟨rfl, rfl⟩ : form = .deref ∧ leading = 1 := by
      rw [hmanner] at hderef
      cases hderef
      exact ⟨rfl, rfl⟩
    have hleft := h.list_left hf hn hns
    have hright := h.list_right hqs
    have hu : u.IsDeref n (ns.drop 1) := (isDeref_iff n h.shadowed).2
      ⟨ns, by rw [Forest.items?, hleft.1], by rw [hleft.2, hnsitems, hmanner], rfl⟩
    have hv : v.IsDeref q (qs.drop 1) := (isDeref_iff q (h.context ▸ h.shadowed)).2
      ⟨qs, by rw [Forest.items?, hright.1], by rw [hright.2, hqsitems, hmanner'], rfl⟩
    exact ⟨fun inner hinner => ⟨_, hv, hinner.unique hu ▸ halike⟩, fun _ _ => ⟨_, hu⟩⟩

/-- A call with arguments that are processed alike. -/
theorem call_alike (hmore : more ≠ 0) (hlimit : limit ≠ 0) {name : String}
    (hmanner : Tree.manner m.shadowed items = .call name)
    (hmanner' : Tree.manner m.shadowed items' = .call name)
    (hreply : m.reply (.list items) = .notApplicable)
    (hparts : PartsProcessedAs m g (expressionBelow frame more again)
      (expressionBelow frame limit again') false 1 items items') :
    ProcessedAs m g (expressionBelow frame more again) (expressionBelow frame limit again')
      (.list items) (.list items') := by
  intro f n q bound bound' hf hn hnt hqt hbound hbound'
  obtain ⟨ns, hns, hnsitems⟩ := hf.kind_of_tree_list hnt
  obtain ⟨qs, hqs, hqsitems⟩ := hg.kind_of_tree_list hqt
  obtain ⟨bound, rfl⟩ := Nat.exists_eq_succ_of_ne_zero (Nat.ne_zero_of_lt hbound)
  obtain ⟨bound', rfl⟩ := Nat.exists_eq_succ_of_ne_zero (Nat.ne_zero_of_lt hbound')
  refine ⟨⟨trivial, fun {u v} h b => ?_⟩, fun hreads => ?_⟩
  · have hu := expressionBelow_run h.shadowed frame more again bound b
      (h.list_left hf hn hns).1 ((h.list_left hf hn hns).2.trans hnsitems)
    have hv := expressionBelow_run (h.context ▸ h.shadowed) frame limit again' bound' b
      (h.list_right hqs).1 ((h.list_right hqs).2.trans hqsitems)
    rw [hmanner] at hu
    rw [hmanner'] at hv
    have hasked := tryExpand_follows hmore h (Nat.lt_of_lt_of_le hn h.grown.size)
    rw [h.grown.tree hf hn, hnt, hreply] at hasked
    obtain ⟨u', hasked, h'⟩ := hasked
    obtain ⟨halike, -⟩ := parts_alike hg hparts hf hn hns hnsitems hqs hqsitems
      (Nat.le_of_lt_succ hbound) (Nat.le_of_lt_succ hbound')
    unfold Coupling.Runs
    rw [hu, hv, callOrExpand, callOrExpand, bind_run hasked,
      bind_run (tryExpand_plain hlimit h.plain q)]
    exact Coupling.call_runs h' trivial b halike name
  · rw [Tree.readsThrough, hmanner] at hreads
    cases hreads

omit hg in
/-- A macro call. -/
theorem rewritten_alike (hmore : more ≠ 0) {name : String} {t t' : Tree}
    (hmanner : Tree.manner m.shadowed items = .call name)
    (hreply : m.reply (.list items) = .expanded t)
    (hagain : RewrittenAs m g again (expressionBelow frame limit again') t t') :
    ProcessedAs m g (expressionBelow frame more again) (expressionBelow frame limit again')
      (.list items) t' := by
  intro f n q bound bound' hf hn hnt hqt hbound hbound'
  obtain ⟨ns, hns, hnsitems⟩ := hf.kind_of_tree_list hnt
  obtain ⟨bound, rfl⟩ := Nat.exists_eq_succ_of_ne_zero (Nat.ne_zero_of_lt hbound)
  refine ⟨⟨trivial, fun {u v} h b => ?_⟩, fun hreads => ?_⟩
  · have hu := expressionBelow_run h.shadowed frame more again bound b
      (h.list_left hf hn hns).1 ((h.list_left hf hn hns).2.trans hnsitems)
    rw [hmanner] at hu
    have hasked := tryExpand_follows hmore h (Nat.lt_of_lt_of_le hn h.grown.size)
    rw [h.grown.tree hf hn, hnt, hreply] at hasked
    obtain ⟨result, u', hasked, hgrown, hresult, htree, h'⟩ := hasked
    -- the rewritten form stands in the forest as it is now
    have halike := hagain h'.built hresult htree hqt hbound'
    have hruns := expanding_shrink hgrown (halike.runs h' b)
    unfold Coupling.Runs at hruns ⊢
    rwa [hu, callOrExpand, bind_run hasked]
  · rw [Tree.readsThrough, hmanner] at hreads
    cases hreads

/-- An enclosed form is processed like the form. -/
theorem enclosed_alike {sub : Nat → Sub σ} {t t' : Tree}
    (h : ProcessedAs m g sub (expressionBelow frame limit again') t t')
    (hreads : t.readsThrough m.shadowed = false) :
    ProcessedAs m g sub (expressionBelow frame limit again') t
      (.list [.token .symbol CoreForm.core.name, .token .symbol CoreForm.sequence.name, t']) := by
  intro f n q bound bound' hf hn hnt hqt hbound hbound'
  obtain ⟨qs, hqs, hqsitems⟩ := hg.kind_of_tree_list hqt
  obtain ⟨bound', rfl⟩ := Nat.exists_eq_succ_of_ne_zero (Nat.ne_zero_of_lt hbound')
  refine ⟨⟨trivial, fun {u v} hstates b => ?_⟩, fun hreads' => ?_⟩
  · obtain ⟨mark, word, part, rfl⟩ : ∃ mark word part, qs = [mark, word, part] := by
      have hlength := congrArg List.length hqsitems
      rw [List.length_map] at hlength
      exact List.length_eq_three.1 hlength
    have hv := expressionBelow_run (hstates.context ▸ hstates.shadowed) frame limit again' bound' b
      (hstates.list_right hqs).1 ((hstates.list_right hqs).2.trans hqsitems)
    have hpart : g.tree part = t' := by
      simp only [List.map_cons, List.map_nil, List.cons.injEq] at hqsitems
      exact hqsitems.2.2.1
    have hpartlt := hg q _ hqs part (by simp)
    have halike := (h hf hn hnt hpart hbound (by omega : part.index < bound')).1.runs hstates b
    unfold Coupling.Runs at halike ⊢
    exact hv ▸ halike
  · rw [hreads] at hreads'
    cases hreads'

omit hg in
/-- A token. -/
theorem token_alike (kind : TokenKind) (text : String) :
    ProcessedAs m g (expressionBelow frame more again) (expressionBelow frame limit again')
      (.token kind text) (.token kind text) := by
  intro f n q bound bound' hf hn hnt hqt hbound hbound'
  obtain ⟨name, hname, rfl⟩ := Forest.kind_of_tree_token hnt
  obtain ⟨name', hname', htext⟩ := Forest.kind_of_tree_token hqt
  obtain ⟨bound, rfl⟩ := Nat.exists_eq_succ_of_ne_zero (Nat.ne_zero_of_lt hbound)
  obtain ⟨bound', rfl⟩ := Nat.exists_eq_succ_of_ne_zero (Nat.ne_zero_of_lt hbound')
  refine ⟨⟨trivial, fun {u v} h b => ?_⟩, fun hreads => by cases hreads⟩
  have hu := token_run frame more again bound b ((h.grown.kind n hn).trans hname)
  have hv := token_run frame limit again' bound' b (h.forest ▸ hname')
  rw [h.grown.text n ⟨kind, name⟩ hn hname] at hu
  rw [h.forest, htext] at hv
  unfold Coupling.Runs
  rw [hu, hv]
  exact Coupling.token_runs h trivial b frame kind _

end

/-- The same is seen at two nodes that do not read through a pointer. -/
theorem seesAlike_of_readsThrough {sub : Sub σ} {sub' : Sub τ} {f : Forest} {n q : NodeId}
    (hg : g.WellBuilt) (hf : f.WellBuilt) (hn : n.index < f.size)
    (hleft : (f.tree n).readsThrough m.shadowed = false)
    (hright : (g.tree q).readsThrough m.shadowed = false) :
    (expanding σ τ m f g).SeesAlike sub sub' n q := by
  intro u v h
  have hu : ∀ inner, ¬ u.IsDeref n inner := fun inner hinner => by
    have hreads := (readsThrough_iff n h.shadowed h.built).2 ⟨inner, hinner⟩
    rw [h.grown.tree hf hn, hleft] at hreads
    cases hreads
  have hv : ∀ inner, ¬ v.IsDeref q inner := fun inner hinner => by
    have hreads := (readsThrough_iff q (h.context ▸ h.shadowed) (h.forest ▸ hg)).2 ⟨inner, hinner⟩
    rw [h.forest, hright] at hreads
    cases hreads
  exact ⟨fun inner hinner => (hu inner hinner).elim, fun inner hinner => (hv inner hinner).elim⟩

/-- An operand of `#` is processed like what stands for it, and the same is seen at both. -/
theorem operand_alike (frame : Frame) (limit : Nat) {again' : Sub τ} (hg : g.WellBuilt)
    {sub : Nat → Sub σ} {t t' : Tree}
    (h : ProcessedAs m g sub (expressionBelow frame limit again') t t') {f : Forest}
    (hf : f.WellBuilt) {n q : NodeId} (hn : n.index < f.size) (hnt : f.tree n = t)
    (hqt : g.tree q = Tree.enclose m.shadowed t t') {bound bound' : Nat} (hbound : n.index < bound)
    (hbound' : q.index < bound') :
    (expanding σ τ m f g).Alike (sub bound) (expressionBelow frame limit again' bound') n q ∧
      (expanding σ τ m f g).SeesAlike (sub bound) (expressionBelow frame limit again' bound')
        n q := by
  have hprocessed : ProcessedAs m g sub (expressionBelow frame limit again') t
      (Tree.enclose m.shadowed t t') := by
    unfold Tree.enclose
    split
    next hreads =>
      rw [Bool.and_eq_true, Bool.not_eq_true'] at hreads
      exact enclosed_alike frame limit hg h hreads.2
    next => exact h
  obtain ⟨halike, hsees⟩ := hprocessed hf hn hnt hqt hbound hbound'
  refine ⟨halike, ?_⟩
  cases hreads : t.readsThrough m.shadowed with
  | true => exact hsees hreads
  | false =>
    refine seesAlike_of_readsThrough hg hf hn (hnt ▸ hreads) ?_
    rw [hqt, Tree.readsThrough_enclose, hreads, Bool.and_false]

/-! ## Forms and their expansions -/

/-- Rewritten forms are processed like their expansions. The expansion allows at most as many
rewrites as processing does. -/
structure ExpandsAgain (m : Macros) (g : Forest) (frame : Frame) (left more limit : Nat)
    (again : Sub σ) (again' : Sub τ) (againTree : Tree → Option Tree) : Prop where
  operand : m.operand = Tree.enclose m.shadowed
  left_le : left ≤ more
  more_le : more ≤ limit
  rewritten : left ≠ 0 → ∀ {t t' : Tree}, againTree t = some t' →
    RewrittenAs m g again (expressionBelow frame limit again') t t'

section

variable {frame : Frame} {left more limit : Nat} {again : Sub σ} {again' : Sub τ}
  {againTree : Tree → Option Tree} (hg : g.WellBuilt)
  (H : ExpandsAgain m g frame left more limit again again' againTree)

include hg H

mutual

/-- A tree is processed like its expansion. -/
theorem expandWith_alike (t : Tree) {t' : Tree} (h : m.expandWith left againTree t = some t') :
    ProcessedAs m g (expressionBelow frame more again) (expressionBelow frame limit again')
      t t' := by
  match t with
  | .token kind text =>
    cases h
    exact token_alike frame more limit kind text
  | .list items =>
    unfold Macros.expandWith at h
    cases hmanner : Tree.manner m.shadowed items with
    | refused =>
      rw [hmanner] at h
      cases h
      exact refused_alike frame more limit hg hmanner
    | core form leading =>
      rw [hmanner] at h
      obtain ⟨items', hitems, rfl⟩ := Option.map_eq_some_iff.1 h
      have hmanner' := Macros.manner_of_expandFrom hmanner nofun hitems
      exact core_alike frame more limit hg hmanner hmanner'
        (expandFrom_alike _ _ items hitems)
    | call name =>
      rw [hmanner] at h
      dsimp only at h
      split at h
      next => cases h
      next hleft =>
        -- both runs may rewrite at least as often as the expansion of the tree may
        have hmore : more ≠ 0 := by
          have hle := H.left_le
          omega
        have hlimit : limit ≠ 0 := by
          have hle := H.more_le
          omega
        cases hreply : m.reply (.list items) with
        | failed detail =>
          rw [hreply] at h
          cases h
        | expanded t =>
          rw [hreply] at h
          exact rewritten_alike frame more limit hmore hmanner hreply (H.rewritten hleft h)
        | notApplicable =>
          rw [hreply] at h
          obtain ⟨items', hitems, rfl⟩ := Option.map_eq_some_iff.1 h
          have hmanner' := Macros.manner_of_expandFrom hmanner nofun hitems
          exact call_alike frame more limit hg hmore hlimit hmanner hmanner' hreply
            (expandFrom_alike _ _ items hitems)

/-- Trees after some leading ones are processed like their expansions. -/
theorem expandFrom_alike (operands : Bool) (leading : Nat) (ts : List Tree) {ts' : List Tree}
    (h : m.expandFrom left againTree operands leading ts = some ts') :
    PartsProcessedAs m g (expressionBelow frame more again) (expressionBelow frame limit again')
      operands leading ts ts' := by
  intro f ns qs bound bound' hf hns hnsts hqs hqsts
  match leading, ts with
  | leading, [] =>
    obtain rfl : ts' = [] := by
      unfold Macros.expandFrom at h
      exact (Option.some.inj h).symm
    obtain rfl := List.map_eq_nil_iff.1 hnsts
    obtain rfl := List.map_eq_nil_iff.1 hqsts
    simp
  | leading + 1, t :: ts =>
    obtain ⟨ts', hts, rfl⟩ := Option.map_eq_some_iff.1 h
    obtain ⟨n, ns, rfl, -, hnsts⟩ := List.map_eq_cons_iff.1 hnsts
    obtain ⟨q, qs, rfl, -, hqsts⟩ := List.map_eq_cons_iff.1 hqsts
    exact expandFrom_alike operands leading ts hts hf
      (fun n hn => hns n (List.mem_cons_of_mem _ hn)) hnsts
      (fun q hq => hqs q (List.mem_cons_of_mem _ hq)) hqsts
  | 0, t :: ts =>
    unfold Macros.expandFrom at h
    split at h
    next t' ts' ht hts =>
      cases h
      obtain ⟨n, ns, rfl, hnt, hnsts⟩ := List.map_eq_cons_iff.1 hnsts
      obtain ⟨q, qs, rfl, hqt, hqsts⟩ := List.map_eq_cons_iff.1 hqsts
      obtain ⟨hn, hbound⟩ := hns n List.mem_cons_self
      have hbound' := hqs q List.mem_cons_self
      have hfirst := expandWith_alike t ht
      -- the first tree by its own expansion, the others by this theorem for the shorter list
      obtain ⟨halike, hsees⟩ := expandFrom_alike operands 0 ts hts hf
        (fun n hn => hns n (List.mem_cons_of_mem _ hn)) hnsts
        (fun q hq => hqs q (List.mem_cons_of_mem _ hq)) hqsts
      cases operands with
      | false => exact ⟨.cons (hfirst hf hn hnt hqt hbound hbound').1 halike, nofun⟩
      | true =>
        rw [H.operand] at hqt
        have hoperand := operand_alike frame limit hg hfirst hf hn hnt hqt hbound hbound'
        exact ⟨.cons hoperand.1 halike, fun h => .cons hoperand.2 (hsees h)⟩
    next => cases h

end

end

/-- A form that another one was rewritten to is processed like its expansion. -/
theorem rewrittenAs_of_expandWith {frame : Frame} {left more limit : Nat} {again : Sub σ}
    {again' : Sub τ} {againTree : Tree → Option Tree} (hg : g.WellBuilt)
    (H : ExpandsAgain m g frame left more limit again again' againTree)
    (hrun : ∀ b n, expression frame more b n =
      expressionBelow frame more again (n.index + 1) b n)
    {t t' : Tree} (h : m.expandWith left againTree t = some t') :
    RewrittenAs m g (expression (σ := σ) frame more) (expressionBelow frame limit again') t t' := by
  intro f n q bound' hf hn hnt hqt hbound'
  obtain ⟨halike, -⟩ := expandWith_alike hg H t h hf hn hnt hqt (Nat.lt_succ_self _) hbound'
  refine ⟨trivial, fun {u v} hstates b => ?_⟩
  have hruns := halike.runs hstates b
  unfold Coupling.Runs at hruns ⊢
  rwa [hrun]

/-- A form is processed like its full expansion, if that takes no more rewrites than are left. -/
theorem expand_alike (hg : g.WellBuilt) (hoperand : m.operand = Tree.enclose m.shadowed)
    (frame : Frame) {limit : Nat} (again' : Sub τ) (left : Nat) {more : Nat} (hmore : left ≤ more)
    (hlimit : more ≤ limit) {t t' : Tree} (h : m.expand left t = some t') :
    RewrittenAs m g (expression (σ := σ) frame more) (expressionBelow frame limit again') t t' := by
  induction left generalizing more t t' with
  | zero =>
    -- the first level may still allow rewrites, but the expansion made none
    have hnone : ∀ again : Sub σ, ExpandsAgain m g frame 0 more limit again again' fun _ => none :=
      fun _ => ⟨hoperand, hmore, hlimit, fun hleft => absurd rfl hleft⟩
    cases more with
    | zero => exact rewrittenAs_of_expandWith hg (hnone _) (fun _ _ => rfl) h
    | succ more => exact rewrittenAs_of_expandWith hg (hnone _) (fun _ _ => rfl) h
  | succ left ih =>
    cases more with
    | zero => exact absurd hmore (Nat.not_succ_le_zero _)
    | succ more =>
      have hagain : ExpandsAgain m g frame (left + 1) (more + 1) limit
          (expression (σ := σ) frame more) again' (m.expand left) :=
        ⟨hoperand, hmore, hlimit, fun _ _ _ hagain =>
          ih (Nat.le_of_succ_le_succ hmore) (Nat.le_of_succ_le hlimit) hagain⟩
      exact rewrittenAs_of_expandWith hg hagain (fun _ _ => rfl) h

end Lower

end FormCompiler
