import FormCompiler.Lower.TopLevel
import FormCompiler.Proofs.Lower.Expansion
import FormCompiler.Proofs.Lower.Parts
import FormCompiler.Proofs.Lower.Tracing
import FormCompiler.Proofs.MacroTransparency

/-!
# Forms at the Limit of Expansions

A form is offered to the expander before it is known whether a macro applies to it, and with no
expansions left it is refused instead. So the limit shows in forms to which no macro applies. As
long as an expansion is left they are processed as they are without macros. With none left they
are processed as by an expander that refuses whatever it is offered: a call fails for the limit.

* `Expander.Declines`: no macro applies to a form, or to a form in it.
* `EndsAlike`: two outcomes with the same result and the same context.
* `Limited`: what the number of expansions left has to do with an outcome.
* `limited_of_unexpanded`: this holds of expressions, of the elements of enums and of top-level
  forms.
-/

namespace FormCompiler

variable {σ τ α β : Type}

/-- The second node is the first one, or stands in it at any depth. -/
inductive Forest.PartOf (f : Forest) (whole : NodeId) : NodeId → Prop
  | whole : f.PartOf whole whole
  | item {list item : NodeId} {items : List NodeId} (h : f.PartOf whole list)
      (hitems : f.items? list = some items) (hitem : item ∈ items) : f.PartOf whole item

/-- No macro applies to a node, or to one in it. The expander answers so in any memory with a
property, which it keeps. -/
def Expander.Declines (e : Expander σ) (I : σ → Prop) (f : Forest) (whole : NodeId) : Prop :=
  ∀ memory node, I memory → f.PartOf whole node →
    ∃ memory', e memory f node = (.notApplicable, memory', f) ∧ I memory'

/-- The expander that refuses what it is offered. -/
def Expander.refusing (detail : String) : Expander σ := fun memory forest _ =>
  (.failed detail, memory, forest)

/-- The unit with an expander that refuses what it is offered. -/
def Compilation.refusing (u : Compilation σ) (detail : String) : Compilation σ :=
  { u with expander := .refusing detail }

namespace Lower

/-! ## Two units -/

/-- The two outcomes are the same result, or the same halt, in the same context. -/
def EndsAlike (x : EStateM.Result Halt (Compilation σ) α)
    (y : EStateM.Result Halt (Compilation τ) α) : Prop :=
  match x, y with
  | .ok a u, .ok b v => a = b ∧ v.context = u.context
  | .error e u, .error e' v => e = e' ∧ v.context = u.context
  | _, _ => False

/-- The units have the same forest and the same context, and these expanders. -/
structure Alongside (e : Expander σ) (I : σ → Prop) (limit : Nat) (e' : Expander τ) (f : Forest)
    (u : Compilation σ) (v : Compilation τ) : Prop where
  context : v.context = u.context
  forest : u.forest = f
  forest' : v.forest = f
  expander : u.expander = e
  expander' : v.expander = e'
  memory : I u.memory
  limit : u.maxExpansions = limit

/-- Runs through the same forest in the same context, with two expanders. -/
def alongside (e : Expander σ) (I : σ → Prop) (limit : Nat) (e' : Expander τ) (f : Forest) :
    Coupling σ τ where
  States := Alongside e I limit e' f
  Stops h u h' v := h = h' ∧ v.context = u.context
  Nodes n m := m = n
  context h := h.context
  proceeds h _ := ⟨rfl, h.forest, h.forest', h.expander, h.expander', h.memory, h.limit⟩
  reports d h := by
    unfold Compilation.reporting
    rw [h.context]
    exact ⟨rfl, rfl⟩
  refuses := by
    rintro u v n m d h rfl
    unfold Compilation.reporting
    rw [h.context, h.forest, h.forest']
    exact ⟨rfl, rfl⟩
  unfinished _ _ := ⟨rfl, rfl⟩

/-- The form is rewritten in neither run, with as many expansions left as each has, and asking for
that ends alike in both. -/
structure Unrewritten (K : Coupling σ τ) (left left' : Nat) (node : NodeId) : Prop where
  runs {u : Compilation σ} {v : Compilation τ} (h : K.States u v) :
    K.Runs (tryExpand left node) u (tryExpand left' node) v
  never {u u' : Compilation σ} {v : Compilation τ} {result : NodeId} (h : K.States u v) :
    tryExpand left node u ≠ .ok (some result) u'

section

variable {e : Expander σ} {I : σ → Prop} {limit : Nat} {e' : Expander τ} {f : Forest}
  {u : Compilation σ} {v : Compilation τ} {x : Lower σ α} {y : Lower τ α}

/-- Both runs are through the same forest. -/
theorem alongside_beside : (alongside e I limit e' f).Beside where
  nodes _ := rfl
  forest h := h.forest'.trans h.forest.symm

/-- Runs that agree end alike. -/
theorem endsAlike_of_runs (h : (alongside e I limit e' f).Runs x u y v) :
    EndsAlike (x u) (y v) := by
  unfold Coupling.Runs at h
  unfold EndsAlike
  cases hx : x u <;> cases hy : y v <;> rw [hx, hy] at h
  case ok.ok => exact ⟨h.1, h.2.context⟩
  all_goals exact h

/-- As long as an expansion is left a form to which no macro applies is offered in vain, as if there
were no macros. -/
theorem unrewritten_of_declines {whole node : NodeId} {left left' : Nat}
    (hdeclines : e.Declines I f whole) (hnode : f.PartOf whole node) (hleft : left ≠ 0)
    (hleft' : left' ≠ 0) :
    Unrewritten (alongside e I limit (.none : Expander τ) f) left left' node := by
  -- the offer changes nothing but the memory, which the second unit does not look at
  have hrun : ∀ {u : Compilation σ} {v : Compilation τ},
      Alongside e I limit (.none : Expander τ) f u v → ∃ memory', I memory' ∧
        tryExpand left node u = .ok none { u with memory := memory' } := by
    intro u v h
    obtain ⟨memory', hanswer, hkept⟩ := hdeclines u.memory node h.memory hnode
    have hoffer : offer node u = .ok .notApplicable { u with memory := memory' } := by
      rw [offer_run, h.expander, h.forest, hanswer, ← h.forest, ← h.expander]
    exact ⟨memory', hkept, (congrFun (if_neg hleft) u).trans (bind_run hoffer)⟩
  refine ⟨fun {u v} h => ?_, fun {u u' v result} h heq => ?_⟩
  · obtain ⟨memory', hkept, hu⟩ := hrun h
    unfold Coupling.Runs
    rw [hu, tryExpand_plain hleft' h.expander']
    exact ⟨rfl, ⟨h.context, h.forest, h.forest', h.expander, h.expander', hkept, h.limit⟩⟩
  · obtain ⟨memory', -, hu⟩ := hrun h
    rw [hu] at heq
    cases heq

/-- With no expansion left a form is refused, as if the expander had refused it. -/
theorem unrewritten_of_refusing (node : NodeId) {left' : Nat} (hleft' : left' ≠ 0) :
    Unrewritten (alongside e I limit (.refusing (limitText limit) : Expander τ) f) 0 left'
      node := by
  refine ⟨fun {u v} h => ?_, fun _ heq => tryExpand_left heq rfl⟩
  -- the report of a refusal is the one that the limit gives, with the same text
  have hanswer : v.expander v.memory v.forest node =
      (.failed (limitText limit), v.memory, v.forest) := by
    rw [h.expander']
    rfl
  have hoffer : offer node v = .ok (.failed (limitText limit)) v := by
    rw [offer_run, hanswer]
  have hrefused : tryExpand left' node v =
      (do fail (Report.expansionFailed (← span node) (limitText limit)) : Lower τ _) v :=
    (congrFun (if_neg hleft') v).trans (bind_run hoffer)
  have hlimit : tryExpand 0 node u =
      (do fail (Report.expansionFailed (← span node) (limitText limit)) : Lower σ _) u :=
    (bind_run rfl).trans (by rw [h.limit])
  unfold Coupling.Runs
  rw [hlimit, hrefused]
  exact Coupling.failAt_runs h rfl fun span => Report.expansionFailed span (limitText limit)

end

/-! ## Forms that no run rewrites -/

section

variable {K : Coupling σ τ} (P : K.Beside) {u : Compilation σ} {v : Compilation τ}
  {left left' : Nat}

include P

/-- An expression without forms that are rewritten. -/
theorem expressionBelow_runs {part : NodeId → Prop}
    (hstops : ∀ {u v}, K.States u v → K.Stops .unfinished u .unfinished v)
    (hparts : ∀ m, part m → K.PartsOf part m) (hleft : ∀ m, part m → Unrewritten K left left' m)
    (frame : Frame) (again : Sub σ) (again' : Sub τ) (bound : Nat) (node : NodeId)
    (hnode : part node) :
    K.Alike (expressionBelow frame left again bound) (expressionBelow frame left' again' bound)
      node node := by
  -- no part is rewritten, so what follows a rewriting is never reached
  induction bound generalizing node with
  | zero => exact ⟨P.nodes node, fun h _ => hstops h⟩
  | succ bound ih =>
    have hexpand : K.ExpandsAlike left left' again again' node :=
      ⟨fun h => (hleft node hnode).runs h, fun h hrun => absurd hrun ((hleft node hnode).never h)⟩
    exact ⟨P.nodes node, fun h b =>
      P.form_runs ih h b frame hparts (hparts node hnode) hexpand⟩

/-- An element of an enum that is not rewritten. -/
theorem elementWith_runs {node : NodeId} (hleft : Unrewritten K left left' node)
    (h : K.States u v) (underlying : TypeId) (builder : EnumBuilder) :
    K.Runs (elementWith underlying left builder node) u
      (elementWith underlying left' builder node) v := by
  have helement : ∀ again again', K.Runs (element underlying left again builder node) u
      (element underlying left' again' builder node) v := fun _ _ =>
    element_runs P h node underlying builder hleft.runs
      fun h hrun => absurd hrun (hleft.never h)
  cases left <;> cases left' <;> exact helement _ _

end

/-! ## Top-level forms -/

/-- The form is neither a namespace form nor a definition, so at the top level it is offered. -/
def IsOffered (f : Forest) (node : NodeId) : Prop :=
  ∃ head arguments, f.items? node = some (head :: arguments) ∧
    f.symbol? head ≠ some "namespace" ∧ f.symbol? head ≠ some "def"

section

variable {inner : List NodeId → Lower σ PUnit} {again again' : NodeId → Lower σ PUnit}
  {u : Compilation σ} {node : NodeId}

/-- A form that is offered is rewritten or refused. -/
theorem topForm_offered {head : NodeId} {arguments : List NodeId}
    (hitems : u.forest.items? node = some (head :: arguments))
    (hnamespace : u.forest.symbol? head ≠ some "namespace")
    (hdef : u.forest.symbol? head ≠ some "def") (left : Nat) :
    topForm inner left again node u = (do
      match ← tryExpand left node with
      | some result => again result
      | none =>
        fail (Report.unexpectedElement (← span head) "`namespace` or `def`" "top-level form"
          (← display head)) : Lower σ PUnit) u := by
  refine (bind_run (expectList_run hitems _)).trans ((bind_run rfl).trans ?_)
  exact congrFun ((if_neg hnamespace).trans (if_neg hdef)) u

/-- What is not offered does not depend on the number of expansions left. -/
theorem topForm_unoffered (h : ¬ IsOffered u.forest node) (left left' : Nat) :
    topForm inner left again node u = topForm inner left' again' node u := by
  change EStateM.bind (expectList node _) _ u = EStateM.bind (expectList node _) _ u
  unfold EStateM.bind
  cases hrun : expectList node "top-level form" u with
  | error e u₁ => rfl
  | ok items u₁ =>
    obtain ⟨hitems, rfl⟩ := (expectList_ends node _ u).of_ok hrun
    match items with
    | [] => rfl
    | head :: arguments =>
      refine (bind_run rfl).trans (Eq.trans ?_ (bind_run rfl).symm)
      by_cases hnamespace : u.forest.symbol? head = some "namespace"
      · rw [if_pos hnamespace, if_pos hnamespace]
      by_cases hdef : u.forest.symbol? head = some "def"
      · rw [if_neg hnamespace, if_neg hnamespace, if_pos hdef, if_pos hdef]
      · exact absurd ⟨head, arguments, hitems, hnamespace, hdef⟩ h

end

/-- A form that is offered and not rewritten. -/
theorem topFormWith_runs {K : Coupling σ τ} (P : K.Beside) {u : Compilation σ}
    {v : Compilation τ} {left left' : Nat} {node : NodeId} (hleft : Unrewritten K left left' node)
    (h : K.States u v) (hoffered : IsOffered u.forest node) (inner : List NodeId → Lower σ PUnit)
    (inner' : List NodeId → Lower τ PUnit) :
    K.Runs (topFormWith inner left node) u (topFormWith inner' left' node) v := by
  have hform : ∀ again again', K.Runs (topForm inner left again node) u
      (topForm inner' left' again' node) v := by
    intro again again'
    obtain ⟨head, arguments, hitems, hnamespace, hdef⟩ := hoffered
    unfold Coupling.Runs
    rw [topForm_offered hitems hnamespace hdef, topForm_offered (P.forest h ▸ hitems)
      (P.forest h ▸ hnamespace) (P.forest h ▸ hdef)]
    refine Coupling.Runs.bindOf (hleft.runs h) fun answer u' v' hrun h' => ?_
    cases answer with
    | some result => exact absurd hrun (hleft.never h)
    | none => exact Coupling.failShown_runs h' (P.nodes head) _
  cases left <;> cases left' <;> exact hform _ _

/-! ## The limit -/

/-- The second unit has no macros, and some expansions left. Otherwise it has the state of the first
one, and no macro of the first one applies to the node or to one in it. -/
structure Unexpanded (I : σ → Prop) (u : Compilation σ) (v : Compilation τ) (node : NodeId) :
    Prop where
  declines : u.expander.Declines I u.forest node
  memory : I u.memory
  plain : v.expander = .none
  limit : v.maxExpansions ≠ 0
  forest : v.forest = u.forest
  context : v.context = u.context

/-- How the number of expansions left decides between two outcomes without macros. -/
structure Limited (x : Nat → Lower σ α) (y : Lower τ α) (u : Compilation σ) (v : Compilation τ) :
    Prop where
  /-- As long as one is left the outcome is that without macros. -/
  left : ∀ left ≠ 0, EndsAlike (x left u) (y v)
  /-- With none left it is as if everything that is offered were refused. -/
  spent : EndsAlike (x 0 u) (y (v.refusing (limitText u.maxExpansions)))

/-- With no expansions left a call fails for the limit. -/
theorem expression_call_spent {u : Compilation σ} {node : NodeId} {name : String}
    {arguments : List NodeId} (h : u.IsCall node name arguments) (frame : Frame)
    (b : Ir.BlockId) : FailsWith (expression frame 0 b node) u .expansionFailed u := by
  obtain ⟨head, hitems, hname, hplain, hcall⟩ := h
  have hread : symbol? head u = .ok (some name) u := by rw [symbol?, hname]
  have hlist : expression frame 0 b node u =
      callOrExpand 0 (parts frame 0 node.index) (expansion frame 0) b node name arguments u := by
    rw [expression_eq, parts_list hitems]
    refine (bind_run hread).trans ((bind_run rfl).trans ?_)
    cases hword : CoreForm.ofName? name with
    | none => rfl
    | some form =>
      -- the word of a core form heads a call where a function shadows it
      have hshadowed : u.context.hasFunction name = true :=
        hcall.resolve_left (by rw [hword]; exact Option.some_ne_none _)
      cases form with
      | core => exact absurd hword hplain
      | deref | addressOf | setf | sequence | conditional =>
        exact congrFun (if_pos hshadowed) u
  refine .of_run hlist (.bind ?_)
  exact .of_run (bind_run rfl) (.fail rfl)

/-- A list of one element adds the member of that element. -/
theorem elements_single {v : Compilation τ} {node : NodeId} (underlying : TypeId)
    (builder : EnumBuilder) :
    elements underlying builder [node] v =
      elementWith underlying v.maxExpansions builder node v := by
  refine (bind_run rfl).trans ?_
  exact congrFun (bind_pure _) v

/-- Steps that agree whichever expander the second unit has are limited. -/
theorem limited_of_runs {I : σ → Prop} {u : Compilation σ} {v : Compilation τ} {node : NodeId}
    (h : Unexpanded I u v node) {x : Nat → Lower σ α} {y : Lower τ α}
    (hruns : ∀ (left : Nat) (e' : Expander τ),
      (∀ part, u.forest.PartOf node part → Unrewritten
        (alongside u.expander I u.maxExpansions e' u.forest) left v.maxExpansions part) →
      (alongside u.expander I u.maxExpansions e' u.forest).Runs (x left) u y
        { v with expander := e' }) :
    Limited x y u v := by
  refine ⟨fun left hleft => ?_, ?_⟩
  · have hv : v = { v with expander := .none } := by rw [← h.plain]
    rw [hv]
    exact endsAlike_of_runs (hruns left .none fun part hpart =>
      unrewritten_of_declines h.declines hpart hleft h.limit)
  · exact endsAlike_of_runs (hruns 0 _ fun part _ => unrewritten_of_refusing part h.limit)

/-- **The limit of expansions.** As long as an expansion is left, a form without macros has the
outcome that it has in a unit that knows none. With none left it has the outcome that it has where
all that is offered is refused: the first call in it fails, although no macro applies to it. This
holds of expressions, of the elements of enums, and of the top-level forms that are offered. The
others do not depend on the number of expansions left. -/
theorem limited_of_unexpanded {I : σ → Prop} {u : Compilation σ} {v : Compilation τ}
    {node : NodeId} (h : Unexpanded I u v node) :
    (∀ frame b, Limited (expression frame · b node) (process frame b node) u v) ∧
    (∀ underlying builder, Limited (elementWith underlying · builder node)
      (elements underlying builder [node]) u v) ∧
    (IsOffered u.forest node → ∀ inner,
      Limited (topFormWith inner · node) (processTopLevel node) u v) ∧
    (¬ IsOffered u.forest node → ∀ inner left,
      topFormWith inner left node u = topFormWith inner 0 node u) ∧
    (∀ frame b name arguments, u.IsCall node name arguments →
      FailsWith (expression frame 0 b node) u .expansionFailed u) := by
  have hstates : ∀ e' : Expander τ, Alongside u.expander I u.maxExpansions e' u.forest u
      { v with expander := e' } := fun _ =>
    ⟨h.context, rfl, h.forest, rfl, rfl, h.memory, rfl⟩
  refine ⟨fun frame b => ?_, fun underlying builder => ?_, fun hoffered inner => ?_,
    fun hnot inner left => ?_, fun frame b _ _ hcall => expression_call_spent hcall frame b⟩
  · refine limited_of_runs h fun left e' hparts => ?_
    -- both runs go down to the same depth, with as many expansions left as each has
    have halike := expressionBelow_runs alongside_beside (fun h => ⟨rfl, h.context⟩)
      (fun part hpart {u v items} h hitems item hitem => ?_) hparts frame (expansion frame left)
      (expansion frame v.maxExpansions) (node.index + 1) node .whole
    · unfold Coupling.Runs
      rw [expression_eq, process_eq]
      exact halike.runs (hstates e') b
    · exact .item hpart (h.forest ▸ hitems) hitem
  · refine limited_of_runs h fun left e' hparts => ?_
    unfold Coupling.Runs
    rw [elements_single]
    exact elementWith_runs alongside_beside (hparts node .whole) (hstates e') underlying builder
  · refine limited_of_runs h fun left e' hparts => ?_
    exact topFormWith_runs alongside_beside (hparts node .whole) (hstates e') hoffered inner _
  · cases left <;> exact topForm_unoffered hnot _ _

/-! ## A call that a macro leaves -/

/-- The forms `(def f (fn extern int ()))`, `(f)` and `(m (f))`. -/
def callForest : Forest :=
  ⟨#[⟨.token ⟨.symbol, ⟨1⟩⟩, .dummy⟩, ⟨.token ⟨.symbol, ⟨2⟩⟩, .dummy⟩,
    ⟨.token ⟨.symbol, ⟨3⟩⟩, .dummy⟩, ⟨.token ⟨.symbol, ⟨4⟩⟩, .dummy⟩,
    ⟨.token ⟨.symbol, ⟨5⟩⟩, .dummy⟩, ⟨.list [], .dummy⟩, ⟨.list [⟨2⟩, ⟨3⟩, ⟨4⟩, ⟨5⟩], .dummy⟩,
    ⟨.list [⟨0⟩, ⟨1⟩, ⟨6⟩], .dummy⟩, ⟨.token ⟨.symbol, ⟨6⟩⟩, .dummy⟩, ⟨.list [⟨1⟩], .dummy⟩,
    ⟨.list [⟨8⟩, ⟨9⟩], .dummy⟩],
    ⟨#["", "def", "f", "fn", "extern", "int", "m"]⟩⟩

/-- The context after the definition of `f` was processed, with a block to call `f` in. -/
def callContext : Context :=
  let unit : Compilation PUnit := ⟨callForest, .start .standard, ⟨⟩, .none, 1⟩
  let c := (final (processTopLevel ⟨7⟩) unit).context
  c.withIr (Ir.Module.appendBlock ⟨0⟩ "entry" c.ir).2

/-- The unit without macros. -/
def callUnit : Compilation PUnit := ⟨callForest, callContext, ⟨⟩, .none, 1⟩

/-- The unit with the macro `m`, where forms are expanded once. -/
def oneMacroUnit : Compilation PUnit :=
  ⟨callForest, callContext, ⟨⟩, Rule.expander [unwrapRule], 1⟩

/-- The form `(f)` has no part but its head. -/
theorem callForest_partOf {node : NodeId} (h : callForest.PartOf ⟨9⟩ node) :
    node = ⟨9⟩ ∨ node = ⟨1⟩ := by
  induction h with
  | whole => exact .inl rfl
  | item _ hitems hitem ih =>
    rcases ih with rfl | rfl
    · rw [show callForest.items? ⟨9⟩ = some [⟨1⟩] by decide] at hitems
      cases hitems
      exact .inr (List.mem_singleton.1 hitem)
    · rw [show callForest.items? ⟨1⟩ = none by decide] at hitems
      cases hitems

/-- The call `(f)` is processed without macros. It fails for the limit when no expansion is left,
and so does `(m (f))`, which is expanded once. -/
theorem limited_oneMacroUnit :
    Unexpanded (fun _ => True) oneMacroUnit callUnit ⟨9⟩ ∧
      Ends (process ⟨⟨0⟩, .empty⟩ ⟨0⟩ ⟨9⟩) callUnit (fun r _ => r.ty = .int) (fun _ => False) ∧
      FailsWith (expression ⟨⟨0⟩, .empty⟩ 0 ⟨0⟩ ⟨9⟩) oneMacroUnit .expansionFailed oneMacroUnit ∧
      Ends (process ⟨⟨0⟩, .empty⟩ ⟨0⟩ ⟨10⟩) oneMacroUnit (fun _ _ => False)
        fun u => u.context.queue.stored.map (·.code) = #[.expansionFailed] := by
  have hunexpanded : Unexpanded (fun _ => True) oneMacroUnit callUnit ⟨9⟩ := by
    refine ⟨fun memory node _ hnode => ⟨⟨⟩, ?_, trivial⟩, trivial, rfl, by decide, rfl, rfl⟩
    change Rule.expander [unwrapRule] ⟨⟩ callForest node = _
    rw [unwrapRule_run]
    rcases callForest_partOf hnode with rfl | rfl <;> rfl
  have hcall : oneMacroUnit.IsCall ⟨9⟩ "f" [] :=
    ⟨⟨1⟩, by decide +kernel, by decide +kernel, by decide +kernel, .inl (by decide +kernel)⟩
  refine ⟨hunexpanded, ?_, ?_, ?_⟩
  · unfold Ends
    decide +kernel
  · exact (limited_of_unexpanded hunexpanded).2.2.2.2 _ _ _ _ hcall
  · unfold Ends
    decide +kernel

end Lower

end FormCompiler
