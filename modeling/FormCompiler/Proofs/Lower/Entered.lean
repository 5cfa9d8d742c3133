import FormCompiler.Proofs.ErrorReporting

/-!
# Top-Level Forms Leave What They Enter

A top-level form ends, with success or without, in the namespace that it began in. Only a form that
leads into a namespace enters one, and it leaves that one whatever becomes of the forms inside.

* `entering`: the conduct of steps that end with certain namespaces entered.
* `processTopLevel_entered`, `processAll_entered`: top-level forms have it.
-/

namespace FormCompiler.Lower

variable {σ α : Type} {entered : List NamespaceId}

/-- Before and after each step exactly these namespaces are entered. -/
def entering (entered : List NamespaceId) : Conduct (Compilation σ) where
  Holds u := u.context.entered = entered
  Stops _ u := u.context.entered = entered

/-- What declares nothing enters no namespace. -/
theorem entering_of_within {P : Pool → Pool → Prop} {R : Ir.Module → Ir.Module → Prop}
    {x : Lower σ α} (h : ∀ u, Ends x u (fun _ u' => u.context.Within P R u'.context)
      fun u' => u.context.Within P R u'.context) : (entering entered).Governs x := by
  intro u hu
  cases hrun : x u with
  | ok a u' => exact ((h u).of_ok hrun).entered.trans hu
  | error e u' => exact ((h u).of_error hrun).entered.trans hu

/-- Declarations enter no namespace. -/
theorem registering_entering (u : Compilation σ) :
    Context.Registering ((entering entered : Conduct (Compilation σ)).inside u) where
  proceeds hc h := h.within.entered.trans hc
  reports _ hc := hc
  addFunction {c} f hc := by
    change (c.update _).2.entered = entered
    cases c.current.addFunction? f <;> exact hc
  pool _ hc := hc
  layouts _ hc := hc
  update changed? hc := by cases changed? <;> exact hc

/-- Emitting code, declaring functions and offering forms enter no namespace. -/
theorem lasting_entering : Lasting (entering entered : Conduct (Compilation σ)) where
  context u := (registering_entering u).toLasting
  offer node := entering_of_within (P := (· = ·)) (R := (· = ·)) fun u =>
    ((offer_keeps node).ends u).mono (fun _ _ h => h.context) fun _ h => h.context

/-- A type enters no namespace. -/
theorem resolveType_entering (node : NodeId) :
    (entering entered).Governs (resolveType node : Lower σ TypeId) :=
  entering_of_within fun u => (resolveType_ends node u).mono (fun _ _ h => h.1.within.context)
    fun _ h => h.within.context

/-- A definition enters no namespace. -/
theorem definition_entering (node : NodeId) (arguments : List NodeId) :
    (entering entered).Governs (definition node arguments : Lower σ PUnit) := fun u hu =>
  definition_allowed lasting_entering
    (lasting_entering.defineEnum (fun u => (registering_entering u).registerEnum)
      resolveType_entering)
    (lasting_entering.defineStruct (fun u => (registering_entering u).registerStruct)
      resolveType_entering)
    node arguments hu fun nameNode name body parts =>
      lasting_entering.defineFunction
        (fun r => entering_of_within fun u =>
          ((drop_keeps .empty r).ends u).mono (fun _ _ h => h.context) fun _ h => h.context)
        (fun frame b node => entering_of_within fun u =>
          ((process_keeps frame.scope frame.func b node).ends u).mono (fun _ _ h => h.context)
            fun _ h => h.context)
        resolveType_entering (fun _ _ _ hu hc => hc.within.entered.trans hu) nameNode name body
        parts u hu

/-! ## Top-level forms -/

/-- Several forms end as each of them does. -/
theorem every_entering {step : NodeId → Lower σ PUnit}
    (h : ∀ node, (entering entered).Governs (step node)) (nodes : List NodeId) :
    (entering entered).Governs (every step nodes) := by
  induction nodes with
  | nil => exact .pure _
  | cons node nodes ih =>
    intro u hu
    have hfirst := h node u hu
    unfold every
    cases hrun : step node u with
    | ok a u₁ => exact ih u₁ (hfirst.of_ok hrun)
    | error e u₁ =>
      have hu₁ : u₁.context.entered = entered := hfirst.of_error hrun
      cases e with
      | unfinished => exact hu₁
      | reported =>
        -- the rest is processed all the same
        have hrest := ih u₁ hu₁
        dsimp only
        cases hrun' : every step nodes u₁ with
        | ok b u₂ => exact hrest.of_ok hrun'
        | error e u₂ => exact hrest.of_error hrun'

/-- A namespace that is entered comes before those that were. -/
theorem entered_enter (name : String) (c : Context) :
    ∃ id, (Context.enter name c).2.entered = id :: c.entered := by
  unfold Context.enter
  split
  next id _ => exact ⟨id, rfl⟩
  next => exact ⟨_, rfl⟩

/-- A form ends as the forms inside it do: those of a namespace form end in the namespace, which is
left then. -/
theorem topFormWith_entering {inner : List NodeId → Lower σ PUnit}
    (hinner : ∀ entered nodes, (entering entered).Governs (inner nodes)) (left : Nat)
    (node : NodeId) : (entering entered).Governs (topFormWith inner left node) := by
  intro u hu
  cases hcontents : contentsWith? left node u with
  -- without contents nothing is entered; with contents one namespace is, around all of them
  | none =>
    obtain ⟨left', again, hlast, hrun⟩ := topFormWith_settled inner left node u
    have hsettled : (settled left node u).2.context.entered = entered :=
      (congrArg Context.entered (settled_context left node u)).trans hu
    rw [hrun]
    exact topForm_allowed left' lasting_entering hsettled
      (fun arguments => definition_entering _ arguments _ hsettled)
      (Option.map_eq_none_iff.1 hcontents) hlast
  | some contents =>
    obtain ⟨nodes, u'⟩ := contents
    have hrun := (topFormWith_contents inner left node u hcontents).2
    obtain ⟨⟨name, nodes'⟩, -, heq⟩ := Option.map_eq_some_iff.1 hcontents
    cases heq
    obtain ⟨id, hid⟩ := entered_enter name (settled left node u).2.context
    have hinside : (entering (id :: entered)).Holds ((settled left node u).2.entering name) := by
      refine hid.trans (congrArg (id :: ·) ?_)
      rw [settled_context, hu]
    rw [hrun]
    refine ensuring_allowed (K := entering (id :: entered)) (hinner _ _ _ hinside) ?_ ?_
    · exact fun u' hu' => congrArg List.tail hu'
    · exact fun _ u' hu' => congrArg List.tail hu'

/-- A top-level form in which namespace forms nest to any depth leaves what it enters. -/
theorem topFormBelow_entering (depth : Nat) (node : NodeId) :
    (entering entered).Governs (topFormBelow depth node : Lower σ PUnit) := by
  induction depth generalizing entered node with
  | zero => exact fun u hu => hu
  | succ depth ih =>
    exact .get fun u _ => topFormWith_entering (fun _ => every_entering fun node => ih node) _ node

/-- What ends with the same namespaces entered does so in every outcome. -/
theorem entered_final {x : Lower σ α} (h : ∀ entered, (entering entered).Governs x)
    (u : Compilation σ) : (final x u).context.entered = u.context.entered := by
  have hu := h _ u rfl
  unfold final
  cases hrun : x u with
  | ok a u' => exact hu.of_ok hrun
  | error e u' => exact hu.of_error hrun

/-- A top-level form leaves the entered namespaces as they were. -/
theorem processTopLevel_entered (node : NodeId) (u : Compilation σ) :
    (final (processTopLevel node) u).context.entered = u.context.entered :=
  entered_final (fun _ => topFormBelow_entering _ node) u

/-- So do several ones. -/
theorem processAll_entered (nodes : List NodeId) (u : Compilation σ) :
    (final (processAll nodes) u).context.entered = u.context.entered :=
  entered_final (fun _ => every_entering (topFormBelow_entering _) nodes) u

end FormCompiler.Lower
