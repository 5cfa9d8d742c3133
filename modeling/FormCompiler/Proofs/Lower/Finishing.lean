import FormCompiler.Proofs.Lower.Conduct
import FormCompiler.Proofs.Lower.Tracing

/-!
# Definitions Come to an End

Every definition is processed to its end, with success or a report. Types are resolved along the
forest, where the parts of a list stand before it; the elements of an enum are expanded a limited
number of times; and the body of a function is a list of expressions, each of which comes to an end
if the members of structs stand before them (`Context.Ordered`).

* `Compilation.Founded`: what the steps of a definition find and leave.
* `definition_concludes`: a definition comes to an end.
-/

namespace FormCompiler

variable {σ α β : Type}

/-- The unit has the expander and the limit of another one, its forest is built of earlier nodes,
and its context has the property. -/
structure Compilation.Founded (o : Compilation σ) (Q : Context → Prop) (u : Compilation σ) :
    Prop where
  expander : u.expander = o.expander
  limit : u.maxExpansions = o.maxExpansions
  forest : u.forest.WellBuilt
  context : Q u.context

/-- Nothing need be known of the context. -/
theorem Compilation.Founded.forget {o u : Compilation σ} {Q : Context → Prop} (h : o.Founded Q u) :
    o.Founded (fun _ => True) u := ⟨h.expander, h.limit, h.forest, trivial⟩

/-- No property of contexts at all is needed to go on. -/
theorem Context.lasting_true : Context.Lasting (.ending fun _ => True) where
  proceeds _ _ := trivial
  reports _ _ := ⟨rfl, trivial⟩
  addFunction _ _ := trivial

namespace Lower

open Context (lasting_true lasting_ordered)

variable {o : Compilation σ} {Q : Context → Prop}

/-- A step on the context. -/
theorem inside_founded {step : Check α} (h : (Conduct.ending Q).Governs step) (u : Compilation σ) :
    ((Conduct.ending (o.Founded Q)).inside u).Governs step := fun c hu =>
  (h c hu.context).mono (fun _ _ _ hc => ⟨hu.expander, hu.limit, hu.forest, hc⟩)
    fun _ _ _ hc => ⟨hc.1, hu.expander, hu.limit, hu.forest, hc.2⟩

/-- Asking the expander. -/
theorem offer_finishes (ho : o.expander.Builds) (node : NodeId) :
    (Conduct.ending (o.Founded Q)).Governs (offer node) := by
  intro u hu
  have hbuilt := ho u.memory u.forest node hu.forest
  rw [← hu.expander] at hbuilt
  exact ⟨hu.expander, hu.limit, hbuilt, hu.context⟩

/-- Definitions go on in founded units as long as the property of their contexts lasts. -/
theorem lasting_founded (ho : o.expander.Builds) (hQ : Context.Lasting (.ending Q)) :
    Lasting (.ending (o.Founded Q)) where
  context _ :=
    { proceeds := fun hu hc => ⟨hu.expander, hu.limit, hu.forest, hQ.proceeds hu.context hc⟩
      reports := fun d hu => ⟨rfl, hu.expander, hu.limit, hu.forest, (hQ.reports d hu.context).2⟩
      addFunction := fun f hu =>
        ⟨hu.expander, hu.limit, hu.forest, hQ.addFunction f hu.context⟩ }
  offer := offer_finishes ho

/-- Where nothing need be known of the context, anything may be declared. -/
theorem founded_mindsQueue (u : Compilation σ) :
    Context.MindsQueue ((Conduct.ending (o.Founded fun _ => True)).inside u) where
  silent hu _ := ⟨hu.expander, hu.limit, hu.forest, trivial⟩
  reports _ hu := ⟨rfl, hu.expander, hu.limit, hu.forest, trivial⟩

/-- Dropping a result comes to an end. -/
theorem drop_finishes (r : Result) :
    (Conduct.ending (o.Founded Context.Ordered)).Governs (drop r) :=
  .bind (onContext_governed (inside_founded (Context.destruct_finishes r))) fun _ => .pure _

section

variable (ho : o.expander.Builds)

include ho

/-- Resolving a type comes to an end. -/
theorem resolveType_finishes (hQ : Context.Lasting (.ending Q)) (node : NodeId) :
    (Conduct.ending (o.Founded Q)).Governs (resolveType node) := by
  unfold resolveType
  have hnode : node.index < node.index + 1 := Nat.lt_succ_self _
  generalize node.index + 1 = bound at hnode
  induction bound generalizing node with
  | zero => exact absurd hnode (Nat.not_lt_zero _)
  | succ bound ih =>
    refine (lasting_founded ho hQ).resolveTypeBelow_succ bound node
      fun u hu items hkind part hpart => ih part ?_
    -- the parts of a list stand before it
    have hbefore := hu.forest node items hkind part hpart
    omega

/-- An expression comes to an end. -/
theorem process_finishes (frame : Frame) (b : Ir.BlockId) (node : NodeId) :
    (Conduct.ending (o.Founded Context.Ordered)).Governs
      (process frame b node : Lower σ Result) := by
  intro u hu
  have hkeeps := (process_keeps frame.scope frame.func b node).ends u
  have hbounded : u.Bounded := ⟨hu.forest, hu.expander ▸ ho, hu.context⟩
  have hruns := (tracedTo_runs frame u.maxExpansions (Nat.zero_add _) node).runs
    (tracing_states hbounded []) b
  unfold Coupling.Runs at hruns
  rw [show expression frame u.maxExpansions b node u = process frame b node u from rfl] at hruns
  cases hrun : process frame b node u <;>
    cases htraced : tracedTo frame u.maxExpansions b node (u.traced []) <;>
    rw [hrun, htraced] at hruns
  case ok.ok =>
    obtain ⟨-, -, hafter, -⟩ := hruns
    have hkept := hkeeps.of_ok hrun
    exact ⟨hkept.expander.trans hu.expander, hkept.limit.trans hu.limit, hafter.forest,
      hafter.structs⟩
  case error.error =>
    obtain ⟨⟨rfl, -⟩, -, hafter, -⟩ := hruns
    have hkept := hkeeps.of_error hrun
    exact ⟨rfl, hkept.expander.trans hu.expander, hkept.limit.trans hu.limit, hafter.forest,
      hafter.structs⟩
  all_goals exact hruns.elim

/-- The declaration of a function comes to an end. -/
theorem defineFunction_finishes (nameNode : NodeId) (name : String) (bodyNode : NodeId)
    (parts : List NodeId) :
    (Conduct.ending (o.Founded Context.Ordered)).Governs
      (defineFunction nameNode name bodyNode parts) :=
  (lasting_founded ho lasting_ordered).defineFunction drop_finishes (process_finishes ho)
    (resolveType_finishes ho lasting_ordered)
    (fun _ _ _ hu hc => ⟨hu.1, hu.2.expander, hu.2.limit, hu.2.forest, hu.2.context.proceeds hc⟩)
    _ _ _ _

/-- A definition comes to an end. -/
theorem definition_concludes (node : NodeId) (arguments : List NodeId) {u : Compilation σ}
    (hu : o.Founded Context.Ordered u) :
    (Conduct.ending (o.Founded fun _ => True)).Allows (definition node arguments u) :=
  have hlasting := lasting_founded ho lasting_true
  have hresolve := resolveType_finishes ho lasting_true
  definition_allowed hlasting
    (hlasting.defineEnum (fun u => (founded_mindsQueue u).registering.registerEnum) hresolve)
    (hlasting.defineStruct (fun u => (founded_mindsQueue u).registering.registerStruct) hresolve)
    node arguments hu.forget
    fun nameNode name body parts => (defineFunction_finishes ho nameNode name body parts u hu).mono
      (fun _ _ _ h => h.forget) fun _ _ _ h => ⟨h.1, h.2.forget⟩

end

end Lower

end FormCompiler
