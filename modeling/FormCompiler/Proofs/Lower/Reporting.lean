import FormCompiler.Proofs.Lower.Conduct

/-!
# Expressions and Definitions Report Once

No failure of a part is reported again by the form around it, and none goes by unreported
(`ReportsOnce`). For expressions this is proved by way of a run beside itself (`watched`): a
coupling whose units have the queue from before as long as no part has failed.
-/

namespace FormCompiler

/-- What was reported so far. -/
def Compilation.queue {σ : Type} (u : Compilation σ) : Queue := u.context.queue

namespace Lower

variable {σ α : Type}

/-- Only the queue matters for what is reported. -/
theorem reporting_mindsQueue (before : Queue) (u : Compilation σ) :
    Context.MindsQueue ((reporting Compilation.queue before).inside u) :=
  Context.reporting_mindsQueue before

/-- The expander reports nothing by itself. -/
theorem lasting_reporting (before : Queue) :
    Lasting (reporting (σ := Compilation σ) Compilation.queue before) where
  context u := (reporting_mindsQueue before u).lasting
  offer _ _ hu := hu

/-- Dropping a result reports once. -/
theorem drop_reportsOnce (r : Result) :
    ReportsOnce Compilation.queue (drop r : Lower σ Ir.BlockId) := fun before =>
  .bind (onContext_governed fun _ => Context.destruct_reportsOnce r before) fun _ => .pure _

/-! ## Expressions -/

/-- A run beside itself, in units that have the queue from before. -/
def watched (σ : Type) (before : Queue) : Coupling σ σ where
  States u v := v = u ∧ u.queue = before
  Stops e u _ _ := (reporting Compilation.queue before).Stops e u
  Nodes n m := m = n
  context := by
    rintro u v ⟨rfl, -⟩
    rfl
  proceeds := by
    rintro u v c ⟨rfl, hu⟩ hc
    exact ⟨rfl, hc.queue.trans hu⟩
  reports := by
    rintro u v d ⟨-, hu⟩
    exact ⟨d, congrArg (Queue.emitError · d) hu⟩
  refuses := by
    rintro u v n m d ⟨-, hu⟩ -
    exact ⟨_, congrArg (Queue.emitError · _) hu⟩
  unfinished := by
    rintro u v r c ⟨-, hu⟩ hrun
    exact (Context.destruct_reportsOnce r before u.context hu).of_error hrun

/-- A run beside itself goes through the same forms. -/
theorem watched_parallel (before : Queue) : (watched σ before).Parallel where
  nodes _ := rfl
  forest h := by rw [h.1]
  limit h := by rw [h.1]
  offer := by
    rintro u v ⟨rfl, hu⟩ n
    exact ⟨rfl, rfl, hu⟩

/-- A step beside itself: its outcome is one of a step that reports once. -/
theorem watched_runs {before : Queue} {x : Lower σ α} {u : Compilation σ} :
    (watched σ before).Runs x u x u ↔ (reporting Compilation.queue before).Allows (x u) := by
  unfold Coupling.Runs
  match x u with
  | .ok a u' => exact ⟨fun h => h.2.2, fun h => ⟨rfl, rfl, h⟩⟩
  | .error e u' => exact Iff.rfl

/-- Processing an expression reports once. -/
theorem process_reportsOnce (frame : Frame) (b : Ir.BlockId) (node : NodeId) :
    ReportsOnce Compilation.queue (process frame b node : Lower σ Result) := by
  rintro before u rfl
  refine process_satisfies frame
    (Q := fun _ _ u outcome => (reporting Compilation.queue u.queue).Allows outcome)
    (fun _ _ _ => rfl) ?_ b node u
  intro left sub again hsub hagain b n u
  have halike : ∀ {sub : Lower.Sub σ}, Satisfies
      (fun _ _ u outcome => (reporting Compilation.queue u.queue).Allows outcome) sub →
      ∀ m, (watched σ u.queue).Alike sub sub m m := fun hsub m =>
    ⟨rfl, fun {u' v'} hstates b => by
      obtain ⟨rfl, hqueue⟩ := hstates
      exact watched_runs.2 (hqueue ▸ hsub b m v')⟩
  exact watched_runs.1 ((watched_parallel u.queue).form_runs
    (fun m (_ : True) => halike hsub m) ⟨rfl, rfl⟩ b frame left (fun _ _ _ _ _ _ _ _ _ => trivial)
    (fun _ _ _ _ => trivial) fun _ => halike hagain)

/-! ## Types and definitions -/

/-- Resolving a type reports once. -/
theorem resolveType_reportsOnce (node : NodeId) :
    ReportsOnce Compilation.queue (resolveType node : Lower σ TypeId) := by
  intro before
  unfold resolveType
  generalize node.index + 1 = bound
  induction bound generalizing node with
  | zero => exact fun _ hu => hu
  | succ bound ih =>
    exact (lasting_reporting before).resolveTypeBelow_succ bound node fun _ _ _ _ part _ => ih part

/-- The declaration of an enum reports once. -/
theorem defineEnum_reportsOnce (nameNode : NodeId) (name : String) (body : NodeId)
    (parts : List NodeId) :
    ReportsOnce Compilation.queue (defineEnum nameNode name body parts : Lower σ PUnit) :=
  fun before => (lasting_reporting before).defineEnum
    (fun u => (reporting_mindsQueue before u).registering.registerEnum)
    (fun _ => resolveType_reportsOnce _ before) _ _ _ _

/-- The declaration of a struct reports once. -/
theorem defineStruct_reportsOnce (nameNode : NodeId) (name : String) (body : NodeId)
    (parts : List NodeId) :
    ReportsOnce Compilation.queue (defineStruct nameNode name body parts : Lower σ PUnit) :=
  fun before => (lasting_reporting before).defineStruct
    (fun u => (reporting_mindsQueue before u).registering.registerStruct)
    (fun _ => resolveType_reportsOnce _ before) _ _ _ _

/-- The declaration of a function reports once. -/
theorem defineFunction_reportsOnce (nameNode : NodeId) (name : String) (bodyNode : NodeId)
    (parts : List NodeId) :
    ReportsOnce Compilation.queue
      (defineFunction nameNode name bodyNode parts : Lower σ PUnit) := fun before =>
  (lasting_reporting before).defineFunction (fun _ => drop_reportsOnce _ before)
    (fun _ _ _ => process_reportsOnce _ _ _ before) (fun _ => resolveType_reportsOnce _ before)
    (fun e u c hu hc => by
      cases e with
      | reported =>
        obtain ⟨d, hd⟩ := hu
        exact ⟨d, hc.queue.trans hd⟩
      | unfinished => exact hc.queue.trans hu) _ _ _ _

/-- A definition reports once. -/
theorem definition_reportsOnce (node : NodeId) (arguments : List NodeId) :
    ReportsOnce Compilation.queue (definition node arguments : Lower σ PUnit) :=
  fun before u hu => definition_allowed (lasting_reporting before)
    (fun _ _ _ _ => defineEnum_reportsOnce _ _ _ _ before)
    (fun _ _ _ _ => defineStruct_reportsOnce _ _ _ _ before) node arguments hu
    fun _ _ _ _ => defineFunction_reportsOnce _ _ _ _ before u hu

/-- A definition that is taken for that of an enum reports once. -/
theorem declareEnum_reportsOnce (node : NodeId) :
    ReportsOnce Compilation.queue (declareEnum node : Lower σ PUnit) := fun before =>
  declareEnum_governed (lasting_reporting before)
    (fun _ _ _ _ => defineEnum_reportsOnce _ _ _ _ before) node

end Lower

end FormCompiler
