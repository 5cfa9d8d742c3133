import FormCompiler.Proofs.Context.Conduct

/-!
# Steps that Report Once

A step that gives a result should have reported nothing, and one that fails should have reported its
failure, and that only. This is a conduct of steps (`reporting`), and it minds only the queue.
-/

namespace FormCompiler

/-- From a state with the queue `before` on, steps report nothing as long as they go on, and one
error if they fail. Where the depth to which they are followed does not suffice they report nothing
either. -/
def reporting {σ : Type} (queue : σ → Queue) (before : Queue) : Conduct σ where
  Holds s := queue s = before
  Stops e s :=
    match e with
    | .reported => ∃ d, queue s = before.emitError d
    | .unfinished => queue s = before

/-- The step reports nothing if it gives a result, and one error if it fails. -/
def ReportsOnce {σ α : Type} (queue : σ → Queue) (x : EStateM Halt σ α) : Prop :=
  ∀ before, (reporting queue before).Governs x

/-- An error that is emitted is counted, whether it is stored or not. -/
theorem Queue.errorCount_emitError (q : Queue) (d : Diagnostic) :
    (q.emitError d).errorCount = q.errorCount + 1 := by
  unfold emitError
  split <;> rfl

namespace Context

/-- Only the queue matters for what is reported. -/
theorem reporting_mindsQueue (before : Queue) : MindsQueue (reporting Context.queue before) where
  silent hc h := Eq.trans h hc
  reports d hc := ⟨d, congrArg (Queue.emitError · d) hc⟩

/-- Cleaning up a value reports once. -/
theorem cleanUpBelow_reportsOnce (bound : Nat) (b : Ir.BlockId) (t : TypeId)
    (value : Ir.ValueId) : ReportsOnce Context.queue (cleanUpBelow bound b t value) := by
  intro before
  induction bound generalizing b t value with
  | zero => exact fun _ hc => hc
  | succ bound ih =>
    exact (reporting_mindsQueue before).lasting.cleanUpBelow_succ bound b t value
      fun _ _ _ _ member _ b v => ih b member v

/-- Dropping a result reports once. -/
theorem destruct_reportsOnce (r : Result) : ReportsOnce Context.queue (destruct r) := fun before =>
  destruct_governed r (cleanUpBelow_reportsOnce _ _ _ _ before)

end Context

end FormCompiler
