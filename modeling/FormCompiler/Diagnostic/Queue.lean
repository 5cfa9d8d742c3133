import FormCompiler.Diagnostic.Basic

/-!
# The Diagnostic Queue

The diagnostics of one unit. Errors past a limit and exact repeats are counted but not stored, so
a failure is never forgotten; warnings and notes are dropped only when they repeat a stored
diagnostic. Flushing hands out the stored diagnostics in the order of their places and starts anew.
-/

namespace FormCompiler

/-- What the queue stores. -/
structure QueueConfig where
  /-- Greatest number of stored errors; 0 means no limit. -/
  errorLimit : Nat
  /-- Exact repeats of a stored diagnostic are not stored. -/
  deduplicate : Bool
deriving DecidableEq, Repr

namespace QueueConfig

/-- At most twenty errors, without repeats. -/
def standard : QueueConfig := ⟨20, true⟩

/-- Everything is stored. -/
def unlimited : QueueConfig := ⟨0, false⟩

instance : Inhabited QueueConfig := ⟨standard⟩

end QueueConfig

/-- The diagnostics of a unit, in the order of emission, and the counts of its errors. -/
structure Queue where
  stored : Array Diagnostic
  /-- Errors emitted since the last flush, stored or not. -/
  errorCount : Nat
  /-- Errors emitted since the last flush that are not stored. -/
  suppressed : Nat
  config : QueueConfig
deriving Repr

namespace Queue

/-- The queue to which nothing was emitted. -/
def empty (config : QueueConfig) : Queue := ⟨#[], 0, 0, config⟩

instance : Inhabited Queue := ⟨empty default⟩

/-- Number of errors in store. -/
def storedErrors (q : Queue) : Nat := q.errorCount - q.suppressed

/-- No more errors are stored. -/
def limitReached (q : Queue) : Bool :=
  0 < q.config.errorLimit && q.config.errorLimit ≤ q.storedErrors

/-- The diagnostic repeats a stored one and repeats are not stored. -/
def isRepeat (q : Queue) (d : Diagnostic) : Bool :=
  q.config.deduplicate && q.stored.any d.repeats

/-- Emits an error: it is counted, and stored unless the limit is reached or it is a repeat. -/
def emitError (q : Queue) (d : Diagnostic) : Queue :=
  if q.limitReached || q.isRepeat d then
    { q with errorCount := q.errorCount + 1, suppressed := q.suppressed + 1 }
  else
    { q with errorCount := q.errorCount + 1, stored := q.stored.push d }

/-- Emits any diagnostic and says whether it counts: an error always does, a warning or note if it
was stored. -/
def add (q : Queue) (d : Diagnostic) : Bool × Queue :=
  if d.isError then (true, q.emitError d)
  else if q.isRepeat d then (false, q)
  else (true, { q with stored := q.stored.push d })

/-- Some error was emitted. -/
def hasErrors (q : Queue) : Bool := 0 < q.errorCount

/-- The order of places: by span, and after all spans the diagnostics without one. -/
def placeLe (a b : Option Span) : Bool :=
  match a, b with
  | some s, some t => s.le t
  | some _, none => true
  | none, some _ => false
  | none, none => true

/-- The stored diagnostics in the order of their places, ties in the order of emission, and the
queue that goes on. -/
def flush (q : Queue) : List Diagnostic × Queue :=
  (q.stored.toList.mergeSort fun a b => placeLe a.primarySpan? b.primarySpan?, empty q.config)

end Queue

end FormCompiler
