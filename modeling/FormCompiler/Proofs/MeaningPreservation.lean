import FormCompiler.Proofs.Lower.Simulation
import FormCompiler.Proofs.TypePreservation

/-!
# Preservation of Meaning

The code of an expression computes what the expression means (`process_preservesMeaning`). The
meaning is that of a direct evaluation from left to right, which knows nothing of blocks; the code
is executed from the end of the block it was emitted to until it ends in the block of the result.
Memory, the calls made and the value and address of the result agree, whatever the machine does for
memory and calls. This is for plain units: no code copies or cleans up values, and nothing is
rewritten.
-/

namespace FormCompiler

namespace Ir.Machine

variable {V M : Type} (machine : Machine V M) (m : Module) {s s' s'' : State V M}

/-- Execution leads from one state to the other and ends there. -/
def Executes (s s' : State V M) : Prop := machine.Runs m s s' ∧ machine.step? m s' = none

variable {machine m}

/-- Execution ends in one state at most. -/
theorem Executes.unique (h : machine.Executes m s s') (h' : machine.Executes m s s'') :
    s' = s'' := by
  obtain ⟨hruns, hends⟩ := h
  obtain ⟨hruns', hends'⟩ := h'
  induction hruns using Relation.ReflTransGen.head_induction_on with
  | refl =>
    cases hruns'.cases_head with
    | inl heq => exact heq
    | inr hstep =>
      obtain ⟨next, hnext, -⟩ := hstep
      cases hends.symm.trans hnext
  | head hstep _ ih =>
    cases hruns'.cases_head with
    | inl heq =>
      subst heq
      cases hends'.symm.trans hstep
    | inr hstep' =>
      obtain ⟨next, hnext, hruns'⟩ := hstep'
      cases hstep.symm.trans hnext
      exact ih hruns'

end Ir.Machine

/-- An address is part of what a typed result stands for. -/
theorem Result.Typed.place_eq {V M : Type} {c : Context} {r : Result} (h : r.Typed c)
    (machine : Ir.Machine V M) (m : Ir.Module) (values : Ir.ValueId → V) :
    (r.datum machine m values).place.map (·.1) = r.address.map (machine.operand m values) := by
  unfold datum
  cases haddress : r.address with
  | none => rfl
  | some a =>
    obtain ⟨t, ht, -⟩ := h.addressed a haddress
    rw [ht]
    rfl

namespace Lower

variable {σ V M : Type} {u u' : Compilation σ} {frame : Frame} {b : Ir.BlockId} {node : NodeId}
  {r : Result}

/-- In a plain unit an expression that gives a result has one meaning, and from the end of the open
block that it was given the code that was emitted is executed to the end of the block of the result,
with the memory, the calls, the value and the address that the meaning says. -/
theorem process_preservesMeaning (hu : Reachable u) (hplain : u.Plain)
    (hscope : frame.scope.Represented u.context) (hb : b.index < u.context.ir.blocks.size)
    (hopen : u.context.ir.isTerminated b = false) (h : process frame b node u = .ok r u')
    (machine : Ir.Machine V M) (s : Ir.State V M) (hs : s.At u.context.ir b) :
    ∃ calls memory d,
      (∀ calls' memory' ds,
        u'.Evaluates machine (frame.scope.environment machine u'.context.ir s.values) s.memory
          (.form node) calls' memory' ds ↔ calls' = calls ∧ memory' = memory ∧ ds = [d]) ∧
      ∃ s', (∀ s'', machine.Executes u'.context.ir s s'' ↔ s'' = s') ∧
        s'.At u'.context.ir r.block ∧ s'.memory = memory ∧ s'.calls = s.calls ++ calls ∧
        d.ty = r.ty ∧ d.value = machine.operand u'.context.ir s'.values r.value ∧
        d.place.map (·.1) = r.address.map (machine.operand u'.context.ir s'.values) := by
  obtain ⟨es, hlower⟩ := process_lowers h
  have hready : Ready frame u b := ⟨⟨hu.valid, hscope.typed hu.valid⟩, hplain, hb, hopen⟩
  have hsimulated : Simulated machine frame u' u u' b (.form node) (.one r) :=
    hlower.simulated hready (Std.Refl.refl u')
  obtain ⟨calls, s', heval, hadvances, hat, hcalls⟩ := hsimulated s hs
  have hexecutes : machine.Executes u'.context.ir s s' :=
    ⟨hadvances.runs, Ir.Machine.step?_of_open (hready.leads hlower).isOpen hat⟩
  have htyped : r.Typed u'.context := hlower.typed hready.settled
  refine ⟨calls, s'.memory, r.datum machine u'.context.ir s'.values, fun calls' memory' ds => ?_,
    s', fun s'' => ?_, hat, rfl, hcalls, rfl, rfl, htyped.place_eq machine _ _⟩
  · refine ⟨fun heval' => heval'.deterministic heval, ?_⟩
    rintro ⟨rfl, rfl, rfl⟩
    exact heval
  · refine ⟨fun hexecutes' => hexecutes'.unique hexecutes, ?_⟩
    rintro rfl
    exact hexecutes

/-- A machine whose values are integers, and whose memory has one at every address. -/
def integerMachine : Ir.Machine Int (Int → Int) where
  unit := 0
  constant _ kind :=
    match kind with
    | .constInt raw => raw
    | _ => 0
  truth x := x != 0
  alloca _ memory := (0, memory)
  load _ memory address := memory address
  store _ memory x address := fun a => if a = address then x else memory a
  call _ _ memory := (0, memory)
  extract x _ := x
  insert _ x _ := x
  compare _ x y := if x = y then 1 else 0

/-- A session with a variable `x` of type `int`, and the form `(if true x 1)`. -/
def pickSession : Compilation Unit where
  forest := ⟨#[⟨.token ⟨.symbol, ⟨1⟩⟩, .dummy⟩, ⟨.token ⟨.symbol, ⟨2⟩⟩, .dummy⟩,
    ⟨.token ⟨.symbol, ⟨3⟩⟩, .dummy⟩, ⟨.token ⟨.integer, ⟨4⟩⟩, .dummy⟩,
    ⟨.list [⟨0⟩, ⟨1⟩, ⟨2⟩, ⟨3⟩], .dummy⟩], ⟨#["", "if", "true", "x", "1"]⟩⟩
  context := (Context.openSession "scratch" [⟨"x", .int, false⟩] .void .internal
    (.start .standard)).2
  memory := ()
  expander := .none
  maxExpansions := 128

/-- The function of the session, with the parameter for `x`. -/
def pickFrame : Frame := ⟨⟨0⟩, ⟨[("x", ⟨.int, .value ⟨0⟩⟩)]⟩⟩

/-- The start of the execution of the session. -/
def pickStart : Ir.State Int (Int → Int) := ⟨⟨0⟩, 0, none, fun _ => 7, fun _ => 0, []⟩

/-- The code of the conditional is executed to the end of the block where its branches merge, and
the result is what `x` stood for. -/
theorem executes_pickSession :
    Reachable pickSession ∧ pickSession.Plain ∧
      pickFrame.scope.Represented pickSession.context ∧
      ∃ r u', process pickFrame ⟨0⟩ ⟨4⟩ pickSession = .ok r u' ∧
        ∃ s', integerMachine.Executes u'.context.ir pickStart s' ∧ s'.At u'.context.ir ⟨3⟩ ∧
          integerMachine.operand u'.context.ir s'.values r.value =
            integerMachine.operand u'.context.ir pickStart.values ⟨0⟩ := by
  have hreachable : Reachable pickSession := by
    have hstart : Reachable (.start .standard .none () : Compilation Unit) := .start _ _ _
    have hparams : ∀ p ∈ [SessionParam.mk "x" .int false],
        (Compilation.start .standard .none () : Compilation Unit).context.Grounded p.ty :=
      fun p hp => by
        rw [List.mem_singleton.1 hp]
        exact hstart.valid.grounded_primitive .int
    exact (hstart.openSession "scratch" hparams .void .internal).forest pickSession.forest
  have hplain : pickSession.Plain := ⟨rfl, by decide +kernel, by decide +kernel⟩
  have hscope : pickFrame.scope.Represented pickSession.context := by
    intro name v hv
    rw [pickFrame, Scope.lookup?, List.lookup_cons] at hv
    split at hv
    next =>
      cases hv
      have hint : pickSession.context.Backs .int ⟨0⟩ :=
        .primitive (p := .int) (by decide +kernel) (by decide +kernel)
      have hty : pickSession.context.ir.valueType ⟨0⟩ = ⟨0⟩ := by decide +kernel
      exact .value (by decide +kernel) ⟨by decide +kernel, hty ▸ hint.backendType⟩
    next => cases hv
  have hrun : Ends (process pickFrame ⟨0⟩ ⟨4⟩) pickSession (fun r _ => r.block = ⟨3⟩)
      fun _ => False := by
    unfold Ends
    decide +kernel
  cases h : process pickFrame ⟨0⟩ ⟨4⟩ pickSession with
  | error e u' => exact (hrun.of_error h).elim
  | ok r u' =>
    have hblock := hrun.of_ok h
    obtain ⟨calls, memory, d, hmeaning, s', hexecutes, hat, -, -, -, hvalue, -⟩ :=
      process_preservesMeaning hreachable hplain hscope (by decide +kernel) (by decide +kernel) h
        integerMachine pickStart ⟨rfl, by decide +kernel⟩
    have hkept : Compilation.Kept pickFrame.scope pickSession u' :=
      (process_keeps _ _ _ _).ok h
    -- the meaning of the form, by its rules
    have hshape : u'.shape ⟨4⟩ = .core .conditional [⟨1⟩, ⟨2⟩, ⟨3⟩] :=
      (hkept.shape_eq hplain ⟨4⟩).trans (by decide +kernel)
    have htest : u'.shape ⟨1⟩ = .truth true :=
      (hkept.shape_eq hplain ⟨1⟩).trans (by decide +kernel)
    have hx : u'.shape ⟨2⟩ = .variable "x" :=
      (hkept.shape_eq hplain ⟨2⟩).trans (by decide +kernel)
    obtain ⟨-, -, hd⟩ := (hmeaning _ _ _).1 (.conditional hshape (.truth htest) rfl (.value hx rfl))
    cases hd
    exact ⟨hreachable, hplain, hscope, r, u', rfl, s', (hexecutes s').2 rfl, hblock ▸ hat,
      hvalue.symm⟩

end Lower

end FormCompiler
