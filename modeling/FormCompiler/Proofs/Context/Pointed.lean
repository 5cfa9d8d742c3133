import FormCompiler.Proofs.Bounds.Types
import FormCompiler.Proofs.Context.Ordered
import FormCompiler.Proofs.Lower.Ownership

/-!
# Looking for Functions on Pointers

The destructor of a type and its copy function take pointers to the type. `pointerFunction?` looks
for such a function without a change of the context. To look for it in one go with the pool, the
type of pointers is entered first if it is new (`pointerFunctionFor`). The same function is found,
since no function takes a pointer that was entered only now (`pointerFunctionFor_eq`).

What follows goes on alike (`Alike`), as nothing that is emitted or reported depends on the types
that were entered.

* `destructorFor_eq`: the same destructor is found.
* `Lower.copyBorrowed_alike`: the same copy of a borrowed value is made, or the same report.
-/

namespace FormCompiler.Context

variable {α β : Type} {c c' d d' : Context} {t : TypeId}

/-- Some types without names were entered, and nothing else was changed. -/
def Pointed (c d : Context) : Prop := ∃ p, c.pool.Enlarged p ∧ d = c.withPool p

instance : Std.Refl Pointed := ⟨fun c => ⟨c.pool, Std.Refl.refl _, rfl⟩⟩

instance : IsTrans Context Pointed where
  trans := by
    rintro c _ _ ⟨p, hp, rfl⟩ ⟨p', hp', rfl⟩
    exact ⟨p', IsTrans.trans _ _ _ hp hp', rfl⟩

/-- Nothing was declared. -/
theorem Pointed.within (h : c.Pointed d) : c.Within Pool.Enlarged (· = ·) d := by
  obtain ⟨p, hp, rfl⟩ := h
  exact .of_pool hp

/-- Types stand for the same structs. -/
theorem Pointed.sameStructs (h : c.Pointed d) : c.SameStructs d := h.within.sameStructs

/-! ## Functions on pointers -/

/-- The function of a name in scope whose parameters are this many pointers to a type, by way of the
type of the pointers. -/
def pointerFunctionFor (name : String) (t : TypeId) (count : Nat) :
    StateM Context (Option Ir.FuncId) := fun c =>
  let (pointer, pool) := c.pool.pointerTo t
  let c := c.withPool pool
  ((c.lookupFunction? name (List.replicate count pointer)).map (·.backend), c)

/-- A pointer type is entered at most. -/
theorem pointerFunctionFor_pointed (name : String) (t : TypeId) (count : Nat) :
    Moves Pointed (pointerFunctionFor name t count) := fun _ =>
  ⟨_, ⟨(Pool.intern_spec _ _).1, Pool.unnamed_pointerTo _ _⟩, rfl⟩

/-- The function on pointers to a type is found, also after other types were entered. -/
theorem pointerFunctionFor_eq (hc : c.Valid) (h : c.Pointed d) (name : String) (t : TypeId)
    (count : Nat) :
    (pointerFunctionFor name t (count + 1) d).1 = c.pointerFunction? name t (count + 1) := by
  obtain ⟨p, hp, rfl⟩ := h
  obtain ⟨hgrown, hfound⟩ := p.intern_spec (.pointer t)
  -- in the new pool there is the pointer type, and the functions in scope are the same
  have hwithin : c.Within Pool.Extends (· = ·) (c.withPool (p.pointerTo t).2) :=
    .of_pool (hp.grown.trans hgrown)
  have hsame := pointerFunction?_of_within hc hwithin (hp.grown.trans hgrown) name t count
  have hpointer : (c.withPool (p.pointerTo t).2).pool.pointerTo? t = some (p.pointerTo t).1 :=
    hfound
  rw [← hsame, pointerFunction?, hpointer]
  rfl

/-- The destructor of a type, by way of the type of pointers to it. -/
def destructorFor (t : TypeId) : StateM Context (Option Ir.FuncId) := fun c =>
  if c.pool.isVoid t then (none, c)
  else
    let (pointer, pool) := c.pool.pointerTo t
    let c := c.withPool pool
    ((c.lookupFunction? destroyName [pointer]).map (·.backend), c)

/-- A pointer type is entered at most. -/
theorem destructorFor_pointed (t : TypeId) : Moves Pointed (destructorFor t) := fun c => by
  unfold destructorFor
  split
  · exact Std.Refl.refl c
  · exact pointerFunctionFor_pointed destroyName t 1 c

/-- The destructor of a type of the pool is found, also after other types were entered. -/
theorem destructorFor_eq (hc : c.Valid) (ht : c.pool.Has t) (h : c.Pointed d) :
    (destructorFor t d).1 = c.destructor? t := by
  have hfunction := pointerFunctionFor_eq hc h destroyName t 0
  have hvoid : d.pool.isVoid t = c.pool.isVoid t := by
    obtain ⟨p, hp, rfl⟩ := h
    rw [Pool.isVoid, Pool.isVoid, show (c.withPool p).pool.type t = c.pool.type t from
      hp.grown.type ht]
  unfold destructorFor destructor?
  rw [hvoid]
  split
  next => rfl
  next => exact hfunction

/-! ## Outcomes -/

/-- Both steps gave the same result or stopped for the same reason, and the second one entered more
types without names. -/
def Alike : EStateM.Result Halt Context α → EStateM.Result Halt Context α → Prop
  | .ok a c, .ok a' d => a' = a ∧ c.Pointed d
  | .error e c, .error e' d => e' = e ∧ c.Pointed d
  | _, _ => False

namespace Alike

/-- What is alike to a result is one. -/
theorem of_ok {a : α} {outcome : EStateM.Result Halt Context α} (h : Alike (.ok a c) outcome) :
    ∃ d, outcome = .ok a d ∧ c.Pointed d := by
  cases outcome with
  | ok a' d => exact ⟨d, by rw [h.1], h.2⟩
  | error e d => exact h.elim

/-- What is alike to a stop is one. -/
theorem of_error {e : Halt} {outcome : EStateM.Result Halt Context α}
    (h : Alike (.error e c) outcome) : ∃ d, outcome = .error e d ∧ c.Pointed d := by
  cases outcome with
  | ok a d => exact h.elim
  | error e' d => exact ⟨d, by rw [h.1], h.2⟩

/-- Sequences are alike if their parts are. -/
theorem bind {x y : Check α} {f g : α → Check β} (h : Alike (x c) (y d))
    (hf : ∀ a c' d', c'.Pointed d' → Alike (f a c') (g a d')) :
    Alike ((x >>= f) c) ((y >>= g) d) := by
  cases hx : x c with
  | ok a c' =>
    rw [hx] at h
    obtain ⟨d', hy, hd⟩ := h.of_ok
    rw [bind_run hx, bind_run hy]
    exact hf a c' d' hd
  | error e c' =>
    rw [hx] at h
    obtain ⟨d', hy, hd⟩ := h.of_error
    rw [bind_error hx, bind_error hy]
    exact ⟨rfl, hd⟩

end Alike

/-- An operation on the module does not look at the pool. -/
theorem emitOr_alike (refusal : Ir.Error → Diagnostic) (op : Ir.Build α) (h : c.Pointed d) :
    Alike (emitOr refusal op c) (emitOr refusal op d) := by
  obtain ⟨p, hp, rfl⟩ := h
  cases hop : op c.ir with
  | ok a ir =>
    rw [emitOr_of_ok refusal hop, emitOr_of_ok refusal (c := c.withPool p) hop]
    exact ⟨rfl, p, hp, rfl⟩
  | error e ir =>
    rw [emitOr_of_error refusal hop, emitOr_of_error refusal (c := c.withPool p) hop]
    exact ⟨rfl, p, hp, rfl⟩

/-- The backend type of a type of the pool does not depend on types that were entered later. -/
theorem backendTypeBelow_withPool (hc : c.pool.Sound) {p : Pool} (hp : c.pool.Extends p)
    (bound : Nat) (ht : c.pool.Has t) :
    backendTypeBelow bound t (c.withPool p) =
      ((backendTypeBelow bound t c).1, (backendTypeBelow bound t c).2.withPool p) := by
  induction bound generalizing t with
  | zero => rfl
  | succ bound ih =>
    unfold backendTypeBelow
    rw [show (c.withPool p).pool.type t = c.pool.type t from hp.type ht]
    cases htype : c.pool.type t with
    | primitive q =>
      rw [show (c.withPool p).pool.target = c.pool.target from hp.target]
      rfl
    | struct name path | enum name path =>
      dsimp only
      rw [show (c.withPool p).layouts = c.layouts from rfl]
      cases c.layouts.lookup t <;> rfl
    | pointer pointee =>
      -- the pointee was entered before the pointer
      have hpointee : c.pool.Has pointee := by
        have hfound := Pool.getElem?_type ht
        rw [htype] at hfound
        exact Nat.lt_trans (hc.pointees _ _ hfound) ht
      have hvoid : (c.withPool p).pool.isVoid pointee = c.pool.isVoid pointee := by
        rw [Pool.isVoid, Pool.isVoid, show (c.withPool p).pool.type pointee = c.pool.type pointee
          from hp.type hpointee]
      dsimp only
      rw [hvoid]
      split
      · rfl
      · exact state_bind_run (ih hpointee)

/-- Entering the backend type of a type of the pool is alike. -/
theorem backendType_alike (hc : c.Valid) (ht : c.pool.Has t) (h : c.Pointed d) :
    Alike (always (backendType t) c) (always (backendType t) d) := by
  obtain ⟨p, hp, rfl⟩ := h
  have hpool := (backendType_moves t c).pool
  have hrun : backendType t (c.withPool p) =
      ((backendType t c).1, (backendType t c).2.withPool p) :=
    backendTypeBelow_withPool hc.pool hp.grown _ ht
  rw [always_of_eq (rfl : backendType t c = (_, _)), always_of_eq hrun]
  exact ⟨rfl, p, hpool ▸ hp, rfl⟩

/-- Emits the call of the destructor of a value. -/
def destroyValue (b : Ir.BlockId) (t : TypeId) (value : Ir.ValueId) (f : Ir.FuncId) :
    Check Ir.BlockId := do
  let ty ← always (backendType t)
  emitOr cleanupRefused (callDestructor b ty value f)
  return b

/-- Calling a destructor takes no types that were entered later. -/
theorem destroyValue_alike (hc : c.Valid) (ht : c.pool.Has t) (h : c.Pointed d) (b : Ir.BlockId)
    (value : Ir.ValueId) (f : Ir.FuncId) :
    Alike (destroyValue b t value f c) (destroyValue b t value f d) := by
  refine (backendType_alike hc ht h).bind fun ty c' d' hd => ?_
  exact (emitOr_alike _ _ hd).bind fun _ c' d' hd => ⟨rfl, hd⟩

/-! ## Copies -/

/-- An owned copy of a borrowed result by a copy function, if there is one. -/
def copyBy (place : Span) (r : Result) (copy? : Option Ir.FuncId) : Check Result := do
  match copy? with
  | some copy => do
    let ty ← always (backendType r.ty)
    let v ← emit place (Lower.copyInstrs r.block ty r.value copy)
    return .new r.block r.ty v
  | none => do
    let c ← get
    fail (Report.branchOwnershipDiffers place (c.typeName r.ty))

/-- An owned copy of a borrowed result, by way of the type of pointers to its type. -/
def copyFor (place : Span) (r : Result) : Check Result := do
  let copy? ← always (pointerFunctionFor copyAssignName r.ty 2)
  copyBy place r copy?

/-- A copy function, or the lack of one, has the same outcome after other types were entered. -/
theorem copyBy_alike {r : Result} (hc : c.Valid) (ht : c.pool.Has r.ty) (h : c.Pointed d)
    (place : Span) (copy? : Option Ir.FuncId) :
    Alike (copyBy place r copy? c) (copyBy place r copy? d) := by
  cases copy? with
  | some copy =>
    refine (backendType_alike hc ht h).bind fun ty c' d' hd => ?_
    exact (emitOr_alike _ _ hd).bind fun v c' d' hd => ⟨rfl, hd⟩
  | none =>
    obtain ⟨p, hp, rfl⟩ := h
    have hname : (c.withPool p).typeName r.ty = c.typeName r.ty := hc.pool.format hp.grown ht
    change Alike (fail _ c) (fail (Report.branchOwnershipDiffers place
      ((c.withPool p).typeName r.ty)) (c.withPool p))
    rw [hname]
    exact ⟨rfl, p, hp, rfl⟩

/-- Looking for the copy function by way of the pointer type makes the same copy as just looking
for it, or reports the lack of one in the same words. -/
theorem copyFor_alike {r : Result} (hc : c.Valid) (ht : c.pool.Has r.ty) (h : c.Pointed d)
    (place : Span) :
    Alike (copyBy place r (c.pointerFunction? copyAssignName r.ty 2) c) (copyFor place r d) := by
  have hfound := pointerFunctionFor_eq hc h copyAssignName r.ty 1
  have hentered := pointerFunctionFor_pointed copyAssignName r.ty 2 d
  have hrun : always (pointerFunctionFor copyAssignName r.ty 2) d =
      .ok (c.pointerFunction? copyAssignName r.ty 2)
        (pointerFunctionFor copyAssignName r.ty 2 d).2 := by
    rw [← hfound]
    rfl
  rw [copyFor, bind_run hrun]
  exact copyBy_alike hc ht (IsTrans.trans _ _ _ h hentered) place _

end FormCompiler.Context

namespace FormCompiler.Lower

variable {σ : Type} {u : Compilation σ}

/-- A step on the context that goes on with another one. -/
theorem onContext_bind {α β : Type} (x : Check α) (f : α → Check β) :
    (onContext (x >>= f) : Lower σ β) = onContext x >>= fun a => onContext (f a) := by
  funext u
  change onContext (EStateM.bind x f) u = EStateM.bind (onContext x) _ u
  unfold onContext EStateM.bind
  dsimp only
  cases x u.context <;> rfl

/-- The copy of a borrowed value is a step on the context alone. -/
theorem copyBorrowed_run (node : NodeId) (r : Result) (u : Compilation σ) :
    copyBorrowed node r u = onContext (Context.copyBy (u.forest.span node) r
      (u.context.pointerFunction? Context.copyAssignName r.ty 2)) u := by
  unfold copyBorrowed
  rw [bind_run (rfl : context u = .ok u.context u)]
  cases u.context.pointerFunction? Context.copyAssignName r.ty 2 with
  | some copy =>
    simp only [Context.copyBy, onContext_bind]
    rfl
  | none => rfl

/-- The copy of a borrowed value is alike to the one by way of the type of pointers to it. -/
theorem copyBorrowed_alike {r : Result} {d : Context} (hu : u.context.Valid)
    (ht : u.context.pool.Has r.ty) (hd : u.context.Pointed d) (node : NodeId) :
    ∃ step : Check Result, copyBorrowed node r u = onContext step u ∧
      Context.Alike (step u.context) (Context.copyFor (u.forest.span node) r d) :=
  ⟨_, copyBorrowed_run node r u, Context.copyFor_alike hu ht hd _⟩

end FormCompiler.Lower
