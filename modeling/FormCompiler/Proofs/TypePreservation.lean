import FormCompiler.Proofs.Lower.Typing
import FormCompiler.Proofs.Reachable

/-!
# Preservation of Types

The module has types of its own, and `backendType` takes the types of the source to them. Where the
variables of a scope have values of the backend types of their own types, the result of every
expression has a value of the backend type of its type, and an address of the backend type of the
pointers to it (`process_hasType`). What is entered later does not change that.

The statement speaks of `backendType` itself; the proof of `Backs`, which says the same as a
relation between contexts, types and backend types.
-/

namespace FormCompiler

namespace Context

/-- The value has the backend type of a source type, which is in the module already. -/
def HasType (c : Context) (v : Ir.ValueId) (t : TypeId) : Prop :=
  v.index < c.ir.values.size ∧ backendType t c = (c.ir.valueType v, c)

variable {c : Context} {t : TypeId} {ty : Ir.TyId} {v : Ir.ValueId}

/-- Of a type of the pool the backend type is the one that backs it. -/
theorem Valid.backs_iff (hc : c.Valid) (ht : t.index < c.pool.types.size) :
    c.Backs t ty ↔ backendType t c = (ty, c) := by
  refine ⟨Backs.backendType, fun hrun => ?_⟩
  have hbacks := (hc.grounded ht).backendType_spec.2
  rwa [hrun] at hbacks

/-- A value has the type whose backend type backs it. -/
theorem Backs.hasType (h : c.Backs t (c.ir.valueType v)) (hv : v.index < c.ir.values.size) :
    c.HasType v t := ⟨hv, h.backendType⟩

end Context

/-- The variable has a value of the backend type of its type or, in a slot, one of the backend type
of pointers to it, which points to the backend type of its type. -/
inductive Variable.Represented (c : Context) : Variable → Prop
  | value {ty : TypeId} {v : Ir.ValueId} (inPool : ty.index < c.pool.types.size)
      (hasType : c.HasType v ty) : Represented c ⟨ty, .value v⟩
  | slot {ty : TypeId} {address : Ir.ValueId} {inner : Ir.TyId}
      (inPool : ty.index < c.pool.types.size)
      (hasType : (c.withPool (c.pool.pointerTo ty).2).HasType address (c.pool.pointerTo ty).1)
      (pointee : c.ir.pointee? (c.ir.valueType address) = some inner)
      (represents : Context.backendType ty c = (inner, c)) : Represented c ⟨ty, .slot address⟩

/-- The variables of the scope have values of the backend types of their types. -/
def Scope.Represented (c : Context) (s : Scope) : Prop :=
  ∀ name v, s.lookup? name = some v → v.Represented c

section

variable {c : Context}

/-- Pointers to `void` point to bytes, so no slot holds a value of type `void`. -/
theorem Context.not_isVoid_of_slot (hc : c.Valid) {ty : TypeId} {inner pointer : Ir.TyId}
    (hty : ty.index < c.pool.types.size)
    (hbacks : (c.withPool (c.pool.pointerTo ty).2).Backs (c.pool.pointerTo ty).1 pointer)
    (hpointee : c.ir.pointee? pointer = some inner) (hinner : c.Backs ty inner) :
    c.pool.isVoid ty = false := by
  by_contra hvoid
  rw [Bool.not_eq_false] at hvoid
  have hself := Pool.type_of_find (Pool.intern_spec c.pool (.pointer ty)).2
  have hsteady := (hc.pointerTo (hc.grounded hty)).2.1
  cases hbacks with
  | primitive type _ => cases hself.symm.trans type
  | named type isNamed _ =>
    cases hself.symm.trans type
    cases isNamed
  | pointer type below isVoid backs found =>
    cases hself.symm.trans type
    rw [hsteady.isVoid hty, hvoid] at isVoid
    cases isVoid
  | voidPointer type below isVoid foundByte found =>
    rw [Lower.pointee?_of_find (m := c.ir) found, Option.some_inj] at hpointee
    subst hpointee
    have hbyte := Ir.Module.type_of_find (m := c.ir) foundByte
    have hty' := (hinner.void_iff hc.layouts).2 hvoid
    simp [Ir.Module.type, Array.getD_eq_getD_getElem?, hbyte] at hty'

/-- A variable that has a value of its type is typed. -/
theorem Variable.Represented.typed {v : Variable} (h : v.Represented c) (hc : c.Valid) :
    v.Typed c := by
  cases h with
  | value inPool hasType => exact .value hasType.1 ((hc.backs_iff inPool).2 hasType.2)
  | @slot ty address inner inPool hasType pointee represents =>
    obtain ⟨hvalid, hsteady, hgrounded⟩ := hc.pointerTo (hc.grounded inPool)
    have hpointer := (hvalid.backs_iff hgrounded.index_lt).2 hasType.2
    have hinner := (hc.backs_iff inPool).2 represents
    have hvoid := c.not_isVoid_of_slot hc inPool hpointer pointee hinner
    refine .slot hasType.1 hvoid hinner ?_
    obtain ⟨inner', hinner', hfound⟩ := hpointer.of_pointee? (Pool.pointee?_pointerTo c.pool ty)
      (by rw [hsteady.isVoid inPool, hvoid])
    obtain rfl := hinner'.unique (hinner.mono hsteady)
    exact hfound

/-- A scope whose variables have values of their types is typed. -/
theorem Scope.Represented.typed {s : Scope} (h : s.Represented c) (hc : c.Valid) : s.Typed c :=
  fun name v hv => (h name v hv).typed hc

end

namespace Lower

variable {σ : Type} {u u' : Compilation σ} {frame : Frame} {b : Ir.BlockId} {node : NodeId}
  {r : Result}

/-- The value of a result has the backend type of its type, and the address, if there is one, that
of its own type, which is the type of pointers to the type of the result. -/
theorem process_hasType (hu : Reachable u) (hscope : frame.scope.Represented u.context)
    (h : process frame b node u = .ok r u') :
    u'.context.HasType r.value r.ty ∧
      ∀ a, r.address = some a → ∃ t, r.addressTy = some t ∧ u'.context.HasType a t ∧
        u'.context.pool.pointee? t = some r.ty := by
  obtain ⟨es, hes⟩ := process_lowers h
  have hr : r.Typed u'.context := hes.typed ⟨hu.valid, hscope.typed hu.valid⟩
  refine ⟨hr.backs.hasType hr.inTable, fun a ha => ?_⟩
  obtain ⟨t, ht, hin, hbacks, hpointee⟩ := hr.addressed a ha
  exact ⟨t, ht, hbacks.hasType hin, hpointee⟩

/-- A session with a variable `x` of type `int` in a slot, and the form `(@ (# x))`. -/
def slotSession : Compilation Unit where
  forest := ⟨#[⟨.token ⟨.symbol, ⟨1⟩⟩, .dummy⟩, ⟨.token ⟨.symbol, ⟨2⟩⟩, .dummy⟩,
    ⟨.token ⟨.symbol, ⟨3⟩⟩, .dummy⟩, ⟨.list [⟨1⟩, ⟨2⟩], .dummy⟩, ⟨.list [⟨0⟩, ⟨3⟩], .dummy⟩],
    ⟨#["", "@", "#", "x"]⟩⟩
  context := (Context.openSession "scratch" [⟨"x", .int, true⟩] .void .internal
    (.start .standard)).2
  memory := ()
  expander := .none
  maxExpansions := 128

/-- The function of the session, with `x` in the slot that is its parameter. -/
def slotFrame : Frame := ⟨⟨0⟩, ⟨[("x", ⟨.int, .slot ⟨0⟩⟩)]⟩⟩

/-- Reading `x` through its address gives a value of the backend type of `int` with an address. -/
theorem hasType_slotSession :
    Reachable slotSession ∧ slotFrame.scope.Represented slotSession.context ∧
      ∃ r u', process slotFrame ⟨0⟩ ⟨4⟩ slotSession = .ok r u' ∧ r.ty = .int ∧
        r.address = some ⟨0⟩ ∧ u'.context.HasType r.value .int ∧
        ∃ t, r.addressTy = some t ∧ u'.context.HasType ⟨0⟩ t := by
  have hreachable : Reachable slotSession := by
    have hstart : Reachable (.start .standard .none () : Compilation Unit) := .start _ _ _
    have hparams : ∀ p ∈ [SessionParam.mk "x" .int true],
        (Compilation.start .standard .none () : Compilation Unit).context.Grounded p.ty :=
      fun p hp => by
        rw [List.mem_singleton.1 hp]
        exact hstart.valid.grounded_primitive .int
    exact (hstart.openSession "scratch" hparams .void .internal).forest slotSession.forest
  have hscope : slotFrame.scope.Represented slotSession.context := by
    intro name v hv
    rw [slotFrame, Scope.lookup?, List.lookup_cons] at hv
    split at hv
    next =>
      cases hv
      have hint : slotSession.context.Backs .int ⟨0⟩ :=
        .primitive (p := .int) (by decide +kernel) (by decide +kernel)
      have hpointee : (slotSession.context.withPool
          (slotSession.context.pool.pointerTo .int).2).Backs .int ⟨0⟩ :=
        .primitive (p := .int) (by decide +kernel) (by decide +kernel)
      have hpointer : (slotSession.context.withPool
          (slotSession.context.pool.pointerTo .int).2).Backs
            (slotSession.context.pool.pointerTo .int).1 ⟨1⟩ :=
        .pointer (by decide +kernel) (by decide +kernel) (by decide +kernel) hpointee
          (by decide +kernel)
      have haddress : slotSession.context.ir.valueType ⟨0⟩ = ⟨1⟩ := by decide +kernel
      exact .slot (by decide +kernel) ⟨by decide +kernel, haddress ▸ hpointer.backendType⟩
        (by decide +kernel) hint.backendType
    next => cases hv
  have hrun : Ends (process slotFrame ⟨0⟩ ⟨4⟩) slotSession
      (fun r _ => r.ty = .int ∧ r.address = some ⟨0⟩) fun _ => False := by
    unfold Ends
    decide +kernel
  cases h : process slotFrame ⟨0⟩ ⟨4⟩ slotSession with
  | error e u' => exact (hrun.of_error h).elim
  | ok r u' =>
    obtain ⟨hty, haddress⟩ := hrun.of_ok h
    obtain ⟨hvalue, haddressed⟩ := process_hasType hreachable hscope h
    obtain ⟨t, ht, hpointer, -⟩ := haddressed _ haddress
    exact ⟨hreachable, hscope, r, u', rfl, hty, haddress, hty ▸ hvalue, t, ht, hpointer⟩

end Lower

end FormCompiler
