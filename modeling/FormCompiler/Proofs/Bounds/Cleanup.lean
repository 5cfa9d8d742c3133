import FormCompiler.Lower.Cleanup
import FormCompiler.Proofs.Bounds.Declare

/-!
# Cleanup Stays in Bounds

The cleanup of values with its accesses checked: of the types of members, of the namespaces in which
destructors are looked up, and of the module.

* `Result.InBounds`: the ids in a result are in range.
* `Context.Checked.destruct`: cleanup, checked.
-/

namespace FormCompiler

/-- The ids in a result are in range. -/
@[mk_iff]
structure Result.InBounds (c : Context) (r : Result) : Prop where
  ty : c.pool.Has r.ty
  value : c.ir.HasValue r.value
  block : c.ir.HasBlock r.block
  address : ∀ v, r.address = some v → c.ir.HasValue v
  addressTy : ∀ t, r.addressTy = some t → c.pool.Has t

instance (c : Context) (r : Result) : Decidable (r.InBounds c) :=
  decidable_of_iff _ (Result.inBounds_iff c r).symm

namespace Result.InBounds

variable {c c' : Context} {r : Result}

theorem mono (h : r.InBounds c) (hc : c.Widens c') : r.InBounds c' :=
  ⟨hc.pool.has h.ty, hc.ir.hasValue h.value, hc.ir.hasBlock h.block,
    fun v hv => hc.ir.hasValue (h.address v hv), fun t ht => hc.pool.has (h.addressTy t ht)⟩

/-- A value without storage. -/
theorem new {b : Ir.BlockId} {t : TypeId} {v : Ir.ValueId} (hb : c.ir.HasBlock b)
    (ht : c.pool.Has t) (hv : c.ir.HasValue v) : (Result.new b t v).InBounds c :=
  ⟨ht, hv, hb, nofun, nofun⟩

/-- A value read from an address. -/
theorem withLvalue (h : r.InBounds c) {address : Ir.ValueId} {addressTy : TypeId}
    (haddress : c.ir.HasValue address) (haddressTy : c.pool.Has addressTy) :
    (r.withLvalue address addressTy).InBounds c :=
  ⟨h.ty, h.value, h.block, fun _ hv => Option.some.inj hv ▸ haddress,
    fun _ ht => Option.some.inj ht ▸ haddressTy⟩

/-- A value owned elsewhere. -/
theorem ownedElsewhere (h : r.InBounds c) : r.ownedElsewhere.InBounds c :=
  ⟨h.ty, h.value, h.block, h.address, h.addressTy⟩

/-- Another block to go on from. -/
theorem inBlock (h : r.InBounds c) {b : Ir.BlockId} (hb : c.ir.HasBlock b) :
    (r.inBlock b).InBounds c :=
  ⟨h.ty, h.value, hb, h.address, h.addressTy⟩

end Result.InBounds

namespace Context.Checked

open FormCompiler.Checked (refuse demand free)

variable {c : Context}

/-! ## What takes cleanup -/

/-- The function of a name in scope whose parameters are this many pointers to a type. -/
def pointerFunction? (c : Context) (name : String) (t : TypeId) (count : Nat) :
    Except Fault (Option Ir.FuncId) := do
  match c.pool.pointerTo? t with
  | some pointer =>
    return (← lookupFunction? c name (List.replicate count pointer)).map (·.backend)
  | none => return none

/-- The destructor of a type. There is none for `void`. -/
def destructor? (c : Context) (t : TypeId) : Except Fault (Option Ir.FuncId) := do
  if ← Pool.Checked.has c.pool t .isVoid then return none
  else pointerFunction? c destroyName t 1

/-- Whether a type whose id is below `bound` owns resources. -/
def ownsResourcesBelow (c : Context) : (bound : Nat) → TypeId → Except Fault Bool
  | 0, _ => return false
  | bound + 1, t => do
    if (← destructor? c t).isSome then return true
    else
      match ← structOfType? c t with
      | some s => s.memberTypes.anyM (ownsResourcesBelow c bound)
      | none => return false

/-- Whether dropping a value of the type takes any cleanup. -/
def ownsResources (c : Context) (t : TypeId) : Except Fault Bool :=
  ownsResourcesBelow c (t.index + 1) t

section

variable {t : TypeId} (hc : c.InBounds)

include hc

theorem pointerFunction?_eq (name : String) (t : TypeId) (count : Nat) :
    pointerFunction? c name t count = .ok (c.pointerFunction? name t count) := by
  unfold pointerFunction? Context.pointerFunction?
  cases c.pool.pointerTo? t with
  | some pointer =>
    dsimp only
    rw [lookupFunction?_eq hc]
    rfl
  | none => rfl

/-- The function of a name on pointers is in range. -/
theorem hasFunction_pointerFunction {name : String} {count : Nat} {f : Ir.FuncId}
    (hf : c.pointerFunction? name t count = some f) : c.ir.HasFunction f := by
  unfold Context.pointerFunction? at hf
  split at hf
  next pointer _ =>
    obtain ⟨found, hfound, rfl⟩ := Option.map_eq_some_iff.1 hf
    exact (hc.lookupFunction hfound).backend
  next => cases hf

theorem destructor?_eq (ht : c.pool.Has t) : destructor? c t = .ok (c.destructor? t) := by
  unfold destructor? Context.destructor? Pool.isVoid
  rw [Pool.Checked.has_eq ht]
  cases (c.pool.type t).has .isVoid with
  | true => rfl
  | false => exact pointerFunction?_eq hc destroyName t 1

/-- The destructor of a type is in range. -/
theorem hasFunction_destructor {f : Ir.FuncId} (hf : c.destructor? t = some f) :
    c.ir.HasFunction f := by
  unfold Context.destructor? at hf
  split at hf
  · cases hf
  · exact hasFunction_pointerFunction hc hf

/-- The types of the members of a struct are in range. -/
theorem has_memberTypes {s : Struct} (hs : c.structOfType? t = some s) :
    ∀ member ∈ s.memberTypes, c.pool.Has member :=
  List.forall_mem_map.2 (inBounds_structOfType hc hs).members

theorem ownsResourcesBelow_eq (bound : Nat) (ht : c.pool.Has t) :
    ownsResourcesBelow c bound t = .ok (c.ownsResourcesBelow bound t) := by
  induction bound generalizing t with
  | zero => rfl
  | succ bound ih =>
    unfold ownsResourcesBelow Context.ownsResourcesBelow
    rw [destructor?_eq hc ht]
    cases c.destructor? t with
    | some f => rfl
    | none =>
      simp only [bind, Except.bind, structOfType?_eq hc ht]
      cases hs : c.structOfType? t with
      | none => rfl
      | some s => exact anyM_eq fun member hmember => ih (has_memberTypes hc hs member hmember)

theorem ownsResources_eq (ht : c.pool.Has t) : ownsResources c t = .ok (c.ownsResources t) :=
  ownsResourcesBelow_eq hc (t.index + 1) ht

end

/-! ## Cleanup -/

/-- Emits the call of a destructor on a slot that holds the value. -/
def callDestructor (b : Ir.BlockId) (ty : Ir.TyId) (value : Ir.ValueId) (destructor : Ir.FuncId) :
    Checked Ir.Error Ir.Module PUnit := do
  let slot ← Ir.Checked.alloca b ty
  Ir.Checked.store b value slot
  let _ ← Ir.Checked.call b destructor [slot]

theorem callDestructor_passes {m : Ir.Module} {b : Ir.BlockId} {ty : Ir.TyId} {value : Ir.ValueId}
    {destructor : Ir.FuncId} (hb : m.HasBlock b) (hty : m.HasTy ty) (hvalue : m.HasValue value)
    (hdestructor : m.HasFunction destructor) :
    Passes (callDestructor b ty value destructor) (Context.callDestructor b ty value destructor) m
      fun _ _ => True := by
  refine (Ir.Checked.alloca_passes hb hty).bind fun slot m₁ hm₁ hslot => ?_
  have hb₁ := hm₁.grows.hasBlock hb
  refine (Ir.Checked.store_passes hb₁ (hm₁.grows.hasValue hvalue) hslot).bind
    fun _ m₂ hm₂ _ => ?_
  refine (Ir.Checked.call_passes (hm₂.grows.hasBlock hb₁)
    ((hm₁.trans hm₂).grows.hasFunction hdestructor)
    (by simpa using hm₂.grows.hasValue hslot)).bind fun _ _ _ _ => .pure trivial

/-- Cleans up the members of an aggregate that own resources, counted from an index on. -/
def cleanUpMembers
    (cleanUp : Ir.BlockId → TypeId → Ir.ValueId → Checked Halt Context Ir.BlockId)
    (aggregate : Ir.ValueId) :
    Ir.BlockId → (index : Nat) → List TypeId → Checked Halt Context Ir.BlockId
  | b, _, [] => pure b
  | b, index, member :: members => do
    if ← demand (ownsResources (← get) member) then
      let field ← emitOr cleanupRefused (Ir.Checked.extractValue b aggregate index)
      let b ← cleanUp b member field
      cleanUpMembers cleanUp aggregate b (index + 1) members
    else
      cleanUpMembers cleanUp aggregate b (index + 1) members

/-- Cleans up a value of a type whose id is below `bound` and returns the block to go on from. -/
def cleanUpBelow :
    (bound : Nat) → Ir.BlockId → TypeId → Ir.ValueId → Checked Halt Context Ir.BlockId
  | 0, _, _, _ => refuse .unfinished
  | bound + 1, b, t, value => do
    match ← demand (destructor? (← get) t) with
    | some destructor =>
      let ty ← backendType t
      emitOr cleanupRefused (callDestructor b ty value destructor)
      return b
    | none =>
      match ← demand (structOfType? (← get) t) with
      | some s => cleanUpMembers (cleanUpBelow bound) value b 0 s.memberTypes
      | none => return b

/-- Cleans up a result that is not needed any more, unless it is owned elsewhere. -/
def destruct (r : Result) : Checked Halt Context Result := do
  if r.borrowed then
    return r
  else
    let b ← cleanUpBelow (r.ty.index + 1) r.block r.ty r.value
    return r.inBlock b

/-- The checked cleanup of values in range passes. -/
def CleanUpPasses (g : Ir.BlockId → TypeId → Ir.ValueId → Checked Halt Context Ir.BlockId)
    (x : Ir.BlockId → TypeId → Ir.ValueId → Check Ir.BlockId) : Prop :=
  ∀ (c : Context) (b : Ir.BlockId) (t : TypeId) (v : Ir.ValueId), c.ir.HasBlock b →
    c.pool.Has t → c.ir.HasValue v → Passes (g b t v) (x b t v) c fun b' c' => c'.ir.HasBlock b'

theorem cleanUpMembers_passes
    {g : Ir.BlockId → TypeId → Ir.ValueId → Checked Halt Context Ir.BlockId}
    {x : Ir.BlockId → TypeId → Ir.ValueId → Check Ir.BlockId} (hg : CleanUpPasses g x)
    {aggregate : Ir.ValueId} {b : Ir.BlockId} (index : Nat) {members : List TypeId}
    (hb : c.ir.HasBlock b) (haggregate : c.ir.HasValue aggregate)
    (hmembers : ∀ member ∈ members, c.pool.Has member) :
    Passes (cleanUpMembers g aggregate b index members)
      (Context.cleanUpMembers x aggregate b index members) c fun b' c' => c'.ir.HasBlock b' := by
  induction members generalizing c b index with
  | nil => exact .pure hb
  | cons member members ih =>
    obtain ⟨hmember, hmembers⟩ := List.forall_mem_cons.1 hmembers
    unfold cleanUpMembers Context.cleanUpMembers
    refine .given fun hc => .get (.look (ownsResources_eq hc hmember) ?_)
    refine .ite (fun _ => ?_) fun _ => ?_
    · refine (emitOr_passes _ (Ir.Checked.extractValue_passes index hb haggregate)).bind
        fun field c₁ hc₁ hfield => ?_
      refine (hg c₁ b member field (hc₁.grows.ir.hasBlock hb) (hc₁.grows.pool.has hmember)
        hfield).bind fun b₂ c₂ hc₂ hb₂ => ?_
      have hc₂' := (hc₁.trans hc₂).grows
      exact ih (index + 1) hb₂ (hc₂'.ir.hasValue haggregate)
        fun member hmember => hc₂'.pool.has (hmembers member hmember)
    · exact ih (index + 1) hb haggregate hmembers

theorem cleanUpBelow_passes (bound : Nat) :
    CleanUpPasses (cleanUpBelow bound) (Context.cleanUpBelow bound) := by
  induction bound with
  | zero => exact fun _ _ _ _ _ _ _ => .refused rfl
  | succ bound ih =>
    intro c b t v hb ht hv
    unfold cleanUpBelow Context.cleanUpBelow
    refine .given fun hc => .get (.look (destructor?_eq hc ht) ?_)
    cases hdestructor : c.destructor? t with
    | some destructor =>
      have hdestructor := hasFunction_destructor hc hdestructor
      refine (backendType_passes ht).bind fun ty c₁ hc₁ hty => ?_
      have hb₁ := hc₁.grows.ir.hasBlock hb
      refine (emitOr_passes _ (callDestructor_passes hb₁ hty (hc₁.grows.ir.hasValue hv)
        (hc₁.grows.ir.hasFunction hdestructor))).bind fun _ c₂ hc₂ _ => ?_
      exact .pure (hc₂.grows.ir.hasBlock hb₁)
    | none =>
      refine .get (.look (structOfType?_eq hc ht) ?_)
      cases hs : c.structOfType? t with
      | some s => exact cleanUpMembers_passes ih 0 hb hv (has_memberTypes hc hs)
      | none => exact .pure hb

theorem destruct_passes {r : Result} (hr : r.InBounds c) :
    Passes (destruct r) (Context.destruct r) c fun r' c' => r'.InBounds c' := by
  refine .ite (fun _ => .pure hr) fun _ => ?_
  refine (cleanUpBelow_passes _ c r.block r.ty r.value hr.block hr.ty hr.value).bind
    fun b c₁ hc₁ hb => .pure ?_
  exact (hr.mono hc₁.grows).inBlock hb

end Context.Checked

end FormCompiler
