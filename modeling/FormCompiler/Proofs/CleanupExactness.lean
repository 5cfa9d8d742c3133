import FormCompiler.Proofs.Context.Ordered
import FormCompiler.Proofs.Ir.Returning
import FormCompiler.Proofs.Lower.Ownership

/-!
# Exactness of Cleanup

The components of a type are the parts of its values that own resources: the value itself if its
type has a destructor, and the components of the members of a struct otherwise. Cleaning up a value
destroys its components, each of them once and in order, and does nothing else (`destruct_exact`).

* `components`: the components of a type, each with the path that leads to it.
* `componentsBelow_apart`: no component is a part of another one.
* `Component.destroy`: what destroying a component does to the memory, and the call that it makes.
* `Destroys`: the code that was emitted destroys components of a value and does nothing else.
* `cleanUpBelow_cleansUp`: cleaning up a value destroys its components, by induction over the type.
-/

namespace FormCompiler

/-- What an instruction calls, and with which arguments. -/
def Ir.Instr.call? : Ir.Instr → Option (Ir.FuncId × List Ir.ValueId)
  | .call _ callee arguments => some (callee, arguments)
  | _ => none

/-- A part of a value that a destructor takes. -/
structure Component where
  /-- Indices of the members that lead to the part, from the outermost one inwards. -/
  path : List Nat
  ty : TypeId
  destructor : Ir.FuncId
deriving DecidableEq

/-- A component of a member, as one of the struct. -/
def Component.under (index : Nat) (k : Component) : Component := { k with path := index :: k.path }

/-- Neither component is a part of the other one. -/
def Component.Apart (k k' : Component) : Prop := ¬ k.path <+: k'.path ∧ ¬ k'.path <+: k.path

namespace Context

/-- The components of a type whose id is below `bound`. -/
def componentsBelow (c : Context) : (bound : Nat) → TypeId → List Component
  | 0, _ => []
  | bound + 1, t =>
    match c.destructor? t with
    | some destructor => [⟨[], t, destructor⟩]
    | none =>
      match c.structOfType? t with
      | some s => s.memberTypes.zipIdx.flatMap fun (member, index) =>
          (c.componentsBelow bound member).map (·.under index)
      | none => []

/-- The parts of a value of the type that destructors take, in the order of the members. -/
def components (c : Context) (t : TypeId) : List Component := c.componentsBelow (t.index + 1) t

variable {c : Context} {t : TypeId}

/-! ## Components -/

/-- The bound does not matter where members stand before their structs. -/
theorem Ordered.componentsBelow_eq (h : c.Ordered) {bound bound' : Nat} (hbound : t.index < bound)
    (hbound' : t.index < bound') : c.componentsBelow bound t = c.componentsBelow bound' t := by
  induction bound generalizing bound' t with
  | zero => exact absurd hbound (Nat.not_lt_zero _)
  | succ bound ih =>
    cases bound' with
    | zero => exact absurd hbound' (Nat.not_lt_zero _)
    | succ bound' =>
      unfold componentsBelow
      cases c.destructor? t with
      | some destructor => rfl
      | none =>
        cases hs : c.structOfType? t with
        | none => rfl
        | some s =>
          refine List.flatMap_congr fun p hp => ?_
          -- both bounds leave room for the members, which have smaller ids
          have hmember := h t s hs p.1 (List.fst_mem_of_mem_zipIdx hp)
          dsimp only
          rw [ih (Nat.lt_of_lt_of_le hmember (Nat.le_of_lt_succ hbound))
            (Nat.lt_of_lt_of_le hmember (Nat.le_of_lt_succ hbound'))]

/-- A type with a destructor is one component; the components of a struct without one are those of
its members, in order. -/
theorem Ordered.components_eq (h : c.Ordered) (t : TypeId) :
    c.components t =
      match c.destructor? t with
      | some destructor => [⟨[], t, destructor⟩]
      | none =>
        match c.structOfType? t with
        | some s => s.memberTypes.zipIdx.flatMap fun (member, index) =>
            (c.components member).map (·.under index)
        | none => [] := by
  rw [components, componentsBelow]
  cases c.destructor? t with
  | some destructor => rfl
  | none =>
    cases hs : c.structOfType? t with
    | none => rfl
    | some s =>
      refine List.flatMap_congr fun p hp => ?_
      have hmember := h t s hs p.1 (List.fst_mem_of_mem_zipIdx hp)
      dsimp only
      rw [components, h.componentsBelow_eq hmember (Nat.lt_succ_self _)]

/-- Types that own resources are those with components. -/
theorem ownsResourcesBelow_iff (c : Context) (bound : Nat) (t : TypeId) :
    c.ownsResourcesBelow bound t = true ↔ c.componentsBelow bound t ≠ [] := by
  induction bound generalizing t with
  | zero => simp [ownsResourcesBelow, componentsBelow]
  | succ bound ih =>
    unfold ownsResourcesBelow componentsBelow
    cases c.destructor? t with
    | some destructor => simp
    | none =>
      cases c.structOfType? t with
      | none => simp
      | some s =>
        have hany : s.memberTypes.any (c.ownsResourcesBelow bound) =
            s.memberTypes.zipIdx.any fun p => c.ownsResourcesBelow bound p.1 := by
          conv_lhs => rw [← List.zipIdx_map_fst 0 s.memberTypes, List.any_map]
          rfl
        simp [hany, ih, List.flatMap_eq_nil_iff]

/-- Types that own resources are those with components. -/
theorem ownsResources_iff (c : Context) (t : TypeId) :
    c.ownsResources t = true ↔ c.components t ≠ [] := c.ownsResourcesBelow_iff _ t

/-- No component is a part of another one, so that none is destroyed twice. -/
theorem componentsBelow_apart (c : Context) (bound : Nat) (t : TypeId) :
    (c.componentsBelow bound t).Pairwise Component.Apart := by
  induction bound generalizing t with
  | zero => exact .nil
  | succ bound ih =>
    unfold componentsBelow
    cases c.destructor? t with
    | some destructor => exact List.pairwise_singleton _ _
    | none =>
      cases c.structOfType? t with
      | none => exact .nil
      | some s =>
        refine List.pairwise_flatMap.2 ⟨fun p _ => ?_, ?_⟩
        -- components of one member are apart in it, those of two differ in the first index
        · refine List.pairwise_map.2 ((ih p.1).imp fun h => ?_)
          simpa [Component.Apart, Component.under] using h
        · have hindices : s.memberTypes.zipIdx.Pairwise fun p q => p.2 ≠ q.2 := by
            rw [← List.pairwise_map (f := Prod.snd) (R := (· ≠ ·)), List.zipIdx_map_snd]
            exact List.nodup_range'
          refine hindices.imp fun hne k hk k' hk' => ?_
          obtain ⟨k, -, rfl⟩ := List.mem_map.1 hk
          obtain ⟨k', -, rfl⟩ := List.mem_map.1 hk'
          simp [Component.Apart, Component.under, hne, Ne.symm hne]

end Context

/-! ## Code that destroys components -/

/-- Destroying a component of the value `x`: a new slot is made, what the path leads to is stored in
it, and the destructor is called on it. The effect is on the memory and on the calls made so far. -/
def Component.destroy {V M : Type} (machine : Ir.Machine V M) (c : Context) (x : V)
    (effect : M × List (Ir.Call V)) (k : Component) : M × List (Ir.Call V) :=
  let ty := (Context.backendType k.ty c).1
  let (slot, memory) := machine.alloca ty effect.1
  let memory := machine.store ty memory (k.path.foldl machine.extract x) slot
  ((machine.call k.destructor [slot] memory).2, effect.2 ++ [(k.destructor, [slot])])

namespace Context

/-- The calls of the code are one for each component, of its destructor with a slot of its own that
the code makes. The slots are values that the second module has and the first one has not. -/
def CallsDestructors (c : Context) (ks : List Component) (code : List Ir.Instr)
    (m m' : Ir.Module) : Prop :=
  ∃ slots : List Ir.ValueId, slots.Nodup ∧
    (∀ slot ∈ slots, m.values.size ≤ slot.index ∧ slot.index < m'.values.size) ∧
    code.filterMap Ir.Instr.call? =
      List.zipWith (fun k slot => (k.destructor, [slot])) ks slots ∧
    List.Forall₂ (fun k slot => .alloca slot (backendType k.ty c).1 ∈ code) ks slots

/-- The code that was emitted to the block from one module to the other destroys the components of
the value in order, in every machine and also when the module is extended. Nothing is emitted if
there are none. -/
structure Destroys (c : Context) (b : Ir.BlockId) (v : Ir.ValueId) (ks : List Component)
    (m m' : Ir.Module) : Prop where
  grown : m.Extends m'
  isOpen : m'.isTerminated b = false
  others : ∀ b', b' ≠ b → m'.block b' = m.block b'
  idle : ks = [] → m' = m
  calls : ∃ code, (m'.block b).instrs.toList = (m.block b).instrs.toList ++ code ∧
    c.CallsDestructors ks code m m'
  executes : ∀ (V M : Type) (machine : Ir.Machine V M) (later : Ir.Module) (s : Ir.State V M),
    m'.Extends later → s.At m b → ∃ s', machine.Advances later m s s' ∧ s'.At m' b ∧
      (s'.memory, s'.calls) = ks.foldl
        (Component.destroy machine c (machine.operand later s.values v)) (s.memory, s.calls)

namespace CallsDestructors

variable {c : Context} {ks ks' : List Component} {code code' : List Ir.Instr}
  {m m₁ m' : Ir.Module}

/-- Code that makes one call after the other. -/
theorem append (h : c.CallsDestructors ks code m m₁) (h' : c.CallsDestructors ks' code' m₁ m')
    (hm : m.values.size ≤ m₁.values.size) (hm' : m₁.values.size ≤ m'.values.size) :
    c.CallsDestructors (ks ++ ks') (code ++ code') m m' := by
  obtain ⟨slots, hnodup, hnew, hcalls, hslots⟩ := h
  obtain ⟨slots', hnodup', hnew', hcalls', hslots'⟩ := h'
  refine ⟨slots ++ slots', List.nodup_append.2 ⟨hnodup, hnodup', ?_⟩, fun slot hslot => ?_, ?_,
    List.rel_append (hslots.imp fun _ _ => List.mem_append_left _)
      (hslots'.imp fun _ _ => List.mem_append_right _)⟩
  · -- the later slots have larger indices
    rintro slot hslot _ hslot' rfl
    exact absurd (hnew slot hslot).2 (Nat.not_lt.2 (hnew' slot hslot').1)
  · rcases List.mem_append.1 hslot with hslot | hslot
    · exact ⟨(hnew slot hslot).1, Nat.lt_of_lt_of_le (hnew slot hslot).2 hm'⟩
    · exact ⟨Nat.le_trans hm (hnew' slot hslot).1, (hnew' slot hslot).2⟩
  · rw [List.filterMap_append, hcalls, hcalls', List.zipWith_append hslots.length_eq]

/-- Code before which an instruction is that calls nothing, for the components of a member. -/
theorem under (h : c.CallsDestructors ks code m₁ m') {i : Ir.Instr} (hi : i.call? = none)
    (hm : m.values.size ≤ m₁.values.size) (index : Nat) :
    c.CallsDestructors (ks.map (·.under index)) (i :: code) m m' := by
  obtain ⟨slots, hnodup, hnew, hcalls, hslots⟩ := h
  refine ⟨slots, hnodup, fun slot hslot => ⟨Nat.le_trans hm (hnew slot hslot).1,
    (hnew slot hslot).2⟩, ?_, List.forall₂_map_left_iff.2 (hslots.imp fun _ _ =>
      List.mem_cons_of_mem _)⟩
  rw [List.filterMap_cons_none hi, hcalls, List.zipWith_map_left]
  rfl

end CallsDestructors

namespace Destroys

variable {c : Context} {b : Ir.BlockId} {v : Ir.ValueId} {ks ks' : List Component}
  {m m₁ m' : Ir.Module}

/-- Without components nothing is emitted. -/
theorem nil (c : Context) (v : Ir.ValueId) (hopen : m.isTerminated b = false) :
    c.Destroys b v [] m m where
  grown := .refl m
  isOpen := hopen
  others _ _ := rfl
  idle _ := rfl
  calls := ⟨[], (List.append_nil _).symm, [], .nil, nofun, rfl, .nil⟩
  executes _ _ machine later s _ hs := ⟨s, .refl machine later m s, hs, rfl⟩

/-- Components may be destroyed one after the other. -/
theorem append (h : c.Destroys b v ks m m₁) (h' : c.Destroys b v ks' m₁ m')
    (hv : v.index < m.values.size) : c.Destroys b v (ks ++ ks') m m' where
  grown := h.grown.trans h'.grown
  isOpen := h'.isOpen
  others b' hb' := (h'.others b' hb').trans (h.others b' hb')
  idle hks := by
    obtain ⟨hks, hks'⟩ := List.append_eq_nil_iff.1 hks
    exact (h'.idle hks').trans (h.idle hks)
  calls := by
    obtain ⟨code, hcode, hcalls⟩ := h.calls
    obtain ⟨code', hcode', hcalls'⟩ := h'.calls
    refine ⟨code ++ code', ?_, hcalls.append hcalls' h.grown.values.size_le
      h'.grown.values.size_le⟩
    rw [hcode', hcode, List.append_assoc]
  executes V M machine later s hlater hs := by
    obtain ⟨s₁, hadvances, hat, heffect⟩ :=
      h.executes V M machine later s (h'.grown.trans hlater) hs
    obtain ⟨s', hadvances', hat', heffect'⟩ := h'.executes V M machine later s₁ hlater hat
    refine ⟨s', hadvances.trans hadvances' h.grown.values.size_le, hat', ?_⟩
    rw [heffect', hadvances.operand hv, heffect, List.foldl_append]

/-- The components of a member are destroyed after the member was taken out. -/
theorem extract {field : Ir.ValueId} {index : Nat}
    (hemitted : Ir.Module.Emitted b (.extractValue field v index) m m₁)
    (hb : b.index < m.blocks.size) (hfield : m₁.type (m₁.valueType field) ≠ .void)
    (h : c.Destroys b field ks m₁ m') (hks : ks ≠ []) :
    c.Destroys b v (ks.map (·.under index)) m m' where
  grown := hemitted.toExtends.trans h.grown
  isOpen := h.isOpen
  others b' hb' := (h.others b' hb').trans (hemitted.block_of_ne hb')
  idle hnil := absurd (List.map_eq_nil_iff.1 hnil) hks
  calls := by
    obtain ⟨code, hcode, hcalls⟩ := h.calls
    refine ⟨_, ?_, hcalls.under (i := .extractValue field v index) rfl
      hemitted.values.size_le index⟩
    rw [hcode, hemitted.block_self hb]
    simp
  executes V M machine later s hlater hs := by
    obtain ⟨s₁, hcomputes⟩ := Ir.Machine.computes_of_emitted machine hemitted
      (h.grown.trans hlater) hb hs rfl hfield rfl
    obtain ⟨s', hadvances, hat, heffect⟩ :=
      h.executes V M machine later s₁ hlater hcomputes.ends
    refine ⟨s', hcomputes.advances.trans hadvances hemitted.values.size_le, hat, ?_⟩
    rw [heffect, hcomputes.value, hcomputes.memory, hcomputes.calls, List.foldl_map]
    rfl

/-- Something is emitted exactly if there are components. -/
theorem instrs_ne_iff (h : c.Destroys b v ks m m') :
    (m'.block b).instrs ≠ (m.block b).instrs ↔ ks ≠ [] := by
  refine ⟨fun hne hks => hne (by rw [h.idle hks]), fun hks heq => ?_⟩
  obtain ⟨code, hcode, slots, -, -, hcalls, hslots⟩ := h.calls
  -- without code there are no calls, and so no components
  rw [heq, List.self_eq_append_right] at hcode
  rw [hcode, List.filterMap_nil, eq_comm, List.zipWith_eq_nil_iff] at hcalls
  rcases hcalls with rfl | rfl
  · exact hks rfl
  · cases hslots
    exact hks rfl

/-- A value is handed to its destructor: it is stored in a new slot, which is the argument. -/
theorem single {m₂ : Ir.Module} {t : TypeId} {slot : Ir.ValueId} {returned : Option Ir.ValueId}
    {f : Ir.FuncId} (hb : b.index < m.blocks.size) (hv : v.index < m.values.size)
    (hty : (backendType t c).1 = m.valueType v)
    (hslot : Ir.Module.Emitted b (.alloca slot (m.valueType v)) m m₁)
    (hpointer : m₁.type (m₁.valueType slot) ≠ .void)
    (hstore : Ir.Module.Emitted b (.store v slot) m₁ m₂)
    (hcall : Ir.Module.Emitted b (.call returned f [slot]) m₂ m') :
    c.Destroys b v [⟨[], t, f⟩] m m' := by
  have hb₁ : b.index < m₁.blocks.size := by rwa [hslot.size_blocks]
  have hb₂ : b.index < m₂.blocks.size := by rwa [hstore.size_blocks]
  have hgrown₁ := hstore.toExtends.trans hcall.toExtends
  have hgrown := hslot.toExtends.trans hgrown₁
  obtain ⟨hnew, _, hvalue⟩ := hslot.fresh slot rfl
  have hlt := (Array.getElem?_eq_some_iff.1 hvalue).1
  refine ⟨hgrown, hcall.isTerminated hb₂, fun b' hb' => ?_, nofun,
    ⟨[.alloca slot (m.valueType v), .store v slot, .call returned f [slot]], ?_, [slot],
      List.nodup_singleton _, ?_, rfl, .cons ?_ .nil⟩, ?_⟩
  · rw [hcall.block_of_ne hb', hstore.block_of_ne hb', hslot.block_of_ne hb']
  · rw [hcall.block_self hb₂, hstore.block_self hb₁, hslot.block_self hb]
    simp
  · intro w hw
    obtain rfl := List.mem_singleton.1 hw
    exact ⟨hnew, Nat.lt_of_lt_of_le hlt hgrown₁.values.size_le⟩
  · rw [hty]
    exact List.mem_cons_self
  · intro V M machine later s hlater hs
    -- the slot can hold an address, now and later
    have hlater₁ := hgrown₁.trans hlater
    have hcarries : later.type (later.valueType slot) ≠ .void := by
      rw [hlater₁.valueType hlt]
      exact hlater₁.type_ne_void hpointer
    obtain ⟨s₁, h₁, hat₁, hcalls₁, hmemory₁, haddress⟩ :=
      Ir.Machine.advances_alloca machine hslot hlater₁ hb hs hcarries
    obtain ⟨s₂, h₂, hat₂, hcalls₂, hmemory₂⟩ :=
      Ir.Machine.advances_store machine hstore (hcall.toExtends.trans hlater) hb₁ hat₁
    obtain ⟨s₃, h₃, hat₃, hmemory₃, hcalls₃, -⟩ :=
      Ir.Machine.advances_call machine hcall hlater hb₂ hat₂
    refine ⟨s₃, (h₁.trans h₂ hslot.values.size_le).trans h₃
      (Nat.le_trans hslot.values.size_le hstore.values.size_le), hat₃, ?_⟩
    -- the slot reads as its address, and the value as before
    rw [hmemory₃, hcalls₃, hmemory₂, hcalls₂, hcalls₁, hmemory₁, List.map_singleton,
      h₂.operand hlt, haddress, h₁.operand hv, (hgrown.trans hlater).valueType hv, ← hty]
    rfl

end Destroys

/-! ## Cleanup -/

variable {c : Context} {t : TypeId} {m : Ir.Module} {b : Ir.BlockId} {v : Ir.ValueId}

/-- Calling the destructor of a value destroys it. -/
theorem callDestructor_destroys (hc : c.Valid) {f : Ir.FuncId} (hf : c.destructor? t = some f)
    (hm : c.ir.Extends m) (hv : v.index < m.values.size) (hbacks : c.Backs t (m.valueType v))
    (hb : b.index < m.blocks.size) (hopen : m.isTerminated b = false) :
    Ends (callDestructor b (m.valueType v) v f) m
      (fun _ m' => c.Destroys b v [⟨[], t, f⟩] m m') fun _ => False := by
  obtain ⟨hfunction, ty, param, hty, hparam, hlt, hfound⟩ := hc.destructor_param hf
  obtain rfl := hty.unique hbacks
  refine (Ir.Module.alloca_accepted _ hopen).andThen (fun _ h => h) ?_
  rintro slot m₁ ⟨hslot, hpointer⟩
  have hb₁ : b.index < m₁.blocks.size := by rwa [hslot.size_blocks]
  have hpointee := Lower.pointee?_of_find hpointer
  rw [← hslot.toExtends.valueType hv] at hpointee
  refine (Ir.Module.store_accepted hpointee (hslot.isTerminated hb)).andThen (fun _ h => h) ?_
  rintro _ m₂ hstore
  have hgrown := hslot.toExtends.trans hstore.toExtends
  have hgrown₂ := hm.trans hgrown
  -- the slot has the type that the destructor takes
  obtain ⟨-, _, hvalue⟩ := hslot.fresh slot rfl
  have hsame : m₂.valueType param = m₂.valueType slot := by
    have hparamType := hgrown₂.findType? hfound
    have hslotType := hstore.toExtends.findType? hpointer
    rw [hgrown₂.valueType hlt, hstore.toExtends.valueType (Array.getElem?_eq_some_iff.1 hvalue).1]
    exact Option.some_inj.1 (hparamType.symm.trans hslotType)
  have hparams : List.Forall₂ (fun param argument => m₂.valueType param = m₂.valueType argument)
      (m₂.function f).params [slot] := by
    rw [(hgrown₂.function f hfunction).params, hparam]
    exact .cons hsame .nil
  refine (Ir.Module.call_accepted hparams (hstore.isTerminated hb₁)).bind ?_
  rintro returned m' hcall
  refine .pure (.single hb hv (congrArg Prod.fst hbacks.backendType) hslot ?_ hstore hcall)
  rw [Ir.Module.type_of_getElem? (Ir.Module.type_of_find hpointer)]
  nofun

/-- The backend type of a struct has the backend types of its members as fields. -/
theorem Placed.fieldType (h : c.Placed) (hc : c.Valid) {s : Struct} {ty : Ir.TyId}
    (hs : c.structOfType? t = some s) (hbacks : c.Backs t ty) (hm : c.ir.Extends m)
    {index : Nat} {member : TypeId} (hmember : s.memberTypes[index]? = some member) :
    ∃ field, c.Backs member field ∧ Ir.Module.fieldType ty index m = .ok field := by
  obtain ⟨id, name, hid, hmem, rfl⟩ := h.exists_struct hc hs
  have hlays := hc.structs id hid (name, s) hmem
  obtain rfl := (Backs.named hlays.type rfl hlays.layout).unique hbacks
  obtain ⟨symbol, fields, htype, hfields⟩ := hlays.fields
  obtain ⟨hlt, rfl⟩ := List.getElem?_eq_some_iff.1 hmember
  have hlt' : index < fields.length := hfields.length_eq ▸ hlt
  exact ⟨fields[index], hfields.get hlt hlt', Ir.Module.fieldType_ok_iff.2 ⟨some symbol, fields,
    Ir.Module.type_of_getElem? (hm.types.getElem?_some htype), List.getElem?_eq_getElem hlt'⟩⟩

/-- Code does not change which destructor a type has. -/
theorem destructor?_withIr (c : Context) (m : Ir.Module) (t : TypeId) :
    (c.withIr m).destructor? t = c.destructor? t := rfl

/-- Code does not change which struct a type stands for. -/
theorem structOfType?_withIr (c : Context) (m : Ir.Module) (t : TypeId) :
    (c.withIr m).structOfType? t = c.structOfType? t := by
  have hwithin : c.Within (· = ·) (fun _ _ => True) (c.withIr m) := .of_ir trivial
  simp only [structOfType?, hwithin.namespaceAt?]
  rfl

/-- Code does not change which types own resources. -/
theorem ownsResources_withIr (c : Context) (m : Ir.Module) (t : TypeId) :
    (c.withIr m).ownsResources t = c.ownsResources t := by
  suffices hbelow : ∀ bound t, (c.withIr m).ownsResourcesBelow bound t =
      c.ownsResourcesBelow bound t from hbelow _ t
  intro bound
  induction bound with
  | zero => exact fun _ => rfl
  | succ bound ih =>
    intro t
    have hsame : (c.withIr m).ownsResourcesBelow bound = c.ownsResourcesBelow bound := funext ih
    rw [ownsResourcesBelow, hsame, destructor?_withIr, structOfType?_withIr, ownsResourcesBelow]

/-- There are no components in nothing. -/
theorem components_of_isVoid (h : c.pool.isVoid t = true) : c.components t = [] := by
  have hstruct : c.structOfType? t = none := by
    rw [structOfType?, Pool.type_of_isVoid h]
  rw [components, componentsBelow, destructor?, if_pos h]
  dsimp only
  rw [hstruct]

/-- The value is one of the type, and it may be cleaned up in the block. -/
structure Disposable (c : Context) (t : TypeId) (b : Ir.BlockId) (v : Ir.ValueId)
    (m : Ir.Module) : Prop where
  grown : c.ir.Extends m
  value : v.index < m.values.size
  backs : c.Backs t (m.valueType v)
  block : b.index < m.blocks.size
  isOpen : m.isTerminated b = false

/-- Cleaning up a value in the block destroys the components of its type. It goes on in the block
and changes the module alone. -/
def CleansUp (c : Context) (cleanUp : Ir.BlockId → TypeId → Ir.ValueId → Check Ir.BlockId)
    (b : Ir.BlockId) (t : TypeId) : Prop :=
  ∀ v m, c.Disposable t b v m → Ends (cleanUp b t v) (c.withIr m)
    (fun b' c' => b' = b ∧ ∃ m', c' = c.withIr m' ∧ c.Destroys b v (c.components t) m m')
    fun _ => False

/-- A value may be cleaned up after components of another one were destroyed. -/
theorem Disposable.after {m' : Ir.Module} (h : c.Disposable t b v m) {w : Ir.ValueId}
    {ks : List Component} (hdestroys : c.Destroys b w ks m m') : c.Disposable t b v m' where
  grown := h.grown.trans hdestroys.grown
  value := Nat.lt_of_lt_of_le h.value hdestroys.grown.values.size_le
  backs := by
    rw [hdestroys.grown.valueType h.value]
    exact h.backs
  block := Nat.lt_of_lt_of_le h.block hdestroys.grown.blocks
  isOpen := hdestroys.isOpen

/-- Cleaning up the members of a struct destroys their components, one member after the other. -/
theorem cleanUpMembers_destroys (hc : c.Valid) (hplaced : c.Placed) {s : Struct}
    (hs : c.structOfType? t = some s)
    {cleanUp : Ir.BlockId → TypeId → Ir.ValueId → Check Ir.BlockId} {index : Nat}
    {members : List TypeId} (hmembers : s.memberTypes.drop index = members)
    (hclean : ∀ member ∈ members, c.CleansUp cleanUp b member) (hv : c.Disposable t b v m) :
    Ends (cleanUpMembers cleanUp v b index members) (c.withIr m)
      (fun b' c' => b' = b ∧ ∃ m', c' = c.withIr m' ∧
        c.Destroys b v ((members.zipIdx index).flatMap fun (member, index) =>
          (c.components member).map (·.under index)) m m') fun _ => False := by
  induction members generalizing index m with
  | nil => exact .pure ⟨rfl, m, rfl, .nil c v hv.isOpen⟩
  | cons member members ih =>
    have hmember : s.memberTypes[index]? = some member := by
      rw [← List.head?_drop, hmembers, List.head?_cons]
    have hrest : s.memberTypes.drop (index + 1) = members := by
      rw [← List.tail_drop, hmembers, List.tail_cons]
    have hclean' := fun t ht => hclean t (List.mem_cons_of_mem _ ht)
    unfold cleanUpMembers
    refine .next rfl ?_
    rw [ownsResources_withIr, List.zipIdx_cons, List.flatMap_cons]
    by_cases howns : c.ownsResources member = true
    · -- the member is taken out and cleaned up, then the others are
      rw [if_pos howns]
      have hks := (c.ownsResources_iff member).1 howns
      obtain ⟨fieldTy, hfield, hfieldType⟩ := hplaced.fieldType hc hs hv.backs hv.grown hmember
      refine (emitOr_ends cleanupRefused
        (Ir.Module.extractValue_accepted hfieldType hv.isOpen)).andThen ?_ ?_
      · rintro _ ⟨_, _, -, h⟩
        exact h
      rintro field _ ⟨m₁, rfl, hemitted, rfl⟩
      have hgrown := hv.grown.trans hemitted.toExtends
      obtain ⟨-, _, hvalue⟩ := hemitted.fresh field rfl
      have hdisposable : c.Disposable member b field m₁ :=
        ⟨hgrown, (Array.getElem?_eq_some_iff.1 hvalue).1, hfield,
          by rw [hemitted.size_blocks]; exact hv.block, hemitted.isTerminated hv.block⟩
      -- a member of type `void` would read as the unit, but it has no components
      have hcarries : m₁.type (m₁.valueType field) ≠ .void := by
        refine hgrown.type_ne_void fun hvoid => hks ?_
        exact components_of_isVoid ((hfield.void_iff hc.layouts).1 hvoid)
      refine (hclean member List.mem_cons_self field m₁ hdisposable).bind ?_
      rintro _ _ ⟨rfl, m₂, rfl, hdestroys⟩
      have hfirst := hdestroys.extract hemitted hv.block hcarries hks
      refine (ih hrest hclean' (hv.after hfirst)).mono ?_ fun _ h => h
      rintro _ _ ⟨rfl, m', rfl, hothers⟩
      exact ⟨rfl, m', rfl, hfirst.append hothers hv.value⟩
    · -- a member that is left out has no components
      rw [if_neg howns]
      rw [ownsResources_iff, not_not] at howns
      dsimp only
      rw [howns, List.map_nil, List.nil_append]
      exact ih hrest hclean' hv

/-- Cleaning up a value destroys the components of its type. -/
theorem cleanUpBelow_cleansUp (hc : c.Valid) (hplaced : c.Placed) (b : Ir.BlockId) {bound : Nat}
    (hbound : t.index < bound) : c.CleansUp (cleanUpBelow bound) b t := by
  induction bound generalizing t with
  | zero => exact absurd hbound (Nat.not_lt_zero _)
  | succ bound ih =>
    intro v m hv
    -- what is emitted follows the recursion that gives the components
    have hordered := hplaced.ordered hc
    rw [hordered.components_eq t]
    unfold cleanUpBelow
    refine .next rfl ?_
    rw [destructor?_withIr]
    cases hdestructor : c.destructor? t with
    | some f =>
      -- the backend type of the value was entered already
      have hty : backendType t (c.withIr m) = (m.valueType v, c.withIr m) :=
        (hv.backs.mono (.of_ir hv.grown)).backendType
      have hcall : Ends (callDestructor b (m.valueType v) v f) (c.withIr m).ir
          (fun _ m' => c.Destroys b v [⟨[], t, f⟩] m m') fun _ => False :=
        callDestructor_destroys hc hdestructor hv.grown hv.value hv.backs hv.block hv.isOpen
      refine .next (always_of_eq hty) ?_
      refine (emitOr_ends cleanupRefused hcall).andThen ?_ ?_
      · rintro _ ⟨_, _, -, h⟩
        exact h
      rintro _ _ ⟨m', rfl, hdestroys⟩
      exact .pure ⟨rfl, m', rfl, hdestroys⟩
    | none =>
      refine .next rfl ?_
      rw [structOfType?_withIr]
      cases hs : c.structOfType? t with
      | none => exact .pure ⟨rfl, m, rfl, .nil c v hv.isOpen⟩
      | some s =>
        refine cleanUpMembers_destroys hc hplaced hs List.drop_zero (fun member hmember => ?_) hv
        exact ih (Nat.lt_of_lt_of_le (hordered t s hs member hmember) (Nat.le_of_lt_succ hbound))

/-- In every reachable unit, cleaning up a value that is not borrowed succeeds, whatever its type,
and goes on in the same block. It emits something exactly if the type owns resources: code that
destroys the components of the value, each once, in the order of the members. The components are the
value itself if its type has a destructor, otherwise those of the members of a struct, and none is a
part of another one. -/
theorem destruct_exact {σ : Type} {u : Compilation σ} (hu : Reachable u) {r : Result}
    (hborrowed : r.borrowed = false) (hvalue : r.value.index < u.context.ir.values.size)
    (hbacks : u.context.Backs r.ty (u.context.ir.valueType r.value))
    (hblock : r.block.index < u.context.ir.blocks.size)
    (hopen : u.context.ir.isTerminated r.block = false) :
    (∀ t, u.context.components t =
      match u.context.destructor? t with
      | some destructor => [⟨[], t, destructor⟩]
      | none =>
        match u.context.structOfType? t with
        | some s => s.memberTypes.zipIdx.flatMap fun (member, index) =>
            (u.context.components member).map (·.under index)
        | none => []) ∧
    (u.context.components r.ty).Pairwise Component.Apart ∧
    ∃ m', destruct r u.context = .ok r (u.context.withIr m') ∧
      ((m'.block r.block).instrs ≠ (u.context.ir.block r.block).instrs ↔
        u.context.ownsResources r.ty = true) ∧
      u.context.Destroys r.block r.value (u.context.components r.ty) u.context.ir m' := by
  refine ⟨hu.ordered.components_eq, componentsBelow_apart _ _ _, ?_⟩
  have hclean := cleanUpBelow_cleansUp hu.valid hu.placed r.block (Nat.lt_succ_self r.ty.index)
    r.value u.context.ir ⟨.refl _, hvalue, hbacks, hblock, hopen⟩
  have hends : Ends (destruct r) u.context (fun r' c' => r' = r ∧ ∃ m', c' = u.context.withIr m' ∧
      u.context.Destroys r.block r.value (u.context.components r.ty) u.context.ir m')
      fun _ => False := by
    unfold destruct
    rw [if_neg (by simp [hborrowed])]
    refine hclean.bind ?_
    rintro _ _ ⟨rfl, hdestroys⟩
    exact .pure ⟨rfl, hdestroys⟩
  cases hrun : destruct r u.context with
  | ok r' c' =>
    obtain ⟨rfl, m', rfl, hdestroys⟩ := hends.of_ok hrun
    exact ⟨m', rfl, hdestroys.instrs_ne_iff.trans (ownsResources_iff _ _).symm, hdestroys⟩
  | error e c' => exact (hends.of_error hrun).elim

/-- The unit with the forms `(def Handle (struct extern ((fd int))))`,
`(def destroy (fn extern void ((value (p Handle)))))`,
`(def Pair (struct extern ((n int) (h Handle))))` and `(def use (fn extern void ((x Pair))))` after
all of them were processed, with a block for the last function. -/
def pairUnit : Compilation Unit :=
  let u := [9, 19, 27, 33].foldl (fun u node => final (Lower.processTopLevel ⟨node⟩) u)
    { forest := ⟨#[⟨.token ⟨.symbol, ⟨1⟩⟩, .dummy⟩, ⟨.token ⟨.symbol, ⟨2⟩⟩, .dummy⟩,
        ⟨.token ⟨.symbol, ⟨3⟩⟩, .dummy⟩, ⟨.token ⟨.symbol, ⟨4⟩⟩, .dummy⟩,
        ⟨.token ⟨.symbol, ⟨5⟩⟩, .dummy⟩, ⟨.token ⟨.symbol, ⟨6⟩⟩, .dummy⟩,
        ⟨.list [⟨4⟩, ⟨5⟩], .dummy⟩, ⟨.list [⟨6⟩], .dummy⟩, ⟨.list [⟨2⟩, ⟨3⟩, ⟨7⟩], .dummy⟩,
        ⟨.list [⟨0⟩, ⟨1⟩, ⟨8⟩], .dummy⟩, ⟨.token ⟨.symbol, ⟨7⟩⟩, .dummy⟩,
        ⟨.token ⟨.symbol, ⟨8⟩⟩, .dummy⟩, ⟨.token ⟨.symbol, ⟨9⟩⟩, .dummy⟩,
        ⟨.token ⟨.symbol, ⟨10⟩⟩, .dummy⟩, ⟨.token ⟨.symbol, ⟨11⟩⟩, .dummy⟩,
        ⟨.list [⟨14⟩, ⟨1⟩], .dummy⟩, ⟨.list [⟨13⟩, ⟨15⟩], .dummy⟩, ⟨.list [⟨16⟩], .dummy⟩,
        ⟨.list [⟨11⟩, ⟨3⟩, ⟨12⟩, ⟨17⟩], .dummy⟩, ⟨.list [⟨0⟩, ⟨10⟩, ⟨18⟩], .dummy⟩,
        ⟨.token ⟨.symbol, ⟨12⟩⟩, .dummy⟩, ⟨.token ⟨.symbol, ⟨13⟩⟩, .dummy⟩,
        ⟨.token ⟨.symbol, ⟨14⟩⟩, .dummy⟩, ⟨.list [⟨21⟩, ⟨5⟩], .dummy⟩,
        ⟨.list [⟨22⟩, ⟨1⟩], .dummy⟩, ⟨.list [⟨23⟩, ⟨24⟩], .dummy⟩,
        ⟨.list [⟨2⟩, ⟨3⟩, ⟨25⟩], .dummy⟩, ⟨.list [⟨0⟩, ⟨20⟩, ⟨26⟩], .dummy⟩,
        ⟨.token ⟨.symbol, ⟨15⟩⟩, .dummy⟩, ⟨.token ⟨.symbol, ⟨16⟩⟩, .dummy⟩,
        ⟨.list [⟨29⟩, ⟨20⟩], .dummy⟩, ⟨.list [⟨30⟩], .dummy⟩,
        ⟨.list [⟨11⟩, ⟨3⟩, ⟨12⟩, ⟨31⟩], .dummy⟩, ⟨.list [⟨0⟩, ⟨28⟩, ⟨32⟩], .dummy⟩],
        ⟨#["", "def", "Handle", "struct", "extern", "fd", "int", "destroy", "fn", "void", "value",
          "p", "Pair", "n", "h", "use", "x"]⟩⟩
      context := .start .standard
      memory := ()
      expander := .none
      maxExpansions := 128 }
  u.withContext (u.context.withIr (Ir.Module.appendBlock ⟨1⟩ "entry" u.context.ir).2)

/-- A `Pair` is cleaned up by destroying the `Handle` that is its second member. -/
theorem destruct_exact_pairUnit :
    Reachable pairUnit ∧ pairUnit.context.components ⟨23⟩ = [⟨[1], ⟨21⟩, ⟨0⟩⟩] ∧
      ∃ m', destruct (.new ⟨0⟩ ⟨23⟩ ⟨1⟩) pairUnit.context =
          .ok (.new ⟨0⟩ ⟨23⟩ ⟨1⟩) (pairUnit.context.withIr m') ∧
        (m'.block ⟨0⟩).instrs ≠ (pairUnit.context.ir.block ⟨0⟩).instrs ∧
        pairUnit.context.Destroys ⟨0⟩ ⟨1⟩ [⟨[1], ⟨21⟩, ⟨0⟩⟩] pairUnit.context.ir m' := by
  have hreachable : Reachable pairUnit :=
    .emit (.of_ir (Ir.Module.appendBlock_extends _ _ _))
      (.topLevel ⟨33⟩ (.topLevel ⟨27⟩ (.topLevel ⟨19⟩ (.topLevel ⟨9⟩
        (.forest _ (.start .standard .none ()))))))
  have htype : pairUnit.context.pool.types[23]? = some (.struct "Pair" []) := by decide +kernel
  have hbacks : pairUnit.context.Backs ⟨23⟩ (pairUnit.context.ir.valueType ⟨1⟩) :=
    .named htype rfl (by decide +kernel)
  have hcomponents : pairUnit.context.components ⟨23⟩ = [⟨[1], ⟨21⟩, ⟨0⟩⟩] := by decide +kernel
  obtain ⟨-, -, m', hrun, hemits, hdestroys⟩ := destruct_exact hreachable
    (r := .new ⟨0⟩ ⟨23⟩ ⟨1⟩) rfl (by decide +kernel) hbacks (by decide +kernel) (by decide +kernel)
  refine ⟨hreachable, hcomponents, m', hrun, hemits.2 (by decide +kernel), ?_⟩
  rw [← hcomponents]
  exact hdestroys

end Context

end FormCompiler
