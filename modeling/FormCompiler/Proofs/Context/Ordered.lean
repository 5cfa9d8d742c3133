import FormCompiler.Proofs.Context.Accounted
import FormCompiler.Proofs.Context.Conduct

/-!
# Members Stand Before Their Structs

The members of a struct have smaller ids than the struct (`Ordered`), as they were looked up before
the type of the struct was entered. So the cleanup of a value, which descends from a struct to its
members, comes to an end.

* `lasting_ordered`: this is so as long as no type is declared.
* `destruct_finishes`: the cleanup of any result is followed to its end.
* `Reachable.ordered`: the context of a reachable unit is ordered.
-/

namespace FormCompiler

namespace Context

variable {c c' : Context}

/-- Every member of the struct that a type stands for has a smaller id than the type. -/
def Ordered (c : Context) : Prop :=
  ∀ t s, c.structOfType? t = some s → ∀ member ∈ s.memberTypes, member.index < t.index

/-- Types stand for the same structs in both contexts. -/
def SameStructs (c c' : Context) : Prop := ∀ t, c'.structOfType? t = c.structOfType? t

/-- A type that is entered without a name stands for no struct. -/
theorem Within.sameStructs {R : Ir.Module → Ir.Module → Prop}
    (hc : c.Within Pool.Enlarged R c') : c.SameStructs c' := by
  intro t
  unfold Context.structOfType?
  by_cases ht : t.index < c.pool.types.size
  · rw [hc.pool.grown.type ht]
    simp only [hc.namespaceAt?]
  · have hge := Nat.le_of_not_lt ht
    rw [Pool.type_of_ge hge]
    cases hfound : c'.pool.types[t.index]? with
    | none =>
      rw [Pool.type, Array.getD_eq_getD_getElem?, hfound]
      rfl
    | some type =>
      rw [Pool.type_of_getElem? hfound]
      have hunnamed := hc.pool.unnamed _ _ hge hfound
      cases type with
      | struct name path => cases hunnamed
      | _ => rfl

/-- The structs decide. -/
theorem Ordered.of_sameStructs (h : c.Ordered) (hc : c.SameStructs c') : c'.Ordered :=
  fun t s hs => h t s ((hc t).symm.trans hs)

/-- Emitting code. -/
theorem Ordered.proceeds (h : c.Ordered) (hc : c.Proceeds c') : c'.Ordered :=
  h.of_sameStructs hc.within.sameStructs

/-- The queue is not looked at. -/
theorem sameStructs_queue (queue : Queue) : c.SameStructs { c with queue } :=
  Within.sameStructs (R := (· = ·)) ⟨Std.Refl.refl _, rfl, rfl, rfl, rfl, rfl⟩

/-- Reporting an error. -/
theorem Ordered.of_queue (h : c.Ordered) (queue : Queue) : Ordered { c with queue } :=
  h.of_sameStructs (sameStructs_queue queue)

/-! ## Steps that declare no structs -/

/-- What a change of the current namespace leaves alone, it leaves alone in every namespace. -/
theorem map_namespaceOf_withCurrent {γ : Type} (f : Namespace → γ) {ns : Namespace}
    (h : f ns = f c.current) (id : NamespaceId) :
    f ((c.withCurrent ns).namespaceOf id) = f (c.namespaceOf id) := by
  by_cases hid : id.index < c.namespaces.size
  · rw [namespaceOf_withCurrent c ns id hid]
    split
    next heq => rw [h, heq, current]
    next => rfl
  · have hnone : ∀ c' : Context, c'.namespaces.size = c.namespaces.size →
        c'.namespaceOf id = default := fun c' hsize => by
      rw [namespaceOf, Array.getD_eq_getD_getElem?, Array.getElem?_eq_none (by omega),
        Option.getD_none]
    rw [hnone _ (size_withCurrent c ns), hnone c rfl]

/-- Where the current namespace keeps its children and its structs, a type stands for the same
struct. -/
theorem structOfType?_withCurrent {ns : Namespace} (hchildren : ns.children = c.current.children)
    (hstructs : ns.structs = c.current.structs) (t : TypeId) :
    (c.withCurrent ns).structOfType? t = c.structOfType? t := by
  have hdescend : ∀ path id, (c.withCurrent ns).descend? id path = c.descend? id path := by
    intro path
    induction path with
    | nil => exact fun _ => rfl
    | cons name rest ih =>
      intro id
      rw [descend?, descend?, Namespace.child?,
        map_namespaceOf_withCurrent Namespace.children hchildren id, ← Namespace.child?]
      split
      next child _ => exact ih child
      next => rfl
  rw [structOfType?, structOfType?, show (c.withCurrent ns).pool = c.pool from rfl]
  split
  next name path _ =>
    rw [namespaceAt?, namespaceAt?, hdescend]
    cases c.descend? .root path with
    | none => rfl
    | some id =>
      exact congrArg (List.lookup name)
        (map_namespaceOf_withCurrent Namespace.structs hstructs id)
  next => rfl

/-- A function is no struct. -/
theorem sameStructs_addFunction (f : Function) : c.SameStructs (Context.addFunction f c).2 := by
  unfold Context.addFunction Namespace.addFunction?
  split
  next => exact fun _ => rfl
  next => exact fun t => structOfType?_withCurrent (by rfl) (by rfl) t

/-- What the structs decide stays true wherever no struct is declared. -/
theorem lasting_of_sameStructs {P : Context → Prop}
    (hP : ∀ c c', P c → c.SameStructs c' → P c') : Lasting (.ending P) where
  proceeds h hc := hP _ _ h hc.within.sameStructs
  reports _ h := ⟨rfl, hP _ _ h (sameStructs_queue _)⟩
  addFunction f h := hP _ _ h (sameStructs_addFunction f)

/-- Members stand before their structs wherever no struct is declared. -/
theorem lasting_ordered : Lasting (.ending Ordered) :=
  lasting_of_sameStructs fun _ _ => Ordered.of_sameStructs

/-! ## Cleanup -/

/-- Cleaning up a value of a type is followed to its end if the bound is above the id of the
type. -/
theorem cleanUpBelow_finishes (bound : Nat) (b : Ir.BlockId) (t : TypeId) (value : Ir.ValueId)
    (ht : t.index < bound) :
    (Conduct.ending Ordered).Governs (cleanUpBelow bound b t value) := by
  induction bound generalizing b t value with
  | zero => exact absurd ht (Nat.not_lt_zero _)
  | succ bound ih =>
    refine lasting_ordered.cleanUpBelow_succ bound b t value
      fun c hc s hs member hmember b v => ih b member v ?_
    -- the members stand before the struct, so the smaller bound is above them
    have hbelow := hc t s hs member hmember
    omega

/-- Dropping a result is followed to its end. -/
theorem destruct_finishes (r : Result) : (Conduct.ending Ordered).Governs (destruct r) :=
  destruct_governed r (cleanUpBelow_finishes _ _ _ _ (Nat.lt_succ_self _))

/-! ## Reachable units -/

/-- The root has no name, and in every namespace the members of structs stand before them. -/
structure Placed (c : Context) : Prop where
  root : (c.namespaceOf .root).chain = []
  structs : ∀ id : NamespaceId, id.index < c.namespaces.size → ∀ s ∈ (c.namespaceOf id).structs,
    ∀ member ∈ s.2.memberTypes, member.index < s.2.ty.index

/-- The namespaces decide. -/
theorem Placed.of_eq (h : c.Placed) (hc : c'.namespaces = c.namespaces) : c'.Placed := by
  obtain ⟨hroot, hstructs⟩ := h
  unfold namespaceOf at hroot hstructs
  constructor
  · rwa [namespaceOf, hc]
  · intro id hid s hs
    rw [hc] at hid
    rw [namespaceOf, hc] at hs
    exact hstructs id hid s hs

/-- A new namespace has no structs. -/
theorem Placed.enter (h : c.Placed) (hc : c.Valid) (name : String) :
    (Context.enter name c).2.Placed := by
  unfold Context.enter
  split
  next => exact h.of_eq rfl
  next =>
    change (c.withChild name).Placed
    refine ⟨(hc.chain_withChild name hc.rooted).trans h.root, fun id hid s hs => ?_⟩
    rcases withChild_cases hid with hold | rfl
    · rw [hc.map_namespaceOf_withChild Namespace.structs (fun _ _ _ => rfl) name hold] at hs
      exact h.structs id hold s hs
    · rw [hc.withChild_self] at hs
      cases hs

/-- The current namespace may get a struct whose members stand before it. -/
theorem Placed.withCurrent (h : c.Placed) (hc : c.Valid) {ns : Namespace}
    (hchain : ns.chain = c.current.chain)
    (hstructs : ∀ s ∈ ns.structs, s ∈ c.current.structs ∨
      ∀ member ∈ s.2.memberTypes, member.index < s.2.ty.index) :
    (c.withCurrent ns).Placed := by
  constructor
  · rw [namespaceOf_withCurrent c ns .root hc.rooted]
    split
    next hcurrent =>
      have hroot := congrArg (fun id => (c.namespaceOf id).chain) hcurrent.symm
      exact hchain.trans (hroot.trans h.root)
    next => exact h.root
  · intro id hid s hs
    rw [size_withCurrent] at hid
    rw [namespaceOf_withCurrent c ns id hid] at hs
    split at hs
    next => exact (hstructs s hs).elim (h.structs c.currentId hc.currentId_lt s) fun hs => hs
    next => exact h.structs id hid s hs

/-- Types and values may be entered before. -/
theorem Placed.declare {c₁ : Context} (h : c.Placed) (hc : c.Valid)
    (hnamespaces : c₁.namespaces = c.namespaces) (hentered : c₁.entered = c.entered)
    {ns : Namespace} (hchain : ns.chain = c.current.chain)
    (hstructs : ∀ s ∈ ns.structs, s ∈ c.current.structs ∨
      ∀ member ∈ s.2.memberTypes, member.index < s.2.ty.index) :
    (c₁.withCurrent ns).Placed :=
  (h.withCurrent hc hchain hstructs).of_eq
    (by rw [Context.withCurrent, Context.withCurrent, currentId, currentId, hnamespaces, hentered])

/-- The type of a struct that is registered is new, so it stands after every type of the pool. -/
theorem Valid.size_le_intern (hc : c.Valid) {p : Pool} (hp : c.pool.Extends p) {name : String}
    (hfree : c.current.struct? name = none) :
    c.pool.types.size ≤ (p.intern (.struct name c.path)).1.index := by
  by_contra hlt
  rw [Nat.not_le] at hlt
  have htype := Pool.type_of_find (Pool.intern_spec p (.struct name c.path)).2
  rw [(Pool.intern_spec p _).1.types.getElem? (Nat.lt_of_lt_of_le hlt hp.types.size_le),
    hp.types.getElem? hlt] at htype
  have hlayout := hc.named _ _ htype rfl
  rw [hc.layout_none (.struct name c.path) ?_ rfl] at hlayout
  · cases hlayout
  · simp [Namespace.Declares, hfree]
  · intro type' htype'
    rw [htype] at htype'
    exact (Option.some_inj.1 htype').symm

/-- A change of a context registers structs after their members. -/
theorem Change.placed (h : Change c c') (hc : c.Valid) (hp : c.Placed) : c'.Placed := by
  cases h with
  | checked within _ => exact hp.of_eq within.namespaces
  | body func within _ _ => exact hp.of_eq within.namespaces
  | leave h => exact hp.of_eq (by rw [h]; rfl)
  | enter name h => exact h ▸ hp.enter hc name
  | struct name members linkage h hgrounded =>
    obtain ⟨hfree, c₁, c₂, layout, hwithin, -, -, rfl, rfl⟩ := h
    refine hp.declare hc ?_ ?_ ?_ fun s hs => ?_
    · exact hwithin.namespaces
    · exact hwithin.entered
    · rfl
    rcases List.mem_cons.1 hs with rfl | hs
    · -- the type of the struct is new, so it stands after those of its members
      refine .inr fun member hmember => ?_
      obtain ⟨m, hm, rfl⟩ := List.mem_map.1 hmember
      exact Nat.lt_of_lt_of_le (hgrounded m hm).index_lt
        (hc.size_le_intern (hwithin.pool ▸ .refl _) hfree)
    · exact .inl hs
  | enum name builder linkage underlying enumTy h hgrounded _ =>
    obtain ⟨-, hfree, c₁, c₂, c₃, member, hwithin, -, -, rfl, -, rfl, rfl⟩ := h
    rw [withLayout_withCurrent, withCurrent_withCurrent]
    refine hp.declare hc ?_ ?_ ?_ fun s hs => ?_
    · exact hwithin.namespaces
    · exact hwithin.entered
    · rfl
    rcases List.mem_cons.1 hs with rfl | hs
    · refine .inr fun member hmember => ?_
      obtain rfl : member = underlying := by simpa [Struct.memberTypes] using hmember
      refine Nat.lt_of_lt_of_le hgrounded.index_lt (hc.size_le_intern ?_ hfree)
      change c.pool.Extends (c₁.pool.intern (.enum name c.path)).2
      rw [← hwithin.pool]
      exact (Pool.intern_spec _ _).1
    · exact .inl hs
  | function name params returnType linkage func h _ _ =>
    obtain ⟨-, c₁, tys, ret, ir, hwithin, -, -, -, rfl⟩ := h
    refine hp.declare hc ?_ ?_ ?_ fun s hs => .inl hs
    · exact hwithin.namespaces
    · exact hwithin.entered
    · rfl

/-- A path from a namespace leads to one whose names are those of the path after its own. -/
theorem Valid.chain_descend (hc : c.Valid) {i j : NamespaceId} {path : List String}
    (hi : i.index < c.namespaces.size) (h : c.descend? i path = some j) :
    j.index < c.namespaces.size ∧
      (c.namespaceOf j).chain = path.reverse ++ (c.namespaceOf i).chain := by
  induction path generalizing i with
  | nil =>
    cases h
    exact ⟨hi, rfl⟩
  | cons name rest ih =>
    unfold descend? at h
    split at h
    next child hchild =>
      obtain ⟨hlt, hchain⟩ := hc.children i hi name child hchild
      obtain ⟨hj, hjchain⟩ := ih hlt h
      refine ⟨hj, ?_⟩
      rw [hjchain, hchain, List.reverse_cons, List.append_assoc]
      rfl
    next => cases h

/-- In a valid context, a type stands for the struct that is registered with it. -/
theorem Placed.exists_struct (h : c.Placed) (hc : c.Valid) {t : TypeId} {s : Struct}
    (hs : c.structOfType? t = some s) :
    ∃ id name, id.index < c.namespaces.size ∧ (name, s) ∈ (c.namespaceOf id).structs ∧
      s.ty = t := by
  unfold structOfType? at hs
  split at hs
  next name path htype =>
    obtain ⟨ns, hns, hstruct⟩ := Option.bind_eq_some_iff.1 hs
    obtain ⟨j, hj, rfl⟩ := Option.map_eq_some_iff.1 hns
    have hroot : NamespaceId.root.index < c.namespaces.size := hc.rooted
    obtain ⟨hlt, hchain⟩ := hc.chain_descend hroot hj
    have hmem := mem_of_lookup hstruct
    -- the type and the one registered with the struct have the same name and path
    have hregistered := (hc.structs j hlt (name, s) hmem).type
    have hpath : (c.namespaceOf j).path = path := by
      rw [Namespace.path, hchain, h.root, List.append_nil, List.reverse_reverse]
    have hfound := Pool.getElem?_of_type htype fun heq => by cases heq
    rw [hpath] at hregistered
    exact ⟨j, name, hlt, hmem, congrArg TypeId.mk (hc.pool.distinct _ _ _ hregistered hfound)⟩
  next => cases hs

/-- In a valid context, the members of a struct stand before the type that stands for it. -/
theorem Placed.ordered (h : c.Placed) (hc : c.Valid) : c.Ordered := by
  intro t s hs member hmember
  obtain ⟨id, name, hid, hmem, rfl⟩ := h.exists_struct hc hs
  exact h.structs id hid (name, s) hmem member hmember

/-- Where nothing is declared there are no structs. -/
theorem placed_start (options : Options) : (start options).Placed where
  root := rfl
  structs := by
    rintro ⟨index⟩ hid s hs
    obtain rfl : index = 0 := Nat.lt_one_iff.1 hid
    cases hs

end Context

namespace Reachable

variable {τ : Type} {u : Compilation τ}

/-- What top-level forms do registers structs after their members. -/
theorem placed_of_develops {u' : Compilation τ} (hu : u.context.Valid) (hp : u.context.Placed)
    (h : u.Develops u') : u'.context.Placed :=
  Context.Develops.invariant (fun _ _ hc hchange => hchange.placed hc) h hu hp

/-- In a reachable unit, structs were registered after their members. -/
theorem placed (h : Reachable u) : u.context.Placed := by
  induction h with
  | start options => exact Context.placed_start options
  | forest _ _ ih => exact ih
  | @topLevel u node h ih =>
    exact placed_of_develops h.valid ih
      ((Lower.topLevel_develops.processTopLevel_keeps node).rel_final u)
  | @declareEnum u node h ih =>
    exact placed_of_develops h.valid ih
      ((Lower.topLevel_develops.declareEnum_keeps node).rel_final u)
  | enter name h ih => exact ih.enter h.valid name
  | leave _ ih => exact ih.of_eq rfl
  | @process u frame b node _ _ ih =>
    exact ih.of_eq
      ((Lower.process_keeps frame.scope frame.func b node).rel_final u).context.namespaces
  | @destruct u r _ ih =>
    exact ih.of_eq
      ((Lower.onContext_keeps (Context.destruct_keeps .empty r)).rel_final u).context.namespaces
  | emit within _ ih => exact ih.of_eq within.namespaces
  | pointerTo _ _ _ ih => exact ih.of_eq rfl

/-- In a reachable unit, the members of a struct stand before it. -/
theorem ordered (h : Reachable u) : u.context.Ordered := h.placed.ordered h.valid

end Reachable

end FormCompiler
