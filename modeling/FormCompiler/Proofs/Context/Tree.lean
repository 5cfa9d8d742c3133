import FormCompiler.Proofs.Context.Layouts
import Mathlib.Data.List.Chain

/-!
# The Tree of Namespaces

The tree is written down three times: each namespace has the id of its parent, the names around it
and the ids of its children. The types of structs and enums have the names only. All of these agree.

* `Context.Linked`: the parents agree with the names, and those that are entered are parents of one
  another.
* `Change.linked`, `Run.linked`: every change of a context keeps them so, and so does every run.
* `Linked.descend?_path`: the path of a namespace leads to it.
-/

namespace FormCompiler

namespace Context

variable {c c' : Context}

/-- The parents of the namespaces agree with their names, and each entered namespace stands right
inside the next one. -/
structure Linked (c : Context) : Prop where
  /-- The root has no name. -/
  root : (c.namespaceOf .root).chain = []
  /-- Any other namespace has the names of its parent and its own. -/
  parents : ∀ id : NamespaceId, id.index < c.namespaces.size → id ≠ .root →
    ∃ (name : String) (parent : NamespaceId), parent.index < c.namespaces.size ∧
      (c.namespaceOf id).name = some name ∧ (c.namespaceOf id).parent = some parent ∧
      (c.namespaceOf id).chain = name :: (c.namespaceOf parent).chain
  active : c.chainIds.IsChain fun id outer => (c.namespaceOf id).parent = some outer

/-! ## The chain of entered namespaces -/

/-- The namespaces of the chain are those of the context. -/
theorem Formed.chainIds_lt (h : c.Formed) {id : NamespaceId} (hid : id ∈ c.chainIds) :
    id.index < c.namespaces.size := by
  rcases List.mem_append.1 hid with hid | hid
  · exact h.entered id hid
  · obtain rfl := List.mem_singleton.1 hid
    exact h.rooted

/-- The chain begins with the current namespace. -/
theorem head?_chainIds (c : Context) : c.chainIds.head? = some c.currentId := by
  unfold chainIds currentId
  cases c.entered <;> rfl

/-- The chain after the current namespace was left. -/
theorem chainIds_leave (c : Context) :
    (leave c).2.chainIds = c.chainIds ∨ (leave c).2.chainIds = c.chainIds.tail := by
  unfold leave chainIds
  cases hentered : c.entered with
  | nil => exact .inl rfl
  | cons id rest => exact .inr rfl

/-- A child has the current namespace as its parent. -/
theorem Linked.parent_of_child (h : c.Linked) (hc : c.Valid) {name : String} {id : NamespaceId}
    (hchild : c.current.child? name = some id) :
    (c.namespaceOf id).parent = some c.currentId := by
  obtain ⟨hid, hchain⟩ := hc.children _ hc.currentId_lt name id hchild
  -- the root has no names around it, so a child is another namespace
  have hne : id ≠ .root := by
    rintro rfl
    rw [h.root] at hchain
    cases hchain
  obtain ⟨name', parent, hparent, -, hfound, hchain'⟩ := h.parents id hid hne
  rw [hchain, List.cons.injEq] at hchain'
  rw [hfound, hc.paths parent _ hparent hc.currentId_lt hchain'.2.symm]

/-! ## Changes -/

/-- A change enters a namespace or leaves one, or the entered namespaces stay and none is new. -/
theorem Change.tree_cases (h : Change c c') :
    c'.entered = c.entered ∧ c'.namespaces.size = c.namespaces.size ∨
      (∃ name, c' = (Context.enter name c).2) ∨ c' = (Context.leave c).2 := by
  cases h with
  | checked within _ => exact .inl ⟨within.entered, congrArg _ within.namespaces⟩
  | body func within _ _ => exact .inl ⟨within.entered, congrArg _ within.namespaces⟩
  | enter name h => exact .inr (.inl ⟨name, h⟩)
  | leave h => exact .inr (.inr h)
  | struct name members linkage h _ =>
    obtain ⟨-, c₁, c₂, layout, hwithin, -, -, rfl, rfl⟩ := h
    exact .inl ⟨hwithin.entered, size_replaced _ hwithin.namespaces⟩
  | enum name builder linkage underlying enumTy h _ _ =>
    obtain ⟨-, -, c₁, c₂, c₃, member, hwithin, -, -, rfl, -, rfl, rfl⟩ := h
    rw [withLayout_withCurrent, withCurrent_withCurrent]
    exact .inl ⟨hwithin.entered, size_replaced _ hwithin.namespaces⟩
  | function name params returnType linkage func h _ _ =>
    obtain ⟨-, c₁, tys, ret, ir, hwithin, -, -, -, rfl⟩ := h
    exact .inl ⟨hwithin.entered, size_replaced _ hwithin.namespaces⟩

/-- Namespaces that are retained keep their parents. -/
theorem Linked.active_retained (h : c.Linked) (hc : c.Valid) (hr : c.Retains c') :
    c.chainIds.IsChain fun id outer => (c'.namespaceOf id).parent = some outer :=
  h.active.imp_of_mem_imp fun id _ hid _ hparent =>
    (hr.namespaces id (hc.chainIds_lt hid)).parent.trans hparent

/-- What retains all namespaces and adds none keeps them linked. -/
theorem Linked.of_retains (h : c.Linked) (hc : c.Valid) (hr : c.Retains c')
    (hsize : c'.namespaces.size = c.namespaces.size)
    (hactive : c'.chainIds.IsChain fun id outer => (c'.namespaceOf id).parent = some outer) :
    c'.Linked where
  root := (hr.namespaces .root hc.rooted).chain.trans h.root
  parents id hid hne := by
    rw [hsize] at hid ⊢
    obtain ⟨name, parent, hparent, hname, hfound, hchain⟩ := h.parents id hid hne
    have hns := hr.namespaces id hid
    exact ⟨name, parent, hparent, hns.name.trans hname, hns.parent.trans hfound, by
      rw [hns.chain, hchain, (hr.namespaces parent hparent).chain]⟩
  active := hactive

/-- The child of the name is entered, or a new one. -/
theorem enter_cases (name : String) (c : Context) :
    (∃ id, c.current.child? name = some id ∧
      (enter name c).2 = { c with entered := id :: c.entered }) ∨
    c.current.child? name = none ∧ (enter name c).2 = c.withChild name := by
  unfold enter
  split
  next id hchild => exact .inl ⟨id, hchild, rfl⟩
  next hnew => exact .inr ⟨hnew, rfl⟩

/-- A new namespace inside the current one keeps the namespaces linked. -/
theorem Linked.withChild (h : c.Linked) (hc : c.Valid) {name : String}
    (hr : c.Retains (c.withChild name)) : (c.withChild name).Linked := by
  have hself := hc.withChild_self name
  refine ⟨(hr.namespaces .root hc.rooted).chain.trans h.root, fun id hid hne => ?_, ?_⟩
  · rw [size_withChild]
    rcases withChild_cases hid with hid | rfl
    · obtain ⟨key, parent, hparent, hname, hfound, hchain⟩ := h.parents id hid hne
      have hns := hr.namespaces id hid
      exact ⟨key, parent, Nat.lt_succ_of_lt hparent, hns.name.trans hname,
        hns.parent.trans hfound, by
          rw [hns.chain, hchain, (hr.namespaces parent hparent).chain]⟩
    · -- the new namespace was made inside the current one
      refine ⟨name, c.currentId, Nat.lt_succ_of_lt hc.currentId_lt, ?_⟩
      rw [hself, (hr.namespaces _ hc.currentId_lt).chain]
      exact ⟨rfl, rfl, rfl⟩
  · refine (h.active_retained hc hr).cons fun outer houter => ?_
    rw [head?_chainIds] at houter
    cases houter
    exact congrArg Namespace.parent hself

/-- Entering a namespace keeps the namespaces linked, also if it is new. -/
theorem Linked.enter (h : c.Linked) (hc : c.Valid) (name : String) :
    (enter name c).2.Linked := by
  have hr := hc.enter_retains name
  rcases enter_cases name c with ⟨id, hchild, heq⟩ | ⟨-, heq⟩
  · rw [heq] at hr ⊢
    refine h.of_retains hc hr rfl ((h.active_retained hc hr).cons fun outer houter => ?_)
    rw [head?_chainIds] at houter
    cases houter
    exact h.parent_of_child hc hchild
  · rw [heq] at hr ⊢
    exact h.withChild hc hr

/-- Every change of a context keeps the namespaces linked. -/
theorem Change.linked (h : Change c c') (hc : c.Valid) (hl : c.Linked) : c'.Linked := by
  have hr := h.retains hc
  -- names and parents are retained, so only the chain of entered namespaces is of interest
  rcases h.tree_cases with ⟨hentered, hsize⟩ | ⟨name, rfl⟩ | rfl
  · refine hl.of_retains hc hr hsize ?_
    rw [chainIds, hentered]
    exact hl.active_retained hc hr
  · exact hl.enter hc name
  · refine hl.of_retains hc hr rfl ?_
    rcases chainIds_leave c with heq | heq
    · rw [heq]
      exact hl.active_retained hc hr
    · rw [heq]
      exact (hl.active_retained hc hr).tail

/-- Where nothing is declared, there is the root alone. -/
theorem linked_start (options : Options) : (start options).Linked := by
  refine ⟨rfl, ?_, List.isChain_singleton _⟩
  rintro ⟨index⟩ hid hne
  obtain rfl : index = 0 := Nat.lt_one_iff.1 hid
  exact absurd rfl hne

/-! ## Paths -/

/-- A path with one more name leads to the child of that name. -/
theorem descend?_append_singleton (c : Context) (id : NamespaceId) (path : List String)
    (name : String) :
    c.descend? id (path ++ [name]) =
      (c.descend? id path).bind fun id => (c.namespaceOf id).child? name := by
  induction path generalizing id with
  | nil =>
    change c.descend? id [name] = (c.namespaceOf id).child? name
    unfold descend?
    split
    next child hchild => exact hchild.symm
    next hchild => exact hchild.symm
  | cons first rest ih =>
    rw [List.cons_append]
    unfold descend?
    split
    next child _ => exact ih child
    next => rfl

/-- The path of a namespace leads to it. -/
theorem Linked.descend?_path (h : c.Linked) (hc : c.Valid) {id : NamespaceId}
    (hid : id.index < c.namespaces.size) :
    c.descend? .root (c.namespaceOf id).path = some id := by
  obtain ⟨chain, hchain⟩ : ∃ chain, (c.namespaceOf id).chain = chain := ⟨_, rfl⟩
  rw [Namespace.path, hchain]
  -- the names are left one after the other, from the innermost one outwards
  induction chain generalizing id with
  | nil =>
    obtain rfl := hc.paths id .root hid hc.rooted (hchain.trans h.root.symm)
    rfl
  | cons name rest ih =>
    obtain ⟨parent, hparent, hrest, hchild⟩ := hc.parents id hid name rest hchain
    rw [List.reverse_cons, descend?_append_singleton, ih hparent hrest]
    exact hchild

/-- Paths do not depend on which namespaces are entered. -/
theorem descend?_entered (c : Context) (entered : List NamespaceId) (id : NamespaceId)
    (path : List String) :
    ({ c with entered } : Context).descend? id path = c.descend? id path := by
  induction path generalizing id with
  | nil => rfl
  | cons name rest ih =>
    rw [descend?, descend?, show ({ c with entered } : Context).namespaceOf id = c.namespaceOf id
      from rfl]
    cases (c.namespaceOf id).child? name with
    | none => rfl
    | some child => exact ih child

/-- The path of a namespace leads to it, whatever namespaces are entered. -/
theorem Linked.namespaceAt?_path (h : c.Linked) (hc : c.Valid) {id : NamespaceId}
    (hid : id.index < c.namespaces.size) (entered : List NamespaceId) :
    ({ c with entered } : Context).namespaceAt? (c.namespaceOf id).path =
      some (c.namespaceOf id) := by
  rw [namespaceAt?, descend?_entered, h.descend?_path hc hid]
  rfl

/-- The type of a registered struct stands for it. -/
theorem Linked.structOfType?_ty (h : c.Linked) (hc : c.Valid) {id : NamespaceId} {name : String}
    {s : Struct} (hs : (c.namespaceOf id).struct? name = some s) (entered : List NamespaceId) :
    ({ c with entered } : Context).structOfType? s.ty = some s := by
  have hid := lt_of_struct? hs
  have htype := (hc.structs id hid (name, s) (mem_of_lookup hs)).type
  rw [structOfType?, show ({ c with entered } : Context).pool = c.pool from rfl,
    Pool.type_of_getElem? htype]
  dsimp only
  rw [h.namespaceAt?_path hc hid]
  exact hs

/-- The type of a registered enum stands for it. -/
theorem Linked.enumOfType?_ty (h : c.Linked) (hc : c.Valid) (hl : c.Laid) {id : NamespaceId}
    {name : String} {e : Enum} (he : (c.namespaceOf id).enum? name = some e)
    (entered : List NamespaceId) :
    ({ c with entered } : Context).enumOfType? e.ty = some e := by
  obtain ⟨s, -, hbacked⟩ := hl.enums id name e he
  rw [enumOfType?, show ({ c with entered } : Context).pool = c.pool from rfl,
    Pool.type_of_getElem? hbacked.type]
  dsimp only
  rw [h.namespaceAt?_path hc (lt_of_enum? he)]
  exact he

end Context

/-- After a run the namespaces are linked. -/
theorem Run.linked {σ : Type} {u : Compilation σ} {options : Options} {expander : Expander σ}
    {memory : σ} (h : Run (.start options expander memory) u) : u.context.Linked :=
  h.invariant (Context.linked_start options) fun _ _ hc hchange => hchange.linked hc

end FormCompiler
