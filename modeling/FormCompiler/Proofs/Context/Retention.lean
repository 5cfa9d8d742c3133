import FormCompiler.Proofs.Reachable
import FormCompiler.Proofs.Context.Accounted

/-!
# What Is Declared Stays Declared

A declaration is never removed or changed, and neither are types, layouts, backend types and the
signatures of functions. So whatever a unit knows at some point it knows at every later one.

* `Namespace.Retains`: a namespace has the declarations and the children of another one.
* `Context.Retains`: so has every namespace of a context, which only adds to its types and its
  module.
* `Change.retains`, `Develops.retains`: every change retains what there was, and so does every
  sequence of changes.
-/

namespace FormCompiler

/-! ## Namespaces -/

/-- The second namespace is the first one with further children and declarations at most. -/
structure Namespace.Retains (ns ns' : Namespace) : Prop where
  name : ns'.name = ns.name
  parent : ns'.parent = ns.parent
  chain : ns'.chain = ns.chain
  child? : ∀ name id, ns.child? name = some id → ns'.child? name = some id
  enum? : ∀ name e, ns.enum? name = some e → ns'.enum? name = some e
  struct? : ∀ name s, ns.struct? name = some s → ns'.struct? name = some s
  functions : Grown ns.functions ns'.functions

namespace Namespace.Retains

variable {ns ns' ns'' : Namespace}

/-- A namespace retains its own declarations. -/
theorem refl (ns : Namespace) : ns.Retains ns :=
  ⟨rfl, rfl, rfl, fun _ _ h => h, fun _ _ h => h, fun _ _ h => h, .refl _⟩

/-- Declarations may be added several times. -/
theorem trans (h : ns.Retains ns') (h' : ns'.Retains ns'') : ns.Retains ns'' where
  name := h'.name.trans h.name
  parent := h'.parent.trans h.parent
  chain := h'.chain.trans h.chain
  child? name id hid := h'.child? name id (h.child? name id hid)
  enum? name e he := h'.enum? name e (h.enum? name e he)
  struct? name s hs := h'.struct? name s (h.struct? name s hs)
  functions := h.functions.trans h'.functions

/-- The path from the root is the same. -/
theorem path (h : ns.Retains ns') : ns'.path = ns.path := by
  rw [Namespace.path, h.chain, Namespace.path]

/-- What is found under a key is found when another key, which was free, has been added. -/
theorem lookup_cons_of_free {β : Type} {entries : List (String × β)} {new key : String}
    {value found : β} (hfree : entries.lookup new = none)
    (hfound : entries.lookup key = some found) :
    ((new, value) :: entries).lookup key = some found := by
  have hne : key ≠ new := by
    rintro rfl
    rw [hfree] at hfound
    cases hfound
  rw [List.lookup_cons, beq_false_of_ne hne]
  exact hfound

/-- A child of a free name. -/
theorem addChild {name : String} (h : ns.child? name = none) (id : NamespaceId) :
    ns.Retains (ns.addChild name id) :=
  { refl ns with child? := fun _ _ hid => lookup_cons_of_free h hid }

end Namespace.Retains

namespace Context

/-! ## Contexts -/

/-- The second context has what the first one has: types and layouts, entries of the module, and
every namespace with its declarations. -/
structure Retains (c c' : Context) : Prop where
  steady : c.Steady c'
  ir : c.ir.Extends c'.ir
  size : c.namespaces.size ≤ c'.namespaces.size
  namespaces : ∀ id : NamespaceId, id.index < c.namespaces.size →
    (c.namespaceOf id).Retains (c'.namespaceOf id)

variable {c c' : Context}

instance : Std.Refl Retains :=
  ⟨fun c => ⟨.refl c, .refl _, Nat.le_refl _, fun _ _ => .refl _⟩⟩

instance : IsTrans Context Retains where
  trans _ _ _ h h' := ⟨h.steady.trans h'.steady, h.ir.trans h'.ir, Nat.le_trans h.size h'.size,
    fun id hid => (h.namespaces id hid).trans
      (h'.namespaces id (Nat.lt_of_lt_of_le hid h.size))⟩

/-- The same namespaces are retained. -/
theorem namespaces_retained (h : c'.namespaces = c.namespaces) (id : NamespaceId) :
    (c.namespaceOf id).Retains (c'.namespaceOf id) := by
  rw [namespaceOf, namespaceOf, h]
  exact .refl _

/-- In a context that has the same namespaces and has entered the same ones, the current one is
replaced and the others are as they were. -/
theorem namespaceOf_replaced (ns : Namespace) (hnamespaces : c'.namespaces = c.namespaces)
    (hentered : c'.entered = c.entered) (id : NamespaceId) :
    (c'.withCurrent ns).namespaceOf id = c.namespaceOf id ∨
      id = c.currentId ∧ (c'.withCurrent ns).namespaceOf id = ns := by
  have hsame : (c'.withCurrent ns).namespaceOf id = (c.withCurrent ns).namespaceOf id := by
    rw [namespaceOf, withCurrent, currentId, hnamespaces, hentered]
    rfl
  rw [hsame]
  by_cases hid : id.index < c.namespaces.size
  · rw [namespaceOf_withCurrent c ns id hid]
    split
    next heq => exact .inr ⟨heq, rfl⟩
    next => exact .inl rfl
  · -- an id of no namespace stands for the same in both contexts
    have hge := Nat.le_of_not_lt hid
    rw [namespaceOf_of_ge hge, namespaceOf_of_ge (by rwa [size_withCurrent])]
    exact .inl rfl

/-- What the namespace in its place has in common with the current one, all namespaces keep. -/
theorem map_namespaceOf_replaced {γ : Type} (f : Namespace → γ) {ns : Namespace}
    (hnamespaces : c'.namespaces = c.namespaces) (hentered : c'.entered = c.entered)
    (h : f ns = f c.current) (id : NamespaceId) :
    f ((c'.withCurrent ns).namespaceOf id) = f (c.namespaceOf id) := by
  rcases namespaceOf_replaced ns hnamespaces hentered id with heq | ⟨rfl, heq⟩
  · rw [heq]
  · rw [heq, h, current]

/-- What neither a new namespace nor one with a new child has, all namespaces keep when one is
entered. -/
theorem Valid.map_namespaceOf_enter {γ : Type} (hc : c.Valid) (f : Namespace → γ)
    (hnew : ∀ name parent chain, f (.child name parent chain) = f default)
    (hadd : ∀ (ns : Namespace) name id, f (ns.addChild name id) = f ns) (name : String)
    (id : NamespaceId) : f ((enter name c).2.namespaceOf id) = f (c.namespaceOf id) := by
  unfold enter
  split
  next => rfl
  next =>
    change f ((c.withChild name).namespaceOf id) = _
    rw [hc.namespaceOf_withChild]
    split
    -- the id of the new namespace stood for none before
    next heq => rw [hnew, namespaceOf_of_ge (Nat.le_of_eq heq.symm)]
    next =>
      split
      next heq => rw [hadd, heq, current]
      next => rfl

/-- The number of namespaces stays the same. -/
theorem size_replaced (ns : Namespace) (hnamespaces : c'.namespaces = c.namespaces) :
    (c'.withCurrent ns).namespaces.size = c.namespaces.size := by
  rw [size_withCurrent, hnamespaces]

/-- The current namespace is replaced by one that retains it, in a context that has the same
namespaces. -/
theorem Retains.withCurrent {c₁ : Context} {ns : Namespace} (hsteady : c.Steady (c₁.withCurrent ns))
    (hir : c.ir.Extends c₁.ir) (hnamespaces : c₁.namespaces = c.namespaces)
    (hentered : c₁.entered = c.entered) (hns : c.current.Retains ns) :
    c.Retains (c₁.withCurrent ns) := by
  refine ⟨hsteady, hir, Nat.le_of_eq (size_replaced ns hnamespaces).symm, fun id _ => ?_⟩
  rcases namespaceOf_replaced ns hnamespaces hentered id with heq | ⟨rfl, heq⟩
  · rw [heq]
    exact .refl _
  · rw [heq]
    exact hns

/-- Entering a namespace retains what there was. -/
theorem Valid.enter_retains (hc : c.Valid) (name : String) : c.Retains (enter name c).2 := by
  have hsteady := (enter_safe name c hc).2
  rw [enter] at hsteady ⊢
  split at hsteady
  next => exact ⟨hsteady, .refl _, Nat.le_refl _, fun id _ => namespaces_retained rfl id⟩
  next hnew =>
    refine ⟨hsteady, .refl _, by simp, fun id hid => ?_⟩
    change (c.namespaceOf id).Retains ((c.withChild name).namespaceOf id)
    -- the new namespace has a new id, so the current one alone has changed
    rw [hc.namespaceOf_withChild, if_neg (Nat.ne_of_lt hid)]
    split
    next heq => exact heq ▸ .addChild hnew _
    next => exact .refl _

/-- Every change of a context retains what there was. -/
theorem Change.retains (h : Change c c') (hc : c.Valid) : c.Retains c' := by
  have hsteady := (h.safe hc).2
  -- a declaration replaces the current namespace by one with a further entry, under a free key
  cases h with
  | checked within _ =>
    exact ⟨hsteady, within.ir.toExtends, Nat.le_of_eq (congrArg _ within.namespaces.symm),
      fun id _ => namespaces_retained within.namespaces id⟩
  | body func within _ _ =>
    exact ⟨hsteady, within.ir, Nat.le_of_eq (congrArg _ within.namespaces.symm),
      fun id _ => namespaces_retained within.namespaces id⟩
  | leave h =>
    subst h
    exact ⟨hsteady, .refl _, Nat.le_refl _, fun id _ => namespaces_retained rfl id⟩
  | enter name h => exact h ▸ hc.enter_retains name
  | struct name members linkage h _ =>
    obtain ⟨hnew, c₁, c₂, layout, hwithin, -, -, rfl, rfl⟩ := h
    exact .withCurrent hsteady (hwithin.ir.toExtends.trans (Ir.Module.extends_push_type _ _))
      hwithin.namespaces hwithin.entered
      { Namespace.Retains.refl c.current with
        struct? := fun _ _ hs => Namespace.Retains.lookup_cons_of_free hnew hs }
  | enum name builder linkage underlying enumTy h _ _ =>
    obtain ⟨hnewEnum, hnewStruct, c₁, c₂, c₃, member, hwithin, -, -, rfl, -, rfl, rfl⟩ := h
    rw [withLayout_withCurrent, withCurrent_withCurrent] at hsteady ⊢
    exact .withCurrent hsteady (hwithin.ir.toExtends.trans (Ir.Module.extends_push_type _ _))
      hwithin.namespaces hwithin.entered
      { Namespace.Retains.refl c.current with
        enum? := fun _ _ he => Namespace.Retains.lookup_cons_of_free hnewEnum he
        struct? := fun _ _ hs => Namespace.Retains.lookup_cons_of_free hnewStruct hs }
  | function name params returnType linkage func h _ _ =>
    obtain ⟨-, c₁, tys, ret, ir, hwithin, -, -, hdeclared, rfl⟩ := h
    exact .withCurrent hsteady (hwithin.ir.toExtends.trans hdeclared.toExtends)
      hwithin.namespaces hwithin.entered
      { Namespace.Retains.refl c.current with functions := .push _ _ }

/-- Development retains what there was. -/
theorem Develops.retains (h : c.Develops c') (hc : c.Valid) : c.Retains c' :=
  h.rel (fun _ _ hvalid hchange => hchange.retains hvalid) hc

end Context

end FormCompiler
