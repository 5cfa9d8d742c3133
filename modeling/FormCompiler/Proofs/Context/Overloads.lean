import FormCompiler.Proofs.Context.Tables

/-!
# Overloads and the Order of their Declaration

The ids of types and functions depend on the order in which they were entered. What they stand for
does not, and neither does the overload that a name and the types of arguments lead to.

* `Pool.SameType`: two ids, each of its own pool, stand for the same type of the source.
* `Function.Same`: two overloads differ in such ids and in the id in the module at most.
* `Namespace.SameFunctions`: two namespaces have the same overloads, in whatever order.
* `lookupFunction?_same`: through two chains with the same overloads, the same ones are found.
-/

namespace FormCompiler

/-! ## Types -/

/-- The ids stand for the same type of the source, each in its pool. -/
inductive Pool.SameType (p p' : Pool) : TypeId → TypeId → Prop
  | plain {t t' : TypeId} {type : SourceType} (left : p.types[t.index]? = some type)
      (right : p'.types[t'.index]? = some type) (plain : type.has .isPointer = false) :
      SameType p p' t t'
  | pointer {t t' pointee pointee' : TypeId} (left : p.types[t.index]? = some (.pointer pointee))
      (right : p'.types[t'.index]? = some (.pointer pointee'))
      (same : SameType p p' pointee pointee') : SameType p p' t t'

namespace Pool.SameType

variable {p p' : Pool} {t t' t'' : TypeId}

/-- The primitive types have the same ids in all sound pools. -/
theorem primitive (hp : p.Sound) (hp' : p'.Sound) (q : Primitive) :
    p.SameType p' (.ofPrimitive q) (.ofPrimitive q) :=
  .plain (hp.primitives q) (hp'.primitives q) (by rfl)

/-- The pools may change places. -/
theorem symm (h : p.SameType p' t t') : p'.SameType p t' t := by
  induction h with
  | plain left right plain => exact .plain right left plain
  | pointer left right _ ih => exact .pointer right left ih

/-- In a sound pool one id at most stands for a type of another pool. -/
theorem right_unique (hp' : p'.Sound) (h : p.SameType p' t t') (h' : p.SameType p' t t'') :
    t' = t'' := by
  -- both ids have the same entry, which stands in the pool once
  have hid : ∀ {t' t'' : TypeId} {type : SourceType}, p'.types[t'.index]? = some type →
      p'.types[t''.index]? = some type → t' = t'' := fun {t' t''} type h h' => by
    cases t'
    cases t''
    exact congrArg TypeId.mk (hp'.distinct _ _ type h h')
  induction h generalizing t'' with
  | plain left right plain =>
    cases h' with
    | plain left' right' _ =>
      obtain rfl := Option.some_inj.1 (left.symm.trans left')
      exact hid right right'
    | pointer left' _ _ =>
      obtain rfl := Option.some_inj.1 (left.symm.trans left')
      cases plain
  | pointer left right _ ih =>
    cases h' with
    | plain left' _ plain =>
      obtain rfl := Option.some_inj.1 (left.symm.trans left')
      cases plain
    | pointer left' right' same =>
      cases Option.some_inj.1 (left.symm.trans left')
      obtain rfl := ih same
      exact hid right right'

/-- In sound pools, types that stand for the same ones are equal alike. -/
theorem eq_iff (hp : p.Sound) (hp' : p'.Sound) {s s' : TypeId} (h : p.SameType p' t t')
    (h' : p.SameType p' s s') : t = s ↔ t' = s' := by
  constructor
  · rintro rfl
    exact right_unique hp' h h'
  · rintro rfl
    exact right_unique hp h.symm h'.symm

end Pool.SameType

/-! ## Overloads -/

/-- The overloads differ in the ids of types and of the function at most, and the ids of types stand
for the same types. -/
structure Function.Same (p p' : Pool) (f f' : Function) : Prop where
  name : f'.name = f.name
  params : List.Forall₂ (fun (a a' : Param) => a'.name = a.name ∧ p.SameType p' a.ty a'.ty)
    f.params f'.params
  returnType : p.SameType p' f.returnType f'.returnType
  linkage : f'.linkage = f.linkage
  symbol : f'.symbol = f.symbol

/-- Either namespace has the overloads of the other one. -/
structure Namespace.SameFunctions (p p' : Pool) (ns ns' : Namespace) : Prop where
  left : ∀ f ∈ ns.functions, ∃ f' ∈ ns'.functions, f.Same p p' f'
  right : ∀ f' ∈ ns'.functions, ∃ f ∈ ns.functions, f.Same p p' f'

variable {p p' : Pool} {arguments arguments' : List TypeId}

/-- Overloads that are the same take the same types. -/
theorem Function.Same.paramTypes {f f' : Function} (h : f.Same p p' f') :
    List.Forall₂ (p.SameType p') f.paramTypes f'.paramTypes := by
  rw [Function.paramTypes, Function.paramTypes, List.forall₂_map_left_iff,
    List.forall₂_map_right_iff]
  exact h.params.imp fun _ _ => And.right

/-- Lists of the same types are equal alike. -/
theorem Pool.SameType.list_eq_iff (hp : p.Sound) (hp' : p'.Sound) {ts ts' : List TypeId}
    (h : List.Forall₂ (p.SameType p') ts ts')
    (harguments : List.Forall₂ (p.SameType p') arguments arguments') :
    ts = arguments ↔ ts' = arguments' := by
  induction h generalizing arguments arguments' with
  | nil => cases harguments <;> simp
  | cons hhead _ ih =>
    cases harguments with
    | nil => simp
    | cons hhead' htail' =>
      rw [List.cons.injEq, List.cons.injEq, hhead.eq_iff hp hp' hhead', ih htail']

/-- In namespaces with the same overloads, the same ones are found. -/
theorem Namespace.SameFunctions.overload? {ns ns' : Namespace} (h : ns.SameFunctions p p' ns')
    (hp : p.Sound) (hp' : p'.Sound) (hns : ns.Unambiguous) (hns' : ns'.Unambiguous) (name : String)
    (harguments : List.Forall₂ (p.SameType p') arguments arguments') :
    Option.Rel (Function.Same p p') (ns.overload? name arguments)
      (ns'.overload? name arguments') := by
  -- overloads that are the same are found by the same name and types
  have hfound : ∀ {f f' : Function}, f.Same p p' f' →
      (f.name = name ∧ f.paramTypes = arguments ↔
        f'.name = name ∧ f'.paramTypes = arguments') := fun hsame => by
    rw [hsame.name, Pool.SameType.list_eq_iff hp hp' hsame.paramTypes harguments]
  cases hleft : ns.overload? name arguments with
  | some f =>
    obtain ⟨hf, hkey⟩ := of_overload hleft
    obtain ⟨f', hf', hsame⟩ := h.left f hf
    rw [hns'.overload?_eq_some_iff.2 ⟨hf', (hfound hsame).1 hkey⟩]
    exact .some hsame
  | none =>
    cases hright : ns'.overload? name arguments' with
    | none => exact .none
    | some f' =>
      obtain ⟨hf', hkey⟩ := of_overload hright
      obtain ⟨f, hf, hsame⟩ := h.right f' hf'
      rw [hns.overload?_eq_some_iff.2 ⟨hf, (hfound hsame).2 hkey⟩] at hleft
      cases hleft

/-- Through namespaces with the same overloads, the same ones are found. -/
theorem Namespace.SameFunctions.findSome? {chain chain' : List Namespace}
    (h : List.Forall₂ (SameFunctions p p') chain chain') (hp : p.Sound) (hp' : p'.Sound)
    (hchain : ∀ ns ∈ chain, ns.Unambiguous) (hchain' : ∀ ns ∈ chain', ns.Unambiguous)
    (name : String) (harguments : List.Forall₂ (p.SameType p') arguments arguments') :
    Option.Rel (Function.Same p p') (chain.findSome? fun ns => ns.overload? name arguments)
      (chain'.findSome? fun ns => ns.overload? name arguments') := by
  -- the innermost namespace answers for both chains, or for neither
  induction h with
  | nil => exact .none
  | @cons ns ns' rest rest' hsame _ ih =>
    have hrel := hsame.overload? hp hp' (hchain ns List.mem_cons_self)
      (hchain' ns' List.mem_cons_self) name harguments
    rw [List.findSome?_cons, List.findSome?_cons]
    generalize ns.overload? name arguments = found at hrel ⊢
    generalize ns'.overload? name arguments' = found' at hrel ⊢
    cases hrel with
    | some h => exact .some h
    | none =>
      exact ih (fun ns hns => hchain ns (List.mem_cons_of_mem _ hns))
        fun ns hns => hchain' ns (List.mem_cons_of_mem _ hns)

namespace Context

variable {c c' : Context}

/-- The namespaces of the chain are unambiguous. -/
theorem Tabled.chain_unambiguous (h : c.Tabled) : ∀ ns ∈ c.chain, ns.Unambiguous := by
  intro ns hns
  obtain ⟨id, -, rfl⟩ := List.mem_map.1 hns
  exact h.unambiguous id

/-- Through chains with the same overloads, the same ones are found, in whatever order they were
declared. -/
theorem lookupFunction?_same (hc : c.Valid) (hc' : c'.Valid) (ht : c.Tabled) (ht' : c'.Tabled)
    (hchain : List.Forall₂ (Namespace.SameFunctions c.pool c'.pool) c.chain c'.chain)
    (name : String)
    (harguments : List.Forall₂ (c.pool.SameType c'.pool) arguments arguments') :
    Option.Rel (Function.Same c.pool c'.pool) (c.lookupFunction? name arguments)
      (c'.lookupFunction? name arguments') :=
  Namespace.SameFunctions.findSome? hchain hc.pool hc'.pool ht.chain_unambiguous
    ht'.chain_unambiguous name harguments

end Context

end FormCompiler
