import FormCompiler.Proofs.Bounds.Operations
import FormCompiler.Proofs.Bounds.Types
import FormCompiler.Proofs.Context.Valid
import FormCompiler.Proofs.Diagnostic.Calls

/-!
# Steps on the Context Stay in Bounds

A context holds ids of types, namespaces, functions and backend types, in its namespaces, its
layouts and the list of entered namespaces. Lookups, reports and registrations of a context in which
all of them are in range pass all checks.

* `Context.InBounds`: all ids in the context are in range, and no more errors were suppressed than
  reported.
* `Context.Widens`: how a context grows. Ids stay in range when it does.
* `Context.Checked`: the lookups and the steps on parts of the context, checked.
-/

namespace FormCompiler

/-! ## Contexts in bounds -/

/-- The id of a namespace is in range. -/
def Context.HasNamespace (c : Context) (id : NamespaceId) : Prop := id.index < c.namespaces.size

instance (c : Context) (id : NamespaceId) : Decidable (c.HasNamespace id) :=
  inferInstanceAs (Decidable (_ < _))

/-- The ids in an enum are in range. -/
@[mk_iff]
structure Enum.InBounds (c : Context) (e : Enum) : Prop where
  ty : c.pool.Has e.ty
  underlying : c.pool.Has e.underlying

/-- The ids in a struct are in range. -/
@[mk_iff]
structure Struct.InBounds (c : Context) (s : Struct) : Prop where
  ty : c.pool.Has s.ty
  backend : c.ir.HasTy s.backend
  members : ∀ m ∈ s.members, c.pool.Has m.2

/-- The ids in a function are in range. -/
@[mk_iff]
structure Function.InBounds (c : Context) (f : Function) : Prop where
  params : ∀ p ∈ f.params, c.pool.Has p.ty
  returnType : c.pool.Has f.returnType
  backend : c.ir.HasFunction f.backend

/-- The ids in a namespace are in range. -/
@[mk_iff]
structure Namespace.InBounds (c : Context) (ns : Namespace) : Prop where
  parent : ∀ id, ns.parent = some id → c.HasNamespace id
  children : ∀ child ∈ ns.children, c.HasNamespace child.2
  enums : ∀ e ∈ ns.enums, e.2.InBounds c
  structs : ∀ s ∈ ns.structs, s.2.InBounds c
  functions : ∀ f ∈ ns.functions, f.InBounds c

namespace Context

/-- All ids in the context are in range, and no more errors were suppressed than reported. -/
@[mk_iff]
structure InBounds (c : Context) : Prop where
  pool : c.pool.InBounds
  ir : c.ir.InBounds
  queue : c.queue.suppressed ≤ c.queue.errorCount
  root : c.HasNamespace .root
  namespaces : ∀ ns ∈ c.namespaces, ns.InBounds c
  entered : ∀ id ∈ c.entered, c.HasNamespace id
  layouts : ∀ layout ∈ c.layouts, c.pool.Has layout.1 ∧ c.ir.HasTy layout.2

instance (c : Context) (e : Enum) : Decidable (e.InBounds c) :=
  decidable_of_iff _ (Enum.inBounds_iff c e).symm

instance (c : Context) (s : Struct) : Decidable (s.InBounds c) :=
  decidable_of_iff _ (Struct.inBounds_iff c s).symm

instance (c : Context) (f : Function) : Decidable (f.InBounds c) :=
  decidable_of_iff _ (Function.inBounds_iff c f).symm

instance (c : Context) (ns : Namespace) : Decidable (ns.InBounds c) :=
  decidable_of_iff _ (Namespace.inBounds_iff c ns).symm

instance (c : Context) : Decidable c.InBounds := decidable_of_iff _ (inBounds_iff c).symm

/-- Types, code and namespaces are only added, and code that is well typed goes on as such. -/
structure Widens (c c' : Context) : Prop where
  pool : c.pool.Extends c'.pool
  ir : c.ir.SoundlyExtends c'.ir
  namespaces : c.namespaces.size ≤ c'.namespaces.size

theorem Widens.refl (c : Context) : c.Widens c := ⟨.refl c.pool, .refl c.ir, Nat.le_refl _⟩

theorem Widens.trans {c c' c'' : Context} (h : c.Widens c') (h' : c'.Widens c'') : c.Widens c'' :=
  ⟨h.pool.trans h'.pool, h.ir.trans h'.ir, Nat.le_trans h.namespaces h'.namespaces⟩

/-- How contexts grow, and when their ids are in range. -/
instance : Bounds Context where
  InBounds := InBounds
  Grows := Widens
  refl := .refl
  trans := .trans

end Context

section

variable {c c' : Context}

theorem Context.Widens.hasNamespace {id : NamespaceId} (hc : c.Widens c') (h : c.HasNamespace id) :
    c'.HasNamespace id := Nat.lt_of_lt_of_le h hc.namespaces

theorem Enum.InBounds.mono {e : Enum} (h : e.InBounds c) (hc : c.Widens c') : e.InBounds c' :=
  ⟨hc.pool.has h.ty, hc.pool.has h.underlying⟩

theorem Struct.InBounds.mono {s : Struct} (h : s.InBounds c) (hc : c.Widens c') : s.InBounds c' :=
  ⟨hc.pool.has h.ty, hc.ir.hasTy h.backend, fun m hm => hc.pool.has (h.members m hm)⟩

theorem Function.InBounds.mono {f : Function} (h : f.InBounds c) (hc : c.Widens c') :
    f.InBounds c' :=
  ⟨fun p hp => hc.pool.has (h.params p hp), hc.pool.has h.returnType, hc.ir.hasFunction h.backend⟩

theorem Namespace.InBounds.mono {ns : Namespace} (h : ns.InBounds c) (hc : c.Widens c') :
    ns.InBounds c' where
  parent id hid := hc.hasNamespace (h.parent id hid)
  children child hchild := hc.hasNamespace (h.children child hchild)
  enums e he := (h.enums e he).mono hc
  structs s hs := (h.structs s hs).mono hc
  functions f hf := (h.functions f hf).mono hc

/-- A child in range may be added. -/
theorem Namespace.InBounds.addChild {ns : Namespace} (h : ns.InBounds c) (name : String)
    {child : NamespaceId} (hchild : c.HasNamespace child) : (ns.addChild name child).InBounds c :=
  { h with children := List.forall_mem_cons.2 ⟨hchild, h.children⟩ }

namespace Context

theorem inBounds_start {options : Options}
    (hint : 1 ≤ options.target.intWidth ∧ options.target.intWidth ≤ 128)
    (hpointer : 1 ≤ options.target.pointerWidth ∧ options.target.pointerWidth ≤ 128) :
    (start options).InBounds where
  pool := Pool.inBounds_start hint hpointer
  ir := Ir.Module.inBounds_empty _
  queue := Nat.le_refl _
  root := by simp [HasNamespace, start, NamespaceId.root]
  namespaces := by
    intro ns hns
    obtain rfl : ns = .root := by simpa [start] using hns
    exact ⟨nofun, nofun, nofun, nofun, by simp [Namespace.root]⟩
  entered := nofun
  layouts := nofun

namespace InBounds

variable (h : c.InBounds)

include h

/-- A later context is in bounds if its parts are. -/
theorem after (hc : c.Widens c') (hpool : c'.pool.InBounds) (hir : c'.ir.InBounds)
    (hqueue : c'.queue.suppressed ≤ c'.queue.errorCount)
    (hnamespaces : ∀ ns ∈ c'.namespaces, ns ∈ c.namespaces ∨ ns.InBounds c')
    (hentered : ∀ id ∈ c'.entered, id ∈ c.entered ∨ c'.HasNamespace id)
    (hlayouts : ∀ l ∈ c'.layouts, l ∈ c.layouts ∨ c'.pool.Has l.1 ∧ c'.ir.HasTy l.2) :
    Bounds.After c c' where
  grows := hc
  inBounds := {
    pool := hpool
    ir := hir
    queue := hqueue
    root := hc.hasNamespace h.root
    namespaces := fun ns hns =>
      (hnamespaces ns hns).elim (fun hold => (h.namespaces ns hold).mono hc) id
    entered := fun i hi =>
      (hentered i hi).elim (fun hold => hc.hasNamespace (h.entered i hold)) id
    layouts := fun l hl => (hlayouts l hl).elim (fun hold =>
      ⟨hc.pool.has (h.layouts l hold).1, hc.ir.hasTy (h.layouts l hold).2⟩) id }

/-- The module may be replaced. -/
theorem withIr {m : Ir.Module} (hm : Bounds.After c.ir m) : Bounds.After c (c.withIr m) :=
  h.after ⟨.refl _, hm.grows, Nat.le_refl _⟩ h.pool hm.inBounds h.queue (fun _ => .inl)
    (fun _ => .inl) fun _ => .inl

/-- The pool may be replaced. -/
theorem withPool {p : Pool} (hp : p.InBounds) (hgrows : c.pool.Extends p) :
    Bounds.After c (c.withPool p) :=
  h.after ⟨hgrows, .refl _, Nat.le_refl _⟩ hp h.ir h.queue (fun _ => .inl) (fun _ => .inl)
    fun _ => .inl

/-- The namespaces may be replaced by others and further ones. -/
theorem withNamespaces {table : Array Namespace} (hsize : c.namespaces.size ≤ table.size)
    (htable : ∀ ns ∈ table, ns ∈ c.namespaces ∨ ns.InBounds { c with namespaces := table }) :
    Bounds.After c { c with namespaces := table } :=
  h.after ⟨.refl _, .refl _, hsize⟩ h.pool h.ir h.queue htable (fun _ => .inl) fun _ => .inl

/-- Other namespaces may be entered. -/
theorem withEntered {ids : List NamespaceId} (hids : ∀ id ∈ ids, c.HasNamespace id) :
    Bounds.After c { c with entered := ids } :=
  h.after ⟨.refl _, .refl _, Nat.le_refl _⟩ h.pool h.ir h.queue (fun _ => .inl)
    (fun id hid => .inr (hids id hid)) fun _ => .inl

/-- An error may be reported. -/
theorem report (d : Diagnostic) : Bounds.After c { c with queue := c.queue.emitError d } := by
  refine h.after ⟨.refl _, .refl _, Nat.le_refl _⟩ h.pool h.ir ?_ (fun _ => .inl) (fun _ => .inl)
    fun _ => .inl
  have hqueue := h.queue
  unfold Queue.emitError
  split
  · exact Nat.succ_le_succ hqueue
  · exact Nat.le_succ_of_le hqueue

/-- The current namespace is in range. -/
theorem hasNamespace_currentId : c.HasNamespace c.currentId := by
  unfold currentId
  cases hentered : c.entered with
  | nil => exact h.root
  | cons id rest => exact h.entered id (hentered ▸ List.mem_cons_self)

/-- The namespaces of the chain are in range. -/
theorem hasNamespace_chainIds {id : NamespaceId} (hid : id ∈ c.chainIds) : c.HasNamespace id := by
  rcases List.mem_append.1 hid with hid | hid
  · exact h.entered id hid
  · exact List.mem_singleton.1 hid ▸ h.root

/-- The ids in a namespace of the context are in range. -/
theorem namespaceOf {id : NamespaceId} (hid : c.HasNamespace id) :
    (c.namespaceOf id).InBounds c := by
  refine h.namespaces _ ?_
  rw [Context.namespaceOf, Array.getD_eq_getD_getElem?, Array.getElem?_eq_getElem hid,
    Option.getD_some]
  exact Array.getElem_mem hid

/-- What is found along the chain is found in a namespace of the context. -/
theorem findSome?_chain {α : Type} {f : Namespace → Option α} {a : α}
    (hfind : c.chain.findSome? f = some a) : ∃ ns : Namespace, ns.InBounds c ∧ f ns = some a := by
  obtain ⟨ns, hns, hf⟩ := List.exists_of_findSome?_eq_some hfind
  obtain ⟨id, hid, rfl⟩ := List.mem_map.1 hns
  exact ⟨_, h.namespaceOf (h.hasNamespace_chainIds hid), hf⟩

/-- The type of a name is in the pool. -/
theorem has_lookupType {name : String} {t : TypeId} (hlookup : c.lookupType? name = some t) :
    c.pool.Has t := by
  unfold lookupType? at hlookup
  cases hprimitive : TypeId.ofPrimitiveName? name with
  | some q =>
    rw [hprimitive] at hlookup
    obtain rfl := Option.some.inj hlookup
    obtain ⟨q, -, rfl⟩ := Option.map_eq_some_iff.1 hprimitive
    exact h.pool.has_primitive q
  | none =>
    rw [hprimitive] at hlookup
    obtain ⟨ns, hns, hty⟩ := h.findSome?_chain hlookup
    cases henum : ns.enum? name with
    | some e =>
      rw [henum] at hty
      obtain rfl := Option.some.inj hty
      exact (hns.enums _ (mem_of_lookup henum)).ty
    | none =>
      rw [henum] at hty
      obtain ⟨s, hs, rfl⟩ := Option.map_eq_some_iff.1 hty
      exact (hns.structs _ (mem_of_lookup hs)).ty

/-- The ids in an overload that is found are in range. -/
theorem lookupFunction {name : String} {arguments : List TypeId} {f : Function}
    (hlookup : c.lookupFunction? name arguments = some f) : f.InBounds c := by
  obtain ⟨ns, hns, hf⟩ := h.findSome?_chain hlookup
  exact hns.functions f (Array.mem_of_find?_eq_some hf)

/-- A child of a namespace of the context is in range. -/
theorem hasNamespace_child {id child : NamespaceId} {name : String} (hid : c.HasNamespace id)
    (hchild : (c.namespaceOf id).child? name = some child) : c.HasNamespace child :=
  (h.namespaceOf hid).children _ (mem_of_lookup hchild)

end InBounds

/-! ## Reading -/

namespace Checked

open FormCompiler.Checked (refuse demand free)

/-- Printable form of a type. -/
def typeName (c : Context) (t : TypeId) : Except Fault String := Pool.Checked.format c.pool t

/-- The namespace of an id. -/
def namespaceOf (c : Context) (id : NamespaceId) : Except Fault Namespace :=
  readAt c.namespaces id.index

/-- The current namespace. -/
def current (c : Context) : Except Fault Namespace := namespaceOf c c.currentId

/-- The current namespace and those around it, innermost first. -/
def chain (c : Context) : Except Fault (List Namespace) := c.chainIds.mapM (namespaceOf c)

/-- The namespace reached from one by a path of names. -/
def descend? (c : Context) : NamespaceId → List String → Except Fault (Option NamespaceId)
  | id, [] => return some id
  | id, name :: rest => do
    match (← namespaceOf c id).child? name with
    | some child => descend? c child rest
    | none => return none

/-- The namespace of a path from the root. -/
def namespaceAt? (c : Context) (path : List String) : Except Fault (Option Namespace) := do
  match ← descend? c .root path with
  | some id => return some (← namespaceOf c id)
  | none => return none

/-- The type of a name. -/
def lookupType? (c : Context) (name : String) : Except Fault (Option TypeId) := do
  match TypeId.ofPrimitiveName? name with
  | some t => return some t
  | none =>
    return (← chain c).findSome? fun ns =>
      ((ns.enum? name).map (·.ty)).or ((ns.struct? name).map (·.ty))

/-- The struct registered for a struct type. -/
def structOfType? (c : Context) (t : TypeId) : Except Fault (Option Struct) := do
  match ← Pool.Checked.type c.pool t with
  | .struct name path => return (← namespaceAt? c path).bind (·.struct? name)
  | _ => return none

/-- The overload of a name that takes arguments of exactly these types. -/
def lookupFunction? (c : Context) (name : String) (arguments : List TypeId) :
    Except Fault (Option Function) :=
  (chain c).map (·.findSome? fun ns => ns.overload? name arguments)

/-- Some function of the chain has the name. -/
def hasFunction (c : Context) (name : String) : Except Fault Bool :=
  (chain c).map (·.any (·.hasFunction name))

/-- The backend name of a struct declared in the current namespace. -/
def structSymbol (c : Context) (name : String) : Except Fault String := do
  return Symbol.ofStruct (← current c).path name

/-- The symbol of an overload declared in the current namespace. -/
def functionSymbol (c : Context) (name : String) (params : List TypeId) : Except Fault String := do
  let params ← params.mapM (typeName c)
  return Symbol.ofFunction (← current c).path name params

section

variable {id : NamespaceId} {t : TypeId}

theorem namespaceOf_eq (hid : c.HasNamespace id) : namespaceOf c id = .ok (c.namespaceOf id) :=
  readAt_eq hid default

variable (hc : c.InBounds)

include hc

theorem typeName_eq (ht : c.pool.Has t) : typeName c t = .ok (c.typeName t) :=
  Pool.Checked.format_eq hc.pool ht

theorem current_eq : current c = .ok c.current := namespaceOf_eq hc.hasNamespace_currentId

theorem chain_eq : chain c = .ok c.chain :=
  mapM_eq fun _ hid => namespaceOf_eq (hc.hasNamespace_chainIds hid)

theorem descend?_eq (path : List String) (hid : c.HasNamespace id) :
    descend? c id path = .ok (c.descend? id path) ∧
      ∀ id', c.descend? id path = some id' → c.HasNamespace id' := by
  induction path generalizing id with
  | nil => exact ⟨rfl, fun id' h => Option.some.inj h ▸ hid⟩
  | cons name rest ih =>
    unfold descend? Context.descend?
    rw [namespaceOf_eq hid]
    cases hchild : (c.namespaceOf id).child? name with
    | some child =>
      simp only [bind, Except.bind, hchild]
      exact ih (hc.hasNamespace_child hid hchild)
    | none =>
      simp only [bind, Except.bind, hchild]
      exact ⟨rfl, by simp⟩

theorem namespaceAt?_eq (path : List String) :
    namespaceAt? c path = .ok (c.namespaceAt? path) := by
  obtain ⟨heq, hmem⟩ := descend?_eq hc path hc.root
  unfold namespaceAt? Context.namespaceAt?
  rw [heq]
  cases hid : c.descend? .root path with
  | some id =>
    simp only [bind, Except.bind, namespaceOf_eq (hmem id hid)]
    rfl
  | none => rfl

theorem lookupType?_eq (name : String) : lookupType? c name = .ok (c.lookupType? name) := by
  unfold lookupType? Context.lookupType?
  rw [chain_eq hc]
  cases TypeId.ofPrimitiveName? name <;> rfl

theorem structOfType?_eq (ht : c.pool.Has t) : structOfType? c t = .ok (c.structOfType? t) := by
  unfold structOfType? Context.structOfType?
  rw [Pool.Checked.type_eq ht]
  cases c.pool.type t with
  | struct name path =>
    simp only [bind, Except.bind, namespaceAt?_eq hc]
    rfl
  | _ => rfl

theorem lookupFunction?_eq (name : String) (arguments : List TypeId) :
    lookupFunction? c name arguments = .ok (c.lookupFunction? name arguments) := by
  rw [lookupFunction?, chain_eq hc]
  rfl

theorem hasFunction_eq (name : String) : hasFunction c name = .ok (c.hasFunction name) := by
  rw [hasFunction, chain_eq hc]
  rfl

theorem structSymbol_eq (name : String) : structSymbol c name = .ok (c.structSymbol name) := by
  rw [structSymbol, current_eq hc]
  rfl

theorem functionSymbol_eq (name : String) {params : List TypeId}
    (hparams : ∀ t ∈ params, c.pool.Has t) :
    functionSymbol c name params = .ok (c.functionSymbol name params) := by
  rw [functionSymbol, current_eq hc, mapM_eq fun t ht => typeName_eq hc (hparams t ht)]
  rfl

/-- The ids in the struct of a type are in range. -/
theorem inBounds_structOfType {s : Struct} (hs : c.structOfType? t = some s) : s.InBounds c := by
  unfold Context.structOfType? at hs
  split at hs
  next name path _ =>
    obtain ⟨ns, hns, hs⟩ := Option.bind_eq_some_iff.1 hs
    obtain ⟨id, hid, rfl⟩ := Option.map_eq_some_iff.1 hns
    have hid := (descend?_eq hc path hc.root).2 id hid
    exact (hc.namespaceOf hid).structs _ (mem_of_lookup hs)
  next => cases hs

end

end Checked

end Context

end

end FormCompiler
