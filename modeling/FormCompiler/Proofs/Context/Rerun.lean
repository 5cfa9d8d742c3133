import FormCompiler.Proofs.Context.Ordered
import FormCompiler.Proofs.Ir.RerunOperations

/-!
# The Same Code Emitted Again

Code is emitted into a context, and later once more, from another block of its module. What is
declared is the same both times. The second time the pool may have more types, which are pointers,
and nothing can be told by them: a function that takes pointers of a type can only be found if the
type of those pointers was there when the function was declared.

* `Rerun`: the two contexts and blocks that the runs begin with.
* `Rerun.Holds`, `Rerun.Mirrors`: what is known of the context in the first run, and of contexts at
  corresponding points of both.
* `Stock.Sees`: what is known when both contexts are read.
* `Diagnostic.SaysAs`: reports with the same code and message.
-/

namespace FormCompiler

/-- The second report says the same as the first one, perhaps of another place. -/
structure Diagnostic.SaysAs (d d' : Diagnostic) : Prop where
  code : d'.code = d.code
  message : d'.message = d.message

/-- The result with other values and blocks. -/
def Result.rename (value : Ir.ValueId → Ir.ValueId) (block : Ir.BlockId → Ir.BlockId) (r : Result) :
    Result :=
  { r with value := value r.value, block := block r.block, address := r.address.map value }

/-- The types that a type is made of. -/
def SourceType.parts : SourceType → List TypeId
  | pointer pointee => [pointee]
  | _ => []

namespace Context

/-- Where two runs begin: the contexts, and the block that each one first emits into. -/
structure Rerun where
  first : Context
  second : Context
  here : Ir.BlockId
  there : Ir.BlockId

/-- What a run has to go on with: open blocks of its own, and types of the pool and the module. -/
structure Stock where
  blocks : List Ir.BlockId
  types : List TypeId
  backends : List Ir.TyId

/-- The stock after a step on the module. -/
def Stock.after (i : Stock) (bs : List Ir.BlockId × List Ir.TyId) : Stock :=
  { i with blocks := bs.1, backends := bs.2 }

/-- What is known of two contexts when they are read: the second one has the types of the first one,
and the same is declared. -/
structure Stock.Sees (i : Stock) (c c' : Context) : Prop where
  valid : c.Valid
  ordered : c.Ordered
  known : ∀ t ∈ i.types, t.index < c.pool.types.size
  within : c.Within Pool.Extends (fun _ _ => True) c'

/-! ## Reading corresponding contexts -/

/-- A function that takes pointers is one in scope. -/
theorem lookup_of_pointerFunction? {c : Context} {name : String} {t : TypeId} {count : Nat}
    {callee : Ir.FuncId} (h : c.pointerFunction? name t count = some callee) :
    ∃ name arguments f, c.lookupFunction? name arguments = some f ∧ f.backend = callee := by
  unfold pointerFunction? at h
  split at h
  · obtain ⟨f, hf, rfl⟩ := Option.map_eq_some_iff.1 h
    exact ⟨_, _, f, hf, rfl⟩
  · cases h

namespace Stock.Sees

variable {i : Stock} {c c' : Context} {t : TypeId} (h : i.Sees c c')

include h

/-- A type of the stock. -/
theorem type (ht : t ∈ i.types) : c'.pool.type t = c.pool.type t :=
  h.within.pool.type (h.known t ht)

/-- What a pointer points to. -/
theorem pointee? (ht : t ∈ i.types) : c'.pool.pointee? t = c.pool.pointee? t := by
  rw [Pool.pointee?, h.type ht, Pool.pointee?]

/-- Whether a type is `void`. -/
theorem isVoid (ht : t ∈ i.types) : c'.pool.isVoid t = c.pool.isVoid t := by
  rw [Pool.isVoid, h.type ht, Pool.isVoid]

/-- Types have the same printable form. -/
theorem typeName (ht : t ∈ i.types) : c'.typeName t = c.typeName t :=
  h.valid.pool.format h.within.pool (h.known t ht)

/-- The struct of a type. -/
theorem structOfType? (ht : t ∈ i.types) : c'.structOfType? t = c.structOfType? t := by
  rw [Context.structOfType?, h.type ht, Context.structOfType?]
  split
  · rw [h.within.namespaceAt?]
  · rfl

/-- The function that takes pointers to a type. If the type of those pointers is new, there is
none. -/
theorem pointerFunction? (t : TypeId) (name : String) (count : Nat) :
    c'.pointerFunction? name t (count + 1) = c.pointerFunction? name t (count + 1) := by
  unfold Context.pointerFunction?
  cases hfind : c.pool.pointerTo? t with
  | some pointer =>
    rw [show c'.pool.pointerTo? t = some pointer from h.within.pool.find? hfind]
    dsimp only
    rw [h.within.lookupFunction?]
  | none =>
    cases hfind' : c'.pool.pointerTo? t with
    | none => rfl
    | some pointer =>
      dsimp only
      rw [h.within.lookupFunction?, Option.map_eq_none_iff]
      cases hf : c.lookupFunction? name (List.replicate (count + 1) pointer) with
      | none => rfl
      | some f =>
        -- the pointer type would have been there, and it would have been found
        have hlt := h.valid.index_lt_of_lookup hf (t := pointer) (by simp)
        have htype := Pool.type_of_find hfind'
        rw [h.within.pool.types.getElem? hlt] at htype
        have hsome : (c.pool.types.findIdx? (· == SourceType.pointer t)).isSome = true := by
          rw [Array.findIdx?_isSome, Array.any_eq_true]
          obtain ⟨hi, hget⟩ := Array.getElem?_eq_some_iff.1 htype
          exact ⟨_, hi, by rw [hget, beq_self_eq_true]⟩
        rw [Pool.pointerTo?, Pool.find?, Option.map_eq_none_iff] at hfind
        rw [hfind] at hsome
        cases hsome

/-- The destructor of a type. -/
theorem destructor? (ht : t ∈ i.types) : c'.destructor? t = c.destructor? t := by
  rw [Context.destructor?, h.isVoid ht, h.pointerFunction? t, Context.destructor?]

/-- The members of a struct are in the pool. -/
theorem members {s : Struct} (hs : c.structOfType? t = some s) (ht : t ∈ i.types) :
    ∀ member ∈ s.memberTypes, member.index < t.index ∧ member.index < c.pool.types.size :=
  fun member hmember => have hlt := h.ordered t s hs member hmember
    ⟨hlt, Nat.lt_trans hlt (h.known t ht)⟩

/-- What is known of the pool may be in stock. -/
theorem restock {types : List TypeId} (htypes : ∀ t ∈ types, t.index < c.pool.types.size) :
    ({ i with types } : Stock).Sees c c' := { h with known := htypes }

/-- Whether a type owns resources. -/
theorem ownsResources (ht : t ∈ i.types) : c'.ownsResources t = c.ownsResources t := by
  suffices hbelow : ∀ (bound : Nat) (i : Stock) (t : TypeId), i.Sees c c' → t ∈ i.types →
      c'.ownsResourcesBelow bound t = c.ownsResourcesBelow bound t from hbelow _ i t h ht
  intro bound
  induction bound with
  | zero => exact fun _ _ _ _ => rfl
  | succ bound ih =>
    intro i t h ht
    rw [ownsResourcesBelow, h.destructor? ht, h.structOfType? ht, ownsResourcesBelow]
    cases hs : c.structOfType? t with
    | none => rfl
    | some s =>
      have hmembers := h.restock fun member hmember => (h.members hs ht member hmember).2
      have hany : s.memberTypes.map (c'.ownsResourcesBelow bound) =
          s.memberTypes.map (c.ownsResourcesBelow bound) :=
        List.map_congr_left fun member hmember => ih _ member hmembers hmember
      have hmap : ∀ p : TypeId → Bool, s.memberTypes.any p = (s.memberTypes.map p).any id :=
        fun p => by
          rw [List.any_map]
          rfl
      dsimp only
      rw [hmap, hany, ← hmap]

end Stock.Sees

namespace Rerun

variable (K : Rerun)

/-- The modules that the runs begin with. -/
abbrev module : Ir.Rerun := ⟨K.first.ir, K.second.ir, K.here, K.there⟩

/-- What the runs begin with. -/
structure Fits : Prop where
  module : K.module.Fits
  valid : K.first.Valid
  ordered : K.first.Ordered

/-- What is known of the context in the first run. -/
structure Holds (i : Stock) (c : Context) : Prop where
  module : K.module.Holds i.blocks i.backends c.ir
  proceeds : K.first.Proceeds c
  valid : c.Valid
  known : ∀ t ∈ i.types, t.index < c.pool.types.size

/-- The contexts stand at corresponding points of the two runs. -/
structure Mirrors (c c' : Context) : Prop where
  within : c.Within (fun _ p => p = K.second.pool) K.module.Mirrors c'
  queue : c'.queue = K.second.queue

/-- The types of the context are there in the second run from the beginning. -/
structure Covered (c : Context) : Prop where
  pool : c.pool.Extends K.second.pool
  types : Grown c.ir.types K.second.ir.types

/-- Types were entered and code was emitted. -/
structure Grows (c c' : Context) : Prop where
  pool : c.pool.Extends c'.pool
  module : c.ir.Extends c'.ir

/-- Both runs stopped with one report each, which say the same. -/
def Stops (e : Halt) (c : Context) (e' : Halt) (c' : Context) : Prop :=
  e = .reported ∧ e' = .reported ∧ ∃ d d' : Diagnostic, d.SaysAs d' ∧
    c.queue = K.first.queue.emitError d ∧ c'.queue = K.second.queue.emitError d'

/-- The comparison of two runs on contexts. -/
def repetition : Repetition Halt Context Stock where
  Holds := K.Holds
  Grows := Grows
  Covered := K.Covered
  Mirrors := K.Mirrors
  Stops := K.Stops
  refl c := ⟨.refl _, K.module.repetition.refl c.ir⟩
  trans h h' := ⟨h.pool.trans h'.pool, K.module.repetition.trans h.module h'.module⟩
  covered h h' := ⟨h.pool.trans h'.pool, h.module.types.trans h'.types⟩

variable {K} {i : Stock} {c c' : Context} {t : TypeId} (hK : K.Fits)

/-! ## What is known -/

namespace Holds

variable (h : K.Holds i c)

include h

/-- Less need be known. -/
theorem weaken {j : Stock} (hblocks : i.blocks.Perm j.blocks) (htypes : j.types ⊆ i.types)
    (hbackends : j.backends ⊆ i.backends) : K.Holds j c :=
  { h with
    module := h.module.weaken (fun _ hb => hblocks.mem_iff.2 hb) hblocks.nodup hbackends
    known := fun t ht => h.known t (htypes ht) }

/-- What is known of the pool may be in stock. -/
theorem restock {types : List TypeId} (htypes : ∀ t ∈ types, t.index < c.pool.types.size) :
    K.Holds { i with types } c := { h with known := htypes }

/-- What a type is made of is in the pool. -/
theorem parts (ht : t ∈ i.types) :
    ∀ part ∈ (c.pool.type t).parts, part.index < c.pool.types.size := by
  intro part hpart
  have hlt := h.known t ht
  have htype := Pool.getElem?_type hlt
  cases hcase : c.pool.type t with
  | pointer pointee =>
    rw [hcase] at hpart htype
    rw [List.mem_singleton.1 hpart]
    exact Nat.lt_trans (h.valid.pool.pointees _ _ htype) hlt
  | primitive | struct | enum =>
    rw [hcase] at hpart
    cases hpart

/-- A type of the pool may be known. -/
theorem learn (ht : t.index < c.pool.types.size) : K.Holds { i with types := t :: i.types } c :=
  h.restock fun t' ht' => (List.mem_cons.1 ht').elim (fun heq => heq ▸ ht) (h.known t')

/-- Code was emitted. -/
theorem emitted {blocks : List Ir.BlockId} {backends : List Ir.TyId} {ir : Ir.Module}
    (hir : c.ir.Extends ir) (hmodule : K.module.Holds blocks backends ir) :
    K.Holds { i with blocks, backends } (c.withIr ir) where
  module := hmodule
  proceeds := IsTrans.trans _ _ _ h.proceeds (.of_ir ir)
  valid := (Safe.of_extends (Within.of_ir hir) h.valid).1
  known := h.known

/-- A function in scope is one that the run began with, and so are its parameters and the type that
it returns. -/
theorem implements (hK : K.Fits) {name : String} {arguments : List TypeId} {f : Function}
    (hf : c.lookupFunction? name arguments = some f) : K.first.Implements f :=
  hK.valid.implements_of_lookup (by rwa [← h.proceeds.within.lookupFunction?])

/-- What is read of the context and of one at the corresponding point of the second run. -/
theorem sees (hK : K.Fits) (hcc : K.Mirrors c c') (hcovered : K.Covered c) : i.Sees c c' where
  valid := h.valid
  ordered := hK.ordered.proceeds h.proceeds
  known := h.known
  within := ⟨hcc.within.pool ▸ hcovered.pool, trivial, hcc.within.namespaces, hcc.within.entered,
    hcc.within.layouts, hcc.within.onceTag⟩

/-- What is read of the context twice. -/
theorem sees_self (hK : K.Fits) : i.Sees c c where
  valid := h.valid
  ordered := hK.ordered.proceeds h.proceeds
  known := h.known
  within := ⟨.refl _, trivial, rfl, rfl, rfl, rfl⟩

end Holds

/-! ## Steps of both runs -/

variable {α β : Type} {φ : α → β}

include hK in
/-- Reading what is the same in both contexts, and tells what is there. -/
theorem learning_repeats {p : Context → α} {j : α → Stock}
    (hsees : ∀ c c', i.Sees c c' → p c' = p c)
    (hself : ∀ c, K.Holds i c → K.Holds (j (p c)) c) :
    K.repetition.Repeats i (reading p) (reading p) id j :=
  .reading hself fun c c' h hcc hcovered => hsees c c' (h.sees hK hcc hcovered)

include hK in
/-- Reading what is the same in both contexts. -/
theorem reading_repeats {p : Context → α} (hsees : ∀ c c', i.Sees c c' → p c' = p c) :
    K.repetition.Repeats i (reading p) (reading p) id fun _ => i :=
  learning_repeats hK hsees fun _ h => h

/-- Both runs stop with a report. -/
theorem fail_repeats {d d' : Diagnostic} {j : α → Stock} (hd : d.SaysAs d') :
    K.repetition.Repeats i (fail d : Check α) (fail d' : Check β) φ j where
  ends _ _ := ⟨.refl _, K.module.repetition.refl _⟩
  agree _ _ h hcc _ := ⟨rfl, rfl, d, d', hd, congrArg (Queue.emitError · d) h.proceeds.queue,
    congrArg (Queue.emitError · d') hcc.queue⟩

/-- The module after an operation that may be refused. -/
theorem final_attempt_ir (op : Ir.Build α) (c : Context) :
    (final (always (attempt op)) c).ir = final op c.ir := by
  have hrun := attempt_run op c
  unfold final
  cases hop : op c.ir <;> rw [hop] at hrun <;> rw [always_of_eq hrun] <;> rfl

/-- The module after an operation whose refusal is reported. -/
theorem final_emitOr_ir (refusal : Ir.Error → Diagnostic) (op : Ir.Build α) (c : Context) :
    (final (emitOr refusal op) c).ir = final op c.ir := by
  unfold final
  cases hop : op c.ir with
  | ok a ir => rw [emitOr_of_ok refusal hop]; rfl
  | error e ir => rw [emitOr_of_error refusal hop]; rfl

section

variable {bs : α → List Ir.BlockId × List Ir.TyId}

/-- Contexts at corresponding points, after steps on the modules. -/
theorem Mirrors.of_ir (h : K.Mirrors c c') {ir ir' : Ir.Module} (hir : K.module.Mirrors ir ir') :
    K.Mirrors (c.withIr ir) (c'.withIr ir') :=
  ⟨⟨h.within.pool, hir, h.within.namespaces, h.within.entered, h.within.layouts, h.within.onceTag⟩,
    h.queue⟩

/-- A step on the module that never stops. -/
theorem onModule_repeats {step step' : StateM Ir.Module α} {φ : α → α}
    (h : K.module.repetition.Repeats (i.blocks, i.backends) (Ir.Module.always step)
      (Ir.Module.always step') φ bs) :
    K.repetition.Repeats i (always (onModule step)) (always (onModule step')) φ
      fun a => i.after (bs a) where
  ends c hc := by
    have hends := h.ends c.ir hc.module
    exact ⟨⟨.refl _, hends.1⟩, hc.emitted hends.1 hends.2⟩
  agree c c' hc hcc hcovered := by
    obtain ⟨hvalue, hir⟩ := h.agree c.ir c'.ir hc.module hcc.within.ir hcovered.types
    exact ⟨hvalue, hcc.of_ir hir⟩

/-- An operation whose refusal is handed out, and which leaves the module alone then. -/
theorem attempt_repeats {op : Ir.Build α} {φ : α → α}
    (h : K.module.repetition.Repeats (i.blocks, i.backends) op op φ bs)
    (hrefused : ∀ m e m', op m = .error e m' → m' = m) :
    K.repetition.Repeats i (always (attempt op)) (always (attempt op)) (Except.map φ)
      fun outcome => match outcome with
        | .ok a => i.after (bs a)
        | .error _ => i where
  ends c hc := by
    have hends := h.ends c.ir hc.module
    have hrun := attempt_run op c
    unfold Ends
    cases hop : op c.ir with
    | ok a ir =>
      obtain ⟨hgrows, hmodule⟩ := hends.of_ok hop
      rw [hop] at hrun
      rw [always_of_eq hrun]
      exact ⟨⟨.refl _, hgrows⟩, hc.emitted hgrows hmodule⟩
    | error e ir =>
      -- a refusal is handed out as a result, and what is known of the module stays so
      obtain rfl := hrefused _ _ _ hop
      rw [hop] at hrun
      rw [always_of_eq hrun]
      exact ⟨⟨.refl _, K.module.repetition.refl _⟩, hc⟩
  agree c c' hc hcc hcovered := by
    have hrun := attempt_run op c
    have hrun' := attempt_run op c'
    have hagree := h.agree c.ir c'.ir hc.module hcc.within.ir
      (final_attempt_ir op c ▸ hcovered.types)
    cases hop : op c.ir <;> cases hop' : op c'.ir <;> rw [hop] at hagree hrun <;>
      rw [hop'] at hagree hrun' <;> rw [always_of_eq hrun, always_of_eq hrun']
    case ok.ok => exact ⟨congrArg Except.ok hagree.1, hcc.of_ir hagree.2⟩
    case error.error =>
      obtain rfl := hrefused _ _ _ hop
      obtain rfl := hrefused _ _ _ hop'
      exact ⟨congrArg Except.error hagree, hcc⟩
    all_goals exact hagree.elim

/-- An operation whose refusal is reported. -/
theorem emitOr_repeats {op : Ir.Build α} {op' : Ir.Build β}
    {refusal refusal' : Ir.Error → Diagnostic} (hrefusal : ∀ e, (refusal e).SaysAs (refusal' e))
    (h : K.module.repetition.Repeats (i.blocks, i.backends) op op' φ bs) :
    K.repetition.Repeats i (emitOr refusal op) (emitOr refusal' op') φ fun a => i.after (bs a) where
  ends c hc := by
    refine (emitOr_ends refusal (h.ends c.ir hc.module)).mono ?_ ?_
    · rintro a _ ⟨ir, rfl, hgrows, hmodule⟩
      exact ⟨⟨.refl _, hgrows⟩, hc.emitted hgrows hmodule⟩
    · rintro _ ⟨ir, queue, rfl, hgrows⟩
      exact ⟨.refl _, hgrows⟩
  agree c c' hc hcc hcovered := by
    have hagree := h.agree c.ir c'.ir hc.module hcc.within.ir
      (final_emitOr_ir refusal op c ▸ hcovered.types)
    cases hop : op c.ir <;> cases hop' : op' c'.ir <;> rw [hop, hop'] at hagree
    case ok.ok =>
      rw [emitOr_of_ok refusal hop, emitOr_of_ok refusal' hop']
      exact ⟨hagree.1, hcc.of_ir hagree.2⟩
    case error.error e ir e' ir' =>
      obtain rfl : e' = e := hagree
      rw [emitOr_of_error refusal hop, emitOr_of_error refusal' hop']
      exact ⟨rfl, rfl, refusal e', refusal' e', hrefusal e',
        congrArg (Queue.emitError · _) hc.proceeds.queue, congrArg (Queue.emitError · _) hcc.queue⟩
    all_goals exact hagree.elim

end

end Rerun

end Context

end FormCompiler
