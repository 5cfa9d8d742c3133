import FormCompiler.Lower.Expression
import FormCompiler.Proofs.Context.RerunOperations
import FormCompiler.Proofs.Tree.Building
import FormCompiler.Proofs.Tree.Reading

/-!
# The Same Form Processed Again

A form is processed in a unit without macros, and later a form with the same tree, in the unit that
the first run has led to and from another block. The forms are lowered alike, step by step.

* `Rerun`: the two units and blocks that the runs begin with.
* `Rerun.repetition`: the comparison of the runs, which is that of their contexts.
* `Rerun.Gives`: both steps process a form in corresponding blocks, with results that correspond.
-/

namespace FormCompiler

/-- The types of a result: of its value, and of its address if it has one. -/
def Result.types (r : Result) : List TypeId := r.ty :: r.addressTy.toList

/-- The value that a variable is kept in: its own, or the address of its slot. -/
def Storage.valueId : Storage → Ir.ValueId
  | slot address => address
  | value v => v

namespace Lower

open Context (Stock)

/-- Where two runs begin: the units, and the block that each one first emits into. -/
structure Rerun (σ : Type) where
  first : Compilation σ
  second : Compilation σ
  here : Ir.BlockId
  there : Ir.BlockId

namespace Rerun

variable {σ : Type} (K : Rerun σ)

/-- The contexts that the runs begin with. -/
abbrev context : Context.Rerun := ⟨K.first.context, K.second.context, K.here, K.there⟩

/-- The value of the second run that corresponds to one of the first. -/
abbrev value : Ir.ValueId → Ir.ValueId := K.context.module.value

/-- The block of the second run that corresponds to one of the first. -/
abbrev block : Ir.BlockId → Ir.BlockId := K.context.module.block

/-- The result of the second run that corresponds to one of the first. -/
abbrev result : Result → Result := K.context.result

/-- The unit has no macros, and the forms and the limit that the runs begin with. -/
structure Static (u : Compilation σ) : Prop where
  forest : u.forest = K.first.forest
  expander : u.expander = .none
  limit : u.maxExpansions = K.first.maxExpansions

/-- What the runs begin with. -/
structure Fits : Prop where
  context : K.context.Fits
  built : K.first.forest.WellBuilt

/-- What is known of the unit in the first run. -/
structure Holds (i : Stock) (u : Compilation σ) : Prop where
  static : K.Static u
  context : K.context.Holds i u.context

/-- The units stand at corresponding points of the two runs. -/
structure Mirrors (u v : Compilation σ) : Prop where
  static : K.Static v
  context : K.context.Mirrors u.context v.context

/-- The comparison of two runs on units. -/
def repetition : Repetition Halt (Compilation σ) Stock where
  Holds := K.Holds
  Grows u v := K.context.repetition.Grows u.context v.context
  Covered u := K.context.Covered u.context
  Mirrors := K.Mirrors
  Stops e u e' v := K.context.Stops e u.context e' v.context
  refl u := K.context.repetition.refl u.context
  trans := K.context.repetition.trans
  covered := K.context.repetition.covered

variable {K} {i : Stock} {u v : Compilation σ} {t : TypeId} {α β : Type} {φ : α → β} {j : α → Stock}
  (hK : K.Fits)

/-- Less need be known. -/
theorem Holds.weaken (h : K.Holds i u) {j : Stock} (hblocks : i.blocks.Perm j.blocks)
    (htypes : j.types ⊆ i.types) (hbackends : j.backends ⊆ i.backends) : K.Holds j u :=
  ⟨h.static, h.context.weaken hblocks htypes hbackends⟩

/-- A unit with another context. -/
theorem Static.withContext (h : K.Static u) (c : Context) : K.Static (u.withContext c) :=
  ⟨h.forest, h.expander, h.limit⟩

/-! ## Steps on the context -/

/-- A step on the context changes the context only. -/
theorem onContext_run (step : Check α) (u : Compilation σ) :
    onContext step u = match step u.context with
      | .ok a c => .ok a (u.withContext c)
      | .error e c => .error e (u.withContext c) := rfl

/-- The context after a step on the context. -/
theorem final_onContext (step : Check α) (u : Compilation σ) :
    (final (onContext step) u).context = final step u.context := by
  unfold final
  rw [onContext_run]
  cases step u.context <;> rfl

/-- A step on the context. -/
theorem onContext_repeats {x : Check α} {y : Check β}
    (h : K.context.repetition.Repeats i x y φ j) :
    K.repetition.Repeats i (onContext x) (onContext y) φ j where
  ends u hu := by
    have hends := h.ends u.context hu.context
    unfold Ends
    rw [onContext_run]
    cases hx : x u.context with
    | ok a c =>
      obtain ⟨hgrows, hc⟩ := hends.of_ok hx
      exact ⟨hgrows, hu.static.withContext c, hc⟩
    | error e c => exact hends.of_error hx
  agree u v hu huv hcovered := by
    have hagree := h.agree u.context v.context hu.context huv.context
      (final_onContext x u ▸ hcovered)
    rw [onContext_run, onContext_run]
    cases hx : x u.context <;> cases hy : y v.context <;> rw [hx, hy] at hagree
    case ok.ok => exact ⟨hagree.1, huv.static.withContext _, hagree.2⟩
    all_goals exact hagree

/-- A step on the module that never stops. -/
theorem onModule_repeats {step step' : StateM Ir.Module α} {φ : α → α}
    {bs : α → List Ir.BlockId × List Ir.TyId}
    (h : K.context.module.repetition.Repeats (i.blocks, i.backends) (Ir.Module.always step)
      (Ir.Module.always step') φ bs) :
    K.repetition.Repeats i (onModule step) (onModule step') φ fun a => i.after (bs a) :=
  onContext_repeats (Context.Rerun.onModule_repeats h)

/-- A type that the run began with may be known. -/
theorem knowing {x : Lower σ α} {y : Lower σ β} (ht : t.index < K.first.context.pool.types.size)
    (h : K.repetition.Repeats { i with types := t :: i.types } x y φ j) :
    K.repetition.Repeats i x y φ j :=
  h.weaken (fun _ hu => ⟨hu.static, hu.context.learn (Nat.lt_of_lt_of_le ht
    hu.context.proceeds.within.pool.grown.types.size_le)⟩) fun _ _ h => h

include hK in
/-- Reading of the context what is the same in both runs, and tells what is there. -/
theorem learning_repeats {p : Context → α} (hsees : ∀ c c', i.Sees c c' → p c' = p c)
    (hself : ∀ c, K.context.Holds i c → K.context.Holds (j (p c)) c) :
    K.repetition.Repeats i (reading fun u => p u.context) (reading fun u => p u.context) id j :=
  .reading (fun _ hu => ⟨hu.static, hself _ hu.context⟩) fun _ _ hu huv hcovered =>
    hsees _ _ (hu.context.sees hK.context huv.context hcovered)

include hK in
/-- Reading the context. Functions in scope are those that the run began with. -/
theorem context_repeats {f : Context → Lower σ α} {g : Context → Lower σ β}
    (h : ∀ c c', i.Sees c c' → (∀ name arguments callee,
        c.lookupFunction? name arguments = some callee → K.first.context.Implements callee) →
      K.repetition.Repeats i (f c) (g c') φ j) :
    K.repetition.Repeats i (Lower.context >>= f) (Lower.context >>= g) φ j :=
  .readBoth (p := Compilation.context) (q := Compilation.context)
    (R := fun u v => i.Sees u.context v.context ∧ ∀ name arguments callee,
      u.context.lookupFunction? name arguments = some callee → K.first.context.Implements callee)
    (fun _ hu => ⟨hu.context.sees_self hK.context,
      fun _ _ _ => hu.context.implements hK.context⟩)
    (fun _ _ hu huv hcovered => ⟨hu.context.sees hK.context huv.context hcovered,
      fun _ _ _ => hu.context.implements hK.context⟩)
    fun _ _ huv => h _ _ huv.1 huv.2

/-- Reading the forest, which is the same all the time. -/
theorem forest_repeats {γ δ : Type} {p : Forest → γ} {q : Forest → δ} {f : γ → Lower σ α}
    {g : δ → Lower σ β}
    (h : K.repetition.Repeats i (f (p K.first.forest)) (g (q K.first.forest)) φ j) :
    K.repetition.Repeats i (reading (fun u => p u.forest) >>= f)
      (reading (fun u => q u.forest) >>= g) φ j :=
  .congr (fun u hu => by rw [reading_bind, hu.static.forest])
    (fun u v _ huv => by rw [reading_bind, huv.static.forest]) h

include hK in
/-- Both runs stop with a report. -/
theorem fail_repeats {d d' : Compilation σ → Diagnostic}
    (hd : ∀ u v, K.Static u → K.Static v → i.Sees u.context v.context → (d u).SaysAs (d' v)) :
    K.repetition.Repeats i (fun u => (fail (d u) : Lower σ α) u)
      (fun u => (fail (d' u) : Lower σ β) u) φ j := by
  have hfail : ∀ d d' : Diagnostic, d.SaysAs d' →
      K.repetition.Repeats i (fail d : Lower σ α) (fail d' : Lower σ β) φ j :=
    fun _ _ h => onContext_repeats (Context.Rerun.fail_repeats h)
  refine ⟨fun u hu => (hfail (d u) (d u) ⟨rfl, rfl⟩).ends u hu, fun u v hu huv hcovered => ?_⟩
  have hsees := hu.context.sees hK.context huv.context ⟨hcovered.pool, hcovered.types⟩
  exact (hfail _ _ (hd u v hu.static huv.static hsees)).agree u v hu huv hcovered

include hK in
/-- A refusal at two nodes. -/
theorem failAt_repeats {n m : NodeId} {d d' : Span → Diagnostic}
    (hd : ∀ s s', (d s).SaysAs (d' s')) :
    K.repetition.Repeats i (do fail (d (← span n)) : Lower σ α)
      (do fail (d' (← span m)) : Lower σ β) φ j :=
  show K.repetition.Repeats i (fun u => fail (d (u.forest.span n)) u)
    (fun u => fail (d' (u.forest.span m)) u) φ j from fail_repeats hK fun _ _ _ _ _ => hd _ _

include hK in
/-- A refusal that names a type. -/
theorem failType_repeats {n m : NodeId} {d : Span → String → Diagnostic} (ht : t ∈ i.types)
    (hd : ∀ s s' text, (d s text).SaysAs (d s' text)) :
    K.repetition.Repeats i (do fail (d (← span n) (← typeName t)) : Lower σ α)
      (do fail (d (← span m) (← typeName t)) : Lower σ β) φ j :=
  show K.repetition.Repeats i (fun u => fail (d (u.forest.span n) (u.context.typeName t)) u)
      (fun u => fail (d (u.forest.span m) (u.context.typeName t)) u) φ j from
    fail_repeats hK fun _ _ _ _ h => by
      rw [h.typeName ht]
      exact hd _ _ _

include hK in
/-- A refusal that names two types. -/
theorem failTypes_repeats {n m : NodeId} {d : Span → String → String → Diagnostic} {t' : TypeId}
    (ht : t ∈ i.types) (ht' : t' ∈ i.types)
    (hd : ∀ s s' text text', (d s text text').SaysAs (d s' text text')) :
    K.repetition.Repeats i (do fail (d (← span n) (← typeName t) (← typeName t')) : Lower σ α)
      (do fail (d (← span m) (← typeName t) (← typeName t')) : Lower σ β) φ j :=
  show K.repetition.Repeats i
      (fun u => fail (d (u.forest.span n) (u.context.typeName t) (u.context.typeName t')) u)
      (fun u => fail (d (u.forest.span m) (u.context.typeName t) (u.context.typeName t')) u)
      φ j from
    fail_repeats hK fun _ _ _ _ h => by
      rw [h.typeName ht, h.typeName ht']
      exact hd _ _ _ _

/-- An operation on the module whose refusal is reported. -/
theorem emit_repeats {n m : NodeId} {op : Ir.Build α} {op' : Ir.Build β}
    {bs : α → List Ir.BlockId × List Ir.TyId}
    (h : K.context.module.repetition.Repeats (i.blocks, i.backends) op op' φ bs) :
    K.repetition.Repeats i (emit n op) (emit m op') φ fun a => i.after (bs a) :=
  forest_repeats (p := (·.span n)) (q := (·.span m))
    (onContext_repeats (Context.Rerun.emitOr_repeats (fun _ => ⟨rfl, rfl⟩) h))

/-! ## Results -/

/-- Both steps process a form in a block, with results that correspond. -/
def Gives (K : Rerun σ) (x y : Lower σ Result) (b : Ir.BlockId) (blocks : List Ir.BlockId)
    (types : List TypeId) : Prop :=
  K.repetition.Repeats ⟨b :: blocks, types, []⟩ x y K.result
    fun r => ⟨r.block :: blocks, r.types ++ types, []⟩

/-- Types that are not needed any more may be forgotten. -/
theorem forget {x y : Lower σ Result} {blocks : List Ir.BlockId} {types types' : List TypeId}
    (h : K.repetition.Repeats i x y K.result fun r => ⟨r.block :: blocks, r.types ++ types', []⟩)
    (htypes : types ⊆ types') :
    K.repetition.Repeats i x y K.result fun r => ⟨r.block :: blocks, r.types ++ types, []⟩ :=
  h.weaken (fun _ hu => hu) fun _ _ hu => hu.weaken (.refl _)
    (List.append_subset.2 ⟨List.subset_append_left _ _,
      List.Subset.trans htypes (List.subset_append_right _ _)⟩) (List.Subset.refl _)

/-- The order of the blocks is of no account. -/
theorem permuted {blocks blocks' : List Ir.BlockId} {types : List TypeId} {backends : List Ir.TyId}
    {x : Lower σ α} {y : Lower σ β} (hblocks : blocks.Perm blocks')
    (h : K.repetition.Repeats ⟨blocks', types, backends⟩ x y φ j) :
    K.repetition.Repeats ⟨blocks, types, backends⟩ x y φ j :=
  h.weaken (fun _ hu => hu.weaken hblocks (List.Subset.refl _) (List.Subset.refl _)) fun _ _ h => h

/-- The result of a form. -/
theorem result_repeats {r : Result} {blocks : List Ir.BlockId} {types : List TypeId}
    (hblocks : i.blocks.Perm (r.block :: blocks)) (hr : r.types ⊆ i.types)
    (htypes : types ⊆ i.types) :
    K.repetition.Repeats i (pure r : Lower σ Result) (pure (K.result r)) K.result
      fun r => ⟨r.block :: blocks, r.types ++ types, []⟩ :=
  .pure rfl fun _ h => h.weaken hblocks (List.append_subset.2 ⟨hr, htypes⟩) (List.nil_subset _)

/-! ## Tokens -/

section

/-- The variables of the frame have types and values that the run began with. -/
def Knows (K : Rerun σ) (frame : Frame) : Prop :=
  ∀ name v, frame.scope.lookup? name = some v →
    v.ty.index < K.first.context.pool.types.size ∧ K.first.context.ir.HasValue v.storage.valueId

variable {n m : NodeId} (hnm : K.first.forest.tree n = K.first.forest.tree m) (b : Ir.BlockId)
  (blocks : List Ir.BlockId) (types : List TypeId)

include hK

include hnm in
/-- A malformed literal. -/
theorem failMalformed_repeats (expected : String) :
    K.repetition.Repeats i (failMalformed n expected : Lower σ α)
      (failMalformed m expected : Lower σ β) φ j :=
  fail_repeats hK fun u v hu hv _ => ⟨rfl, by
    rw [hu.forest, hv.forest, hK.built.display_eq hnm]
    rfl⟩

include hnm in
/-- An integer token. -/
theorem integerToken_repeats (text : String) :
    K.Gives (integerToken b n text) (integerToken (K.block b) m text) b blocks types := by
  refine knowing (hK.context.valid.grounded_primitive .int).index_lt ?_
  refine .bind (onContext_repeats (Context.Rerun.backendType_repeats hK.context List.mem_cons_self))
    fun ty => ?_
  refine .bind (onContext_repeats (Context.Rerun.attempt_repeats (Ir.Rerun.constIntOfText_repeats
    hK.context.module List.mem_cons_self true text)
    fun _ _ _ => Ir.Rerun.eq_of_constIntOfText_error)) fun outcome => ?_
  cases outcome with
  | ok v =>
    exact result_repeats (r := .new b .int v) (.refl _)
      (by simp [Result.types, Result.new, TypeId.int, Stock.after]) (by simp [Stock.after])
  | error e =>
    cases e with
    | literalOutOfRange => exact failType_repeats hK List.mem_cons_self fun _ _ _ => ⟨rfl, rfl⟩
    | _ => exact failMalformed_repeats hK hnm _

include hnm in
/-- A float token. -/
theorem floatToken_repeats (text : String) :
    K.Gives (floatToken b n text) (floatToken (K.block b) m text) b blocks types := by
  unfold floatToken
  split
  next number _ =>
    refine knowing (hK.context.valid.grounded_primitive .float).index_lt ?_
    refine .bind (onContext_repeats (Context.Rerun.backendType_repeats hK.context
      List.mem_cons_self)) fun ty => ?_
    refine .bind (onModule_repeats (Ir.Rerun.newValue_repeats
      hK.context.module List.mem_cons_self (.constFloat number))) fun v => ?_
    exact result_repeats (.refl _) (by simp [Result.types, Result.new, TypeId.float, Stock.after])
      (by simp [Stock.after])
  next => exact failMalformed_repeats hK hnm _

/-- A string token. -/
theorem stringToken_repeats (text : String) :
    K.Gives (stringToken b text) (stringToken (K.block b) text) b blocks types := by
  refine knowing (hK.context.valid.grounded_primitive .char).index_lt ?_
  refine .bind (onContext_repeats (Context.Rerun.pointerTo_repeats List.mem_cons_self)) fun ty => ?_
  refine .bind (onModule_repeats (Ir.Rerun.globalText_repeats
    hK.context.module text)) fun v => ?_
  exact result_repeats (.refl _) (by simp [Result.types, Result.new, Stock.after])
    (by simp [Stock.after])

/-- A truth value. -/
theorem truthValue_repeats (value : Bool) :
    K.Gives (truthValue b value) (truthValue (K.block b) value) b blocks types := by
  refine knowing (hK.context.valid.grounded_primitive .bool).index_lt ?_
  refine .bind (onContext_repeats (Context.Rerun.backendType_repeats hK.context List.mem_cons_self))
    fun ty => ?_
  refine .bind (onModule_repeats (Ir.Rerun.constInt_repeats
    hK.context.module List.mem_cons_self _)) fun v => ?_
  exact result_repeats (.refl _) (by simp [Result.types, Result.new, TypeId.bool, Stock.after])
    (by simp [Stock.after])

/-- A variable. -/
theorem variableRead_repeats {frame : Frame} (hframe : K.Knows frame) (name : String) :
    K.Gives (variableRead frame b n name) (variableRead frame (K.block b) m name) b blocks
      types := by
  unfold variableRead
  split
  next => exact failAt_repeats hK fun _ _ => ⟨rfl, rfl⟩
  next ty v hlookup =>
    obtain ⟨hty, hv⟩ := hframe name _ hlookup
    -- the value was there before, so it corresponds to itself
    have hresult : K.result (Result.new b ty v).ownedElsewhere =
        (Result.new (K.block b) ty v).ownedElsewhere :=
      congrArg (fun v => (Result.new (K.block b) ty v).ownedElsewhere) (Ir.Rerun.value_of_lt hv)
    rw [← hresult]
    refine knowing hty (result_repeats (.refl _) ?_ ?_)
    · simp [Result.types, Result.new, Result.ownedElsewhere]
    · simp
  next ty address hlookup =>
    obtain ⟨hty, haddress⟩ := hframe name _ hlookup
    -- the address was there before, so the same one is read both times
    suffices hread : ∀ address', K.value address = address' →
        K.Gives (do
            let v ← emit n (Ir.Module.load b address)
            let addressTy ← onState (Context.onPool (·.pointerTo ty))
            return ((Result.new b ty v).withLvalue address addressTy).ownedElsewhere)
          (do
            let v ← emit m (Ir.Module.load (K.block b) address')
            let addressTy ← onState (Context.onPool (·.pointerTo ty))
            return ((Result.new (K.block b) ty v).withLvalue address' addressTy).ownedElsewhere)
          b blocks types from hread address (Ir.Rerun.value_of_lt haddress)
    rintro _ rfl
    refine knowing hty ?_
    refine .bind (emit_repeats (Ir.Rerun.load_repeats hK.context.module List.mem_cons_self address))
      fun v => ?_
    refine .bind (onContext_repeats (Context.Rerun.pointerTo_repeats List.mem_cons_self))
      fun addressTy => ?_
    exact result_repeats (r := ((Result.new b ty v).withLvalue address addressTy).ownedElsewhere)
      (.refl _)
      (by simp [Result.types, Result.new, Result.ownedElsewhere, Result.withLvalue, Stock.after])
      (by simp [Stock.after])

/-- A symbol. -/
theorem symbolToken_repeats {frame : Frame} (hframe : K.Knows frame) (name : String) :
    K.Gives (symbolToken frame b n name) (symbolToken frame (K.block b) m name) b blocks types := by
  unfold symbolToken
  split
  · exact truthValue_repeats hK b blocks types true
  · split
    · exact truthValue_repeats hK b blocks types false
    · exact variableRead_repeats hK b blocks types hframe name

include hnm in
/-- A token. -/
theorem token_repeats {frame : Frame} (hframe : K.Knows frame) (kind : TokenKind) (text : String) :
    K.Gives (token frame b n kind text) (token frame (K.block b) m kind text) b blocks types := by
  cases kind with
  | integer => exact integerToken_repeats hK hnm b blocks types text
  | float => exact floatToken_repeats hK hnm b blocks types text
  | string => exact stringToken_repeats hK b blocks types text
  | symbol => exact symbolToken_repeats hK b blocks types hframe text

end

end Rerun

end Lower

end FormCompiler
