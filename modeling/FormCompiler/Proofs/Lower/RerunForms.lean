import FormCompiler.Proofs.Lower.Inversion
import FormCompiler.Proofs.Lower.Rerun

/-!
# Forms Are Repeated

Every handler does the same in the second run as in the first, as long as it does so with the parts
of its form.

* `Alike`: two nodes with the same tree that are processed alike.
-/

namespace FormCompiler.Lower.Rerun

open Context (Stock)

variable {σ : Type} {K : Rerun σ} {i : Stock} {α β : Type} {φ : α → β} {j : α → Stock}
  {sub sub' : Sub σ} {n m : NodeId} {ns ms : List NodeId} (hK : K.Fits) (b : Ir.BlockId)
  (blocks : List Ir.BlockId) (types : List TypeId)

/-- The nodes have the same tree and are processed alike from any block. -/
structure Alike (K : Rerun σ) (sub sub' : Sub σ) (n m : NodeId) : Prop where
  same : K.first.forest.tree n = K.first.forest.tree m
  gives : ∀ b blocks types, K.Gives (sub b n) (sub' (K.block b) m) b blocks types

/-- Besides, their items are processed alike. -/
structure AlikeInside (K : Rerun σ) (sub sub' : Sub σ) (n m : NodeId) : Prop
    extends K.Alike sub sub' n m where
  items : List.Forall₂ (K.Alike sub sub') (K.first.forest.items n) (K.first.forest.items m)

include hK

/-- A wrong number of arguments. -/
theorem failCount_repeats (hlength : ns.length = ms.length) (form : String) (expected : Nat) :
    K.repetition.Repeats i
      (do fail (Report.incorrectArgumentCount (← span n) form expected ns.length) : Lower σ α)
      (do fail (Report.incorrectArgumentCount (← span m) form expected ms.length) : Lower σ β)
      φ j := by
  rw [hlength]
  exact failAt_repeats hK fun _ _ => ⟨rfl, rfl⟩

/-! ## Dropping results -/

variable {types}

/-- Dropping a result. -/
theorem drop_repeats (r : Result) (ht : r.ty ∈ types) :
    K.repetition.Repeats ⟨r.block :: blocks, types, []⟩ (drop r) (drop (K.result r)) K.block
      fun b => ⟨b :: blocks, types, []⟩ :=
  .bind (onContext_repeats (Context.Rerun.destruct_repeats hK.context r [] ht)) fun _ =>
    .pure rfl fun _ h => h

/-- Dropping several results. -/
theorem dropAll_repeats {rs : List Result} (hrs : ∀ r ∈ rs, r.ty ∈ types) :
    K.repetition.Repeats ⟨b :: blocks, types, []⟩ (dropAll b rs)
      (dropAll (K.block b) (rs.map K.result)) K.block fun b => ⟨b :: blocks, types, []⟩ := by
  induction rs generalizing b with
  | nil => exact .pure rfl fun _ h => h
  | cons r rs ih =>
    refine .bind (drop_repeats hK blocks (r.inBlock b) (hrs r List.mem_cons_self)) fun b => ?_
    exact ih b fun r hr => hrs r (List.mem_cons_of_mem _ hr)

/-! ## Pointers -/

omit hK in
/-- A pointer is required, by what is read of the pool. -/
theorem expectPointee_eq (r : Result) (n : NodeId) : (expectPointee r n : Lower σ TypeId) = (do
    match ← reading fun u => u.context.pool.pointee? r.ty with
    | some pointee => return pointee
    | none => fail (Report.nonPointerDereference (← span n) (← typeName r.ty))) := rfl

/-- A pointer is required. -/
theorem expectPointee_repeats (r : Result) (ht : r.ty ∈ i.types) :
    K.repetition.Repeats i (expectPointee r n) (expectPointee (K.result r) m) id
      fun pointee => { i with types := pointee :: i.types } := by
  rw [expectPointee_eq, expectPointee_eq]
  refine .bind (learning_repeats hK (j := fun found => { i with types := found.toList ++ i.types })
    (fun c c' h => h.pointee? ht) fun c h => ?_) fun found => ?_
  · cases hfound : c.pool.pointee? r.ty with
    | none => exact h
    | some pointee =>
      refine h.learn (h.parts ht pointee ?_)
      rw [Pool.type_of_pointee? hfound]
      exact List.mem_singleton.2 rfl
  · cases found with
    | some pointee => exact .pure rfl fun _ h => h
    | none => exact failType_repeats hK ht fun _ _ _ => ⟨rfl, rfl⟩

variable (hargs : List.Forall₂ (K.Alike sub sub') ns ms)

include hargs

/-- Reading through a pointer. -/
theorem dereference_repeats (addressOnly marked : Bool) :
    K.Gives (dereference sub b n ns addressOnly marked)
      (dereference sub' (K.block b) m ms addressOnly marked) b blocks types := by
  have hlength := hargs.length_eq
  rcases hargs with _ | ⟨ha, _ | ⟨ha', hrest⟩⟩
  · exact failCount_repeats hK hlength _ _
  · refine .bind (ha.gives b blocks types) fun pointer => ?_
    refine .bind (expectPointee_repeats hK pointer (by simp [Result.types])) fun pointee => ?_
    refine context_repeats hK fun c c' h _ => ?_
    refine .ite (by rw [id, h.isVoid List.mem_cons_self]) (fun _ => ?_) fun _ => ?_
    · exact failAt_repeats hK fun _ _ => ⟨rfl, rfl⟩
    · have hdrop := drop_repeats hK blocks pointer
        (show pointer.ty ∈ pointee :: (pointer.types ++ types) by simp [Result.types])
      split
      · rw [pure_bind, pure_bind]
        refine .bind hdrop fun b => result_repeats
          (r := ({ Result.new pointer.block pointer.ty pointer.value with
            noCopy := marked }).inBlock b) (.refl _) ?_ (by simp)
        simp [Result.types, Result.new, Result.inBlock]
      · refine .bind (emit_repeats (Ir.Rerun.load_repeats hK.context.module List.mem_cons_self
          pointer.value)) fun v => ?_
        rw [pure_bind, pure_bind]
        refine .bind hdrop fun b => result_repeats
          (r := ({ (((Result.new pointer.block pointee v).withLvalue pointer.value
            pointer.ty).ownedElsewhere) with noCopy := marked }).inBlock b) (.refl _) ?_ (by simp)
        simp [Result.types, Result.new, Result.withLvalue, Result.ownedElsewhere, Result.inBlock]
  · exact failCount_repeats hK hlength _ _

omit hargs in
/-- The look at the form of an operand: both runs find one that reads through a pointer, or neither
does. -/
theorem derefArguments?_repeats (hnm : K.first.forest.tree n = K.first.forest.tree m) :
    K.repetition.Repeats i (derefArguments? n) (derefArguments? m)
      (Option.map fun _ => (K.first.forest.items m).drop 1) fun _ => i := by
  refine forest_repeats (p := (·.items? n)) (q := (·.items? m)) ?_
  obtain ⟨kind, text, text', hn, hm, -⟩ | ⟨ns, ms, hn, hm, hitems⟩ := hK.built.same_cases hnm
  · rw [Forest.items?, hn, Forest.items?, hm]
    exact .pure rfl fun _ h => h
  · rw [Forest.items?, hn, Forest.items?, hm, Forest.items_of_list hm]
    rcases hitems with _ | @⟨head, head', _, _, hhead, hrest⟩
    · exact .pure rfl fun _ h => h
    · refine forest_repeats (p := (·.symbol? head)) (q := (·.symbol? head')) ?_
      rw [Forest.symbol?_eq hhead]
      split
      · refine context_repeats hK fun c c' h _ => ?_
        simp only [h.within.hasFunction]
        split <;> exact .pure rfl fun _ h => h
      · exact .pure rfl fun _ h => h

omit hargs in
/-- Taking an address. -/
theorem addressOf_repeats (hinside : List.Forall₂ (K.AlikeInside sub sub') ns ms) :
    K.Gives (addressOf sub b n ns) (addressOf sub' (K.block b) m ms) b blocks types := by
  have hlength := hinside.length_eq
  rcases hinside with _ | @⟨operand, operand', _, _, ha, _ | ⟨ha', hrest⟩⟩
  · exact failCount_repeats hK hlength _ _
  · -- the arguments that are found are items of the operand, which are processed alike
    have hinner : ∀ (u : Compilation σ) (found : Option (List NodeId)) (u' : Compilation σ),
        K.Holds ⟨b :: blocks, types, []⟩ u → derefArguments? operand u = .ok found u' →
          ∀ inner, found = some inner → inner = (K.first.forest.items operand).drop 1 := by
      rintro u _ u' hu hrun inner rfl
      obtain ⟨head, name, hitems, -⟩ := (derefArguments?_ok hrun).2
      rw [hu.static.forest, Forest.items?_eq_some] at hitems
      rw [Forest.items_of_list hitems, List.drop_one, List.tail_cons]
    refine .bindOf (derefArguments?_repeats hK ha.same) hinner fun found hfound => ?_
    cases found with
    | some inner =>
      obtain rfl := hfound inner rfl
      exact dereference_repeats hK b blocks (List.forall₂_drop 1 ha.items) true false
    | none =>
      refine .bind (ha.gives b blocks types) fun r => ?_
      obtain ⟨ty, value, block, isLvalue, address, addressTy, noCopy, borrowed⟩ := r
      cases address with
      | none => exact failAt_repeats hK fun _ _ => ⟨rfl, rfl⟩
      | some address =>
        cases addressTy with
        | none => exact failAt_repeats hK fun _ _ => ⟨rfl, rfl⟩
        | some addressTy =>
          exact result_repeats (r := (Result.new block addressTy address).ownedElsewhere) (.refl _)
            (by simp [Result.types, Result.new, Result.ownedElsewhere]) (by simp)
  · exact failCount_repeats hK hlength _ _

/-! ## Assignment -/

omit hK hargs in
/-- Which function copies a value, and from where. -/
theorem copyAssign?_eq {c c' : Context} (h : i.Sees c c') (r : Result) (destTy : TypeId) :
    copyAssign? c' (K.result r) destTy =
      (copyAssign? c r destTy).map fun (callee, source) => (callee, K.value source) := by
  obtain ⟨ty, value, block, isLvalue, address, addressTy, noCopy, borrowed⟩ := r
  unfold copyAssign?
  change (if (isLvalue && !noCopy) = true then _ else _) =
    Option.map _ (if (isLvalue && !noCopy) = true then _ else _)
  split
  · cases address with
    | none => rfl
    | some source =>
      cases addressTy with
      | none => rfl
      | some sourceTy =>
        change Option.map _ (c'.lookupFunction? _ _) = Option.map _ (Option.map _ _)
        rw [h.within.lookupFunction?, Option.map_map]
        rfl
  · rfl

omit hK hargs in
/-- A function that copies values is one in scope. -/
theorem lookup_of_copyAssign? {c : Context} {r : Result} {destTy : TypeId} {callee : Ir.FuncId}
    {source : Ir.ValueId} (h : copyAssign? c r destTy = some (callee, source)) :
    ∃ name arguments f, c.lookupFunction? name arguments = some f ∧ f.backend = callee := by
  unfold copyAssign? at h
  split at h
  · split at h
    · obtain ⟨f, hf, heq⟩ := Option.map_eq_some_iff.1 h
      cases heq
      exact ⟨_, _, f, hf, rfl⟩
    · cases h
  · cases h

/-- Assigning. -/
theorem assignment_repeats :
    K.Gives (assignment sub b n ns) (assignment sub' (K.block b) m ms) b blocks types := by
  have hlength := hargs.length_eq
  rcases hargs with _ | ⟨hdest, _ | ⟨hvalue, _ | ⟨hthird, hrest⟩⟩⟩
  · exact failCount_repeats hK hlength _ _
  · exact failCount_repeats hK hlength _ _
  · refine .bind (hdest.gives b blocks types) fun dest => ?_
    refine .bind (expectPointee_repeats hK dest (by simp [Result.types])) fun pointee => ?_
    refine .bind (hvalue.gives dest.block blocks _) fun value => ?_
    -- copied or moved, the destination is dropped at the end
    have hfinish : ∀ b, K.repetition.Repeats
        ⟨b :: blocks, value.types ++ (pointee :: (dest.types ++ types)), []⟩
        (do
          let b ← drop (dest.inBlock b)
          truthValue b true)
        (do
          let b ← drop ((K.result dest).inBlock (K.block b))
          truthValue b true) K.result fun r => ⟨r.block :: blocks, r.types ++ types, []⟩ := fun b =>
      .bind (drop_repeats hK blocks (dest.inBlock b) (by simp [Result.types, Result.inBlock]))
        fun b => forget (truthValue_repeats hK b blocks _ true) fun t ht => by simp [ht]
    refine .ite Iff.rfl (fun _ => ?_) fun _ => ?_
    · refine failTypes_repeats hK ?_ ?_ fun _ _ _ _ => ⟨rfl, rfl⟩
      · simp
      · simp [Result.types]
    · refine context_repeats hK fun c c' h hcallees => ?_
      rw [show (K.result dest).ty = dest.ty from rfl, copyAssign?_eq h]
      cases hcopy : copyAssign? c value dest.ty with
      | none =>
        refine .bind (emit_repeats (Ir.Rerun.store_repeats hK.context.module List.mem_cons_self
          value.value dest.value)) fun _ => ?_
        exact hfinish value.block
      | some copy =>
        obtain ⟨callee, source⟩ := copy
        obtain ⟨name, arguments, f, hf, rfl⟩ := lookup_of_copyAssign? hcopy
        refine .bind (emit_repeats (Ir.Rerun.call_repeats hK.context.module List.mem_cons_self
          (hcallees name arguments f hf).backend [dest.value, source])) fun _ => ?_
        exact .bind (drop_repeats hK blocks value (by simp [Result.types])) hfinish
  · exact failCount_repeats hK hlength _ _

/-! ## Sequences and conditionals -/

omit hK in
/-- Forms one after the other. -/
theorem forms_repeats (hK : K.Fits) {first first' : NodeId}
    (hfirst : K.Alike sub sub' first first') :
    K.Gives (forms sub b first ns) (forms sub' (K.block b) first' ms) b blocks types := by
  induction hargs generalizing b first first' types with
  | nil => exact hfirst.gives b blocks types
  | cons hnext _ ih =>
    refine .bind (hfirst.gives b blocks types) fun r => ?_
    refine .bind (drop_repeats hK blocks r (by simp [Result.types])) fun b => ?_
    exact forget (ih b hnext) (List.subset_append_right _ _)

/-- A sequence. -/
theorem sequence_repeats :
    K.Gives (sequence sub b n ns) (sequence sub' (K.block b) m ms) b blocks types := by
  rcases hargs with _ | ⟨hfirst, hrest⟩
  · exact failAt_repeats hK fun _ _ => ⟨rfl, rfl⟩
  · exact forms_repeats b blocks hrest hK hfirst

omit hargs

/-- The instructions that copy a borrowed value. -/
theorem copyInstrs_repeats {tys : List Ir.TyId} {ty : Ir.TyId} (value : Ir.ValueId)
    {copy : Ir.FuncId} (hb : b ∈ blocks) (hty : ty ∈ tys)
    (hcopy : K.first.context.ir.HasFunction copy) :
    K.context.module.repetition.Repeats (blocks, tys) (copyInstrs b ty value copy)
      (copyInstrs (K.block b) ty (K.value value) copy) K.value fun _ => (blocks, tys) :=
  have hmodule := hK.context.module
  .bind (Ir.Rerun.alloca_repeats hmodule hb hty) fun source =>
    .bind (Ir.Rerun.store_repeats hmodule hb value source) fun _ =>
    .bind (Ir.Rerun.alloca_repeats hmodule hb hty) fun fresh =>
    .bind (Ir.Rerun.call_repeats hmodule hb hcopy [fresh, source]) fun _ =>
    Ir.Rerun.load_repeats hmodule hb fresh

/-- An owned copy of a borrowed result. -/
theorem copyBorrowed_repeats (r : Result) (ht : r.ty ∈ types) :
    K.Gives (copyBorrowed n r) (copyBorrowed m (K.result r)) r.block blocks types := by
  refine context_repeats hK fun c c' h hcallees => ?_
  rw [show c'.pointerFunction? _ (K.result r).ty 2 = c.pointerFunction? _ r.ty 2 from
    h.pointerFunction? r.ty _ 1]
  cases hcopy : c.pointerFunction? Context.copyAssignName r.ty 2 with
  | none => exact failType_repeats hK ht fun _ _ _ => ⟨rfl, rfl⟩
  | some copy =>
    have hfunction : K.first.context.ir.HasFunction copy := by
      obtain ⟨name, arguments, f, hf, rfl⟩ := Context.lookup_of_pointerFunction? hcopy
      exact (hcallees name arguments f hf).backend
    refine .bind (onContext_repeats (Context.Rerun.backendType_repeats hK.context ht)) fun ty => ?_
    refine .bind (emit_repeats (copyInstrs_repeats hK r.block _ r.value List.mem_cons_self
      List.mem_cons_self hfunction)) fun v => ?_
    exact result_repeats (r := .new r.block r.ty v) (.refl _)
      (by simp [Result.types, Result.new, Stock.after, ht]) (by simp [Stock.after])

/-- The results of two branches get the same ownership. -/
theorem unifyOwnership_repeats (onTrue onFalse : Result) (ht : onTrue.ty ∈ types)
    (ht' : onFalse.ty ∈ types) :
    K.repetition.Repeats ⟨onFalse.block :: onTrue.block :: blocks, types, []⟩
      (unifyOwnership n onTrue onFalse) (unifyOwnership m (K.result onTrue) (K.result onFalse))
      (fun (onTrue, onFalse) => (K.result onTrue, K.result onFalse))
      fun (onTrue, onFalse) =>
        ⟨onFalse.block :: onTrue.block :: blocks, onTrue.ty :: types, []⟩ := by
  have hsame : ∀ u, K.Holds ⟨onFalse.block :: onTrue.block :: blocks, types, []⟩ u →
      K.Holds ⟨onFalse.block :: onTrue.block :: blocks, onTrue.ty :: types, []⟩ u := fun _ h =>
    h.weaken (.refl _) (List.cons_subset.2 ⟨ht, List.Subset.refl _⟩) (List.Subset.refl _)
  refine .ite Iff.rfl (fun _ => .pure rfl hsame) fun _ => ?_
  refine context_repeats hK fun c c' h _ => ?_
  refine .ite (by rw [show (K.result onTrue).ty = onTrue.ty from rfl, h.ownsResources ht])
    (fun _ => .pure rfl hsame) fun _ => ?_
  refine .ite Iff.rfl (fun _ => ?_) fun _ => ?_
  · refine permuted (.swap onTrue.block onFalse.block blocks) ?_
    refine .bind (copyBorrowed_repeats hK (onFalse.block :: blocks) onTrue ht) fun copy => ?_
    exact .pure rfl fun _ h => h.weaken (.swap _ _ _) (by simp [Result.types]) (List.Subset.refl _)
  · refine .bind (copyBorrowed_repeats hK (onTrue.block :: blocks) onFalse ht') fun copy => ?_
    refine .pure rfl fun _ h => h.weaken (.refl _) ?_ (List.Subset.refl _)
    exact List.cons_subset.2 ⟨List.mem_append_right _ ht, List.subset_append_right _ _⟩

/-- Going on to a block from two others. -/
theorem join_repeats {tys : List Ir.TyId} (first second target : Ir.BlockId) :
    K.context.module.repetition.Repeats (first :: second :: blocks, tys) (join first second target)
      (join (K.block first) (K.block second) (K.block target)) id fun _ => (blocks, tys) :=
  .bind (Ir.Rerun.br_repeats hK.context.module target) fun _ =>
    Ir.Rerun.br_repeats hK.context.module target

/-- The results of two branches are merged. -/
theorem merge_repeats (frame : Frame) (onTrue onFalse : Result) (ht : onTrue.ty ∈ types) :
    K.repetition.Repeats ⟨onFalse.block :: onTrue.block :: blocks, types, []⟩
      (merge frame n onTrue onFalse) (merge frame m (K.result onTrue) (K.result onFalse)) K.result
      fun r => ⟨r.block :: blocks, r.types ++ types, []⟩ := by
  have hmodule := hK.context.module
  refine .bind (onModule_repeats (Ir.Rerun.appendBlock_repeats hmodule frame.func "merge"))
    fun target => ?_
  -- the ends of the branches are closed, so they come first
  refine permuted ((List.reverse_perm [onTrue.block, onFalse.block, target]).append_right blocks) ?_
  refine .bind (emit_repeats (join_repeats hK _ onTrue.block onFalse.block target)) fun _ => ?_
  have hresult : ∀ v, K.repetition.Repeats ⟨target :: blocks, types, []⟩
      (pure { Result.new target onTrue.ty v with borrowed := onTrue.borrowed } : Lower σ Result)
      (pure { Result.new (K.block target) onTrue.ty (K.value v) with borrowed := onTrue.borrowed })
      K.result fun r => ⟨r.block :: blocks, r.types ++ types, []⟩ := fun v =>
    result_repeats (r := { Result.new target onTrue.ty v with borrowed := onTrue.borrowed })
      (.refl _) (by simp [Result.types, Result.new, ht]) (List.Subset.refl _)
  refine context_repeats hK fun c c' h _ => ?_
  refine .ite (by rw [show (K.result onTrue).ty = onTrue.ty from rfl, h.isVoid ht]) (fun _ => ?_)
    fun _ => ?_
  · exact .bind (onContext_repeats (Context.Rerun.voidValue_repeats hK.context)) hresult
  · exact .bind (emit_repeats (Ir.Rerun.phi_repeats hmodule List.mem_cons_self
      [(onTrue.value, onTrue.block), (onFalse.value, onFalse.block)])) hresult

/-- A conditional. -/
theorem conditional_repeats (hargs : List.Forall₂ (K.Alike sub sub') ns ms) (frame : Frame) :
    K.Gives (conditional frame sub b n ns) (conditional frame sub' (K.block b) m ms) b blocks
      types := by
  have hmodule := hK.context.module
  have hlength := hargs.length_eq
  rcases hargs with _ | ⟨hcond, _ | ⟨hthen, _ | ⟨helse, _ | ⟨hfourth, hrest⟩⟩⟩⟩
  · exact failCount_repeats hK hlength _ _
  · exact failCount_repeats hK hlength _ _
  · exact failCount_repeats hK hlength _ _
  · refine .bind (hcond.gives b blocks types) fun condition => ?_
    refine .ite Iff.rfl (fun _ => ?_) fun _ => ?_
    · exact failType_repeats hK (by simp [Result.types]) fun _ _ _ => ⟨rfl, rfl⟩
    refine .bind (drop_repeats hK blocks condition (by simp [Result.types])) fun b => ?_
    refine .bind (onModule_repeats (Ir.Rerun.appendBlock_repeats hmodule frame.func "then"))
      fun thenEntry => ?_
    refine .bind (onModule_repeats (Ir.Rerun.appendBlock_repeats hmodule frame.func "else"))
      fun elseEntry => ?_
    -- the block that is closed comes first, and next to it the one that code goes on in
    refine permuted ((List.reverse_perm [b, thenEntry, elseEntry]).append_right blocks) ?_
    refine .bind (emit_repeats
      (Ir.Rerun.condBr_repeats hmodule condition.value thenEntry elseEntry)) fun _ => ?_
    refine .bind (hthen.gives thenEntry (elseEntry :: blocks) (condition.types ++ types))
      fun onTrue => ?_
    -- the first branch may have entered types, which are known in the second
    refine permuted (.swap elseEntry onTrue.block blocks) ?_
    refine .bind (helse.gives elseEntry (onTrue.block :: blocks) _) fun onFalse => ?_
    refine .ite Iff.rfl (fun _ => ?_) fun _ => ?_
    · exact failTypes_repeats hK (by simp [Result.types]) (by simp [Result.types])
        fun _ _ _ _ => ⟨rfl, rfl⟩
    refine .bind (unifyOwnership_repeats hK blocks onTrue onFalse (by simp [Result.types])
      (by simp [Result.types])) fun branches => ?_
    exact forget (merge_repeats hK blocks frame branches.1 branches.2 List.mem_cons_self)
      fun t ht => by simp [ht]
  · exact failCount_repeats hK hlength _ _

end FormCompiler.Lower.Rerun
