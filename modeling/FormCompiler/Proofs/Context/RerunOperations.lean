import FormCompiler.Proofs.Context.Rerun

/-!
# Steps on Contexts Are Repeated

Backend types, and the cleanup of values, in the second run as in the first. The second run finds
every type that the first one has entered, and it calls the same destructors.
-/

namespace FormCompiler.Context.Rerun

variable {K : Rerun} {i : Stock} {c c' : Context} {t : TypeId} (hK : K.Fits) {α β : Type}
  {φ : α → β}

/-! ## Types -/

/-- The type of pointers to a type is entered, which the second run finds. -/
theorem pointerTo_repeats (ht : t ∈ i.types) :
    K.repetition.Repeats i (always (onPool (·.pointerTo t))) (always (onPool (·.pointerTo t))) id
      fun pointer => { i with types := pointer :: i.types } where
  ends c h := by
    obtain ⟨hgrown, hfound⟩ := Pool.intern_spec c.pool (.pointer t)
    refine ⟨⟨hgrown, K.module.repetition.refl c.ir⟩, h.module,
      IsTrans.trans _ _ _ h.proceeds (pointerTo_proceeds t c),
      (h.valid.pointerTo (h.valid.grounded (h.known t ht))).1, fun t' ht' => ?_⟩
    rcases List.mem_cons.1 ht' with rfl | ht'
    · exact (Array.getElem?_eq_some_iff.1 (Pool.type_of_find hfound)).1
    · exact Nat.lt_of_lt_of_le (h.known t' ht') hgrown.types.size_le
  agree c c' h hcc hcovered := by
    have hfound := hcovered.pool.find? (Pool.intern_spec c.pool (.pointer t)).2
    rw [← hcc.within.pool] at hfound
    have hrun : c'.pool.pointerTo t = ((c.pool.pointerTo t).1, c'.pool) := by
      rw [Pool.pointerTo, Pool.intern, hfound]
      rfl
    have hstep : always (onPool (·.pointerTo t)) c' = .ok (c.pool.pointerTo t).1 c' :=
      always_of_eq (by rw [onPool_run, hrun]; rfl)
    rw [hstep]
    exact ⟨rfl, ⟨hcc.within.pool, hcc.within.ir, hcc.within.namespaces, hcc.within.entered,
      hcc.within.layouts, hcc.within.onceTag⟩, hcc.queue⟩

/-- An unnamed type of the module is entered, which the second run finds. -/
theorem internType_repeats {ty : Ir.Ty} (hunnamed : ty.isNamed = false)
    (hparts : ∀ part ∈ ty.parts, part ∈ i.backends) :
    K.repetition.Repeats i (always (onModule (Ir.Module.internType ty)))
      (always (onModule (Ir.Module.internType ty))) id
      fun t => { i with backends := t :: i.backends } :=
  onModule_repeats (Ir.Rerun.internType_repeats hunnamed hparts)

/-- The steps to a backend type. -/
theorem always_backendTypeBelow_succ (bound : Nat) (t : TypeId) :
    always (backendTypeBelow (bound + 1) t) = (do
      match ← reading (·.pool.type t) with
      | .primitive p =>
        let target ← reading (·.pool.target)
        always (onModule (Ir.Module.internType (primitiveBackend target p)))
      | .pointer pointee =>
        if ← reading (·.pool.isVoid pointee) then
          let byte ← always (onModule (Ir.Module.intType 8))
          always (onModule (Ir.Module.pointerTo byte))
        else
          let inner ← always (backendTypeBelow bound pointee)
          always (onModule (Ir.Module.pointerTo inner))
      | .struct _ _ | .enum _ _ =>
        match ← reading (·.layouts.lookup t) with
        | some backend => pure backend
        | none => always (onModule (Ir.Module.literalStruct []))) := by
  -- the two sides agree once the type and what is asked of it are known
  funext c
  rw [reading_bind, backendTypeBelow]
  unfold always
  dsimp only
  cases c.pool.type t with
  | primitive p => rfl
  | pointer pointee =>
    dsimp only
    rw [reading_bind]
    cases c.pool.isVoid pointee <;> rfl
  | struct name path | enum name path =>
    dsimp only
    rw [reading_bind]
    cases c.layouts.lookup t <;> rfl

include hK in
/-- The backend type of a type below a bound. -/
theorem backendTypeBelow_repeats (bound : Nat) (ht : t ∈ i.types) :
    K.repetition.Repeats i (always (backendTypeBelow bound t)) (always (backendTypeBelow bound t))
      id fun ty => { i with backends := ty :: i.backends } := by
  -- what the recursion goes down to is part of the type, and so in the pool
  induction bound generalizing i t with
  | zero => exact internType_repeats rfl (by simp [Ir.Ty.parts])
  | succ bound ih =>
    rw [always_backendTypeBelow_succ]
    refine (learning_repeats hK (j := fun type => { i with types := type.parts ++ i.types })
      (fun c c' h => h.type ht) fun c h => ?_).bind fun type => ?_
    · exact h.restock fun t' ht' => (List.mem_append.1 ht').elim (h.parts ht t') (h.known t')
    · cases type with
      | primitive p =>
        refine (reading_repeats hK fun c c' h => h.within.pool.target).bind fun target => ?_
        exact internType_repeats (primitiveBackend_isNamed target p)
          (by cases p <;> simp [primitiveBackend, Primitive.intWidth?, Primitive.floatWidth?,
            Ir.Ty.parts])
      | pointer pointee =>
        refine (reading_repeats (i := { i with types := pointee :: i.types }) hK
          fun c c' h => h.isVoid List.mem_cons_self).bind fun void => ?_
        dsimp only [id]
        split
        · refine (internType_repeats rfl (by simp [Ir.Ty.parts])).bind fun byte =>
            (internType_repeats rfl (by simp [Ir.Ty.parts])).weaken (fun _ h => h) fun _ _ h => ?_
          exact h.weaken (.refl _) (by simp) (by simp)
        · refine (ih (i := { i with types := pointee :: i.types })
            List.mem_cons_self).bind fun inner =>
            (internType_repeats rfl (by simp [Ir.Ty.parts])).weaken (fun _ h => h) fun _ _ h => ?_
          exact h.weaken (.refl _) (by simp) (by simp)
      | struct name path | enum name path =>
        refine (learning_repeats hK (j := fun backend? =>
          { i with backends := backend?.toList ++ i.backends })
          (fun c c' h => by rw [h.within.layouts])
          fun c h => ?_).bind fun backend? => ?_
        · -- a type with a layout has an entry in the module
          cases hbackend : c.layouts.lookup t with
          | none => exact h
          | some backend =>
            obtain ⟨_, _, hstruct⟩ := h.valid.layouts t backend hbackend
            exact { h with module := h.module.learn (Array.getElem?_eq_some_iff.1 hstruct).1 }
        · cases backend? with
          | some backend => exact .pure rfl fun c h => h.weaken (.refl _) (by simp) (by simp)
          | none =>
            refine (internType_repeats rfl (by simp [Ir.Ty.parts])).weaken (fun _ h => h)
              fun _ _ h => ?_
            exact h.weaken (.refl _) (by simp) (by simp)

include hK

/-- The backend type of a type. -/
theorem backendType_repeats (ht : t ∈ i.types) :
    K.repetition.Repeats i (always (backendType t)) (always (backendType t)) id
      fun ty => { i with backends := ty :: i.backends } := backendTypeBelow_repeats hK _ ht

/-- The value of type `void`. -/
theorem voidValue_repeats :
    K.repetition.Repeats i (always voidValue) (always voidValue) K.module.value fun _ => i := by
  have hsplit : always voidValue = (do
      let void ← always (onModule Ir.Module.voidType)
      always (onModule (Ir.Module.undefined void))) := rfl
  rw [hsplit]
  refine (internType_repeats rfl (by simp [Ir.Ty.parts])).bind fun void => ?_
  refine (onModule_repeats (Ir.Rerun.newValue_repeats hK.module List.mem_cons_self _)).weaken
    (fun _ h => h) fun _ _ h => ?_
  exact h.weaken (.refl _) (List.Subset.refl _) (List.subset_cons_self _ _)

/-! ## Cleanup -/

omit hK in
/-- A destructor is one that the run began with. -/
theorem Holds.hasDestructor (h : K.Holds i c) (hK : K.Fits) {f : Ir.FuncId}
    (hf : c.destructor? t = some f) : K.first.ir.HasFunction f := by
  unfold destructor? at hf
  split at hf
  · cases hf
  · obtain ⟨name, arguments, callee, hcallee, rfl⟩ := lookup_of_pointerFunction? hf
    exact (h.implements hK hcallee).backend

/-- The call of a destructor. -/
theorem callDestructor_repeats {b : Ir.BlockId} {blocks : List Ir.BlockId} {ty : Ir.TyId}
    {tys : List Ir.TyId} {destructor : Ir.FuncId} (value : Ir.ValueId) (hb : b ∈ blocks)
    (hty : ty ∈ tys) (hdestructor : K.first.ir.HasFunction destructor) :
    K.module.repetition.Repeats (blocks, tys) (callDestructor b ty value destructor)
      (callDestructor (K.module.block b) ty (K.module.value value) destructor) id
      fun _ => (blocks, tys) := by
  refine (Ir.Rerun.alloca_repeats hK.module hb hty).bind fun slot => ?_
  refine (Ir.Rerun.store_repeats hK.module hb value slot).bind fun _ => ?_
  exact (Ir.Rerun.call_repeats hK.module hb hdestructor [slot]).bind fun _ => .pure rfl fun _ h => h

omit hK in
/-- Cleaning up values of a type is repeated, from any open block. -/
def Cleans (K : Rerun) (cleanUp : Ir.BlockId → TypeId → Ir.ValueId → Check Ir.BlockId)
    (t : TypeId) : Prop :=
  ∀ (b : Ir.BlockId) (blocks : List Ir.BlockId) (types : List TypeId) (backends : List Ir.TyId)
    (value : Ir.ValueId), t ∈ types →
    K.repetition.Repeats ⟨b :: blocks, types, backends⟩ (cleanUp b t value)
      (cleanUp (K.module.block b) t (K.module.value value)) K.module.block
      fun b' => ⟨b' :: blocks, types, backends⟩

/-- Cleaning up members, if cleaning up each of them is repeated. -/
theorem cleanUpMembers_repeats {cleanUp : Ir.BlockId → TypeId → Ir.ValueId → Check Ir.BlockId}
    (aggregate : Ir.ValueId) (b : Ir.BlockId) (blocks : List Ir.BlockId) {types : List TypeId}
    (backends : List Ir.TyId) (index : Nat) {members : List TypeId}
    (hmembers : ∀ member ∈ members, member ∈ types ∧ K.Cleans cleanUp member) :
    K.repetition.Repeats ⟨b :: blocks, types, backends⟩
      (cleanUpMembers cleanUp aggregate b index members)
      (cleanUpMembers cleanUp (K.module.value aggregate) (K.module.block b) index members)
      K.module.block fun b' => ⟨b' :: blocks, types, backends⟩ := by
  have hsplit : ∀ aggregate b index member members,
      cleanUpMembers cleanUp aggregate b index (member :: members) = (do
        if ← reading (·.ownsResources member) then
          let field ← emitOr cleanupRefused (Ir.Module.extractValue b aggregate index)
          let b ← cleanUp b member field
          cleanUpMembers cleanUp aggregate b (index + 1) members
        else
          cleanUpMembers cleanUp aggregate b (index + 1) members) := fun _ _ _ _ _ => rfl
  induction members generalizing b index with
  | nil => exact .pure rfl fun _ h => h
  | cons member members ih =>
    obtain ⟨hmember, hcleans⟩ := hmembers member List.mem_cons_self
    have hrest := fun b => ih b (index + 1) fun m hm => hmembers m (List.mem_cons_of_mem _ hm)
    rw [hsplit, hsplit]
    refine (reading_repeats hK fun c c' h => h.ownsResources hmember).bind fun owns => ?_
    dsimp only [id]
    split
    · refine (emitOr_repeats (fun _ => ⟨rfl, rfl⟩)
        (Ir.Rerun.extractValue_repeats hK.module List.mem_cons_self aggregate index)).bind
        fun field => ?_
      exact (hcleans b blocks types backends field hmember).bind fun b => hrest b
    · exact hrest b

omit hK in
/-- Cleaning up a value, by what is read of the context. -/
theorem cleanUpBelow_succ (bound : Nat) (b : Ir.BlockId) (t : TypeId) (value : Ir.ValueId) :
    cleanUpBelow (bound + 1) b t value = (do
      match ← reading (·.destructor? t) with
      | some destructor =>
        let ty ← always (backendType t)
        emitOr cleanupRefused (callDestructor b ty value destructor)
        return b
      | none =>
        match ← reading (·.structOfType? t) with
        | some s => cleanUpMembers (cleanUpBelow bound) value b 0 s.memberTypes
        | none => return b) := rfl

/-- Cleaning up values of a type below the bound. -/
theorem cleanUpBelow_repeats {bound : Nat} (ht : t.index < bound) :
    K.Cleans (cleanUpBelow bound) t := by
  induction bound generalizing t with
  | zero => exact absurd ht (Nat.not_lt_zero _)
  | succ bound ih =>
    intro b blocks types backends value hmem
    rw [cleanUpBelow_succ, cleanUpBelow_succ]
    refine Repetition.Repeats.bindOf
      (P := fun destructor? => ∀ f, destructor? = some f → K.first.ir.HasFunction f)
      (reading_repeats hK fun c c' h => h.destructor? hmem) ?_ fun destructor? hf => ?_
    · rintro c _ _ h ⟨⟩ f hf
      exact h.hasDestructor hK hf
    cases destructor? with
    | some destructor =>
      refine (backendType_repeats hK hmem).bind fun ty => ?_
      refine (emitOr_repeats (fun _ => ⟨rfl, rfl⟩) (callDestructor_repeats hK value
        List.mem_cons_self List.mem_cons_self (hf destructor rfl))).bind fun _ => ?_
      refine .pure rfl fun _ h => ?_
      exact h.weaken (.refl _) (List.Subset.refl _) (List.subset_cons_self _ _)
    | none =>
      -- members have smaller ids than their struct, so the smaller bound is above them
      refine Repetition.Repeats.bindOf
        (P := fun s? => ∀ s, s? = some s → ∀ member ∈ s.memberTypes, member.index < t.index)
        (learning_repeats hK
          (j := fun s? => ⟨b :: blocks, s?.elim types (·.memberTypes ++ types), backends⟩)
          (fun c c' h => h.structOfType? hmem) fun c h => ?_) ?_ fun s? hs => ?_
      · cases hs : c.structOfType? t with
        | none => exact h
        | some s =>
          refine h.restock fun member hmember => ?_
          rcases List.mem_append.1 hmember with hmember | hmember
          · exact Nat.lt_trans (hK.ordered.proceeds h.proceeds t s hs member hmember)
              (h.known t hmem)
          · exact h.known member hmember
      · rintro c _ _ h ⟨⟩ s hs
        exact hK.ordered.proceeds h.proceeds t s hs
      · cases s? with
        | none => exact .pure rfl fun _ h => h
        | some s =>
          refine (cleanUpMembers_repeats hK value b blocks backends 0 fun member hmember =>
            ⟨List.mem_append_left types hmember, ih ?_⟩).weaken (fun _ h => h) fun _ _ h => ?_
          · have := hs s rfl member hmember
            omega
          · exact h.weaken (.refl _) (List.subset_append_right _ _) (List.Subset.refl _)

/-- The result of the second run that corresponds to one of the first. -/
def result (K : Rerun) : Result → Result := Result.rename K.module.value K.module.block

/-- Dropping a result. -/
theorem destruct_repeats (r : Result) {blocks : List Ir.BlockId} {types : List TypeId}
    (backends : List Ir.TyId) (ht : r.ty ∈ types) :
    K.repetition.Repeats ⟨r.block :: blocks, types, backends⟩ (destruct r) (destruct (K.result r))
      K.result fun r' => ⟨r'.block :: blocks, types, backends⟩ := by
  unfold destruct
  split
  next hborrowed =>
    rw [if_pos (show (K.result r).borrowed = true from hborrowed)]
    exact .pure rfl fun _ h => h
  next hborrowed =>
    rw [if_neg (show ¬ (K.result r).borrowed = true from hborrowed)]
    have hcleans : K.Cleans (cleanUpBelow (r.ty.index + 1)) r.ty :=
      cleanUpBelow_repeats hK (Nat.lt_succ_self _)
    exact (hcleans r.block blocks types backends r.value ht).bind fun b =>
      .pure rfl fun _ h => h

end FormCompiler.Context.Rerun
