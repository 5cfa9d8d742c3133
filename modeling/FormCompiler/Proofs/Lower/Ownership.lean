import FormCompiler.Proofs.Lower.Typing

/-!
# Ownership of Results

A result that owns its value is cleaned up when it is dropped. The events of a derivation are a
ledger of that: `Sparing lo hi es` says that of the values that were not exposed none was cleaned up
twice or although it was read from storage, and that those concerned are between the indices `lo`
and `hi`. `Owned lo hi c es r` says that the ledger allows to clean up the value of `r`.

Every derivation keeps its ledger (`Lowers.sparing`), since what a form gives with ownership is a
value of its own. The only exception is `(# (@ pointer))`, which exposes the pointer.
-/

namespace FormCompiler

namespace Context

variable {c c' : Context} {P : Pool → Pool → Prop} {R : Ir.Module → Ir.Module → Prop}

/-- A type of pointers without a destructor: dropping a value of it takes nothing. -/
def Inert (c : Context) (t : TypeId) : Prop :=
  (c.pool.pointee? t).isSome = true ∧ c.destructor? t = none

/-- Which function takes pointers to a type is settled by the declarations. -/
theorem pointerFunction?_of_within (hc : c.Valid) (h : c.Within P R c')
    (hpool : c.pool.Extends c'.pool) (name : String) (t : TypeId) (count : Nat) :
    c'.pointerFunction? name t (count + 1) = c.pointerFunction? name t (count + 1) := by
  unfold pointerFunction?
  cases hpointer : c.pool.pointerTo? t with
  | some pointer =>
    rw [Pool.pointerTo?, hpool.find? hpointer]
    dsimp only
    rw [h.lookupFunction?]
  | none =>
    cases hpointer' : c'.pool.pointerTo? t with
    | none => rfl
    | some pointer =>
      dsimp only
      rw [h.lookupFunction?, Option.map_eq_none_iff]
      cases hf : c.lookupFunction? name (List.replicate (count + 1) pointer) with
      | none => rfl
      | some f =>
        -- A pointer type that an overload takes was entered before the overload was declared.
        have hlt := hc.index_lt_of_lookup hf (t := pointer) (by simp)
        have htype := Pool.type_of_find hpointer'
        rw [hpool.types.getElem? hlt] at htype
        rw [Pool.pointerTo?, Pool.find?, Option.map_eq_none_iff, Array.findIdx?_eq_none_iff]
          at hpointer
        have hne := hpointer _ (Array.mem_of_getElem? htype)
        rw [beq_self_eq_true] at hne
        cases hne

/-- The destructor of a type is settled by the declarations. -/
theorem destructor?_of_within (hc : c.Valid) (h : c.Within P R c')
    (hpool : c.pool.Extends c'.pool) (t : TypeId) : c'.destructor? t = c.destructor? t := by
  have hfunction := pointerFunction?_of_within hc h hpool destroyName t 0
  rw [Nat.zero_add] at hfunction
  unfold destructor?
  rw [hfunction]
  by_cases ht : t.index < c.pool.types.size
  · rw [Pool.isVoid, hpool.type ht, Pool.isVoid]
  · -- There is no pointer to a type that is not in the pool.
    have hnone : c.pool.pointerTo? t = none := by
      cases hpointer : c.pool.pointerTo? t with
      | none => rfl
      | some pointer =>
        have htype := Pool.type_of_find hpointer
        have hlt := hc.pool.pointees _ _ htype
        exact absurd (Nat.lt_trans hlt (Array.getElem?_eq_some_iff.1 htype).1) ht
    simp [pointerFunction?, hnone]

/-- The parameters of a function that takes pointers to a type are pointers to values of the
type. -/
theorem Valid.pointerFunction_params (hc : c.Valid) {name : String} {t : TypeId} {count : Nat}
    {f : Ir.FuncId} (hvoid : c.pool.isVoid t = false)
    (h : c.pointerFunction? name t count = some f) :
    f.index < c.ir.functions.size ∧ (c.ir.function f).params.length = count ∧
      ∀ param ∈ (c.ir.function f).params, param.index < c.ir.values.size ∧
        ∃ ty, c.Backs t ty ∧ c.ir.findType? (.pointer ty) = some (c.ir.valueType param) := by
  unfold pointerFunction? at h
  cases hpointer : c.pool.pointerTo? t with
  | none =>
    rw [hpointer] at h
    cases h
  | some pointer =>
    rw [hpointer] at h
    obtain ⟨overload, hoverload, rfl⟩ := Option.map_eq_some_iff.1 h
    have himplements := hc.implements_of_lookup hoverload
    have htypes : overload.params.map (·.ty) = List.replicate count pointer :=
      paramTypes_of_lookup hoverload
    have htype := Pool.type_of_getElem? (Pool.type_of_find hpointer)
    refine ⟨himplements.backend, ?_, fun param hparam => ?_⟩
    · rw [← himplements.params.length_eq, ← List.length_map, htypes, List.length_replicate]
    · obtain ⟨index, hindex, rfl⟩ := List.getElem_of_mem hparam
      have hindex' : index < overload.params.length := himplements.params.length_eq ▸ hindex
      obtain ⟨hlt, hbacks⟩ := himplements.params.get hindex' hindex
      have hty : overload.params[index].ty = pointer :=
        List.eq_of_mem_replicate (htypes ▸ List.mem_map_of_mem (List.getElem_mem hindex'))
      obtain ⟨inner, hinner, hfound⟩ :=
        (hty ▸ hbacks).of_pointee? (by rw [Pool.pointee?, htype]) hvoid
      exact ⟨hlt, inner, hinner, hfound⟩

/-- A destructor has one parameter, which is a pointer to values of the type. -/
theorem Valid.destructor_param (hc : c.Valid) {t : TypeId} {f : Ir.FuncId}
    (h : c.destructor? t = some f) :
    f.index < c.ir.functions.size ∧ ∃ ty param, c.Backs t ty ∧
      (c.ir.function f).params = [param] ∧ param.index < c.ir.values.size ∧
      c.ir.findType? (.pointer ty) = some (c.ir.valueType param) := by
  unfold destructor? at h
  split at h
  next => cases h
  next hvoid =>
    obtain ⟨hfunction, hlength, hparams⟩ := hc.pointerFunction_params (by simpa using hvoid) h
    obtain ⟨param, hparam⟩ := List.length_eq_one_iff.1 hlength
    obtain ⟨hlt, ty, hbacks, hfound⟩ := hparams param (by simp [hparam])
    exact ⟨hfunction, ty, param, hbacks, hparam, hlt, hfound⟩

/-- A type that is inert stays so. -/
theorem Inert.mono {t : TypeId} (ht : c.Inert t) (hc : c.Valid) (h : c.Within P R c')
    (hpool : c.pool.Extends c'.pool) : c'.Inert t := by
  obtain ⟨hpointee, hdestructor⟩ := ht
  obtain ⟨pointee, hpointee⟩ := Option.isSome_iff_exists.1 hpointee
  exact ⟨by rw [hpool.pointee? hpointee]; rfl, by rw [destructor?_of_within hc h hpool t,
    hdestructor]⟩

/-- Dropping what is borrowed changes nothing. -/
theorem destruct_of_borrowed {r : Result} (hr : r.borrowed = true) (c : Context) :
    destruct r c = .ok r c := by
  unfold destruct
  rw [if_pos hr]
  rfl

/-- Dropping a value of an inert type changes nothing. -/
theorem destruct_of_inert {r : Result} (hr : c.Inert r.ty) : destruct r c = .ok r c := by
  obtain ⟨hpointee, hdestructor⟩ := hr
  obtain ⟨pointee, hpointee⟩ := Option.isSome_iff_exists.1 hpointee
  have hstruct : c.structOfType? r.ty = none := by
    rw [structOfType?, Pool.type_of_pointee? hpointee]
  exact destruct_of_cleanUp (cleanUpBelow_of_no_struct hdestructor hstruct _ _ _)

end Context

/-! ## Ledgers -/

/-- No value that was not exposed was cleaned up twice, or although it was read from storage; those
that were read or cleaned up have indices from `lo` on and below `hi`. -/
structure Sparing (lo hi : Nat) (es : List Event) : Prop where
  once : ∀ v, .exposed v ∉ es → es.count (.cleaned v) ≤ 1
  spared : ∀ v, .exposed v ∉ es → .read v ∈ es → .cleaned v ∉ es
  within : ∀ v, .exposed v ∉ es → .read v ∈ es ∨ .cleaned v ∈ es → lo ≤ v.index ∧ v.index < hi

/-- Dropping the result cleans up its value, which the form for it did not expose. -/
def AtRisk (c : Context) (es : List Event) (r : Result) : Prop :=
  r.borrowed = false ∧ ¬ c.Inert r.ty ∧ .exposed r.value ∉ es

/-- Dropping the result does no harm: what it may clean up is a value of its own. -/
def Owned (lo hi : Nat) (c : Context) (es : List Event) (r : Result) : Prop :=
  AtRisk c es r → lo ≤ r.value.index ∧ r.value.index < hi ∧ .read r.value ∉ es ∧
    .cleaned r.value ∉ es

/-- Dropping all of the results does no harm. -/
structure OwnedAll (lo hi : Nat) (c : Context) (es : List Event) (rs : List Result) : Prop where
  owned : ∀ r ∈ rs, Owned lo hi c es r
  distinct : rs.Pairwise fun r r' => AtRisk c es r → AtRisk c es r' → r.value ≠ r'.value

namespace Sparing

variable {lo mid hi lo' hi' : Nat} {es es' : List Event}

/-- The ledger without events. -/
theorem nil : Sparing lo hi [] :=
  ⟨fun _ _ => Nat.zero_le _, fun _ _ h => absurd h List.not_mem_nil, fun _ _ h => by simp at h⟩

/-- The bounds may be wider. -/
theorem mono (h : Sparing lo hi es) (hlo : lo' ≤ lo) (hhi : hi ≤ hi') : Sparing lo' hi' es :=
  ⟨h.once, h.spared, fun v hv hmem => by
    obtain ⟨h₁, h₂⟩ := h.within v hv hmem
    exact ⟨Nat.le_trans hlo h₁, Nat.lt_of_lt_of_le h₂ hhi⟩⟩

/-- Ledgers about different values may be put together. -/
theorem append (h : Sparing lo mid es) (h' : Sparing mid hi es') (hlo : lo ≤ mid)
    (hhi : mid ≤ hi) : Sparing lo hi (es ++ es') := by
  -- an event of the first part is about an older value than any event of the second
  have hnone : ∀ v, .exposed v ∉ es ++ es' → .read v ∈ es ∨ .cleaned v ∈ es →
      .read v ∉ es' ∧ .cleaned v ∉ es' := by
    intro v hv hmem
    rw [List.mem_append, not_or] at hv
    have hlt := (h.within v hv.1 hmem).2
    refine ⟨fun hread => ?_, fun hcleaned => ?_⟩
    · exact absurd (h'.within v hv.2 (.inl hread)).1 (Nat.not_le.2 hlt)
    · exact absurd (h'.within v hv.2 (.inr hcleaned)).1 (Nat.not_le.2 hlt)
  refine ⟨fun v hv => ?_, fun v hv hread hcleaned => ?_, fun v hv hmem => ?_⟩
  · have hv' := hv
    rw [List.mem_append, not_or] at hv'
    rw [List.count_append]
    by_cases hcleaned : .cleaned v ∈ es
    · rw [List.count_eq_zero_of_not_mem (hnone v hv (.inr hcleaned)).2]
      exact h.once v hv'.1
    · rw [List.count_eq_zero_of_not_mem hcleaned, Nat.zero_add]
      exact h'.once v hv'.2
  · have hv' := hv
    rw [List.mem_append, not_or] at hv'
    rcases List.mem_append.1 hread with hread | hread
    · rcases List.mem_append.1 hcleaned with hcleaned | hcleaned
      · exact h.spared v hv'.1 hread hcleaned
      · exact (hnone v hv (.inl hread)).2 hcleaned
    · rcases List.mem_append.1 hcleaned with hcleaned | hcleaned
      · exact (hnone v hv (.inr hcleaned)).1 hread
      · exact h'.spared v hv'.2 hread hcleaned
  · have hv' := hv
    rw [List.mem_append, not_or] at hv'
    rw [List.mem_append, List.mem_append] at hmem
    by_cases hmem' : .read v ∈ es ∨ .cleaned v ∈ es
    · obtain ⟨h₁, h₂⟩ := h.within v hv'.1 hmem'
      exact ⟨h₁, Nat.lt_of_lt_of_le h₂ hhi⟩
    · obtain ⟨h₁, h₂⟩ := h'.within v hv'.2 (by tauto)
      exact ⟨Nat.le_trans hlo h₁, h₂⟩

/-- A value that is read is new. -/
theorem read {v : Ir.ValueId} (hlo : lo ≤ v.index) (hhi : v.index < hi) :
    Sparing lo hi [.read v] :=
  ⟨fun w _ => by simp, fun w _ hread hcleaned => by simp at hcleaned,
    fun w _ hmem => by
      have heq : w = v := by simpa using hmem
      exact heq ▸ ⟨hlo, hhi⟩⟩

/-- Handing on a pointer takes it out of the ledger. -/
theorem expose (h : Sparing lo hi es) (c : Context) (pointer : Result) :
    Sparing lo hi (es ++ Lower.exposure c pointer) := by
  have hevent : ∀ e ∈ Lower.exposure c pointer, e = .exposed pointer.value := by
    unfold Lower.exposure
    split <;> simp
  have hcleaned : ∀ v, .cleaned v ∉ Lower.exposure c pointer := fun v hv => by
    cases hevent _ hv
  have hread : ∀ v, .read v ∉ Lower.exposure c pointer := fun v hv => by
    cases hevent _ hv
  refine ⟨fun v hv => ?_, fun v hv hmem => ?_, fun v hv hmem => ?_⟩
  · rw [List.mem_append, not_or] at hv
    rw [List.count_append, List.count_eq_zero_of_not_mem (hcleaned v)]
    exact h.once v hv.1
  · rw [List.mem_append, not_or] at hv
    have := h.spared v hv.1
    simp_all
  · rw [List.mem_append, not_or] at hv
    have := h.within v hv.1
    simp_all

/-- The value of a result may be cleaned up. -/
theorem clean {c : Context} {r : Result} (h : Sparing lo hi es) (hr : Owned lo hi c es r)
    (hborrowed : r.borrowed = false) (hinert : ¬ c.Inert r.ty) :
    Sparing lo hi (es ++ [.cleaned r.value]) := by
  have howned := fun hv => hr ⟨hborrowed, hinert, hv⟩
  refine ⟨fun v hv => ?_, fun v hv hread hcleaned => ?_, fun v hv hmem => ?_⟩
  · have hv' : .exposed v ∉ es := fun h => hv (List.mem_append_left _ h)
    rw [List.count_append]
    by_cases heq : v = r.value
    · subst heq
      rw [List.count_eq_zero_of_not_mem (howned hv').2.2.2]
      simp
    · have hother : .cleaned v ∉ [Event.cleaned r.value] := by simpa using heq
      rw [List.count_eq_zero_of_not_mem hother]
      exact h.once v hv'
  · have hv' : .exposed v ∉ es := fun h => hv (List.mem_append_left _ h)
    have hread' : .read v ∈ es := by simpa using hread
    by_cases heq : v = r.value
    · subst heq
      exact (howned hv').2.2.1 hread'
    · exact h.spared v hv' hread' (by simpa [heq] using hcleaned)
  · have hv' : .exposed v ∉ es := fun h => hv (List.mem_append_left _ h)
    by_cases heq : v = r.value
    · subst heq
      exact ⟨(howned hv').1, (howned hv').2.1⟩
    · exact h.within v hv' (by simpa [heq] using hmem)

end Sparing

namespace AtRisk

variable {c c' : Context} {es es' : List Event} {r : Result}

/-- What is at risk was so with fewer events. -/
theorem of_append (h : AtRisk c (es ++ es') r) : AtRisk c es r ∧ AtRisk c es' r := by
  obtain ⟨hborrowed, hinert, hv⟩ := h
  rw [List.mem_append, not_or] at hv
  exact ⟨⟨hborrowed, hinert, hv.1⟩, ⟨hborrowed, hinert, hv.2⟩⟩

/-- What is at risk was so in an earlier context. -/
theorem anti (h : AtRisk c' es r) (hc : ∀ t, c.Inert t → c'.Inert t) : AtRisk c es r :=
  ⟨h.1, fun ht => h.2.1 (hc _ ht), h.2.2⟩

end AtRisk

namespace Owned

variable {lo mid hi lo' hi' : Nat} {c c' : Context} {es es' : List Event} {r : Result}

/-- What is borrowed is not cleaned up. -/
theorem of_borrowed (h : r.borrowed = true) : Owned lo hi c es r :=
  fun hr => absurd (h.symm.trans hr.1) (by decide)

/-- A value that is newer than all events is owned. -/
theorem of_new (h : Sparing lo mid es) (hlo : lo ≤ mid) (hmid : mid ≤ r.value.index)
    (hhi : r.value.index < hi) : Owned lo hi c es r := by
  rintro ⟨-, -, hv⟩
  have hnone : ¬ (.read r.value ∈ es ∨ .cleaned r.value ∈ es) := fun hmem =>
    absurd (h.within _ hv hmem).2 (Nat.not_lt.2 hmid)
  rw [not_or] at hnone
  exact ⟨Nat.le_trans hlo hmid, hhi, hnone⟩

/-- The bounds may be wider, and the context a later one. -/
theorem mono (h : Owned lo hi c es r) (hlo : lo' ≤ lo) (hhi : hi ≤ hi')
    (hc : ∀ t, c.Inert t → c'.Inert t) : Owned lo' hi' c' es r := fun hr => by
  obtain ⟨h₁, h₂, h₃⟩ := h (hr.anti hc)
  exact ⟨Nat.le_trans hlo h₁, Nat.lt_of_lt_of_le h₂ hhi, h₃⟩

/-- Events about newer values may follow. -/
theorem append (h : Owned lo mid c es r) (h' : Sparing mid hi es') (hhi : mid ≤ hi) :
    Owned lo hi c (es ++ es') r := by
  intro hr
  obtain ⟨hfirst, hsecond⟩ := hr.of_append
  obtain ⟨h₁, h₂, hread, hcleaned⟩ := h hfirst
  have hnone : ¬ (.read r.value ∈ es' ∨ .cleaned r.value ∈ es') := fun hmem =>
    absurd (h'.within _ hsecond.2.2 hmem).1 (Nat.not_le.2 h₂)
  rw [not_or] at hnone
  rw [List.mem_append, List.mem_append, not_or, not_or]
  exact ⟨h₁, Nat.lt_of_lt_of_le h₂ hhi, ⟨hread, hnone.1⟩, ⟨hcleaned, hnone.2⟩⟩

/-- Events about older values may stand before. -/
theorem prepend (h : Owned mid hi c es' r) (h' : Sparing lo mid es) (hlo : lo ≤ mid) :
    Owned lo hi c (es ++ es') r := by
  intro hr
  obtain ⟨hfirst, hsecond⟩ := hr.of_append
  obtain ⟨h₁, h₂, hread, hcleaned⟩ := h hsecond
  have hnone : ¬ (.read r.value ∈ es ∨ .cleaned r.value ∈ es) := fun hmem =>
    absurd (h'.within _ hfirst.2.2 hmem).2 (Nat.not_lt.2 h₁)
  rw [not_or] at hnone
  rw [List.mem_append, List.mem_append, not_or, not_or]
  exact ⟨Nat.le_trans hlo h₁, h₂, ⟨hnone.1, hread⟩, ⟨hnone.2, hcleaned⟩⟩

end Owned

/-- What is owned in a context is so in a later one. -/
theorem OwnedAll.mono {lo hi : Nat} {c c' : Context} {es : List Event} {rs : List Result}
    (h : OwnedAll lo hi c es rs) (hc : ∀ t, c.Inert t → c'.Inert t) : OwnedAll lo hi c' es rs :=
  ⟨fun r hr => (h.owned r hr).mono (Nat.le_refl _) (Nat.le_refl _) hc,
    h.distinct.imp fun hne hr hr' => hne (hr.anti hc) (hr'.anti hc)⟩

namespace Lower

variable {σ : Type} {u u' : Compilation σ} {r : Result} {lo hi : Nat} {es es' : List Event}

/-- What a drop may clean up. -/
theorem Dropped.events {b' : Ir.BlockId} (h : Dropped r u es u' b') :
    es = [] ∨ es = [.cleaned r.value] ∧ r.borrowed = false ∧ ¬ u.context.Inert r.ty := by
  cases h with
  | idle => exact .inl rfl
  | cleaned run differ =>
    refine .inr ⟨rfl, ?_, fun hinert => ?_⟩
    · cases hborrowed : r.borrowed with
      | false => rfl
      | true =>
        rw [Context.destruct_of_borrowed hborrowed] at run
        cases run
        exact absurd rfl differ
    · rw [Context.destruct_of_inert hinert] at run
      cases run
      exact absurd rfl differ

/-- Dropping a result keeps the ledger. -/
theorem Dropped.sparing {b' : Ir.BlockId} (h : Dropped r u es' u' b') (hes : Sparing lo hi es)
    (hr : Owned lo hi u.context es r) : Sparing lo hi (es ++ es') := by
  rcases h.events with rfl | ⟨rfl, hborrowed, hinert⟩
  · rwa [List.append_nil]
  · exact hes.clean hr hborrowed hinert

/-- What is inert stays so while an expression is processed. -/
theorem inert_of_kept {s : Scope} (h : Compilation.Kept s u u') (hu : u.Settled s) (t : TypeId)
    (ht : u.context.Inert t) : u'.context.Inert t :=
  ht.mono hu.valid h.context h.context.pool.grown

/-- Dropping several results keeps the ledger. -/
theorem DroppedAll.sparing {s : Scope} {rs : List Result} {b b' : Ir.BlockId}
    (h : DroppedAll rs u b es' u' b') (hu : u.Settled s) (hes : Sparing lo hi es)
    (hrs : OwnedAll lo hi u.context es rs) : Sparing lo hi (es ++ es') := by
  induction h generalizing es with
  | nil => rwa [List.append_nil]
  | @cons r rs u u₁ u₂ b b₁ b₂ es₁ es₂ first rest ih =>
    have hkept := first.kept s
    have hfirst : Owned lo hi u.context es (r.inBlock b) := hrs.owned r List.mem_cons_self
    have hes₁ := first.sparing hes hfirst
    rw [← List.append_assoc]
    refine ih (hkept.settled hu) hes₁ ⟨fun r' hr' => ?_, ?_⟩
    · -- Only the value of the first result was cleaned up, and that is another one.
      have hdistinct := (List.pairwise_cons.1 hrs.distinct).1 r' hr'
      intro hrisk
      have hrisk' := hrisk.of_append.1.anti (inert_of_kept hkept hu)
      obtain ⟨h₁, h₂, hread, hcleaned⟩ := hrs.owned r' (List.mem_cons_of_mem _ hr') hrisk'
      refine ⟨h₁, h₂, ?_, ?_⟩
      · rcases first.events with rfl | ⟨rfl, -, -⟩
        · simpa using hread
        · simpa using hread
      · rcases first.events with rfl | ⟨rfl, hborrowed, hinert⟩
        · simpa using hcleaned
        · have hne : r'.value ≠ r.value := fun heq =>
            hdistinct ⟨hborrowed, hinert, heq ▸ hrisk'.2.2⟩ hrisk' heq.symm
          simpa [hcleaned, Result.inBlock] using hne
    · refine (List.pairwise_cons.1 hrs.distinct).2.imp fun hne hr hr' => ?_
      exact hne (hr.of_append.1.anti (inert_of_kept hkept hu))
        (hr'.of_append.1.anti (inert_of_kept hkept hu))

/-- The index of a value that an instruction defines. -/
theorem emitted_between {b : Ir.BlockId} {i : Ir.Instr} {m m' : Ir.Module} {v : Ir.ValueId}
    (h : Ir.Module.Emitted b i m m') (hv : i.dst? = some v) :
    m.values.size ≤ v.index ∧ v.index < m'.values.size := by
  obtain ⟨hle, ty, hvalue⟩ := h.fresh v hv
  exact ⟨hle, (Array.getElem?_eq_some_iff.1 hvalue).1⟩

/-- The index of a new constant. -/
theorem IsConstant.between {kind : Ir.ValueKind} {b : Ir.BlockId} {t : TypeId}
    (h : IsConstant kind b t r u u') :
    u.context.ir.values.size ≤ r.value.index ∧ r.value.index < u'.context.ir.values.size :=
  ⟨h.fresh.size_le, (Array.getElem?_eq_some_iff.1 h.fresh.value).1⟩

/-- The value of type `void` is new. -/
theorem voidValue_between {v : Ir.ValueId} (h : onState Context.voidValue u = .ok v u') :
    u.context.ir.values.size ≤ v.index ∧ v.index < u'.context.ir.values.size := by
  obtain ⟨ty, -, hfresh⟩ := voidValue_fresh h
  exact ⟨hfresh.size_le, (Array.getElem?_eq_some_iff.1 hfresh.value).1⟩

/-- The value that branches are merged to is new. -/
theorem merge_between {frame : Frame} {node : NodeId} {onTrue onFalse : Result}
    (h : merge frame node onTrue onFalse u = .ok r u') :
    u.context.ir.values.size ≤ r.value.index ∧ r.value.index < u'.context.ir.values.size := by
  obtain ⟨target, v, m, ir, happend, hjoin, rfl, hvalue⟩ := merge_ok h
  have hsize := (merge_extends happend hjoin).values.size_le
  split at hvalue
  next =>
    obtain ⟨hle, hlt⟩ := voidValue_between hvalue
    exact ⟨Nat.le_trans hsize hle, hlt⟩
  next =>
    obtain ⟨ir', hphi, rfl⟩ := hvalue
    obtain ⟨hle, hlt⟩ := emitted_between ((Ir.Module.phi_ends _ _ _).of_ok hphi).1 rfl
    exact ⟨Nat.le_trans hsize hle, hlt⟩

/-- The value of a call is new. -/
theorem call_between {b : Ir.BlockId} {callee : Ir.FuncId} {values : List Ir.ValueId}
    {returned : Option Ir.ValueId} {v : Ir.ValueId} {ir : Ir.Module}
    (hcall : Ir.Module.call b callee values u.context.ir = .ok returned ir)
    (hresult : (returned = some v ∧ u' = u.withIr ir) ∨
      (returned = none ∧ onState Context.voidValue (u.withIr ir) = .ok v u')) :
    u.context.ir.values.size ≤ v.index ∧ v.index < u'.context.ir.values.size := by
  have hemitted := ((Ir.Module.call_ends _ _ _ _).of_ok hcall).1
  rcases hresult with ⟨rfl, rfl⟩ | ⟨rfl, hvoid⟩
  · exact emitted_between hemitted rfl
  · obtain ⟨hle, hlt⟩ := voidValue_between hvoid
    exact ⟨Nat.le_trans hemitted.values.size_le hle, hlt⟩

/-- The index of the constant that a truth value is. -/
theorem truthValue_between {b : Ir.BlockId} {value : Bool} (hu : u.context.Valid)
    (h : truthValue b value u = .ok r u') :
    u.context.ir.values.size ≤ r.value.index ∧ r.value.index < u'.context.ir.values.size :=
  (truthValue_ok hu h).between

/-! ## Derivations keep their ledgers -/

/-- Dropping what a derivation gives does no harm. -/
def GivesOwned (lo hi : Nat) (c : Context) (es : List Event) : Output → Prop
  | .one r => Owned lo hi c es r
  | .many rs _ => OwnedAll lo hi c es rs

/-- A result may be dropped after other forms were processed. -/
theorem Dropped.sparing_after {s : Scope} {u₁ : Compilation σ} {b' : Ir.BlockId}
    {es₁ : List Event} (h : Dropped r u₁ es' u' b') (hu : u.Settled s)
    (hkept : Compilation.Kept s u u₁) (hlo : lo ≤ u.context.ir.values.size)
    (hes : Sparing lo u.context.ir.values.size es)
    (hr : Owned lo u.context.ir.values.size u.context es r)
    (hes₁ : Sparing u.context.ir.values.size u₁.context.ir.values.size es₁) :
    Sparing lo u'.context.ir.values.size (es ++ es₁ ++ es') := by
  have hr₁ : Owned lo u₁.context.ir.values.size u₁.context (es ++ es₁) r :=
    (hr.append hes₁ hkept.size_le).mono (Nat.le_refl _) (Nat.le_refl _) (inert_of_kept hkept hu)
  have hall := h.sparing (hes.append hes₁ hlo hkept.size_le) hr₁
  exact hall.mono (Nat.le_refl _) (h.kept s).size_le

/-- A form may give a value that is new after all else it did. -/
theorem gives_new {s : Scope} (hkept : Compilation.Kept s u u')
    (hlo : lo ≤ u.context.ir.values.size) (hes : Sparing lo u.context.ir.values.size es)
    (hr : u.context.ir.values.size ≤ r.value.index ∧
      r.value.index < u'.context.ir.values.size) :
    Sparing lo u'.context.ir.values.size es ∧
      GivesOwned lo u'.context.ir.values.size u'.context es (.one r) :=
  ⟨hes.mono (Nat.le_refl _) hkept.size_le, .of_new hes hlo hr.1 hr.2⟩

/-- A derivation keeps its ledger, and what it gives is owned. -/
theorem Lowers.sparing {frame : Frame} {b : Ir.BlockId} {task : Task} {out : Output}
    (h : Lowers frame u b task es u' out) (hu : u.Settled frame.scope) :
    Sparing u.context.ir.values.size u'.context.ir.values.size es ∧
      GivesOwned u.context.ir.values.size u'.context.ir.values.size u'.context es out := by
  induction h with
  | integer kind run =>
    obtain ⟨_, _, -, -, hconstant⟩ := integerToken_ok hu.valid run
    exact ⟨.nil, .of_new .nil (Nat.le_refl _) hconstant.between.1 hconstant.between.2⟩
  | float kind run =>
    obtain ⟨_, -, hconstant⟩ := floatToken_ok hu.valid run
    exact ⟨.nil, .of_new .nil (Nat.le_refl _) hconstant.between.1 hconstant.between.2⟩
  | string kind run =>
    have hconstant := stringToken_ok hu.valid run
    exact ⟨.nil, .of_new .nil (Nat.le_refl _) hconstant.between.1 hconstant.between.2⟩
  | truth value symbol run =>
    have hconstant := truthValue_ok hu.valid run
    exact ⟨.nil, .of_new .nil (Nat.le_refl _) hconstant.between.1 hconstant.between.2⟩
  | value => exact ⟨.nil, .of_borrowed rfl⟩
  | slot _ _ _ _ load =>
    obtain ⟨hle, hlt⟩ := emitted_between ((Ir.Module.load_ends _ _ _).of_ok load).1 rfl
    exact ⟨.read hle hlt, .of_borrowed rfl⟩
  | @deref u u₁ u₂ b b' node argument marked es es' pointer pointee v ir core operand points
      notVoid load drop ih =>
    obtain ⟨hes, hpointer⟩ := ih hu
    have hkept := operand.kept
    have hload : Compilation.Kept frame.scope u₁ (u₁.withIr ir) :=
      kept_withIr _ ((Ir.Module.load_keeps _ _).ok load)
    obtain ⟨hle, hlt⟩ := emitted_between ((Ir.Module.load_ends _ _ _).of_ok load).1 rfl
    have hall := drop.sparing_after (hkept.settled hu) hload hkept.size_le hes hpointer
      (Sparing.read hle hlt)
    rw [List.append_assoc] at hall
    exact ⟨hall, .of_borrowed rfl⟩
  | @addressOfDeref u u₁ u₂ b b' node operand argument marked es es' pointer pointee core deref
      inner points notVoid drop ih =>
    obtain ⟨hes, hpointer⟩ := ih hu
    have hu₁ := inner.kept.settled hu
    have hall := (drop.sparing hes hpointer).mono (Nat.le_refl _) (drop.kept frame.scope).size_le
    refine ⟨hall.expose _ _, ?_⟩
    -- A pointer that is cleaned up when it is dropped was exposed.
    rintro ⟨-, hinert, hexposed⟩
    refine absurd (List.mem_append_right _ ?_) hexposed
    have hdestructor : (u₁.context.destructor? pointer.ty).isSome = true := by
      rw [Option.isSome_iff_ne_none]
      intro hnone
      exact hinert (inert_of_kept (drop.kept frame.scope) hu₁ _
        ⟨Option.isSome_iff_exists.2 ⟨_, points⟩, hnone⟩)
    rw [exposure, if_pos hdestructor]
    exact List.mem_singleton_self _
  | addressOf _ _ _ _ _ ih => exact ⟨(ih hu).1, .of_borrowed rfl⟩
  | @assignCopy u u₁ u₂ u₃ u₄ u₅ b b₁ b₂ node destNode valueNode marked es es₁ es₂ es₃ dest value
      r callee source returned ir core destination points assigned copy call dropValue dropDest
      run ih ih₁ =>
    have hkept := destination.kept
    have hkept₁ := assigned.kept
    have hcall : Compilation.Kept frame.scope u₂ (u₂.withIr ir) :=
      kept_withIr _ ((Ir.Module.call_keeps _ _ _).ok call)
    have hkept₂ := IsTrans.trans _ _ _ hcall (dropValue.kept frame.scope)
    have hkept₃ := dropDest.kept frame.scope
    have hu₁ := hkept.settled hu
    have hu₄ := hkept₃.settled (hkept₂.settled (hkept₁.settled hu₁))
    obtain ⟨hes, hdest⟩ := ih hu
    obtain ⟨hes₁, hvalue⟩ := ih₁ hu₁
    -- the value is dropped before the destination is, so the destination's ledger is closed last
    have hlater := dropValue.sparing_after (hkept₁.settled hu₁) hcall hkept₁.size_le hes₁ hvalue
      .nil
    rw [List.append_nil] at hlater
    have hall := dropDest.sparing_after hu₁ (IsTrans.trans _ _ _ hkept₁ hkept₂) hkept.size_le hes
      hdest hlater
    rw [← List.append_assoc es es₁ es₂] at hall
    exact gives_new ((truthValue_keeps frame.scope b₂ true).ok run)
      (Nat.le_trans hkept.size_le (Nat.le_trans hkept₁.size_le
        (Nat.le_trans hkept₂.size_le hkept₃.size_le))) hall (truthValue_between hu₄.valid run)
  | @assignMove u u₁ u₂ u₃ u₄ b b₁ node destNode valueNode marked es es₁ es₂ dest value r ir core
      destination points assigned noCopy store dropDest run ih ih₁ =>
    have hkept := destination.kept
    have hkept₁ := assigned.kept
    have hstore : Compilation.Kept frame.scope u₂ (u₂.withIr ir) :=
      kept_withIr _ ((Ir.Module.store_keeps _ _ _).ok store)
    have hkept₂ := dropDest.kept frame.scope
    have hu₁ := hkept.settled hu
    have hu₃ := hkept₂.settled (hstore.settled (hkept₁.settled hu₁))
    obtain ⟨hes, hdest⟩ := ih hu
    obtain ⟨hes₁, -⟩ := ih₁ hu₁
    have hall := dropDest.sparing_after hu₁ (IsTrans.trans _ _ _ hkept₁ hstore) hkept.size_le hes
      hdest (hes₁.mono (Nat.le_refl _) hstore.size_le)
    exact gives_new ((truthValue_keeps frame.scope b₁ true).ok run)
      (Nat.le_trans hkept.size_le (Nat.le_trans hkept₁.size_le
        (Nat.le_trans hstore.size_le hkept₂.size_le))) hall (truthValue_between hu₃.valid run)
  | sequence _ _ ih => exact ih hu
  | last _ ih => exact ih hu
  | @next u u₁ u₂ u₃ b b₁ node following rest es es₁ es₂ r r' form drop forms ih ih₁ =>
    have hkept := form.kept
    have hdrop := drop.kept frame.scope
    have hu₁ := hkept.settled hu
    obtain ⟨hes, hr⟩ := ih hu
    obtain ⟨hes₂, hr'⟩ := ih₁ (hdrop.settled hu₁)
    have hbefore := (drop.sparing hes hr).mono (Nat.le_refl _) hdrop.size_le
    have hsize := Nat.le_trans hkept.size_le hdrop.size_le
    exact ⟨hbefore.append hes₂ hsize forms.kept.size_le, Owned.prepend hr' hbefore hsize⟩
  | @conditional u u₁ u₂ u₃ u₄ u₅ u₆ b b₁ thenEntry elseEntry node conditionNode thenNode elseNode
      marked es es₁ es₂ es₃ condition onTrue onFalse onTrue' onFalse' r m m' ir core test isBool
      drop appendThen appendElse branch thenForm elseForm sameType unify merge ih ih₁ ih₂ =>
    have hkept := test.kept
    have hdrop := drop.kept frame.scope
    have hbranch : Compilation.Kept frame.scope u₂ (u₂.withIr ir) :=
      branch_kept appendThen appendElse branch
    have hthen := thenForm.kept
    have helse := elseForm.kept
    have hunify : Compilation.Kept frame.scope u₄ u₅ :=
      (unifyOwnership_keeps frame.scope _ _ _).ok unify
    have hu₂ := hbranch.settled (hdrop.settled (hkept.settled hu))
    obtain ⟨hes, hcondition⟩ := ih hu
    obtain ⟨hes₂, -⟩ := ih₁ hu₂
    obtain ⟨hes₃, -⟩ := ih₂ (hthen.settled hu₂)
    have hsize := Nat.le_trans hkept.size_le (Nat.le_trans hdrop.size_le hbranch.size_le)
    have hbefore := (drop.sparing hes hcondition).mono (Nat.le_refl _)
      (Nat.le_trans hdrop.size_le hbranch.size_le)
    have hall := (hbefore.append hes₂ hsize hthen.size_le).append hes₃
      (Nat.le_trans hsize hthen.size_le) helse.size_le
    refine gives_new ((merge_keeps frame.scope frame node _ _).ok merge) ?_
      (hall.mono (Nat.le_refl _) hunify.size_le) (merge_between merge)
    exact Nat.le_trans hsize
      (Nat.le_trans hthen.size_le (Nat.le_trans helse.size_le hunify.size_le))
  | @call u u₁ u₂ u₃ u₄ b b₁ b₂ node name argumentNodes es es₁ rs callee returned v ir isCall
      offer arguments lookup call result drop ih =>
    have hoffer : Compilation.Kept frame.scope u u₁ := (offer_keeps node).ok offer
    have hu₁ := hoffer.settled hu
    have hkept := arguments.kept
    have hu₂ := hkept.settled hu₁
    have hcall : Compilation.Kept frame.scope u₂ u₃ := call_kept call result
    have hdrop := drop.kept frame.scope
    obtain ⟨hes, hrs⟩ := ih hu₁
    have hrs' : OwnedAll _ _ u₃.context es rs := OwnedAll.mono hrs (inert_of_kept hcall hu₂)
    have hall := (drop.sparing (hcall.settled hu₂) hes hrs').mono hoffer.size_le (Nat.le_refl _)
    obtain ⟨hle, hlt⟩ := call_between call result
    exact gives_new (IsTrans.trans _ _ _ hcall hdrop) (Nat.le_trans hoffer.size_le hkept.size_le)
      hall ⟨hle, Nat.lt_of_lt_of_le hlt hdrop.size_le⟩
  | @expanded u u₁ u₂ b node expansion name argumentNodes es r isCall offer form ih =>
    have hoffer : Compilation.Kept frame.scope u u₁ := (offer_keeps node).ok offer
    obtain ⟨hes, hr⟩ := ih (hoffer.settled hu)
    exact ⟨hes.mono hoffer.size_le (Nat.le_refl _),
      Owned.mono hr hoffer.size_le (Nat.le_refl _) fun _ h => h⟩
  | none => exact ⟨.nil, fun _ h => absurd h List.not_mem_nil, .nil⟩
  | @more u u₁ u₂ b b₁ node nodes es es₁ r rs form arguments ih ih₁ =>
    have hkept := form.kept
    have hkept₁ := arguments.kept
    have hu₁ := hkept.settled hu
    have hinert := inert_of_kept hkept₁ hu₁
    obtain ⟨hes, hr⟩ := ih hu
    obtain ⟨hes₁, hrs⟩ := ih₁ hu₁
    refine ⟨hes.append hes₁ hkept.size_le hkept₁.size_le, fun r' hr' => ?_, ?_⟩
    · rcases List.mem_cons.1 hr' with rfl | hr'
      · exact (Owned.append hr hes₁ hkept₁.size_le).mono (Nat.le_refl _) (Nat.le_refl _) hinert
      · exact (hrs.owned r' hr').prepend hes hkept.size_le
    · refine List.pairwise_cons.2 ⟨fun r' hr' hrisk hrisk' => ?_,
        hrs.distinct.imp fun hne h h' => hne h.of_append.2 h'.of_append.2⟩
      -- The first value is older than all those of the other arguments.
      have hlt := (hr (hrisk.of_append.1.anti hinert)).2.1
      have hle := (hrs.owned r' hr' hrisk'.of_append.2).1
      exact fun heq => absurd hlt (Nat.not_lt.2 (heq ▸ hle))

end Lower

end FormCompiler
