import FormCompiler.Proofs.Lower.RerunForms

/-!
# Expressions Are Repeated

Core forms and calls are processed alike as their parts are, and so by induction is every expression
(`process_repeats`). Nothing replaces a list without macros.
-/

namespace FormCompiler.Lower.Rerun

open Context (Stock)

variable {σ : Type} {K : Rerun σ} {i : Stock} {sub sub' : Sub σ} {n m : NodeId}
  {ns ms : List NodeId} (hK : K.Fits) (hnm : K.first.forest.tree n = K.first.forest.tree m)
  (b : Ir.BlockId) (blocks : List Ir.BlockId) (types : List TypeId)

/-! ## Calls -/

section

variable {types} (hargs : List.Forall₂ (K.Alike sub sub') ns ms)

include hargs

/-- Arguments. -/
theorem arguments_repeats :
    K.repetition.Repeats ⟨b :: blocks, types, []⟩ (arguments sub b ns)
      (arguments sub' (K.block b) ms) (fun (rs, b) => (rs.map K.result, K.block b))
      fun (rs, b) => ⟨b :: blocks, rs.flatMap Result.types ++ types, []⟩ := by
  induction hargs generalizing b types with
  | nil => exact .pure rfl fun _ h => h
  | cons hfirst _ ih =>
    refine .bind (hfirst.gives b blocks types) fun r => ?_
    refine .bind (ih r.block) fun (rs, b) => ?_
    refine .pure rfl fun _ h => h.weaken (.refl _) ?_ (List.Subset.refl _)
    intro t ht
    simp only [List.flatMap_cons, List.mem_append] at ht ⊢
    tauto

include hK

/-- A call. -/
theorem call_repeats (name : String) :
    K.Gives (call sub b n name ns) (call sub' (K.block b) m name ms) b blocks types := by
  refine .bind (arguments_repeats b blocks hargs) fun (rs, b) => ?_
  have htypes : ∀ r ∈ rs, r.ty ∈ rs.flatMap Result.types ++ types := fun r hr =>
    List.mem_append_left _ (List.mem_flatMap.2 ⟨r, hr, List.mem_cons_self⟩)
  have htys : (rs.map K.result).map (·.ty) = rs.map (·.ty) := by
    rw [List.map_map]
    rfl
  have hvalues : (rs.map K.result).map (·.value) = (rs.map (·.value)).map K.value := by
    rw [List.map_map, List.map_map]
    rfl
  refine context_repeats hK fun c c' h hcallees => ?_
  dsimp only
  rw [htys, hvalues, h.within.lookupFunction?]
  cases hlookup : c.lookupFunction? name (rs.map (·.ty)) with
  | none =>
    refine context_repeats hK fun c c' h _ => ?_
    have hnames : (rs.map (·.ty)).map c'.typeName = (rs.map (·.ty)).map c.typeName :=
      List.map_congr_left fun t ht => by
        obtain ⟨r, hr, rfl⟩ := List.mem_map.1 ht
        exact h.typeName (htypes r hr)
    rw [hnames]
    exact failAt_repeats hK fun _ _ => ⟨rfl, rfl⟩
  | some callee =>
    -- the function was declared before the first run, and so was the type that it returns
    have hcallee := hcallees name _ callee hlookup
    refine knowing hcallee.ret.index_lt ?_
    refine .bind (emit_repeats (Ir.Rerun.call_repeats hK.context.module List.mem_cons_self
      hcallee.backend _)) fun returned => ?_
    have hrest : ∀ v, K.repetition.Repeats
        ⟨b :: blocks, callee.returnType :: (rs.flatMap Result.types ++ types), []⟩
        (do
          let b ← dropAll b rs
          return .new b callee.returnType v)
        (do
          let b ← dropAll (K.block b) (rs.map K.result)
          return .new b callee.returnType (K.value v))
        K.result fun r => ⟨r.block :: blocks, r.types ++ types, []⟩ := fun v => by
      refine .bind (dropAll_repeats hK b blocks fun r hr => List.mem_cons_of_mem _ (htypes r hr))
        fun b => ?_
      exact result_repeats (r := .new b callee.returnType v) (.refl _)
        (by simp [Result.types, Result.new]) (by simp)
    cases returned with
    | some v => exact hrest v
    | none =>
      exact .bind (onContext_repeats (Context.Rerun.voidValue_repeats hK.context)) hrest

/-- A call without macros. If no expansions are left, it is refused. -/
theorem callOrExpand_repeats {again again' : Sub σ} (left : Nat) (name : String) :
    K.Gives (callOrExpand left sub again b n name ns)
      (callOrExpand left sub' again' (K.block b) m name ms) b blocks types := by
  by_cases hleft : left = 0
  · subst hleft
    have hrefused : ∀ (sub again : Sub σ) b n ns, callOrExpand 0 sub again b n name ns = fun u =>
        (fail (Report.expansionFailed (u.forest.span n) (limitText u.maxExpansions)) :
          Lower σ Result) u := fun _ _ _ _ _ => rfl
    rw [hrefused, hrefused]
    refine fail_repeats hK fun u v hu hv _ => ?_
    rw [hu.limit, hv.limit]
    exact ⟨rfl, rfl⟩
  · -- the list is offered, but no macro is found and the unit is as before
    have hcall : ∀ (sub again : Sub σ) b n ns (u : Compilation σ), u.expander = .none →
        callOrExpand left sub again b n name ns u = call sub b n name ns u := by
      rintro sub again b n ns ⟨forest, context, memory, _, maxExpansions⟩ rfl
      have htry : tryExpand left n
          (⟨forest, context, memory, .none, maxExpansions⟩ : Compilation σ) =
            .ok none ⟨forest, context, memory, .none, maxExpansions⟩ := by
        unfold tryExpand
        rw [if_neg hleft]
        rfl
      exact bind_run htry
    exact .congr (fun u hu => hcall sub again b n ns u hu.static.expander)
      (fun u v _ huv => hcall sub' again' _ m ms v huv.static.expander)
      (call_repeats hK b blocks hargs name)

end

/-! ## Core forms -/

section

variable {types} (hinside : List.Forall₂ (K.AlikeInside sub sub') ns ms) (frame : Frame)

include hK hinside

/-- A core form. -/
theorem coreForm_repeats (form : CoreForm) (isMarked : Bool) :
    K.Gives (coreForm frame sub b n form ns isMarked)
      (coreForm frame sub' (K.block b) m form ms isMarked) b blocks types := by
  have hargs : List.Forall₂ (K.Alike sub sub') ns ms := hinside.imp fun _ _ h => h.toAlike
  cases form with
  | deref => exact dereference_repeats hK b blocks hargs false isMarked
  | addressOf => exact addressOf_repeats hK b blocks hinside
  | setf => exact assignment_repeats hK b blocks hargs
  | sequence => exact sequence_repeats hK b blocks hargs
  | conditional => exact conditional_repeats hK b blocks hargs frame
  | core => exact failAt_repeats hK fun _ _ => ⟨rfl, rfl⟩

include hnm

/-- A core form after `core`. -/
theorem marked_repeats :
    K.Gives (marked frame sub b n ns) (marked frame sub' (K.block b) m ms) b blocks types := by
  have hrefuse : ∀ {n m : NodeId}, K.first.forest.tree n = K.first.forest.tree m →
      K.Gives
        (do fail (Report.unexpectedElement (← span n) "core form name" "`core`" (← display n)))
        (do fail (Report.unexpectedElement (← span m) "core form name" "`core`" (← display m)))
        b blocks types := fun hnm => fail_repeats hK fun u v hu hv _ => by
    rw [hu.forest, hv.forest, hK.built.display_eq hnm]
    exact ⟨rfl, rfl⟩
  rcases hinside with _ | @⟨head, head', _, _, hhead, hrest⟩
  · exact hrefuse hnm
  · refine forest_repeats (p := (·.symbol? head)) (q := (·.symbol? head')) ?_
    rw [Forest.symbol?_eq hhead.same]
    cases (K.first.forest.symbol? head).bind CoreForm.ofName? with
    | none => exact hrefuse hhead.same
    | some form =>
      refine .ite Iff.rfl (fun _ => hrefuse hhead.same) fun _ => ?_
      exact coreForm_repeats hK b blocks hrest frame form true

/-- A list. -/
theorem list_repeats {again again' : Sub σ} (left : Nat) :
    K.Gives (list frame left sub again b n ns) (list frame left sub' again' (K.block b) m ms) b
      blocks types := by
  rcases hinside with _ | @⟨head, head', _, _, hhead, hrest⟩
  · exact failAt_repeats hK fun _ _ => ⟨rfl, rfl⟩
  · refine forest_repeats (p := (·.symbol? head)) (q := (·.symbol? head')) ?_
    rw [Forest.symbol?_eq hhead.same]
    cases K.first.forest.symbol? head with
    | none =>
      refine fail_repeats hK fun u v hu hv _ => ?_
      rw [hu.forest, hv.forest, hK.built.describe_eq hhead.same]
      exact ⟨rfl, rfl⟩
    | some name =>
      have hcall : K.Gives (callOrExpand left sub again b n name _)
          (callOrExpand left sub' again' (K.block b) m name _) b blocks types :=
        callOrExpand_repeats hK b blocks (hrest.imp fun _ _ h => h.toAlike) left name
      -- the same functions are in scope, so a core form is shadowed in both runs or in neither
      refine context_repeats hK fun c c' h _ => ?_
      dsimp only
      rw [h.within.hasFunction]
      cases CoreForm.ofName? name with
      | none => exact hcall
      | some form =>
        have hform : K.Gives
            (if c.hasFunction name then callOrExpand left sub again b n name _
              else coreForm frame sub b n form _ false)
            (if c.hasFunction name then callOrExpand left sub' again' (K.block b) m name _
              else coreForm frame sub' (K.block b) m form _ false) b blocks types :=
          .ite Iff.rfl (fun _ => hcall) fun _ => coreForm_repeats hK b blocks hrest frame form false
        cases form with
        | core => exact marked_repeats hK hnm b blocks hrest frame
        | _ => exact hform

end

/-! ## Expressions -/

variable {frame : Frame} (hframe : K.Knows frame)

include hK hframe

/-- Forms are processed alike, as smaller ones are. -/
theorem form_repeats {again again' : Sub σ} (left : Nat)
    (hsub : ∀ n' m' : NodeId, n'.index < n.index → m'.index < m.index →
      K.first.forest.tree n' = K.first.forest.tree m' → K.Alike sub sub' n' m')
    (hnm : K.first.forest.tree n = K.first.forest.tree m) :
    K.Gives (form frame left sub again b n) (form frame left sub' again' (K.block b) m) b blocks
      types := by
  refine forest_repeats (p := id) (q := id) ?_
  dsimp only [id]
  obtain ⟨kind, text, text', hn, hm, htext⟩ | ⟨ns, ms, hn, hm, -⟩ := hK.built.same_cases hnm
  · rw [hn, hm]
    dsimp only
    rw [htext]
    exact token_repeats hK hnm b blocks types hframe kind _
  · rw [hn, hm]
    -- the items stand below the list, and so do theirs, which `#` looks at
    have hitems := hK.built.same_items hnm
    rw [Forest.items_of_list hn, Forest.items_of_list hm] at hitems
    refine list_repeats hK hnm b blocks (hitems.imp fun n' m' ⟨hn', hm', hsame⟩ => ?_) frame left
    refine ⟨hsub n' m' hn' hm' hsame, (hK.built.same_items hsame).imp fun _ _ ⟨hn, hm, hsame⟩ => ?_⟩
    exact hsub _ _ (Nat.lt_trans hn hn') (Nat.lt_trans hm hm') hsame

/-- Two nodes with the same tree are processed alike, whatever the bounds of their ids. -/
theorem expressionBelow_repeats {again again' : Sub σ} (left : Nat) {bound bound' : Nat}
    (hn : n.index < bound) (hm : m.index < bound')
    (hnm : K.first.forest.tree n = K.first.forest.tree m) :
    K.Alike (expressionBelow frame left again bound) (expressionBelow frame left again' bound') n
      m := by
  -- the items of a form are below its id, for which the smaller bounds are enough
  induction bound generalizing bound' n m with
  | zero => exact absurd hn (Nat.not_lt_zero _)
  | succ bound ih =>
    obtain ⟨bound', rfl⟩ := Nat.exists_eq_succ_of_ne_zero (Nat.ne_zero_of_lt hm)
    refine ⟨hnm, fun b blocks types => form_repeats hK b blocks types hframe left ?_ hnm⟩
    exact fun n' m' hn' hm' hsame => ih (by omega) (by omega) hsame

/-- An expression. -/
theorem expression_repeats (left : Nat) (hnm : K.first.forest.tree n = K.first.forest.tree m) :
    K.Gives (expression frame left b n) (expression frame left (K.block b) m) b blocks types := by
  have hbelow : ∀ again again' : Sub σ,
      K.Alike (expressionBelow frame left again (n.index + 1))
        (expressionBelow frame left again' (m.index + 1)) n m := fun _ _ =>
    expressionBelow_repeats hK hframe left (Nat.lt_succ_self _) (Nat.lt_succ_self _) hnm
  cases left with
  | zero => exact (hbelow _ _).gives b blocks types
  | succ left => exact (hbelow _ _).gives b blocks types

/-- Processing a form, and one with the same tree later. -/
theorem process_repeats (hnm : K.first.forest.tree n = K.first.forest.tree m) :
    K.Gives (process frame b n) (process frame (K.block b) m) b blocks types := by
  refine .congr (fun u hu => ?_) (fun u v _ huv => ?_)
    (expression_repeats hK b blocks types hframe K.first.maxExpansions hnm)
  · change expression frame u.maxExpansions b n u = _
    rw [hu.static.limit]
  · change expression frame v.maxExpansions (K.block b) m v = _
    rw [huv.static.limit]

end FormCompiler.Lower.Rerun
