import FormCompiler.Proofs.Lower.Landing
import FormCompiler.Proofs.Lower.Parts

/-!
# Ownership of Merged Values

Both branches of `(if condition then else)` give a value, and what they merge in is owned or
borrowed as a whole. If one branch owns its value and the other borrows it, the borrowed value is
copied where its branch ends; without a copy function the form is refused. Values of types that own
nothing may be merged in any case (`process_conditional`).

* `Ir.Module.Copied`: the code that copies a value.
* `LacksCopy`: a copy is needed, and there is no function for it.
* `Unifies`: how the results of the branches get the same ownership.
* `Merges`: how two results of the same ownership become one.
-/

namespace FormCompiler

open Ir.Module

/-! ## Copies -/

namespace Ir.Module

/-- At the end of the block, the value was stored in a slot, another slot was filled from that one
by the function, and what is in there was loaded. -/
inductive Copied (b : BlockId) (copy : FuncId) (value v : ValueId) (m m' : Module) : Prop
  | intro {ty : TyId} {source fresh : ValueId} {returned : Option ValueId} {m₁ m₂ m₃ m₄ : Module}
      (makeSource : Emitted b (.alloca source ty) m m₁)
      (fillSource : Emitted b (.store value source) m₁ m₂)
      (makeFresh : Emitted b (.alloca fresh ty) m₂ m₃)
      (copies : Emitted b (.call returned copy [fresh, source]) m₃ m₄)
      (reads : Emitted b (.load v fresh) m₄ m')

variable {b : BlockId} {copy : FuncId} {value v : ValueId} {m m' : Module}

/-- A copy is made in the block alone, and code goes on there. -/
theorem Copied.leads (h : Copied b copy value v m m') (hb : b.index < m.blocks.size) :
    Leads b m b m' := by
  obtain ⟨hsource, hfill, hfresh, hcopies, hreads⟩ := h
  exact ((((Leads.of_emitted hsource hb).emitted hfill).emitted hfresh).emitted hcopies).emitted
    hreads

/-- A function that takes two pointers to values of the type may copy the value, in an open
block. -/
theorem copyInstrs_accepted (hvalue : value.index < m.values.size) (hb : b.index < m.blocks.size)
    (hopen : m.isTerminated b = false) (hcopy : copy.index < m.functions.size)
    (hlength : (m.function copy).params.length = 2)
    (hparams : ∀ param ∈ (m.function copy).params, param.index < m.values.size ∧
      m.findType? (.pointer (m.valueType value)) = some (m.valueType param)) :
    Ends (Lower.copyInstrs b (m.valueType value) value copy) m
      (fun v m' => Copied b copy value v m m') fun _ => False := by
  refine (alloca_accepted _ hopen).andThen (fun _ h => h) ?_
  rintro source m₁ ⟨hsource, hsourceTy⟩
  have hb₁ : b.index < m₁.blocks.size := by rwa [hsource.size_blocks]
  have hpointee := Lower.pointee?_of_find hsourceTy
  rw [← hsource.toExtends.valueType hvalue] at hpointee
  refine (store_accepted hpointee (hsource.isTerminated hb)).andThen (fun _ h => h) ?_
  rintro _ m₂ hfill
  have hb₂ : b.index < m₂.blocks.size := by rwa [hfill.size_blocks]
  -- the second slot gets the type of the first one, which the module keeps once
  refine (alloca_accepted _ (hfill.isTerminated hb₁)).andThen (fun _ h => h) ?_
  rintro fresh m₃ ⟨hfresh, hfreshTy⟩
  have hb₃ : b.index < m₃.blocks.size := by rwa [hfresh.size_blocks]
  have hgrown := (hsource.toExtends.trans hfill.toExtends).trans hfresh.toExtends
  obtain ⟨-, _, hslot⟩ := hsource.fresh source rfl
  have hsourceTy₃ := (hfill.toExtends.trans hfresh.toExtends).findType? hsourceTy
  rw [← (hfill.toExtends.trans hfresh.toExtends).valueType
    (Array.getElem?_eq_some_iff.1 hslot).1] at hsourceTy₃
  -- both slots have the type of the parameters
  have hsame : ∀ param ∈ (m.function copy).params,
      m₃.valueType param = m₃.valueType fresh ∧ m₃.valueType param = m₃.valueType source := by
    intro param hparam
    obtain ⟨hlt, hfound⟩ := hparams param hparam
    have hfound₃ := hgrown.findType? hfound
    rw [← hgrown.valueType hlt] at hfound₃
    exact ⟨Option.some_inj.1 (hfound₃.symm.trans hfreshTy),
      Option.some_inj.1 (hfound₃.symm.trans hsourceTy₃)⟩
  have harguments : List.Forall₂ (fun param argument => m₃.valueType param = m₃.valueType argument)
      (m₃.function copy).params [fresh, source] := by
    rw [(hgrown.function copy hcopy).params]
    obtain ⟨first, second, htwo⟩ := List.length_eq_two.1 hlength
    rw [htwo] at hsame ⊢
    exact .cons (hsame first (by simp)).1 (.cons (hsame second (by simp)).2 .nil)
  refine (call_accepted harguments (hfresh.isTerminated hb₂)).andThen (fun _ h => h) ?_
  rintro returned m₄ hcopies
  obtain ⟨-, _, hslot'⟩ := hfresh.fresh fresh rfl
  have hfreshTy₄ := hcopies.toExtends.findType? hfreshTy
  rw [← hcopies.toExtends.valueType (Array.getElem?_eq_some_iff.1 hslot').1] at hfreshTy₄
  exact (load_accepted (Lower.pointee?_of_find hfreshTy₄) (hcopies.isTerminated hb₃)).mono
    (fun _ _ h => ⟨hsource, hfill, hfresh, hcopies, h.1⟩) fun _ h => h

end Ir.Module

/-- What is of type `void` owns nothing. -/
theorem Context.not_isVoid_of_ownsResources {c : Context} {t : TypeId}
    (h : c.ownsResources t = true) : c.pool.isVoid t = false := by
  by_contra hvoid
  exact (c.ownsResources_iff t).1 h (c.components_of_isVoid (by simpa using hvoid))

namespace Lower

variable {σ : Type} {u u' : Compilation σ} {node : NodeId} {r onTrue onFalse : Result}

/-- A borrowed result of a type with a copy function can be copied, in its block alone. -/
theorem copyBorrowed_lands (node : NodeId) (hu : u.context.Valid) (hr : r.Typed u.context)
    (hvoid : u.context.pool.isVoid r.ty = false)
    (hb : r.block.index < u.context.ir.blocks.size)
    (hopen : u.context.ir.isTerminated r.block = false) {copy : Ir.FuncId}
    (hcopy : u.context.pointerFunction? Context.copyAssignName r.ty 2 = some copy) :
    ∃ v m, copyBorrowed node r u = .ok (.new r.block r.ty v) (u.withIr m) ∧
      Copied r.block copy r.value v u.context.ir m ∧ Leads r.block u.context.ir r.block m ∧
      Compilation.Kept .empty u (u.withIr m) ∧
      (Result.new r.block r.ty v).Typed (u.context.withIr m) := by
  obtain ⟨hfunction, hlength, hparams⟩ := hu.pointerFunction_params hvoid hcopy
  -- only one type of the module stands for a source type, so the slots fit the parameters
  have htypes : ∀ param ∈ (u.context.ir.function copy).params,
      param.index < u.context.ir.values.size ∧
        u.context.ir.findType? (.pointer (u.context.ir.valueType r.value)) =
          some (u.context.ir.valueType param) := fun param hparam => by
    obtain ⟨hlt, ty, hbacks, hfound⟩ := hparams param hparam
    obtain rfl := hbacks.unique hr.backs
    exact ⟨hlt, hfound⟩
  obtain ⟨v, m, hrun, hcopied⟩ :=
    (copyInstrs_accepted hr.inTable hb hopen hfunction hlength htypes).succeeds
  have hcopies : copyBorrowed node r u = .ok (.new r.block r.ty v) (u.withIr m) := by
    refine (bind_run rfl).trans ?_
    rw [hcopy]
    have hbackend : onState (Context.backendType r.ty) u =
        .ok (u.context.ir.valueType r.value) u :=
      onState_ok_iff.2 ⟨by rw [hr.backs.backendType], by rw [hr.backs.backendType]; rfl⟩
    exact (bind_run hbackend).trans (bind_run (emit_ok_iff.2 ⟨m, hrun, rfl⟩))
  have hleads := hcopied.leads hb
  exact ⟨v, m, hcopies, hcopied, hleads, kept_withIr _ hleads.confined.extended,
    copyBorrowed_typed hr hcopies⟩

/-! ## The same ownership -/

/-- One result owns its value and the other borrows it, and there is no function for the copy that
values of the type take. -/
def LacksCopy (c : Context) (onTrue onFalse : Result) : Prop :=
  onTrue.borrowed ≠ onFalse.borrowed ∧ c.ownsResources onTrue.ty = true ∧
    c.pointerFunction? Context.copyAssignName onTrue.ty 2 = none

/-- The results of two branches got the same ownership, with the code from one module to the other.
They are as they were if they had the same ownership before, and both count as borrowed if the type
owns nothing. Otherwise the borrowed one was copied at the end of its block. -/
inductive Unifies (c : Context) (onTrue onFalse : Result) (m : Ir.Module) :
    Result → Result → Ir.Module → Prop
  | same (same : onTrue.borrowed = onFalse.borrowed) : Unifies c onTrue onFalse m onTrue onFalse m
  | free (differ : onTrue.borrowed ≠ onFalse.borrowed)
      (owns : c.ownsResources onTrue.ty = false) :
      Unifies c onTrue onFalse m onTrue.ownedElsewhere onFalse.ownedElsewhere m
  | copyTrue {copy : Ir.FuncId} {v : Ir.ValueId} {m' : Ir.Module}
      (isBorrowed : onTrue.borrowed = true) (isOwned : onFalse.borrowed = false)
      (owns : c.ownsResources onTrue.ty = true)
      (function : c.pointerFunction? Context.copyAssignName onTrue.ty 2 = some copy)
      (copied : Copied onTrue.block copy onTrue.value v m m') :
      Unifies c onTrue onFalse m (.new onTrue.block onTrue.ty v) onFalse m'
  | copyFalse {copy : Ir.FuncId} {v : Ir.ValueId} {m' : Ir.Module}
      (isBorrowed : onFalse.borrowed = true) (isOwned : onTrue.borrowed = false)
      (owns : c.ownsResources onTrue.ty = true)
      (function : c.pointerFunction? Context.copyAssignName onTrue.ty 2 = some copy)
      (copied : Copied onFalse.block copy onFalse.value v m m') :
      Unifies c onTrue onFalse m onTrue (.new onFalse.block onFalse.ty v) m'

/-- Results that were unified have the same ownership, and the types and blocks that they had. -/
theorem Unifies.alike {c : Context} {onTrue' onFalse' : Result} {m m' : Ir.Module}
    (h : Unifies c onTrue onFalse m onTrue' onFalse' m') :
    onTrue'.borrowed = onFalse'.borrowed ∧ onTrue'.ty = onTrue.ty ∧ onFalse'.ty = onFalse.ty ∧
      onTrue'.block = onTrue.block ∧ onFalse'.block = onFalse.block := by
  cases h with
  | same same => exact ⟨same, rfl, rfl, rfl, rfl⟩
  | free => exact ⟨rfl, rfl, rfl, rfl, rfl⟩
  | copyTrue _ isOwned => exact ⟨isOwned.symm, rfl, rfl, rfl, rfl⟩
  | copyFalse _ isOwned => exact ⟨isOwned, rfl, rfl, rfl, rfl⟩

/-- Without a function for the copy that is needed, the results are refused. -/
theorem unifyOwnership_fails (hty : onTrue.ty = onFalse.ty)
    (h : LacksCopy u.context onTrue onFalse) :
    FailsWith (unifyOwnership node onTrue onFalse) u .branchOwnershipDiffers u := by
  obtain ⟨hdiffer, howns, hnone⟩ := h
  have hcopy : ∀ r : Result, r.ty = onTrue.ty →
      FailsWith (copyBorrowed node r) u .branchOwnershipDiffers u := fun r hr => by
    refine .next (a := u.context) rfl ?_
    rw [hr, hnone]
    exact .next rfl (.next rfl (.fail rfl))
  unfold unifyOwnership
  rw [if_neg hdiffer]
  refine .next (a := u.context) rfl ?_
  rw [if_neg (by simp [howns])]
  split
  · exact .bind (hcopy onTrue rfl)
  · exact .bind (hcopy onFalse hty.symm)

section

variable (hu : u.context.Valid) (hTrue : onTrue.Typed u.context) (hFalse : onFalse.Typed u.context)
  (hty : onTrue.ty = onFalse.ty) {b : Ir.BlockId} {m : Ir.Module}
  (hparted : Parted b m u.context.ir onTrue.block onFalse.block)

include hu hTrue hFalse hty hparted

/-- Otherwise they get the same ownership. -/
theorem unifyOwnership_lands (node : NodeId) (h : ¬ LacksCopy u.context onTrue onFalse) :
    ∃ onTrue' onFalse' m', unifyOwnership node onTrue onFalse u =
        .ok (onTrue', onFalse') (u.withIr m') ∧
      Unifies u.context onTrue onFalse u.context.ir onTrue' onFalse' m' ∧
      Parted b m m' onTrue.block onFalse.block ∧
      onTrue'.Typed (u.context.withIr m') ∧ onFalse'.Typed (u.context.withIr m') := by
  by_cases hsame : onTrue.borrowed = onFalse.borrowed
  · refine ⟨onTrue, onFalse, u.context.ir, ?_, .same hsame, hparted, hTrue, hFalse⟩
    unfold unifyOwnership
    rw [if_pos hsame]
    rfl
  cases howns : u.context.ownsResources onTrue.ty with
  | false =>
    refine ⟨_, _, u.context.ir, ?_, .free hsame howns, hparted,
      ⟨hTrue.inTable, hTrue.backs, hTrue.addressed⟩,
      ⟨hFalse.inTable, hFalse.backs, hFalse.addressed⟩⟩
    unfold unifyOwnership
    rw [if_neg hsame]
    refine (bind_run rfl).trans ?_
    rw [if_pos howns]
    rfl
  | true =>
    have hvoid := Context.not_isVoid_of_ownsResources howns
    -- a copy is needed and the form is not refused, so there is a function for it
    obtain ⟨copy, hcopy⟩ : ∃ copy,
        u.context.pointerFunction? Context.copyAssignName onTrue.ty 2 = some copy :=
      Option.ne_none_iff_exists'.1 fun hnone => h ⟨hsame, howns, hnone⟩
    have hrun : ∀ outcome, (if onTrue.borrowed then do
          let copied ← copyBorrowed node onTrue
          return (copied, onFalse)
        else do
          let copied ← copyBorrowed node onFalse
          return (onTrue, copied) : Lower σ (Result × Result)) u = outcome →
        unifyOwnership node onTrue onFalse u = outcome := by
      rintro _ rfl
      unfold unifyOwnership
      rw [if_neg hsame]
      refine (bind_run rfl).trans ?_
      rw [if_neg (by simp [howns])]
    -- the copy stands at the end of one branch, and the other branch stays as it is
    cases hborrowed : onTrue.borrowed with
    | true =>
      have howned : onFalse.borrowed = false := by
        rw [hborrowed] at hsame
        simpa using Ne.symm hsame
      obtain ⟨v, m', hcopied, hcode, hleads, hkept, htyped⟩ :=
        copyBorrowed_lands node hu hTrue hvoid hparted.inTrue hparted.openTrue hcopy
      refine ⟨_, _, m', hrun _ ?_, .copyTrue hborrowed howned howns hcopy hcode,
        hparted.leads hleads, htyped, hFalse.mono hkept.steady hkept.context.ir⟩
      rw [if_pos hborrowed]
      exact bind_run hcopied
    | false =>
      have hborrows : onFalse.borrowed = true := by
        rw [hborrowed] at hsame
        simpa using Ne.symm hsame
      obtain ⟨v, m', hcopied, hcode, hleads, hkept, htyped⟩ :=
        copyBorrowed_lands node hu hFalse (hty ▸ hvoid) hparted.inFalse
          hparted.openFalse (hty ▸ hcopy)
      refine ⟨_, _, m', hrun _ ?_, .copyFalse hborrows hborrowed howns hcopy hcode,
        (hparted.swap.leads hleads).swap, hTrue.mono hkept.steady hkept.context.ir, htyped⟩
      rw [if_neg (by simp [hborrowed])]
      exact bind_run hcopied

end

/-! ## One value of two -/

/-- A block is appended to the module. -/
theorem append_run {func : Ir.FuncId} {label : String} {b : Ir.BlockId} {m : Ir.Module}
    (h : appendBlock func label u.context.ir = (b, m)) :
    onModule (appendBlock func label) u = .ok b (u.withIr m) :=
  onModule_ok_iff.2 ⟨by rw [h], by rw [h]⟩

/-- Both branches go on to a new block, and there a phi merges their values unless the type is
`void`. The result has the ownership of the first one. -/
inductive Merges (frame : Frame) (onTrue onFalse : Result) (u : Compilation σ) :
    Result → Compilation σ → Prop
  | void {target : Ir.BlockId} {m m₁ m₂ : Ir.Module} {v : Ir.ValueId} {u' : Compilation σ}
      (append : appendBlock frame.func "merge" u.context.ir = (target, m))
      (leaveTrue : Closed onTrue.block (.br target) m m₁)
      (leaveFalse : Closed onFalse.block (.br target) m₁ m₂)
      (isVoid : u.context.pool.isVoid onTrue.ty = true)
      (value : onState Context.voidValue (u.withIr m₂) = .ok v u') :
      Merges frame onTrue onFalse u
        { Result.new target onTrue.ty v with borrowed := onTrue.borrowed } u'
  | phi {target : Ir.BlockId} {m m₁ m₂ m₃ : Ir.Module} {v : Ir.ValueId}
      (append : appendBlock frame.func "merge" u.context.ir = (target, m))
      (leaveTrue : Closed onTrue.block (.br target) m m₁)
      (leaveFalse : Closed onFalse.block (.br target) m₁ m₂)
      (notVoid : u.context.pool.isVoid onTrue.ty = false)
      (merge : Emitted target
        (.phi v [(onTrue.value, onTrue.block), (onFalse.value, onFalse.block)]) m₂ m₃) :
      Merges frame onTrue onFalse u
        { Result.new target onTrue.ty v with borrowed := onTrue.borrowed } (u.withIr m₃)

/-- Two branches that are open may go on to a new block, which is open. -/
theorem join_accepted {func : Ir.FuncId} {label : String} {b first second target : Ir.BlockId}
    {m₀ m m₁ : Ir.Module} (h : Parted b m₀ m first second)
    (happend : appendBlock func label m = (target, m₁)) :
    ∃ m₂ m₃, join first second target m₁ = .ok ⟨⟩ m₃ ∧ Closed first (.br target) m₁ m₂ ∧
      Closed second (.br target) m₂ m₃ ∧ Leads b m₀ target m₃ := by
  have hparted : ∀ x : Ir.BlockId, x.index < m.blocks.size → m.isTerminated x = false →
      m₁.isTerminated x = false := fun x hx hopen => by
    rw [isTerminated, (appendBlock_spec happend).2.2.2 x hx]
    exact hopen
  obtain ⟨_, m₂, hrun, hTrue⟩ :=
    (br_accepted target (hparted first h.inTrue h.openTrue)).succeeds
  have hopen : m₂.isTerminated second = false := by
    rw [isTerminated, hTrue.block_of_ne h.distinct.symm]
    exact hparted second h.inFalse h.openFalse
  obtain ⟨_, m₃, hrun', hFalse⟩ := (br_accepted target hopen).succeeds
  exact ⟨m₂, m₃, (bind_run hrun).trans hrun', hTrue, hFalse, h.merged happend hTrue hFalse⟩

/-- Two results of one type are merged if their branches are open. -/
theorem merge_lands (frame : Frame) (node : NodeId) (hTrue : onTrue.Typed u.context)
    (hFalse : onFalse.Typed u.context) (hty : onTrue.ty = onFalse.ty) {b : Ir.BlockId}
    {m : Ir.Module} (hparted : Parted b m u.context.ir onTrue.block onFalse.block) :
    ∃ r u', merge frame node onTrue onFalse u = .ok r u' ∧ Merges frame onTrue onFalse u r u' := by
  cases happend : appendBlock frame.func "merge" u.context.ir with
  | mk target m₁ =>
    obtain ⟨m₂, m₃, hjoin, hleaveTrue, hleaveFalse, hleads⟩ := join_accepted hparted happend
    have happended := append_run happend
    have hjoined : emit node (join onTrue.block onFalse.block target) (u.withIr m₁) =
        .ok ⟨⟩ (u.withIr m₃) := emit_ok_iff.2 ⟨m₃, hjoin, rfl⟩
    cases hvoid : u.context.pool.isVoid onTrue.ty with
    | true =>
      refine ⟨_, _, (bind_run happended).trans ((bind_run hjoined).trans ((bind_run rfl).trans ?_)),
        .void happend hleaveTrue hleaveFalse hvoid (onState_run _ _)⟩
      rw [if_pos (show (u.withIr m₃).context.pool.isVoid onTrue.ty = true from hvoid)]
      exact bind_run (onState_run _ _)
    | false =>
      have hextends := merge_extends happend hjoin
      -- a phi takes values of one type of the module
      have hsame : ∀ other ∈ [(onFalse.value, onFalse.block)],
          m₃.valueType onTrue.value = m₃.valueType other.1 := fun other hother => by
        rw [List.mem_singleton.1 hother, hextends.valueType hTrue.inTable,
          hextends.valueType hFalse.inTable]
        exact hTrue.backs.unique (hty ▸ hFalse.backs)
      obtain ⟨v, m₄, hphi, hemitted, -⟩ :=
        (phi_accepted onTrue.block hsame hleads.isOpen).succeeds
      refine ⟨_, _, (bind_run happended).trans ((bind_run hjoined).trans ((bind_run rfl).trans ?_)),
        .phi happend hleaveTrue hleaveFalse hvoid hemitted⟩
      rw [if_neg (Bool.eq_false_iff.1
        (show (u.withIr m₃).context.pool.isVoid onTrue.ty = false from hvoid))]
      exact bind_run (emit_ok_iff.2 ⟨m₄, hphi, rfl⟩)

/-! ## Conditionals -/

/-- The condition was dropped, and at the end of its block control branches to two new blocks. -/
inductive Branches (frame : Frame) (condition : Result) (u : Compilation σ) :
    Ir.BlockId → Ir.BlockId → Compilation σ → Prop
  | intro {m m₁ m₂ m₃ : Ir.Module} {thenEntry elseEntry : Ir.BlockId}
      (drop : Context.destruct condition u.context = .ok condition (u.context.withIr m))
      (appendThen : appendBlock frame.func "then" m = (thenEntry, m₁))
      (appendElse : appendBlock frame.func "else" m₁ = (elseEntry, m₂))
      (branch : condBr condition.block condition.value thenEntry elseEntry m₂ = .ok ⟨⟩ m₃) :
      Branches frame condition u thenEntry elseEntry (u.withIr m₃)

section

variable {frame : Frame} {b : Ir.BlockId} {condition : Result} {u₁ u₂ : Compilation σ}
  {thenEntry elseEntry : Ir.BlockId}

/-- Branching declares nothing. -/
theorem Branches.kept (h : Branches frame condition u₁ thenEntry elseEntry u₂) (s : Scope) :
    Compilation.Kept s u₁ u₂ := by
  obtain ⟨hdrop, hthen, helse, hbranch⟩ := h
  have hdropped := ((Context.destruct_keeps s condition).ok hdrop).ir
  have happended := (append_confined condition.block hthen).extended.trans
    (append_confined condition.block helse).extended
  exact kept_withIr _ ((hdropped.trans happended).trans ((condBr_keeps _ _ _ _).ok hbranch))

/-- After a condition of type `bool`, control branches. -/
theorem branches_of_condition (frame : Frame) {scope : Scope} (h : Lands scope b u condition u₁)
    (hbool : condition.ty = .bool) :
    ∃ thenEntry elseEntry u₂, Branches frame condition u₁ thenEntry elseEntry u₂ ∧
      Parted condition.block u₁.context.ir u₂.context.ir thenEntry elseEntry ∧ Reachable u₂ := by
  obtain ⟨m, hdrop, hdropped⟩ := h.typed.destruct_lands h.reachable.valid h.reachable.placed
    (.refl u₁.context.ir) h.leads.inTable h.leads.isOpen
  cases hthen : appendBlock frame.func "then" m with
  | mk thenEntry m₁ =>
  cases helse : appendBlock frame.func "else" m₁ with
  | mk elseEntry m₂ =>
    have happended := (append_confined condition.block hthen).trans
      (append_confined condition.block helse) (.inl rfl)
    have hextends := hdropped.confined.extended.trans happended.extended
    have hopen : m₂.isTerminated condition.block = false := by
      rw [isTerminated, (appendBlock_spec helse).2.2.2 _
        (Nat.lt_of_lt_of_le hdropped.inTable
          (append_confined condition.block hthen).extended.blocks),
        (appendBlock_spec hthen).2.2.2 _ hdropped.inTable]
      exact hdropped.isOpen
    -- code branches on one bit, which is what stands for `bool`
    have hbit : m₂.findType? (.int 1) = some (m₂.valueType condition.value) := by
      rw [hextends.valueType h.typed.inTable]
      have hprimitive : u₁.context.pool.types[condition.ty.index]? = some (.primitive .bool) := by
        rw [hbool]
        exact h.reachable.valid.pool.primitives .bool
      exact hextends.findType? (h.typed.backs.of_primitive hprimitive)
    obtain ⟨_, m₃, hrun, hbranch⟩ := (condBr_accepted thenEntry elseEntry hbit hopen).succeeds
    have hforked : Forked condition.block m m₃ thenEntry elseEntry :=
      .of_closed hdropped.inTable hthen helse hbranch
    have hparted : Parted condition.block u₁.context.ir m₃ thenEntry elseEntry := by
      have hfork := Parted.of_forked hforked
      have hle := hdropped.confined.extended.blocks
      exact { hfork with
        confined := hdropped.confined.trans hfork.confined (.inl rfl)
        freshTrue := Nat.le_trans hle hfork.freshTrue
        freshFalse := Nat.le_trans hle hfork.freshFalse }
    exact ⟨_, _, _, .intro hdrop hthen helse hrun, hparted,
      .emit (.of_ir hparted.confined.extended) h.reachable⟩

end

section

variable {frame : Frame} {sub : Sub σ} {b : Ir.BlockId} {conditionNode thenNode elseNode : NodeId}
  {condition : Result} {u₁ u₂ u₃ u₄ : Compilation σ} {thenEntry elseEntry : Ir.BlockId}

/-- From the branches on, a conditional unifies and merges their results. -/
theorem conditional_run (hcondition : sub b conditionNode u = .ok condition u₁)
    (hbool : condition.ty = .bool)
    (hbranches : Branches frame condition u₁ thenEntry elseEntry u₂)
    (hTrue : sub thenEntry thenNode u₂ = .ok onTrue u₃)
    (hFalse : sub elseEntry elseNode u₃ = .ok onFalse u₄) (hty : onTrue.ty = onFalse.ty) :
    conditional frame sub b node [conditionNode, thenNode, elseNode] u =
      (do
        let (onTrue, onFalse) ← unifyOwnership node onTrue onFalse
        merge frame node onTrue onFalse) u₄ := by
  obtain @⟨m, m₁, m₂, m₃, _, _, hdrop, hthen, helse, hbranch⟩ := hbranches
  have hdropped : drop condition u₁ = .ok condition.block (u₁.withIr m) :=
    drop_ok_iff.2 ⟨condition, _, hdrop, rfl, rfl⟩
  have hthenRun := append_run (u := u₁.withIr m) hthen
  have helseRun := append_run (u := u₁.withIr m₁) helse
  have hbranchRun : emit node (condBr condition.block condition.value thenEntry elseEntry)
      (u₁.withIr m₂) = .ok ⟨⟩ (u₁.withIr m₃) := emit_ok_iff.2 ⟨m₃, hbranch, rfl⟩
  refine (bind_run hcondition).trans ?_
  rw [if_neg (by simp [hbool])]
  refine (bind_run hdropped).trans ((bind_run hthenRun).trans ((bind_run helseRun).trans
    ((bind_run hbranchRun).trans ((bind_run hTrue).trans ((bind_run hFalse).trans ?_)))))
  rw [if_neg (by simp [hty])]

end

/-- **Branches merge with one ownership.** In a conditional whose branches give values of one type,
the form is refused exactly if one branch owns its value, the other borrows it, values of the type
own something, and there is no function to copy them. Otherwise there is a result. The phi takes the
values of the branches, but for a borrowed one that was copied, at the end of its branch; and both
that it takes have the ownership of the result. -/
theorem process_conditional {frame : Frame} {b : Ir.BlockId}
    {conditionNode thenNode elseNode : NodeId} {isMarked : Bool} {condition : Result}
    {u₁ : Compilation σ} (hu : Reachable u) (hforest : u.forest.WellBuilt)
    (hscope : frame.scope.Represented u.context) (hb : b.index < u.context.ir.blocks.size)
    (hopen : u.context.ir.isTerminated b = false)
    (hcore : u.IsCore node .conditional [conditionNode, thenNode, elseNode] isMarked)
    (hcondition : process frame b conditionNode u = .ok condition u₁)
    (hbool : condition.ty = .bool) :
    ∃ thenEntry elseEntry u₂, Branches frame condition u₁ thenEntry elseEntry u₂ ∧
      ∀ onTrue u₃ onFalse u₄, process frame thenEntry thenNode u₂ = .ok onTrue u₃ →
        process frame elseEntry elseNode u₃ = .ok onFalse u₄ → onTrue.ty = onFalse.ty →
        (FailsWith (process frame b node) u .branchOwnershipDiffers u₄ ↔
          LacksCopy u₄.context onTrue onFalse) ∧
        (¬ LacksCopy u₄.context onTrue onFalse → ∃ onTrue' onFalse' m r u',
          process frame b node u = .ok r u' ∧
          Unifies u₄.context onTrue onFalse u₄.context.ir onTrue' onFalse' m ∧
          Merges frame onTrue' onFalse' (u₄.withIr m) r u' ∧
          onTrue'.borrowed = r.borrowed ∧ onFalse'.borrowed = r.borrowed) := by
  have hlands := process_lands hu (hscope.typed hu.valid) hb hopen hcondition
  obtain ⟨thenEntry, elseEntry, u₂, hbranches, hparted, hu₂⟩ :=
    branches_of_condition frame hlands hbool
  have hkept := hbranches.kept frame.scope
  refine ⟨thenEntry, elseEntry, u₂, hbranches, fun onTrue u₃ onFalse u₄ hTrue hFalse hty => ?_⟩
  -- each branch goes on from the state that the one before left
  have hscope₂ := hlands.scope.mono hkept.steady hkept.context.ir
  have hlandsTrue := process_lands hu₂ hscope₂ hparted.inTrue hparted.openTrue hTrue
  have hpartedTrue := hparted.leads hlandsTrue.leads
  have hlandsFalse := process_lands hlandsTrue.reachable hlandsTrue.scope hpartedTrue.inFalse
    hpartedTrue.openFalse hFalse
  have hpartedBoth := (hpartedTrue.swap.leads hlandsFalse.leads).swap
  have htypedTrue := hlandsTrue.typed.mono hlandsFalse.kept.steady hlandsFalse.kept.context.ir
  -- the parts were processed on their own, and give the same results below the form
  have hrun : process frame b node u = (do
      let (onTrue, onFalse) ← unifyOwnership node onTrue onFalse
      merge frame node onTrue onFalse) u₄ := by
    have hlimit₂ : u₂.maxExpansions = u.maxExpansions := hkept.limit.trans hlands.kept.limit
    have hlimit₃ := hlandsTrue.kept.limit.trans hlimit₂
    have hlt := arguments_lt hcore hforest
    have hsubTrue := parts_of_process (hlt thenNode (by simp)) hTrue
    have hsubFalse := parts_of_process (hlt elseNode (by simp)) hFalse
    rw [hlimit₂] at hsubTrue
    rw [hlimit₃] at hsubFalse
    exact (process_core hcore).trans (conditional_run
      (parts_of_process (hlt conditionNode (by simp)) hcondition) hbool hbranches hsubTrue hsubFalse
      hty)
  have hsucceeds : ¬ LacksCopy u₄.context onTrue onFalse → ∃ onTrue' onFalse' m r u',
      process frame b node u = .ok r u' ∧
      Unifies u₄.context onTrue onFalse u₄.context.ir onTrue' onFalse' m ∧
      Merges frame onTrue' onFalse' (u₄.withIr m) r u' ∧
      onTrue'.borrowed = r.borrowed ∧ onFalse'.borrowed = r.borrowed := by
    intro hlacks
    obtain ⟨onTrue', onFalse', m, hunify, hunifies, hparted', htyped, htyped'⟩ :=
      unifyOwnership_lands hlandsFalse.reachable.valid htypedTrue hlandsFalse.typed
        hty hpartedBoth node hlacks
    obtain ⟨halike, htyTrue, htyFalse, hblockTrue, hblockFalse⟩ := hunifies.alike
    rw [← hblockTrue, ← hblockFalse] at hparted'
    obtain ⟨r, u', hmerge, hmerges⟩ := merge_lands (u := u₄.withIr m) frame node
      htyped htyped' (by rw [htyTrue, htyFalse, hty]) hparted'
    have hborrowed : r.borrowed = onTrue'.borrowed := by cases hmerges <;> rfl
    exact ⟨onTrue', onFalse', m, r, u', hrun.trans ((bind_run hunify).trans hmerge), hunifies,
      hmerges, hborrowed.symm, by rw [hborrowed, halike]⟩
  refine ⟨⟨fun hfails => ?_, fun hlacks => ?_⟩, hsucceeds⟩
  · by_contra hlacks
    obtain ⟨_, _, _, _, _, hok, -⟩ := hsucceeds hlacks
    obtain ⟨_, -, herror⟩ := hfails
    cases hok.symm.trans herror
  · exact .of_run hrun (.bind (unifyOwnership_fails hty hlacks))

/-- The unit with the forms `(def destroy (fn extern void ((v (p bool)))))`,
`(def setf-copy-assign (fn extern void ((v (p bool)) (w (p bool)))))` and
`(def use (fn extern void ((x bool))))` after all of them were processed, with a block for the last
function, and the form `(if true true x)`. -/
def flagUnit : Compilation Unit :=
  let u := [12, 18, 24].foldl (fun u node => final (Lower.processTopLevel ⟨node⟩) u)
    { forest := ⟨#[⟨.token ⟨.symbol, ⟨1⟩⟩, .dummy⟩, ⟨.token ⟨.symbol, ⟨2⟩⟩, .dummy⟩,
        ⟨.token ⟨.symbol, ⟨3⟩⟩, .dummy⟩, ⟨.token ⟨.symbol, ⟨4⟩⟩, .dummy⟩,
        ⟨.token ⟨.symbol, ⟨5⟩⟩, .dummy⟩, ⟨.token ⟨.symbol, ⟨6⟩⟩, .dummy⟩,
        ⟨.token ⟨.symbol, ⟨7⟩⟩, .dummy⟩, ⟨.token ⟨.symbol, ⟨8⟩⟩, .dummy⟩,
        ⟨.list [⟨6⟩, ⟨7⟩], .dummy⟩, ⟨.list [⟨5⟩, ⟨8⟩], .dummy⟩, ⟨.list [⟨9⟩], .dummy⟩,
        ⟨.list [⟨2⟩, ⟨3⟩, ⟨4⟩, ⟨10⟩], .dummy⟩, ⟨.list [⟨0⟩, ⟨1⟩, ⟨11⟩], .dummy⟩,
        ⟨.token ⟨.symbol, ⟨9⟩⟩, .dummy⟩, ⟨.token ⟨.symbol, ⟨10⟩⟩, .dummy⟩,
        ⟨.list [⟨14⟩, ⟨8⟩], .dummy⟩, ⟨.list [⟨9⟩, ⟨15⟩], .dummy⟩,
        ⟨.list [⟨2⟩, ⟨3⟩, ⟨4⟩, ⟨16⟩], .dummy⟩, ⟨.list [⟨0⟩, ⟨13⟩, ⟨17⟩], .dummy⟩,
        ⟨.token ⟨.symbol, ⟨11⟩⟩, .dummy⟩, ⟨.token ⟨.symbol, ⟨12⟩⟩, .dummy⟩,
        ⟨.list [⟨20⟩, ⟨7⟩], .dummy⟩, ⟨.list [⟨21⟩], .dummy⟩,
        ⟨.list [⟨2⟩, ⟨3⟩, ⟨4⟩, ⟨22⟩], .dummy⟩, ⟨.list [⟨0⟩, ⟨19⟩, ⟨23⟩], .dummy⟩,
        ⟨.token ⟨.symbol, ⟨13⟩⟩, .dummy⟩, ⟨.token ⟨.symbol, ⟨14⟩⟩, .dummy⟩,
        ⟨.list [⟨25⟩, ⟨26⟩, ⟨26⟩, ⟨20⟩], .dummy⟩],
        ⟨#["", "def", "destroy", "fn", "extern", "void", "v", "p", "bool", "setf-copy-assign", "w",
          "use", "x", "if", "true"]⟩⟩
      context := .start .standard
      memory := ()
      expander := .none
      maxExpansions := 128 }
  u.withContext (u.context.withIr (Ir.Module.appendBlock ⟨2⟩ "entry" u.context.ir).2)

/-- The function with the parameter `x`. -/
def flagFrame : Frame := ⟨⟨2⟩, ⟨[("x", ⟨.bool, .value ⟨3⟩⟩)]⟩⟩

/-- The truth value is owned and `x` is borrowed, so `x` is copied, and the result is owned. -/
theorem conditional_flagUnit :
    ∃ onFalse m m' v r u', process flagFrame ⟨0⟩ ⟨27⟩ flagUnit = .ok r u' ∧
      Copied onFalse ⟨1⟩ ⟨3⟩ v m m' ∧ r.ty = .bool ∧ r.borrowed = false := by
  have hreachable : Reachable flagUnit :=
    .emit (.of_ir (Ir.Module.appendBlock_extends _ _ _))
      (.topLevel ⟨24⟩ (.topLevel ⟨18⟩ (.topLevel ⟨12⟩ (.forest _ (.start .standard .none ())))))
  have hscope : flagFrame.scope.Represented flagUnit.context := by
    intro name v hv
    rw [flagFrame, Scope.lookup?, List.lookup_cons] at hv
    split at hv
    next =>
      cases hv
      have hbool : flagUnit.context.Backs .bool (flagUnit.context.ir.valueType ⟨3⟩) :=
        .primitive (p := .bool) (by decide +kernel) (by decide +kernel)
      exact .value (by decide +kernel) ⟨by decide +kernel, hbool.backendType⟩
    next => cases hv
  have htrueSymbol : flagUnit.forest.symbol? ⟨26⟩ = some "true" := by decide +kernel
  have hxSymbol : flagUnit.forest.symbol? ⟨20⟩ = some "x" := by decide +kernel
  have htrue : ∀ (b : Ir.BlockId) (c : Context), ∃ v c',
      process flagFrame b ⟨26⟩ (flagUnit.withContext c) =
        .ok (.new b .bool v) (flagUnit.withContext c') := fun b c =>
    ⟨_, _, (process_symbol (u := flagUnit.withContext c) htrueSymbol).trans rfl⟩
  have hx : ∀ (b : Ir.BlockId) (c : Context),
      process flagFrame b ⟨20⟩ (flagUnit.withContext c) =
        .ok (Result.new b .bool ⟨3⟩).ownedElsewhere (flagUnit.withContext c) := fun b c =>
    (process_symbol (u := flagUnit.withContext c) hxSymbol).trans rfl
  obtain ⟨v, c, hcondition⟩ := htrue ⟨0⟩ flagUnit.context
  have hcore : flagUnit.IsCore ⟨27⟩ .conditional [⟨26⟩, ⟨26⟩, ⟨20⟩] false :=
    .direct (show _ = some (⟨25⟩ :: _) by decide +kernel) (show _ = some "if" by decide +kernel)
      (by decide) (by decide) (by decide +kernel)
  obtain ⟨thenEntry, elseEntry, u₂, hbranches, hbranch⟩ := process_conditional hreachable
    (by decide +kernel) hscope (by decide +kernel) (by decide +kernel) hcore hcondition rfl
  have hkept := hbranches.kept flagFrame.scope
  obtain ⟨c₂, rfl⟩ : ∃ c₂, u₂ = flagUnit.withContext c₂ := by
    cases hbranches
    exact ⟨_, rfl⟩
  obtain ⟨w, c₃, hTrue⟩ := htrue thenEntry c₂
  have hwithin : Compilation.Kept flagFrame.scope flagUnit (flagUnit.withContext c₃) :=
    IsTrans.trans _ _ _ ((process_keeps flagFrame.scope _ _ _).ok hcondition)
      (IsTrans.trans _ _ _ hkept ((process_keeps flagFrame.scope _ _ _).ok hTrue))
  have hdestructor : c₃.destructor? .bool = some ⟨0⟩ :=
    (Context.destructor?_of_within hreachable.valid hwithin.context hwithin.context.pool.grown
      .bool).trans (by decide +kernel)
  have hcopy : c₃.pointerFunction? Context.copyAssignName .bool 2 = some ⟨1⟩ :=
    (Context.pointerFunction?_of_within hreachable.valid hwithin.context hwithin.context.pool.grown
      Context.copyAssignName .bool 1).trans (by decide +kernel)
  have howns : c₃.ownsResources .bool = true := by
    simp [Context.ownsResources, Context.ownsResourcesBelow, hdestructor]
  have hsome : ¬ LacksCopy c₃ (.new thenEntry .bool w)
      (Result.new elseEntry .bool ⟨3⟩).ownedElsewhere := by
    rintro ⟨-, -, hnone⟩
    cases hcopy.symm.trans hnone
  obtain ⟨onTrue', onFalse', m, r, u', hrun, hunifies, hmerges, -, hborrowed⟩ :=
    (hbranch _ _ _ _ hTrue (hx elseEntry c₃) rfl).2 hsome
  have hty : r.ty = onTrue'.ty := by cases hmerges <;> rfl
  cases hunifies with
  | same same => cases same
  | free _ owns => cases howns.symm.trans owns
  | copyTrue isBorrowed => cases isBorrowed
  | copyFalse _ _ _ function copied =>
    cases hcopy.symm.trans function
    exact ⟨elseEntry, _, m, _, r, u', hrun, copied, hty, hborrowed.symm⟩

end Lower

end FormCompiler
