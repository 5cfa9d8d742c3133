import FormCompiler.Proofs.Ir.Flow
import FormCompiler.Proofs.Lower.Typing

/-!
# Plain Units

A unit is plain if it has no macros and no function in scope that cleans up or copies values. In a
plain unit dropping a result takes nothing, and the code for an expression leads from the block it
is given to the block of its result (`Lowers.leads`).
-/

namespace FormCompiler

/-- The block that code goes on in. -/
def Output.block : Output → Ir.BlockId
  | .one r => r.block
  | .many _ b => b

/-- There are no macros, and no function cleans up or copies values. -/
structure Compilation.Plain {σ : Type} (u : Compilation σ) : Prop where
  noMacros : u.expander = .none
  noDestructors : u.context.hasFunction Context.destroyName = false
  noCopies : u.context.hasFunction Context.copyAssignName = false

/-- What was plain stays so. -/
theorem Compilation.Kept.plain {σ : Type} {s : Scope} {u u' : Compilation σ}
    (h : Compilation.Kept s u u') (hu : u.Plain) : u'.Plain where
  noMacros := h.expander.trans hu.noMacros
  noDestructors := by rw [h.context.hasFunction, hu.noDestructors]
  noCopies := by rw [h.context.hasFunction, hu.noCopies]

namespace Context

variable {c : Context}

/-- A name without functions has no overload. -/
theorem lookupFunction?_of_hasFunction {name : String} (h : c.hasFunction name = false)
    (arguments : List TypeId) : c.lookupFunction? name arguments = none := by
  rw [lookupFunction?, List.findSome?_eq_none_iff]
  intro ns hns
  rw [hasFunction, List.any_eq_false] at h
  have hnone := h ns hns
  rw [Namespace.hasFunction, Bool.not_eq_true, Array.any_eq_false'] at hnone
  rw [Namespace.overload?, Array.find?_eq_none]
  intro f hf hname
  rw [Bool.and_eq_true] at hname
  exact hnone f hf hname.1

/-- A name without functions has none that takes pointers. -/
theorem pointerFunction?_of_hasFunction {name : String} (h : c.hasFunction name = false)
    (t : TypeId) (count : Nat) : c.pointerFunction? name t count = none := by
  unfold pointerFunction?
  split
  next => rw [lookupFunction?_of_hasFunction h, Option.map_none]
  next => rfl

section

variable (h : c.hasFunction destroyName = false)

include h

/-- Without functions that clean up no type has a destructor. -/
theorem destructor?_of_hasFunction (t : TypeId) : c.destructor? t = none := by
  rw [destructor?, pointerFunction?_of_hasFunction h, ite_self]

/-- Without functions that clean up no type owns resources. -/
theorem ownsResourcesBelow_of_hasFunction (bound : Nat) (t : TypeId) :
    c.ownsResourcesBelow bound t = false := by
  induction bound generalizing t with
  | zero => rfl
  | succ bound ih =>
    rw [ownsResourcesBelow, destructor?_of_hasFunction h, Option.isSome_none, Bool.false_or]
    split
    next s _ => exact List.any_eq_false.2 fun member _ => by rw [ih]; decide
    next => rfl

/-- Without functions that clean up no member is cleaned up. -/
theorem cleanUpMembers_of_hasFunction
    (cleanUp : Ir.BlockId → TypeId → Ir.ValueId → Check Ir.BlockId) (aggregate : Ir.ValueId)
    (b : Ir.BlockId) (index : Nat) (members : List TypeId) :
    cleanUpMembers cleanUp aggregate b index members c = .ok b c := by
  induction members generalizing index with
  | nil => rfl
  | cons member members ih =>
    have howns : c.ownsResources member = false := ownsResourcesBelow_of_hasFunction h _ _
    rw [cleanUpMembers_skip howns]
    exact ih (index + 1)

/-- Without functions that clean up dropping a result changes nothing. -/
theorem destruct_of_hasFunction (r : Result) : destruct r c = .ok r c := by
  have hdestructor := destructor?_of_hasFunction h r.ty
  refine destruct_of_cleanUp ?_
  cases hs : c.structOfType? r.ty with
  | some s =>
    rw [cleanUpBelow_of_struct hdestructor hs]
    exact cleanUpMembers_of_hasFunction h _ _ _ _ _
  | none => exact cleanUpBelow_of_no_struct hdestructor hs _ _ _

end

end Context

namespace Lower

variable {σ : Type} {u u' : Compilation σ} {b b' : Ir.BlockId} {node : NodeId} {r : Result}

/-- Dropping a result of a plain unit changes nothing. -/
theorem Dropped.of_plain {es : List Event} (h : Dropped r u es u' b') (hu : u.Plain) :
    u' = u ∧ b' = r.block := by
  have hrun := Context.destruct_of_hasFunction hu.noDestructors r
  cases h with
  | idle run same =>
    rw [hrun] at run
    cases run
    exact ⟨rfl, rfl⟩
  | cleaned run differ =>
    rw [hrun] at run
    cases run
    exact absurd rfl differ

/-- Dropping results of a plain unit changes nothing. -/
theorem DroppedAll.of_plain {rs : List Result} {es : List Event}
    (h : DroppedAll rs u b es u' b') (hu : u.Plain) : u' = u ∧ b' = b := by
  induction h with
  | nil => exact ⟨rfl, rfl⟩
  | cons first rest ih =>
    obtain ⟨rfl, rfl⟩ := first.of_plain hu
    exact ih hu

/-- In a plain unit nothing is copied to its destination. -/
theorem copyAssign?_of_plain (hu : u.Plain) (destTy : TypeId) :
    copyAssign? u.context r destTy = none := by
  unfold copyAssign?
  split
  next =>
    split
    next => rw [Context.lookupFunction?_of_hasFunction hu.noCopies, Option.map_none]
    next => rfl
  next => rfl

/-- A plain unit has no expander to offer a node to. -/
theorem offer_of_plain {answer : Expansion} (hu : u.Plain)
    (h : offer node u = .ok answer u') : answer = .notApplicable ∧ u' = u := by
  obtain ⟨forest, context, memory, expander, limit⟩ := u
  have hnone : expander = .none := hu.noMacros
  subst hnone
  cases h
  exact ⟨rfl, rfl⟩

/-- Branches of a plain unit get the same ownership by their marks. -/
theorem unifyOwnership_of_plain {onTrue onFalse onTrue' onFalse' : Result} (hu : u.Plain)
    (h : unifyOwnership node onTrue onFalse u = .ok (onTrue', onFalse') u') :
    u' = u ∧ ∃ borrowed, onTrue' = { onTrue with borrowed } ∧
      onFalse' = { onFalse with borrowed } := by
  rcases unifyOwnership_ok h with ⟨hsame, borrowed, hTrue, hFalse, -⟩ | ⟨howns, -⟩
  · exact ⟨hsame, borrowed, hTrue, hFalse⟩
  · rw [Context.ownsResources, Context.ownsResourcesBelow_of_hasFunction hu.noDestructors] at howns
    cases howns

/-! ## Where code leads -/

variable {frame : Frame}

/-- A constant takes no code. -/
theorem IsConstant.leads {kind : Ir.ValueKind} {t : TypeId} (h : IsConstant kind b t r u u')
    (hb : b.index < u.context.ir.blocks.size) (hopen : u.context.ir.isTerminated b = false) :
    Ir.Module.Leads b u.context.ir r.block u'.context.ir := by
  rw [h.result]
  exact .of_still h.fresh.still hb hopen

/-- Going on to a new block from two others closes these. -/
theorem join_ok {first second target : Ir.BlockId} {m m' : Ir.Module}
    (h : join first second target m = .ok ⟨⟩ m') :
    ∃ m₁, Ir.Module.Closed first (.br target) m m₁ ∧
      Ir.Module.Closed second (.br target) m₁ m' := by
  obtain ⟨_, m₁, hfirst, hsecond⟩ := bind_ok_iff.1 h
  exact ⟨m₁, (Ir.Module.br_ends _ _ _).of_ok hfirst, (Ir.Module.br_ends _ _ _).of_ok hsecond⟩

/-- Branches that lead to two blocks are merged in a third one. -/
theorem merge_leads {onTrue onFalse : Result} {thenEntry elseEntry : Ir.BlockId}
    {m m₁ m₂ : Ir.Module} (hforked : Ir.Module.Forked b m m₁ thenEntry elseEntry)
    (hTrue : Ir.Module.Leads thenEntry m₁ onTrue.block m₂)
    (hFalse : Ir.Module.Leads elseEntry m₂ onFalse.block u.context.ir)
    (h : merge frame node onTrue onFalse u = .ok r u') :
    Ir.Module.Leads b m r.block u'.context.ir := by
  obtain ⟨target, v, m₃, ir, happend, hjoin, rfl, hvalue⟩ := merge_ok h
  obtain ⟨m₄, hclosed, hclosed'⟩ := join_ok hjoin
  have hmerged := (hforked.merged hTrue hFalse happend hclosed hclosed').1
  split at hvalue
  next =>
    obtain ⟨ty, -, hfresh⟩ := voidValue_fresh hvalue
    exact hmerged.still hfresh.still
  next =>
    obtain ⟨ir', hphi, rfl⟩ := hvalue
    exact hmerged.emitted ((Ir.Module.phi_ends _ _ _).of_ok hphi).1

/-- In a plain unit the code of an expression leads from the block it is given to that of its
result. -/
theorem Lowers.leads {task : Task} {es : List Event} {out : Output}
    (h : Lowers frame u b task es u' out) (hu : u.Settled frame.scope) (hplain : u.Plain)
    (hb : b.index < u.context.ir.blocks.size) (hopen : u.context.ir.isTerminated b = false) :
    Ir.Module.Leads b u.context.ir out.block u'.context.ir := by
  induction h with
  | integer kind run =>
    obtain ⟨_, _, -, -, hconstant⟩ := integerToken_ok hu.valid run
    exact hconstant.leads hb hopen
  | float kind run =>
    obtain ⟨_, -, hconstant⟩ := floatToken_ok hu.valid run
    exact hconstant.leads hb hopen
  | string kind run => exact (stringToken_ok hu.valid run).leads hb hopen
  | truth value symbol run => exact (truthValue_ok hu.valid run).leads hb hopen
  | value symbol notTrue notFalse lookup => exact .refl hb hopen
  | slot symbol notTrue notFalse lookup load =>
    exact .of_emitted ((Ir.Module.load_ends _ _ _).of_ok load).1 hb
  | deref core operand points notVoid load drop ih =>
    obtain ⟨rfl, rfl⟩ := drop.of_plain
      ((kept_withIr frame.scope ((Ir.Module.load_keeps _ _).ok load)).plain
        (operand.kept.plain hplain))
    exact (ih hu hplain hb hopen).emitted ((Ir.Module.load_ends _ _ _).of_ok load).1
  | addressOfDeref core deref inner points notVoid drop ih =>
    obtain ⟨rfl, rfl⟩ := drop.of_plain (inner.kept.plain hplain)
    exact ih hu hplain hb hopen
  | addressOf core notDeref inner hasAddress hasType ih => exact ih hu hplain hb hopen
  | assignCopy core destination points assigned copy call dropValue dropDest run ih ih₁ =>
    -- in a plain unit no type copies itself
    rw [copyAssign?_of_plain (assigned.kept.plain (destination.kept.plain hplain))] at copy
    cases copy
  | assignMove core destination points assigned noCopy store dropDest run ih ih₁ =>
    have hlead := ih hu hplain hb hopen
    have hlead₁ := ih₁ (destination.kept.settled hu) (destination.kept.plain hplain)
      hlead.inTable hlead.isOpen
    have hstore := kept_withIr frame.scope ((Ir.Module.store_keeps _ _ _).ok store)
    have hkept := IsTrans.trans _ _ _ destination.kept (IsTrans.trans _ _ _ assigned.kept hstore)
    obtain ⟨rfl, rfl⟩ := dropDest.of_plain (hkept.plain hplain)
    have hemitted := ((Ir.Module.store_ends _ _ _ _).of_ok store).1
    have hlead₂ := (hlead.trans hlead₁).emitted hemitted
    exact hlead₂.trans ((truthValue_ok (hkept.settled hu).valid run).leads hlead₂.inTable
      hlead₂.isOpen)
  | sequence core forms ih => exact ih hu hplain hb hopen
  | last form ih => exact ih hu hplain hb hopen
  | next form drop forms ih ih₁ =>
    obtain ⟨rfl, rfl⟩ := drop.of_plain (form.kept.plain hplain)
    have hlead := ih hu hplain hb hopen
    exact hlead.trans (ih₁ (form.kept.settled hu) (form.kept.plain hplain) hlead.inTable
      hlead.isOpen)
  | conditional core test isBool drop appendThen appendElse branch thenForm elseForm sameType unify
      merge ih ih₁ ih₂ =>
    obtain ⟨rfl, rfl⟩ := drop.of_plain (test.kept.plain hplain)
    have hlead := ih hu hplain hb hopen
    -- the test leaves a fork, from which the branches go on one after the other
    have hforked := Ir.Module.Forked.of_closed hlead.inTable appendThen appendElse
      ((Ir.Module.condBr_ends _ _ _ _ _).of_ok branch)
    have hkept := IsTrans.trans _ _ _ test.kept
      (branch_kept (s := frame.scope) appendThen appendElse branch)
    have hTrue := ih₁ (hkept.settled hu) (hkept.plain hplain)
      hforked.lt_onTrue hforked.openTrue
    have hkept₁ := IsTrans.trans _ _ _ hkept thenForm.kept
    obtain ⟨hlt, hopen'⟩ := hforked.ready_onFalse hTrue
    have hFalse := ih₂ (hkept₁.settled hu) (hkept₁.plain hplain) hlt hopen'
    obtain ⟨rfl, borrowed, rfl, rfl⟩ := unifyOwnership_of_plain
      (elseForm.kept.plain (hkept₁.plain hplain)) unify
    exact hlead.trans (merge_leads hforked (by exact hTrue) (by exact hFalse) merge)
  | call isCall offer arguments lookup call result drop ih =>
    obtain ⟨-, rfl⟩ := offer_of_plain hplain offer
    have hlead := (ih hu hplain hb hopen).emitted ((Ir.Module.call_ends _ _ _ _).of_ok call).1
    obtain ⟨rfl, rfl⟩ := drop.of_plain
      ((call_kept (s := frame.scope) call result).plain (arguments.kept.plain hplain))
    rcases result with ⟨-, rfl⟩ | ⟨-, hvoid⟩
    · exact hlead
    · obtain ⟨ty, -, hfresh⟩ := voidValue_fresh hvoid
      exact hlead.still hfresh.still
  | expanded isCall offer form ih =>
    obtain ⟨hanswer, -⟩ := offer_of_plain hplain offer
    cases hanswer
  | none => exact .refl hb hopen
  | more form arguments ih ih₁ =>
    have hlead := ih hu hplain hb hopen
    exact hlead.trans (ih₁ (form.kept.settled hu) (form.kept.plain hplain) hlead.inTable
      hlead.isOpen)

end Lower

end FormCompiler
