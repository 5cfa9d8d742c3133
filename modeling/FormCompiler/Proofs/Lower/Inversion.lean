import FormCompiler.Proofs.Lower.Growth

/-!
# What a Handler That Succeeded Has Done

One lemma for each handler: if it gave a result, then its parts did, in this order, and this is how
the result is made of theirs. The handlers emit code through `emit`, `onState` and `drop`, which are
taken apart first.
-/

namespace FormCompiler

namespace Compilation

variable {σ : Type}

/-- The node is a core form with these arguments. -/
inductive IsCore (u : Compilation σ) (node : NodeId) (form : CoreForm) :
    List NodeId → (marked : Bool) → Prop
  | direct {head : NodeId} {arguments : List NodeId} {name : String}
      (items : u.forest.items? node = some (head :: arguments))
      (symbol : u.forest.symbol? head = some name) (word : CoreForm.ofName? name = some form)
      (plain : form ≠ .core) (free : u.context.hasFunction name = false) :
      IsCore u node form arguments false
  | marked {mark head : NodeId} {arguments : List NodeId} {markName name : String}
      (items : u.forest.items? node = some (mark :: head :: arguments))
      (mark : u.forest.symbol? mark = some markName)
      (markWord : CoreForm.ofName? markName = some .core)
      (symbol : u.forest.symbol? head = some name) (word : CoreForm.ofName? name = some form)
      (plain : form ≠ .core) : IsCore u node form arguments true

/-- The node is a form that reads through a pointer, and no function shadows it. -/
def IsDeref (u : Compilation σ) (node : NodeId) (arguments : List NodeId) : Prop :=
  ∃ head name, u.forest.items? node = some (head :: arguments) ∧
    u.forest.symbol? head = some name ∧ CoreForm.ofName? name = some .deref ∧
    u.context.hasFunction name = false

/-- The node is a call, or a macro call, of a name. -/
def IsCall (u : Compilation σ) (node : NodeId) (name : String) (arguments : List NodeId) :
    Prop :=
  ∃ head, u.forest.items? node = some (head :: arguments) ∧
    u.forest.symbol? head = some name ∧ CoreForm.ofName? name ≠ some .core ∧
    (CoreForm.ofName? name = none ∨ u.context.hasFunction name = true)

end Compilation

namespace Lower

variable {σ α : Type} {u u' : Compilation σ} {a : α}

/-- A step on the context gave a result. -/
theorem onContext_ok_iff {step : Check α} :
    onContext step u = .ok a u' ↔ ∃ c, step u.context = .ok a c ∧ u' = u.withContext c := by
  unfold onContext
  dsimp only
  cases hstep : step u.context with
  | ok a' c =>
    constructor
    · intro h
      cases h
      exact ⟨c, rfl, rfl⟩
    · rintro ⟨c', hc', rfl⟩
      cases hc'
      rfl
  | error e c =>
    constructor
    · intro h
      cases h
    · rintro ⟨c', hc', -⟩
      cases hc'

/-- A step on the context that never stops. -/
theorem onState_ok_iff {step : StateM Context α} :
    onState step u = .ok a u' ↔ (step u.context).1 = a ∧
      u' = u.withContext (step u.context).2 := by
  rw [onState, onContext_ok_iff]
  constructor
  · rintro ⟨c, hc, rfl⟩
    cases hc
    exact ⟨rfl, rfl⟩
  · rintro ⟨rfl, rfl⟩
    exact ⟨_, rfl, rfl⟩

/-- A step on the module that never stops. -/
theorem onModule_ok_iff {step : StateM Ir.Module α} :
    onModule step u = .ok a u' ↔ (step u.context.ir).1 = a ∧
      u' = u.withIr (step u.context.ir).2 := onState_ok_iff

/-- The unit was read. -/
theorem read_ok_iff {f : Compilation σ → α} :
    (fun u => .ok (f u) u : Lower σ α) u = .ok a u' ↔ f u = a ∧ u = u' := by
  simp

/-- The items of a node were read. -/
theorem items?_ok_iff {node : NodeId} {items : Option (List NodeId)} :
    items? node u = .ok items u' ↔ u.forest.items? node = items ∧ u = u' :=
  read_ok_iff (f := fun u => u.forest.items? node)

/-- The symbol of a node was read. -/
theorem symbol?_ok_iff {node : NodeId} {name : Option String} :
    symbol? node u = .ok name u' ↔ u.forest.symbol? node = name ∧ u = u' :=
  read_ok_iff (f := fun u => u.forest.symbol? node)

/-- What stops with a report gives no result. -/
theorem fail_ok_iff {d : Diagnostic} : (fail d : Lower σ α) u = .ok a u' ↔ False := by
  rw [fail, onContext_ok_iff, iff_false]
  rintro ⟨c, hc, -⟩
  cases hc

/-- An operation on the module was accepted. -/
theorem emit_ok_iff {node : NodeId} {op : Ir.Build α} :
    emit node op u = .ok a u' ↔ ∃ ir, op u.context.ir = .ok a ir ∧ u' = u.withIr ir := by
  change onContext (Context.emit _ op) u = _ ↔ _
  rw [onContext_ok_iff]
  simp only [Context.emit, Context.emitOr, bind, EStateM.bind, Context.always,
    Context.attempt_run]
  cases hop : op u.context.ir with
  | ok a' ir =>
    constructor
    · rintro ⟨c, hc, rfl⟩
      cases hc
      exact ⟨ir, rfl, rfl⟩
    · rintro ⟨ir', hir, rfl⟩
      cases hir
      exact ⟨_, rfl, rfl⟩
  | error e ir =>
    constructor
    · rintro ⟨c, hc, -⟩
      cases hc
    · rintro ⟨ir', hir, -⟩
      cases hir

/-- A result was dropped. -/
theorem drop_ok_iff {r : Result} {b : Ir.BlockId} :
    drop r u = .ok b u' ↔ ∃ r' c, Context.destruct r u.context = .ok r' c ∧ b = r'.block ∧
      u' = u.withContext c := by
  unfold drop
  rw [bind_ok_iff]
  constructor
  · rintro ⟨r', u₁, h₁, h₂⟩
    obtain ⟨c, hc, rfl⟩ := onContext_ok_iff.1 h₁
    obtain ⟨rfl, rfl⟩ := pure_ok_iff.1 h₂
    exact ⟨r', c, hc, rfl, rfl⟩
  · rintro ⟨r', c, hc, rfl, rfl⟩
    exact ⟨r', _, onContext_ok_iff.2 ⟨c, hc, rfl⟩, rfl⟩

/-- A result is a pointer. -/
theorem expectPointee_ok {r : Result} {node : NodeId} {pointee : TypeId}
    (h : expectPointee r node u = .ok pointee u') :
    u.context.pool.pointee? r.ty = some pointee ∧ u = u' := by
  unfold expectPointee at h
  obtain ⟨c, u₁, h₁, h₂⟩ := bind_ok_iff.1 h
  obtain ⟨rfl, rfl⟩ := read_ok_iff.1 h₁
  cases hpointee : u.context.pool.pointee? r.ty with
  | some found =>
    rw [hpointee] at h₂
    obtain ⟨rfl, rfl⟩ := pure_ok_iff.1 h₂
    exact ⟨rfl, rfl⟩
  | none =>
    rw [hpointee] at h₂
    simp only [bind_ok_iff, fail_ok_iff, and_false, exists_false] at h₂

/-- The node is a form that reads through a pointer and that no function shadows, or it is not. -/
theorem derefArguments?_ok {node : NodeId} {inner : Option (List NodeId)}
    (h : derefArguments? node u = .ok inner u') :
    u = u' ∧ match inner with
      | some arguments => u.IsDeref node arguments
      | none => ∀ arguments, ¬ u.IsDeref node arguments := by
  unfold derefArguments? at h
  obtain ⟨items?, u₁, h₁, h⟩ := bind_ok_iff.1 h
  obtain ⟨hitems, rfl⟩ := items?_ok_iff.1 h₁
  split at h
  next head arguments =>
    obtain ⟨name?, u₁, h₁, h⟩ := bind_ok_iff.1 h
    obtain ⟨hname, rfl⟩ := symbol?_ok_iff.1 h₁
    split at h
    next name =>
      obtain ⟨c, u₁, h₁, h⟩ := bind_ok_iff.1 h
      obtain ⟨rfl, rfl⟩ := read_ok_iff.1 h₁
      split at h
      next hderef =>
        obtain ⟨rfl, rfl⟩ := pure_ok_iff.1 h
        exact ⟨rfl, head, name, hitems, hname, hderef⟩
      next hderef =>
        obtain ⟨rfl, rfl⟩ := pure_ok_iff.1 h
        refine ⟨rfl, ?_⟩
        -- the head that a dereference would have is the one that was read
        rintro arguments' ⟨head', name', hitems', hname', hderef'⟩
        rw [hitems] at hitems'
        cases hitems'
        rw [hname] at hname'
        cases hname'
        exact hderef hderef'
    next =>
      obtain ⟨rfl, rfl⟩ := pure_ok_iff.1 h
      refine ⟨rfl, ?_⟩
      rintro arguments' ⟨head', name', hitems', hname', -⟩
      rw [hitems] at hitems'
      cases hitems'
      rw [hname] at hname'
      cases hname'
  next hnone =>
    obtain ⟨rfl, rfl⟩ := pure_ok_iff.1 h
    refine ⟨rfl, ?_⟩
    rintro arguments' ⟨head', name', hitems', -⟩
    rw [hitems] at hitems'
    exact hnone head' arguments' hitems'

/-- What the expander answered, if that was no failure. -/
theorem tryExpand_ok {left : Nat} {node : NodeId} {expansion : Option NodeId}
    (h : tryExpand left node u = .ok expansion u') :
    offer node u = .ok (expansion.elim .notApplicable .expanded) u' := by
  unfold tryExpand at h
  split at h
  next =>
    simp only [bind_ok_iff, fail_ok_iff, and_false, exists_false] at h
  next =>
    obtain ⟨answer, u₁, h₁, h⟩ := bind_ok_iff.1 h
    cases answer with
    | expanded result =>
      obtain ⟨rfl, rfl⟩ := pure_ok_iff.1 h
      exact h₁
    | notApplicable =>
      obtain ⟨rfl, rfl⟩ := pure_ok_iff.1 h
      exact h₁
    | failed detail => simp only [bind_ok_iff, fail_ok_iff, and_false, exists_false] at h

section

variable {sub : Sub σ} {b : Ir.BlockId} {node : NodeId} {r : Result}

/-- A form that reads through a pointer, or takes it as it is, gave a result. -/
theorem dereference_ok {arguments : List NodeId} {addressOnly marked : Bool}
    (h : dereference sub b node arguments addressOnly marked u = .ok r u') :
    ∃ argument pointer pointee u₁ b', arguments = [argument] ∧
      sub b argument u = .ok pointer u₁ ∧
      u₁.context.pool.pointee? pointer.ty = some pointee ∧
      u₁.context.pool.isVoid pointee = false ∧
      if addressOnly then
        drop pointer u₁ = .ok b' u' ∧
          r = { Result.new b' pointer.ty pointer.value with noCopy := marked }
      else
        ∃ v ir, Ir.Module.load pointer.block pointer.value u₁.context.ir = .ok v ir ∧
          drop pointer (u₁.withIr ir) = .ok b' u' ∧
          r = { ((Result.new b' pointee v).withLvalue pointer.value pointer.ty).ownedElsewhere with
            noCopy := marked } := by
  unfold dereference at h
  split at h
  next argument =>
    obtain ⟨pointer, u₁, h₁, h⟩ := bind_ok_iff.1 h
    obtain ⟨pointee, u₂, h₂, h⟩ := bind_ok_iff.1 h
    obtain ⟨hpointee, rfl⟩ := expectPointee_ok h₂
    obtain ⟨c, u₂, h₂, h⟩ := bind_ok_iff.1 h
    obtain ⟨rfl, rfl⟩ := read_ok_iff.1 h₂
    split at h
    next => simp only [bind_ok_iff, fail_ok_iff, and_false, exists_false] at h
    next hvoid =>
      refine ⟨argument, pointer, pointee, u₁, ?_⟩
      dsimp only at h
      -- only the value is loaded; the address is the pointer as it is
      cases addressOnly with
      | true =>
        obtain ⟨r', u₂, h₂, h⟩ := bind_ok_iff.1 h
        obtain ⟨rfl, rfl⟩ := pure_ok_iff.1 h₂
        obtain ⟨b', u₂, h₂, h⟩ := bind_ok_iff.1 h
        obtain ⟨rfl, rfl⟩ := pure_ok_iff.1 h
        exact ⟨b', rfl, h₁, hpointee, by simpa using hvoid, h₂, rfl⟩
      | false =>
        obtain ⟨v, u₂, h₂, h⟩ := bind_ok_iff.1 h
        obtain ⟨ir, hload, rfl⟩ := emit_ok_iff.1 h₂
        obtain ⟨r', u₂, h₂, h⟩ := bind_ok_iff.1 h
        obtain ⟨rfl, rfl⟩ := pure_ok_iff.1 h₂
        obtain ⟨b', u₂, h₂, h⟩ := bind_ok_iff.1 h
        obtain ⟨rfl, rfl⟩ := pure_ok_iff.1 h
        exact ⟨b', rfl, h₁, hpointee, by simpa using hvoid, v, ir, hload, h₂, rfl⟩
  next => simp only [bind_ok_iff, fail_ok_iff, and_false, exists_false] at h

/-- A borrowed result was copied. -/
theorem copyBorrowed_ok {copied : Result} (h : copyBorrowed node r u = .ok copied u') :
    ∃ copy ty v u₁ ir, u.context.pointerFunction? Context.copyAssignName r.ty 2 = some copy ∧
      onState (Context.backendType r.ty) u = .ok ty u₁ ∧
      copyInstrs r.block ty r.value copy u₁.context.ir = .ok v ir ∧ u' = u₁.withIr ir ∧
      copied = .new r.block r.ty v := by
  unfold copyBorrowed at h
  obtain ⟨c, u₁, h₁, h⟩ := bind_ok_iff.1 h
  obtain ⟨rfl, rfl⟩ := read_ok_iff.1 h₁
  cases hcopy : u.context.pointerFunction? Context.copyAssignName r.ty 2 with
  | none =>
    rw [hcopy] at h
    simp only [bind_ok_iff, fail_ok_iff, and_false, exists_false] at h
  | some copy =>
    rw [hcopy] at h
    obtain ⟨ty, u₁, h₁, h⟩ := bind_ok_iff.1 h
    obtain ⟨v, u₂, h₂, h⟩ := bind_ok_iff.1 h
    obtain ⟨ir, hop, rfl⟩ := emit_ok_iff.1 h₂
    obtain ⟨rfl, rfl⟩ := pure_ok_iff.1 h
    exact ⟨copy, ty, v, u₁, ir, rfl, h₁, hop, rfl, rfl⟩

/-- The results of two branches got the same ownership: only by their marks, or by a copy of the
borrowed one if values of the type own resources. -/
theorem unifyOwnership_ok {onTrue onFalse onTrue' onFalse' : Result}
    (h : unifyOwnership node onTrue onFalse u = .ok (onTrue', onFalse') u') :
    (u' = u ∧ ∃ borrowed, onTrue' = { onTrue with borrowed } ∧
        onFalse' = { onFalse with borrowed } ∧
        (borrowed = false → onTrue.borrowed = false ∧ onFalse.borrowed = false)) ∨
      u.context.ownsResources onTrue.ty = true ∧
        ((copyBorrowed node onTrue u = .ok onTrue' u' ∧ onFalse' = onFalse ∧
            onFalse.borrowed = false) ∨
          copyBorrowed node onFalse u = .ok onFalse' u' ∧ onTrue' = onTrue ∧
            onTrue.borrowed = false) := by
  unfold unifyOwnership at h
  split at h
  next hsame =>
    obtain ⟨heq, rfl⟩ := pure_ok_iff.1 h
    cases heq
    exact .inl ⟨rfl, onTrue.borrowed, rfl, by rw [hsame], fun hb => ⟨hb, by rw [← hsame, hb]⟩⟩
  next hdiffer =>
    obtain ⟨c, u₁, h₁, h⟩ := bind_ok_iff.1 h
    obtain ⟨rfl, rfl⟩ := read_ok_iff.1 h₁
    split at h
    next =>
      obtain ⟨heq, rfl⟩ := pure_ok_iff.1 h
      cases heq
      exact .inl ⟨rfl, true, rfl, rfl, fun hb => absurd hb (by decide)⟩
    -- the borrowed result is the one that is copied, and the other is owned because they differ
    next howns =>
      refine .inr ⟨by simpa using howns, ?_⟩
      split at h
      next hborrowed =>
        obtain ⟨copied, u₁, h₁, h⟩ := bind_ok_iff.1 h
        obtain ⟨heq, rfl⟩ := pure_ok_iff.1 h
        cases heq
        refine .inl ⟨h₁, rfl, ?_⟩
        rw [hborrowed] at hdiffer
        simpa using Ne.symm hdiffer
      next hborrowed =>
        obtain ⟨copied, u₁, h₁, h⟩ := bind_ok_iff.1 h
        obtain ⟨heq, rfl⟩ := pure_ok_iff.1 h
        cases heq
        exact .inr ⟨h₁, rfl, by simpa using hborrowed⟩

/-- The results of two branches were merged. -/
theorem merge_ok {frame : Frame} {onTrue onFalse : Result}
    (h : merge frame node onTrue onFalse u = .ok r u') :
    ∃ target v m ir, Ir.Module.appendBlock frame.func "merge" u.context.ir = (target, m) ∧
      join onTrue.block onFalse.block target m = .ok ⟨⟩ ir ∧
      r = ⟨onTrue.ty, v, target, false, none, none, false, onTrue.borrowed⟩ ∧
      if u.context.pool.isVoid onTrue.ty then
        onState Context.voidValue (u.withIr ir) = .ok v u'
      else
        ∃ ir', Ir.Module.phi target
          [(onTrue.value, onTrue.block), (onFalse.value, onFalse.block)] ir = .ok v ir' ∧
            u' = u.withIr ir' := by
  unfold merge at h
  obtain ⟨target, u₁, h₁, h⟩ := bind_ok_iff.1 h
  obtain ⟨rfl, rfl⟩ := onModule_ok_iff.1 h₁
  obtain ⟨_, u₂, h₂, h⟩ := bind_ok_iff.1 h
  obtain ⟨ir, hjoin, rfl⟩ := emit_ok_iff.1 h₂
  obtain ⟨c, u₂, h₂, h⟩ := bind_ok_iff.1 h
  obtain ⟨rfl, rfl⟩ := read_ok_iff.1 h₂
  split at h
  next hvoid =>
    obtain ⟨v, u₂, h₂, h⟩ := bind_ok_iff.1 h
    obtain ⟨rfl, rfl⟩ := pure_ok_iff.1 h
    refine ⟨_, v, _, ir, rfl, hjoin, rfl, ?_⟩
    rw [if_pos (show u.context.pool.isVoid onTrue.ty = true from hvoid)]
    exact h₂
  next hvoid =>
    obtain ⟨v, u₂, h₂, h⟩ := bind_ok_iff.1 h
    obtain ⟨ir', hphi, rfl⟩ := emit_ok_iff.1 h₂
    obtain ⟨rfl, rfl⟩ := pure_ok_iff.1 h
    refine ⟨_, v, _, ir, rfl, hjoin, rfl, ?_⟩
    rw [if_neg (show ¬ u.context.pool.isVoid onTrue.ty = true from hvoid)]
    exact ⟨ir', hphi, rfl⟩

end

end Lower

end FormCompiler
