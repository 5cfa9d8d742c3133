import FormCompiler.Proofs.PointerForms
import FormCompiler.Proofs.Reachable

/-!
# Discipline of Cleanup

Whether the drops in the processing of an expression, and that of its result, clean up a value once
at most and no value that is owned elsewhere: one bound to a variable, or read from a slot or
through a pointer.

They do for every value but those exposed by `(# (@ pointer))`, whose result owns the pointer though
the pointer was dropped already. So discipline holds of all expressions exactly if no pointer to a
value has a destructor in scope, or `@` is shadowed (`disciplined_iff`).
-/

namespace FormCompiler

/-- The value is that of a variable. -/
def Scope.Binds (s : Scope) (v : Ir.ValueId) : Prop :=
  ∃ name ty, s.lookup? name = some ⟨ty, .value v⟩

/-- A value is cleaned up once at most, and not at all if it is owned elsewhere. -/
def Disciplined (s : Scope) (es : List Event) (v : Ir.ValueId) : Prop :=
  es.count (.cleaned v) ≤ 1 ∧ (.cleaned v ∈ es → .read v ∉ es ∧ ¬ s.Binds v)

/-- Pointers to some type of values have a destructor in scope, and `@` reads through them. -/
def Context.HandsOnOwned (c : Context) : Prop :=
  c.hasFunction "@" = false ∧ ∃ t pointee, c.pool.pointee? t = some pointee ∧
    c.pool.isVoid pointee = false ∧ (c.destructor? t).isSome = true

/-- The node is the form `(core # (@ name))`. -/
def Forest.IsMarkedAddress (f : Forest) (node : NodeId) (name : String) : Prop :=
  ∃ mark head operand inner p, f.kind node = .list [mark, head, operand] ∧
    f.symbol? mark = some "core" ∧ f.symbol? head = some "#" ∧
    f.items? operand = some [inner, p] ∧ f.symbol? inner = some "@" ∧ f.symbol? p = some name

namespace Lower

open Compilation

variable {σ : Type} {u u' : Compilation σ} {frame : Frame} {b : Ir.BlockId} {node : NodeId}
  {r : Result} {es : List Event}

/-- The events of dropping a result, whether that succeeds or not. -/
inductive DropEvents (r : Result) (u : Compilation σ) : List Event → Prop
  | idle (same : (final (Context.destruct r) u.context).ir.blocks = u.context.ir.blocks) :
      DropEvents r u []
  | cleaned (differ : (final (Context.destruct r) u.context).ir.blocks ≠ u.context.ir.blocks) :
      DropEvents r u [.cleaned r.value]

/-- The events of processing an expression with success and dropping its result. -/
inductive EventsOf (frame : Frame) (b : Ir.BlockId) (node : NodeId) (u : Compilation σ) :
    List Event → Prop
  | intro {r : Result} {u' : Compilation σ} {es es' : List Event}
      (run : process frame b node u = .ok r u')
      (derivation : Lowers frame u b (.form node) es u' (.one r)) (drop : DropEvents r u' es') :
      EventsOf frame b node u (es ++ es')

/-- Every expression that is processed with success in a typed scope, from an open block, cleans up
with discipline. -/
def AllDisciplined (u : Compilation σ) : Prop :=
  ∀ frame b node es, frame.scope.Typed u.context → b.index < u.context.ir.blocks.size →
    u.context.ir.isTerminated b = false → EventsOf frame b node u es →
      ∀ v, Disciplined frame.scope es v

/-- Every expression that is processed with success has its events. -/
theorem exists_eventsOf (h : process frame b node u = .ok r u') :
    ∃ es, EventsOf frame b node u es := by
  obtain ⟨es, hes⟩ := process_lowers h
  by_cases same : (final (Context.destruct r) u'.context).ir.blocks = u'.context.ir.blocks
  · exact ⟨_, .intro h hes (.idle same)⟩
  · exact ⟨_, .intro h hes (.cleaned same)⟩

/-! ## Values that are not exposed -/

/-- What dropping may clean up. -/
theorem DropEvents.events (h : DropEvents r u es) :
    es = [] ∨ es = [.cleaned r.value] ∧ r.borrowed = false ∧ ¬ u.context.Inert r.ty := by
  cases h with
  | idle => exact .inl rfl
  | cleaned differ =>
    refine .inr ⟨rfl, ?_, fun hinert => ?_⟩
    · cases hborrowed : r.borrowed with
      | false => rfl
      | true =>
        rw [final, Context.destruct_of_borrowed hborrowed] at differ
        exact absurd rfl differ
    · rw [final, Context.destruct_of_inert hinert] at differ
      exact absurd rfl differ

/-- The values of the variables of a typed scope are in the table. -/
theorem lt_of_binds {c : Context} {s : Scope} (hs : s.Typed c) {v : Ir.ValueId}
    (hv : s.Binds v) : v.index < c.ir.values.size := by
  obtain ⟨name, ty, hlookup⟩ := hv
  cases hs _ _ hlookup with
  | value inTable => exact inTable

/-- Only a value that was exposed is cleaned up twice or though it is owned elsewhere. -/
theorem EventsOf.disciplined (hu : u.Settled frame.scope) (h : EventsOf frame b node u es)
    {v : Ir.ValueId} (hv : .exposed v ∉ es) : Disciplined frame.scope es v := by
  cases h with
  | @intro r u' es es' run derivation drop =>
    obtain ⟨hes, hr⟩ := derivation.sparing hu
    have hall : Sparing u.context.ir.values.size u'.context.ir.values.size (es ++ es') := by
      rcases drop.events with rfl | ⟨rfl, hborrowed, hinert⟩
      · rwa [List.append_nil]
      · exact hes.clean hr hborrowed hinert
    refine ⟨hall.once v hv, fun hcleaned => ⟨fun hread => hall.spared v hv hread hcleaned,
      fun hbinds => ?_⟩⟩
    exact absurd (hall.within v hv (.inr hcleaned)).1
      (Nat.not_le.2 (lt_of_binds hu.scope hbinds))

/-! ## Where nothing is exposed -/

/-- The core form that reads through a pointer has one name. -/
theorem ofName?_eq_deref {name : String} (h : CoreForm.ofName? name = some .deref) :
    name = "@" := by
  have hname := List.find?_some h
  exact (eq_of_beq hname).symm

/-- Whether pointers are handed on with ownership is settled by the declarations. -/
theorem handsOnOwned_of_within {P : Pool → Pool → Prop} {R : Ir.Module → Ir.Module → Prop}
    {c c' : Context} (hc : c.Valid) (h : c.Within P R c') (hpool : c.pool.Extends c'.pool)
    (h' : c'.HandsOnOwned) : c.HandsOnOwned := by
  obtain ⟨hname, t, pointee, hpointee, hvoid, hdestructor⟩ := h'
  rw [h.hasFunction] at hname
  rw [Context.destructor?_of_within hc h hpool] at hdestructor
  -- A type with a destructor is in the pool already, and so is what it points to.
  have ht : t.index < c.pool.types.size := by
    by_contra hge
    have hisVoid : c.pool.isVoid t = true := by
      rw [Pool.isVoid, Pool.type_of_ge (Nat.le_of_not_lt hge)]
      rfl
    rw [Context.destructor?, if_pos hisVoid] at hdestructor
    cases hdestructor
  rw [Pool.pointee?, hpool.type ht] at hpointee
  have htype := Pool.getElem?_of_pointee? hpointee
  have hlt := Nat.lt_trans (hc.pool.pointees _ _ htype) ht
  refine ⟨hname, t, pointee, hpointee, ?_, hdestructor⟩
  rwa [Pool.isVoid, hpool.type hlt, ← Pool.isVoid] at hvoid

/-- Pointers are not handed on with ownership later either. -/
theorem not_handsOnOwned_of_kept (h : Compilation.Kept frame.scope u u')
    (hu : u.Settled frame.scope) (hnot : ¬ u.context.HandsOnOwned) :
    ¬ u'.context.HandsOnOwned := fun h' =>
  hnot (handsOnOwned_of_within hu.valid h.context h.context.pool.grown h')

/-- Dropping exposes nothing. -/
theorem Dropped.exposed_not_mem {b' : Ir.BlockId} (h : Dropped r u es u' b') (v : Ir.ValueId) :
    .exposed v ∉ es := by
  rcases h.events with rfl | ⟨rfl, -, -⟩ <;> simp

/-- Dropping several results exposes nothing. -/
theorem DroppedAll.exposed_not_mem {rs : List Result} {b' : Ir.BlockId}
    (h : DroppedAll rs u b es u' b') (v : Ir.ValueId) : .exposed v ∉ es := by
  induction h with
  | nil => exact List.not_mem_nil
  | cons first _ ih =>
    rw [List.mem_append, not_or]
    exact ⟨first.exposed_not_mem v, ih⟩

/-- Nothing is exposed unless pointers are handed on with ownership. -/
theorem Lowers.exposed_not_mem {task : Task} {out : Output}
    (h : Lowers frame u b task es u' out) (hu : u.Settled frame.scope)
    (hnot : ¬ u.context.HandsOnOwned) (v : Ir.ValueId) : .exposed v ∉ es := by
  induction h with
  | integer => exact List.not_mem_nil
  | float => exact List.not_mem_nil
  | string => exact List.not_mem_nil
  | truth => exact List.not_mem_nil
  | value => exact List.not_mem_nil
  | slot => simp
  | deref _ _ _ _ _ drop ih =>
    have hdrop := drop.exposed_not_mem v
    simp [ih hu hnot, hdrop]
  | @addressOfDeref u u₁ _ _ _ _ _ _ _ _ _ pointer pointee _ deref inner points notVoid drop ih =>
    have hkept := inner.kept
    -- this is the one rule that exposes a value: a dereference whose pointee has a destructor,
    -- which is what handing on with ownership means
    have hexposure : .exposed v ∉ exposure u₁.context pointer := by
      unfold exposure
      split
      next hdestructor =>
        obtain ⟨head, name, -, -, hword, hfree⟩ := deref
        rw [ofName?_eq_deref hword, ← hkept.context.hasFunction] at hfree
        exact absurd ⟨hfree, _, _, points, notVoid, hdestructor⟩
          (not_handsOnOwned_of_kept hkept hu hnot)
      next => exact List.not_mem_nil
    rw [List.mem_append, List.mem_append, not_or, not_or]
    exact ⟨⟨ih hu hnot, drop.exposed_not_mem v⟩, hexposure⟩
  | addressOf _ _ _ _ _ ih => exact ih hu hnot
  | assignCopy _ destination _ assigned _ _ dropValue dropDest _ ih ih₁ =>
    have hkept := destination.kept
    simp only [List.mem_append, not_or]
    exact ⟨⟨⟨ih hu hnot, ih₁ (hkept.settled hu) (not_handsOnOwned_of_kept hkept hu hnot)⟩,
      dropValue.exposed_not_mem v⟩, dropDest.exposed_not_mem v⟩
  -- each part is lowered in a later context, where pointers are still not handed on
  | assignMove _ destination _ assigned _ _ dropDest _ ih ih₁ =>
    have hkept := destination.kept
    simp only [List.mem_append, not_or]
    exact ⟨⟨ih hu hnot, ih₁ (hkept.settled hu) (not_handsOnOwned_of_kept hkept hu hnot)⟩,
      dropDest.exposed_not_mem v⟩
  | sequence _ _ ih => exact ih hu hnot
  | last _ ih => exact ih hu hnot
  | next form drop forms ih ih₁ =>
    have hkept := IsTrans.trans _ _ _ form.kept (drop.kept frame.scope)
    simp only [List.mem_append, not_or]
    exact ⟨⟨ih hu hnot, drop.exposed_not_mem v⟩,
      ih₁ (hkept.settled hu) (not_handsOnOwned_of_kept hkept hu hnot)⟩
  | conditional _ test _ drop appendThen appendElse branch thenForm elseForm _ _ _ ih ih₁ ih₂ =>
    have hkept := IsTrans.trans _ _ _ test.kept (IsTrans.trans _ _ _ (drop.kept frame.scope)
      (branch_kept appendThen appendElse branch))
    have hkept₁ := IsTrans.trans _ _ _ hkept thenForm.kept
    simp only [List.mem_append, not_or]
    exact ⟨⟨⟨ih hu hnot, drop.exposed_not_mem v⟩,
      ih₁ (hkept.settled hu) (not_handsOnOwned_of_kept hkept hu hnot)⟩,
      ih₂ (hkept₁.settled hu) (not_handsOnOwned_of_kept hkept₁ hu hnot)⟩
  | call _ offer arguments _ _ _ drop ih =>
    have hkept : Compilation.Kept frame.scope _ _ := (offer_keeps _).ok offer
    simp only [List.mem_append, not_or]
    exact ⟨ih (hkept.settled hu) (not_handsOnOwned_of_kept hkept hu hnot),
      drop.exposed_not_mem v⟩
  | expanded _ offer _ ih =>
    have hkept : Compilation.Kept frame.scope _ _ := (offer_keeps _).ok offer
    exact ih (hkept.settled hu) (not_handsOnOwned_of_kept hkept hu hnot)
  | none => exact List.not_mem_nil
  | more form _ ih ih₁ =>
    have hkept := form.kept
    simp only [List.mem_append, not_or]
    exact ⟨ih hu hnot, ih₁ (hkept.settled hu) (not_handsOnOwned_of_kept hkept hu hnot)⟩

/-- Where pointers are not handed on with ownership, all cleanup is disciplined. -/
theorem allDisciplined (hu : u.context.Valid) (hnot : ¬ u.context.HandsOnOwned) :
    AllDisciplined u := by
  intro frame b node es hscope _ _ hes v
  have hsettled : u.Settled frame.scope := ⟨hu, hscope⟩
  refine hes.disciplined hsettled ?_
  cases hes with
  | intro run derivation drop =>
    have hafter := drop.events
    rw [List.mem_append, not_or]
    refine ⟨derivation.exposed_not_mem hsettled hnot v, ?_⟩
    rcases hafter with rfl | ⟨rfl, -, -⟩ <;> simp

/-! ## A pointer that is exposed -/

/-- Calling a destructor emits code in an open block, even if the call is refused. -/
theorem callDestructor_ends {m : Ir.Module} (hopen : m.isTerminated b = false)
    (hb : b.index < m.blocks.size) (ty : Ir.TyId) (v : Ir.ValueId) (destructor : Ir.FuncId) :
    Ends (Context.callDestructor b ty v destructor) m (fun _ m' => m'.blocks ≠ m.blocks)
      fun m' => m'.blocks ≠ m.blocks := by
  refine (Ir.Module.alloca_accepted ty hopen).andThen (fun _ h => h.elim) fun slot m₁ hslot => ?_
  have hlonger : ∀ m₂, m₁.Extends m₂ → m₂.blocks ≠ m.blocks := by
    intro m₂ hextends heq
    have hsize := (hextends.block b (by rwa [hslot.1.size_blocks])).instrs.size_le
    rw [hslot.1.block_self hb, Ir.Module.block, Ir.Module.block, heq, Array.size_push] at hsize
    exact absurd hsize (Nat.not_succ_le_self _)
  have hrest : Keeps Ir.Module.Extends (do
      Ir.Module.store b v slot
      let _ ← Ir.Module.call b destructor [slot] : Ir.Build PUnit) :=
    .bind (Ir.Module.store_keeps b v slot) fun _ =>
      .bind (Ir.Module.call_keeps b destructor [slot]) fun _ => .pure _
  exact (hrest.ends m₁).mono (fun _ _ h => hlonger _ h) fun _ h => hlonger _ h

/-- Dropping an owned value of a type with a destructor emits code, from an open block. -/
theorem destruct_blocks_ne {c : Context} (hborrowed : r.borrowed = false)
    (hdestructor : (c.destructor? r.ty).isSome = true)
    (hopen : c.ir.isTerminated r.block = false) (hb : r.block.index < c.ir.blocks.size) :
    (final (Context.destruct r) c).ir.blocks ≠ c.ir.blocks := by
  obtain ⟨destructor, hdestructor⟩ := Option.isSome_iff_exists.1 hdestructor
  have hends : Ends (Context.destruct r) c (fun _ c' => c'.ir.blocks ≠ c.ir.blocks)
      fun c' => c'.ir.blocks ≠ c.ir.blocks := by
    unfold Context.destruct
    rw [if_neg (by simp [hborrowed])]
    refine Ends.bind (P := fun _ c' => c'.ir.blocks ≠ c.ir.blocks) ?_ fun _ _ h => .pure h
    unfold Context.cleanUpBelow
    refine .next rfl ?_
    rw [hdestructor]
    refine (Context.always_ends _ _).andThen (fun _ h => h.elim) fun ty c₁ hty => ?_
    have hwithin := Context.backendType_moves r.ty c
    rw [hty] at hwithin
    have hcall := callDestructor_ends (m := c₁.ir) (by rwa [hwithin.ir.isTerminated])
      (by rwa [hwithin.ir.blocks]) ty r.value destructor
    rw [hwithin.ir.blocks] at hcall
    refine (Context.emitOr_ends Context.cleanupRefused hcall).andThen ?_ ?_
    · rintro _ ⟨ir, queue, rfl, hir⟩
      exact hir
    · rintro _ _ ⟨ir, rfl, hir⟩
      exact .pure hir
  exact hends.final

/-- Taking the address of what a variable points to gives the variable's value, as an owned one. -/
theorem process_markedAddress {name : String} {t pointee : TypeId} {v : Ir.ValueId}
    (hnode : u.forest.IsMarkedAddress node name) (hindex : 0 < node.index)
    (htrue : name ≠ "true") (hfalse : name ≠ "false") (hfree : u.context.hasFunction "@" = false)
    (hlookup : frame.scope.lookup? name = some ⟨t, .value v⟩)
    (hpointee : u.context.pool.pointee? t = some pointee)
    (hvoid : u.context.pool.isVoid pointee = false) :
    process frame b node u = .ok (.new b t v) u := by
  obtain ⟨mark, head, operand, inner, p, hkind, hmark, hhead, hoperand, hinner, hp⟩ := hnode
  have hcore : u.IsCore node .addressOf [operand] true :=
    .marked (by rw [Forest.items?, hkind]) hmark (by decide) hhead (by decide) (by decide)
  have hderef : u.IsDeref operand [p] := ⟨inner, "@", hoperand, hinner, by decide, hfree⟩
  -- the recursion goes down by index, so there is some left for the variable
  obtain ⟨bound, hbound⟩ := Nat.exists_eq_succ_of_ne_zero (Nat.ne_zero_of_lt hindex)
  have hvalue : parts frame u.maxExpansions node.index b p u =
      .ok (Result.new b t v).ownedElsewhere u := by
    rw [hbound, parts_symbol hp]
    unfold symbolToken variableRead
    rw [if_neg htrue, if_neg hfalse, hlookup]
    rfl
  -- the value is owned by the variable, so it is not dropped on the way
  have hkept : Context.destruct (Result.new b t v).ownedElsewhere u.context =
      .ok (Result.new b t v).ownedElsewhere u.context :=
    Context.destruct_of_borrowed rfl u.context
  rw [process_core hcore]
  exact (addressOf_deref node hderef).trans
    (dereference_handsOn false hvalue hpointee hvoid hkept)

/-- If the pointer has a destructor, dropping that result cleans up the variable's value. -/
theorem eventsOf_markedAddress (name : String) {t pointee : TypeId} {v : Ir.ValueId}
    (hnode : u.forest.IsMarkedAddress node name) (hindex : 0 < node.index)
    (htrue : name ≠ "true") (hfalse : name ≠ "false") (hfree : u.context.hasFunction "@" = false)
    (hlookup : frame.scope.lookup? name = some ⟨t, .value v⟩)
    (hpointee : u.context.pool.pointee? t = some pointee)
    (hvoid : u.context.pool.isVoid pointee = false)
    (hdestructor : (u.context.destructor? t).isSome = true)
    (hopen : u.context.ir.isTerminated b = false) (hb : b.index < u.context.ir.blocks.size) :
    EventsOf frame b node u [.exposed v, .cleaned v] := by
  have hrun := process_markedAddress (b := b) hnode hindex htrue hfalse hfree hlookup hpointee hvoid
  obtain ⟨mark, head, operand, inner, p, hkind, hmark, hhead, hoperand, hinner, hp⟩ := hnode
  have hcore : u.IsCore node .addressOf [operand] true :=
    .marked (by rw [Forest.items?, hkind]) hmark (by decide) hhead (by decide) (by decide)
  have hderef : u.IsDeref operand [p] := ⟨inner, "@", hoperand, hinner, by decide, hfree⟩
  have hvalue : Lowers frame u b (.form p) [] u (.one (Result.new b t v).ownedElsewhere) :=
    .value hp htrue hfalse hlookup
  have hdrop : Dropped (Result.new b t v).ownedElsewhere u [] u b :=
    .idle (Context.destruct_of_borrowed rfl u.context) rfl
  have hlowers := Lowers.addressOfDeref hcore hderef hvalue hpointee hvoid hdrop
  have hexposure : exposure u.context (Result.new b t v).ownedElsewhere = [.exposed v] :=
    if_pos hdestructor
  rw [hexposure] at hlowers
  have hcleaned : DropEvents (.new b t v) u [.cleaned v] :=
    .cleaned (destruct_blocks_ne rfl hdestructor hopen hb)
  exact .intro hrun hlowers hcleaned

/-- The forest of the form `(core # (@ p))`. -/
def markedAddressForest : Forest :=
  ⟨#[⟨.token ⟨.symbol, ⟨1⟩⟩, .dummy⟩, ⟨.token ⟨.symbol, ⟨2⟩⟩, .dummy⟩,
    ⟨.token ⟨.symbol, ⟨3⟩⟩, .dummy⟩, ⟨.token ⟨.symbol, ⟨4⟩⟩, .dummy⟩, ⟨.list [⟨2⟩, ⟨3⟩], .dummy⟩,
    ⟨.list [⟨0⟩, ⟨1⟩, ⟨4⟩], .dummy⟩], ⟨#["", "core", "#", "@", "p"]⟩⟩

/-- Where pointers are handed on with ownership, a caller that adds a value and a block to the
module can have cleanup without discipline. -/
theorem exists_undisciplined (hu : u.context.Valid) (hands : u.context.HandsOnOwned) :
    ∃ c, u.context.Within (· = ·) Ir.Module.Extends c ∧
      ¬ AllDisciplined { u.withContext c with forest := markedAddressForest } := by
  obtain ⟨hfree, t, pointee, hpointee, hvoid, hdestructor⟩ := hands
  obtain ⟨destructor, hfunction⟩ := Option.isSome_iff_exists.1 hdestructor
  obtain ⟨-, ty, -, hbacks, -⟩ := hu.destructor_param hfunction
  -- the caller's value is a pointer whose pointee has a destructor, and its block is one of the
  -- destructor's own function
  obtain ⟨hstill, hv, hvalue⟩ := Ir.Module.newValue_spec ty .undefined u.context.ir
  generalize hm : (Ir.Module.newValue ty .undefined u.context.ir).2 = m at hstill hvalue
  generalize hid : (Ir.Module.newValue ty .undefined u.context.ir).1 = v at hv
  have happend := Ir.Module.appendBlock_extends m destructor "entry"
  have hblock := Ir.Module.appendBlock_block_self m destructor "entry"
  have hsize := Ir.Module.appendBlock_size m destructor "entry"
  generalize hm' : (Ir.Module.appendBlock destructor "entry" m).2 = m' at happend hblock hsize
  have hextends : u.context.ir.Extends m' := hstill.toExtends.trans happend
  have hwithin : u.context.Within (· = ·) Ir.Module.Extends (u.context.withIr m') := .of_ir hextends
  refine ⟨u.context.withIr m', hwithin, fun hall => ?_⟩
  have hvalue' : m'.values[v.index]? = some ⟨ty, .undefined⟩ := by
    rw [hv]
    exact happend.values.getElem?_some hvalue
  have hsteady : u.context.Steady (u.context.withIr m') := .of_ir hextends
  -- the caller gives the value the name of a variable
  have hscope : (⟨[("p", ⟨t, .value v⟩)]⟩ : Scope).Typed (u.context.withIr m') := by
    intro name var hlookup
    rw [Scope.lookup?, List.lookup_cons] at hlookup
    split at hlookup
    next =>
      cases hlookup
      refine .value (Array.getElem?_eq_some_iff.1 hvalue').1 ?_
      change (u.context.withIr m').Backs t (m'.valueType v)
      rw [Ir.Module.valueType_of_getElem? hvalue']
      exact hbacks.mono hsteady
    next => cases hlookup
  have hopen : m'.isTerminated ⟨m.blocks.size⟩ = false := by
    rw [Ir.Module.isTerminated, hblock]
    rfl
  have hb : m.blocks.size < m'.blocks.size := by
    rw [hsize]
    exact Nat.lt_succ_self _
  have hevents : EventsOf ⟨destructor, ⟨[("p", ⟨t, .value v⟩)]⟩⟩ ⟨m.blocks.size⟩ ⟨5⟩
      { u.withContext (u.context.withIr m') with forest := markedAddressForest }
      [.exposed v, .cleaned v] := by
    refine eventsOf_markedAddress "p" ?_ (by decide) (by decide) (by decide) hfree rfl
      hpointee hvoid hdestructor hopen hb
    exact ⟨⟨0⟩, ⟨1⟩, ⟨4⟩, ⟨2⟩, ⟨3⟩, rfl, rfl, rfl, rfl, rfl, rfl⟩
  -- the lowering exposes the variable's value and cleans it up, which no caller may do to a value
  -- that it still names
  have hdisciplined := hall ⟨destructor, ⟨[("p", ⟨t, .value v⟩)]⟩⟩ _ _ _ hscope hb hopen hevents v
  exact (hdisciplined.2 (by simp)).2 ⟨"p", t, rfl⟩

/-- In every reachable unit each expression that is processed with success has its events, and only
values that it exposes are cleaned up twice or though they are owned elsewhere. All cleanup is
disciplined, whatever the forms and whatever the caller adds to the module, exactly if pointers are
not handed on with ownership. -/
theorem disciplined_iff (hu : Reachable u) :
    (∀ frame b node r u', process frame b node u = .ok r u' →
      ∃ es, EventsOf frame b node u es) ∧
    (∀ frame b node es, frame.scope.Typed u.context → EventsOf frame b node u es →
      ∀ v, .exposed v ∉ es → Disciplined frame.scope es v) ∧
    ((∀ forest c, u.context.Within (· = ·) Ir.Module.Extends c →
        AllDisciplined { u.withContext c with forest }) ↔
      ¬ u.context.HandsOnOwned) := by
  refine ⟨fun frame b node r u' h => exists_eventsOf h,
    fun frame b node es hscope hes v hv => hes.disciplined ⟨hu.valid, hscope⟩ hv,
    fun hall hands => ?_, fun hnot forest c hwithin => ?_⟩
  · obtain ⟨c, hwithin, hundisciplined⟩ := exists_undisciplined hu.valid hands
    exact hundisciplined (hall _ c hwithin)
  · have hvalid : c.Valid := (hu.emit hwithin).valid
    refine allDisciplined hvalid fun hands => ?_
    exact hnot (handsOnOwned_of_within hu.valid hwithin (hwithin.pool ▸ .refl _) hands)

/-- The unit with the form `(def destroy (fn extern void ((x (p (p int))))))` and nothing
declared. -/
def pointerDestructorUnit : Compilation Unit where
  forest := ⟨#[⟨.token ⟨.symbol, ⟨1⟩⟩, .dummy⟩, ⟨.token ⟨.symbol, ⟨2⟩⟩, .dummy⟩,
    ⟨.token ⟨.symbol, ⟨3⟩⟩, .dummy⟩, ⟨.token ⟨.symbol, ⟨4⟩⟩, .dummy⟩,
    ⟨.token ⟨.symbol, ⟨5⟩⟩, .dummy⟩, ⟨.token ⟨.symbol, ⟨6⟩⟩, .dummy⟩,
    ⟨.token ⟨.symbol, ⟨7⟩⟩, .dummy⟩, ⟨.token ⟨.symbol, ⟨8⟩⟩, .dummy⟩, ⟨.list [⟨6⟩, ⟨7⟩], .dummy⟩,
    ⟨.list [⟨6⟩, ⟨8⟩], .dummy⟩, ⟨.list [⟨5⟩, ⟨9⟩], .dummy⟩, ⟨.list [⟨10⟩], .dummy⟩,
    ⟨.list [⟨2⟩, ⟨3⟩, ⟨4⟩, ⟨11⟩], .dummy⟩, ⟨.list [⟨0⟩, ⟨1⟩, ⟨12⟩], .dummy⟩],
    ⟨#["", "def", "destroy", "fn", "extern", "void", "x", "p", "int"]⟩⟩
  context := .start .standard
  memory := ()
  expander := .none
  maxExpansions := 128

/-- With a destructor for pointers in scope, a pointer variable is cleaned up by dropping the
address of what it points to. -/
theorem not_allDisciplined_pointerDestructorUnit :
    Reachable (final (processTopLevel ⟨13⟩) pointerDestructorUnit) ∧
      ¬ ∀ forest c, (final (processTopLevel ⟨13⟩) pointerDestructorUnit).context.Within (· = ·)
          Ir.Module.Extends c →
        AllDisciplined { (final (processTopLevel ⟨13⟩) pointerDestructorUnit).withContext c with
          forest } := by
  have hreachable : Reachable (final (processTopLevel ⟨13⟩) pointerDestructorUnit) :=
    .topLevel ⟨13⟩ (Reachable.forest pointerDestructorUnit.forest (.start .standard .none ()))
  have hands : (final (processTopLevel ⟨13⟩) pointerDestructorUnit).context.HandsOnOwned :=
    ⟨by decide +kernel, ⟨21⟩, .int, by decide +kernel, by decide +kernel, by decide +kernel⟩
  exact ⟨hreachable, fun hall => (disciplined_iff hreachable).2.2.1 hall hands⟩

end Lower

end FormCompiler
