import FormCompiler.Lower.Expression
import FormCompiler.Proofs.Bounds.Forms

/-!
# Expressions Stay in Bounds

Sequences, conditionals and calls with their accesses checked, and the dispatch of forms to their
handlers. Around every form all ids in the unit, in the frame and in the result are checked as well.

`process_passes` is by induction on the number of expansions left and, among forms with the same
number left, on the bound of their ids.
-/

namespace FormCompiler.Lower.Checked

open FormCompiler.Checked (refuse demand free)

variable {σ : Type} {u : Compilation σ} {node : NodeId} {frame : Frame} {b : Ir.BlockId}

/-! ## Sequences and conditionals -/

/-- Processes forms one after the other; every result but the last is dropped. -/
def forms (sub : CheckedSub σ) :
    Ir.BlockId → NodeId → List NodeId → Checked Halt (Compilation σ) Result
  | b, last, [] => sub b last
  | b, form, next :: rest => do
    let r ← sub b form
    let b ← drop r
    forms sub b next rest

theorem forms_passes {g : CheckedSub σ} {x : Sub σ} (hsub : SubPasses frame g x) {first : NodeId}
    {rest : List NodeId} (hframe : frame.InBounds u.context) (hb : u.context.ir.HasBlock b)
    (hfirst : u.forest.Has first) (hrest : ∀ n ∈ rest, u.forest.Has n) :
    Passes (forms g b first rest) (Lower.forms x b first rest) u
      fun r u' => r.InBounds u'.context := by
  induction rest generalizing u b first with
  | nil => exact hsub u b first hframe hb hfirst
  | cons next rest ih =>
    obtain ⟨hnext, hrest⟩ := List.forall_mem_cons.1 hrest
    refine (hsub u b first hframe hb hfirst).bind fun r u₁ hu₁ hr => ?_
    refine (drop_passes hr).bind fun b u₂ hu₂ hb => ?_
    have hu₂' := (hu₁.trans hu₂).grows
    exact ih (hframe.mono hu₂'.context) hb (hu₂'.has hnext) fun n hn => hu₂'.has (hrest n hn)

/-- `(do form...)` yields the value of its last form. -/
def sequence (sub : CheckedSub σ) (b : Ir.BlockId) (node : NodeId) (arguments : List NodeId) :
    Checked Halt (Compilation σ) Result := do
  match arguments with
  | [] => fail (Report.tooFewArguments (← span node) CoreForm.sequence.name 1 0)
  | first :: rest => forms sub b first rest

theorem sequence_passes {g : CheckedSub σ} {x : Sub σ} (hsub : SubPasses frame g x)
    {arguments : List NodeId} (hframe : frame.InBounds u.context)
    (hb : u.context.ir.HasBlock b) (hnode : u.forest.Has node)
    (harguments : ∀ n ∈ arguments, u.forest.Has n) :
    Passes (sequence g b node arguments) (Lower.sequence x b node arguments) u
      fun r u' => r.InBounds u'.context := by
  cases arguments with
  | nil => exact .read (span_reads hnode) fail_passes
  | cons first rest =>
    obtain ⟨hfirst, hrest⟩ := List.forall_mem_cons.1 harguments
    exact forms_passes hsub hframe hb hfirst hrest

/-- The instructions that copy a borrowed value at the end of a block. -/
def copyInstrs (b : Ir.BlockId) (ty : Ir.TyId) (value : Ir.ValueId) (copy : Ir.FuncId) :
    Checked Ir.Error Ir.Module Ir.ValueId := do
  let source ← Ir.Checked.alloca b ty
  Ir.Checked.store b value source
  let fresh ← Ir.Checked.alloca b ty
  let _ ← Ir.Checked.call b copy [fresh, source]
  Ir.Checked.load b fresh

theorem copyInstrs_passes {m : Ir.Module} {ty : Ir.TyId} {value : Ir.ValueId} {copy : Ir.FuncId}
    (hb : m.HasBlock b) (hty : m.HasTy ty) (hvalue : m.HasValue value)
    (hcopy : m.HasFunction copy) :
    Passes (copyInstrs b ty value copy) (Lower.copyInstrs b ty value copy) m
      fun v m' => m'.HasValue v := by
  refine (Ir.Checked.alloca_passes hb hty).bind fun source m₁ hm₁ hsource => ?_
  have hb₁ := hm₁.grows.hasBlock hb
  refine (Ir.Checked.store_passes hb₁ (hm₁.grows.hasValue hvalue) hsource).bind
    fun _ m₂ hm₂ _ => ?_
  have hb₂ := hm₂.grows.hasBlock hb₁
  have hm₂' := hm₁.trans hm₂
  refine (Ir.Checked.alloca_passes hb₂ (hm₂'.grows.hasTy hty)).bind fun fresh m₃ hm₃ hfresh => ?_
  have hb₃ := hm₃.grows.hasBlock hb₂
  have hsource₃ := hm₃.grows.hasValue (hm₂.grows.hasValue hsource)
  refine (Ir.Checked.call_passes hb₃ ((hm₂'.trans hm₃).grows.hasFunction hcopy)
    (by simpa using ⟨hfresh, hsource₃⟩)).bind fun _ m₄ hm₄ _ => ?_
  exact Ir.Checked.load_passes (hm₄.grows.hasBlock hb₃) (hm₄.grows.hasValue hfresh)

/-- An owned copy of a borrowed result, made at the end of its block. -/
def copyBorrowed (node : NodeId) (r : Result) : Checked Halt (Compilation σ) Result := do
  match ← read fun c => Context.Checked.pointerFunction? c Context.copyAssignName r.ty 2 with
  | some copy => do
    let ty ← backendType r.ty
    let v ← emit node (copyInstrs r.block ty r.value copy)
    return .new r.block r.ty v
  | none => fail (Report.branchOwnershipDiffers (← span node) (← typeName r.ty))

theorem copyBorrowed_passes {r : Result} (hr : r.InBounds u.context) (hnode : u.forest.Has node) :
    Passes (copyBorrowed node r) (Lower.copyBorrowed node r) u
      fun r u' => r.InBounds u'.context := by
  refine .given fun hu => ?_
  refine .checkedRead (read_run (Context.Checked.pointerFunction?_eq hu.context _ r.ty 2))
    (.plainRead rfl ?_)
  cases hcopy : u.context.pointerFunction? Context.copyAssignName r.ty 2 with
  | some copy =>
    have hcopy := Context.Checked.hasFunction_pointerFunction hu.context hcopy
    refine (backendType_passes hr.ty).bind fun ty u₁ hu₁ hty => ?_
    have hr₁ := hr.mono hu₁.grows.context
    refine (emit_passes (hu₁.grows.has hnode) (copyInstrs_passes hr₁.block hty hr₁.value
      (hu₁.grows.context.ir.hasFunction hcopy))).bind fun v u₂ hu₂ hv => .pure ?_
    have hr₂ := hr₁.mono hu₂.grows.context
    exact .new hr₂.block hr₂.ty hv
  | none => exact .read (span_reads hnode) (.read (typeName_reads hu hr.ty) fail_passes)

/-- Gives the results of both branches the same ownership. -/
def unifyOwnership (node : NodeId) (onTrue onFalse : Result) :
    Checked Halt (Compilation σ) (Result × Result) := do
  if onTrue.borrowed = onFalse.borrowed then
    return (onTrue, onFalse)
  else if (← read fun c => Context.Checked.ownsResources c onTrue.ty) = false then
    return (onTrue.ownedElsewhere, onFalse.ownedElsewhere)
  else if onTrue.borrowed then
    let copy ← copyBorrowed node onTrue
    return (copy, onFalse)
  else
    let copy ← copyBorrowed node onFalse
    return (onTrue, copy)

theorem unifyOwnership_passes {onTrue onFalse : Result} (htrue : onTrue.InBounds u.context)
    (hfalse : onFalse.InBounds u.context) (hnode : u.forest.Has node) :
    Passes (unifyOwnership node onTrue onFalse) (Lower.unifyOwnership node onTrue onFalse) u
      fun rs u' => rs.1.InBounds u'.context ∧ rs.2.InBounds u'.context := by
  refine .given fun hu => .ite (fun _ => .pure ⟨htrue, hfalse⟩) fun _ => ?_
  refine .checkedRead (read_run (Context.Checked.ownsResources_eq hu.context htrue.ty))
    (.plainRead rfl ?_)
  refine .ite (fun _ => .pure ⟨htrue.ownedElsewhere, hfalse.ownedElsewhere⟩) fun _ => ?_
  refine .ite (fun _ => ?_) fun _ => ?_
  · exact (copyBorrowed_passes htrue hnode).bind fun copy u₁ hu₁ hcopy =>
      .pure ⟨hcopy, hfalse.mono hu₁.grows.context⟩
  · exact (copyBorrowed_passes hfalse hnode).bind fun copy u₁ hu₁ hcopy =>
      .pure ⟨htrue.mono hu₁.grows.context, hcopy⟩

/-- Goes on to a block from two others. -/
def join (first second target : Ir.BlockId) : Checked Ir.Error Ir.Module PUnit := do
  Ir.Checked.br first target
  Ir.Checked.br second target

/-- Merges the results of two branches in a new block. -/
def merge (frame : Frame) (node : NodeId) (onTrue onFalse : Result) :
    Checked Halt (Compilation σ) Result := do
  let target ← onModule (Ir.Checked.appendBlock frame.func "merge")
  emit node (join onTrue.block onFalse.block target)
  let v ←
    if ← isVoid onTrue.ty then
      onContext Context.Checked.voidValue
    else
      emit node (Ir.Checked.phi target
        [(onTrue.value, onTrue.block), (onFalse.value, onFalse.block)])
  return { Result.new target onTrue.ty v with borrowed := onTrue.borrowed }

theorem merge_passes {onTrue onFalse : Result} (hframe : frame.InBounds u.context)
    (htrue : onTrue.InBounds u.context) (hfalse : onFalse.InBounds u.context)
    (hnode : u.forest.Has node) :
    Passes (merge frame node onTrue onFalse) (Lower.merge frame node onTrue onFalse) u
      fun r u' => r.InBounds u'.context := by
  refine (onModule_passes (Ir.Checked.appendBlock_passes "merge" hframe.func)).bind
    fun target u₁ hu₁ htarget => ?_
  have hjoin := (Ir.Checked.br_passes (hu₁.grows.context.ir.hasBlock htrue.block) htarget).bind
    fun _ m hm _ => Ir.Checked.br_passes
      (hm.grows.hasBlock (hu₁.grows.context.ir.hasBlock hfalse.block)) (hm.grows.hasBlock htarget)
  have hnode₁ := hu₁.grows.has hnode
  refine (emit_passes hnode₁ hjoin).bind fun _ u₂ hu₂ _ => ?_
  have hu₂' := (hu₁.trans hu₂).grows.context
  have htarget₂ := hu₂.grows.context.ir.hasBlock htarget
  have htrue₂ := htrue.mono hu₂'
  have hfalse₂ := hfalse.mono hu₂'
  have hmerged : ∀ (v : Ir.ValueId) (u₃ : Compilation σ), Bounds.After u₂ u₃ →
      u₃.context.ir.HasValue v → Result.InBounds u₃.context
        { Result.new target onTrue.ty v with borrowed := onTrue.borrowed } := fun v u₃ hu₃ hv =>
    ⟨hu₃.grows.context.pool.has htrue₂.ty, hv, hu₃.grows.context.ir.hasBlock htarget₂, nofun, nofun⟩
  refine .checkedRead (isVoid_run htrue₂.ty) (.plainRead rfl (.ite (fun _ => ?_) fun _ => ?_))
  · exact (onContext_passes Context.Checked.voidValue_passes).bind fun v u₃ hu₃ hv =>
      .pure (hmerged v u₃ hu₃ hv)
  · refine (emit_passes (hu₂.grows.has hnode₁) (Ir.Checked.phi_passes htarget₂ ?_)).bind
      fun v u₃ hu₃ hv => .pure (hmerged v u₃ hu₃ hv)
    simpa using ⟨⟨htrue₂.value, htrue₂.block⟩, hfalse₂.value, hfalse₂.block⟩

/-- `(if condition then else)`: each branch has a block of its own, and the values merge. -/
def conditional (frame : Frame) (sub : CheckedSub σ) (b : Ir.BlockId) (node : NodeId)
    (arguments : List NodeId) : Checked Halt (Compilation σ) Result := do
  expectCount node CoreForm.conditional.name arguments.length 3
  let conditionNode ← demand (itemAt arguments 0)
  let condition ← sub b conditionNode
  if condition.ty ≠ .bool then
    fail (Report.conditionNotBool (← span conditionNode) (← typeName condition.ty))
  else
    let b ← drop condition
    let thenEntry ← onModule (Ir.Checked.appendBlock frame.func "then")
    let elseEntry ← onModule (Ir.Checked.appendBlock frame.func "else")
    emit node (Ir.Checked.condBr b condition.value thenEntry elseEntry)
    let onTrue ← sub thenEntry (← demand (itemAt arguments 1))
    let onFalse ← sub elseEntry (← demand (itemAt arguments 2))
    if onTrue.ty ≠ onFalse.ty then
      fail (Report.branchTypesDiffer (← span node) (← typeName onTrue.ty)
        (← typeName onFalse.ty))
    else
      let (onTrue, onFalse) ← unifyOwnership node onTrue onFalse
      merge frame node onTrue onFalse

theorem conditional_passes {g : CheckedSub σ} {x : Sub σ} (hsub : SubPasses frame g x)
    {arguments : List NodeId} (hframe : frame.InBounds u.context)
    (hb : u.context.ir.HasBlock b) (hnode : u.forest.Has node)
    (harguments : ∀ n ∈ arguments, u.forest.Has n) :
    Passes (conditional frame g b node arguments) (Lower.conditional frame x b node arguments) u
      fun r u' => r.InBounds u'.context := by
  match arguments with
  | [] | [_] | [_, _] | _ :: _ :: _ :: _ :: _ => exact expect_unmet hnode (by simp)
  | [conditionNode, thenNode, elseNode] =>
    have hconditionNode := harguments conditionNode (by simp)
    have hthenNode := harguments thenNode (by simp)
    have helseNode := harguments elseNode (by simp)
    refine expect_met rfl (.look rfl ?_)
    refine (hsub u b conditionNode hframe hb hconditionNode).bind
      fun condition u₁ hu₁ hcondition => ?_
    refine .ite (fun _ => ?_) fun _ => ?_
    · exact .read (span_reads (hu₁.grows.has hconditionNode))
        (.read (typeName_reads hu₁.inBounds hcondition.ty) fail_passes)
    · refine (drop_passes hcondition).bind fun b u₂ hu₂ hb => ?_
      have hu₂' := hu₁.trans hu₂
      have hframe₂ := hframe.mono hu₂'.grows.context
      refine (onModule_passes (Ir.Checked.appendBlock_passes "then" hframe₂.func)).bind
        fun thenEntry u₃ hu₃ hthen => ?_
      have hframe₃ := hframe₂.mono hu₃.grows.context
      refine (onModule_passes (Ir.Checked.appendBlock_passes "else" hframe₃.func)).bind
        fun elseEntry u₄ hu₄ helse => ?_
      have hu₄' := (hu₂'.trans hu₃).trans hu₄
      have hb₄ := (hu₃.trans hu₄).grows.context.ir.hasBlock hb
      have hvalue₄ := (hcondition.mono ((hu₂.trans hu₃).trans hu₄).grows.context).value
      have hthen₄ := hu₄.grows.context.ir.hasBlock hthen
      refine (emit_passes (hu₄'.grows.has hnode) (Ir.Checked.condBr_passes hb₄ hvalue₄ hthen₄
        helse)).bind fun _ u₅ hu₅ _ => ?_
      have hu₅' := hu₄'.trans hu₅
      have hframe₅ := hframe.mono hu₅'.grows.context
      refine .look rfl ((hsub u₅ thenEntry thenNode hframe₅ (hu₅.grows.context.ir.hasBlock hthen₄)
        (hu₅'.grows.has hthenNode)).bind fun onTrue u₆ hu₆ htrue => ?_)
      have hu₆' := hu₅'.trans hu₆
      have helse₆ := (hu₅.trans hu₆).grows.context.ir.hasBlock helse
      refine .look rfl ((hsub u₆ elseEntry elseNode (hframe₅.mono hu₆.grows.context) helse₆
        (hu₆'.grows.has helseNode)).bind fun onFalse u₇ hu₇ hfalse => ?_)
      have hu₇' := hu₆'.trans hu₇
      have htrue₇ := htrue.mono hu₇.grows.context
      have hnode₇ := hu₇'.grows.has hnode
      refine .ite (fun _ => ?_) fun _ => ?_
      · exact .read (span_reads hnode₇) (.read (typeName_reads hu₇.inBounds htrue₇.ty)
          (.read (typeName_reads hu₇.inBounds hfalse.ty) fail_passes))
      · refine (unifyOwnership_passes htrue₇ hfalse hnode₇).bind fun rs u₈ hu₈ hrs => ?_
        exact merge_passes (hframe.mono (hu₇'.trans hu₈).grows.context) hrs.1 hrs.2
          (hu₈.grows.has hnode₇)

/-! ## Core forms and calls -/

/-- Processes a core form. It is marked if it stands after `core`. -/
def coreForm (frame : Frame) (sub : CheckedSub σ) (b : Ir.BlockId) (node : NodeId)
    (form : CoreForm) (arguments : List NodeId) (marked : Bool) :
    Checked Halt (Compilation σ) Result := do
  match form with
  | .deref => dereference sub b node arguments false marked
  | .addressOf => addressOf sub b node arguments
  | .setf => assignment sub b node arguments
  | .sequence => sequence sub b node arguments
  | .conditional => conditional frame sub b node arguments
  | .core =>
    fail (Report.unexpectedElement (← span node) "core form name" "`core`" CoreForm.core.name)

theorem coreForm_passes {g : CheckedSub σ} {x : Sub σ} (hsub : SubPasses frame g x)
    (form : CoreForm) {arguments : List NodeId} (marked : Bool) (hframe : frame.InBounds u.context)
    (hb : u.context.ir.HasBlock b) (hnode : u.forest.Has node)
    (harguments : ∀ n ∈ arguments, u.forest.Has n) :
    Passes (coreForm frame g b node form arguments marked)
      (Lower.coreForm frame x b node form arguments marked) u
      fun r u' => r.InBounds u'.context := by
  cases form with
  | deref => exact dereference_passes hsub false marked hframe hb hnode harguments
  | addressOf => exact addressOf_passes hsub hframe hb hnode harguments
  | setf => exact assignment_passes hsub hframe hb hnode harguments
  | sequence => exact sequence_passes hsub hframe hb hnode harguments
  | conditional => exact conditional_passes hsub hframe hb hnode harguments
  | core => exact .read (span_reads hnode) fail_passes

/-- `(core form argument...)` is the core form even if a function has its name. -/
def marked (frame : Frame) (sub : CheckedSub σ) (b : Ir.BlockId) (node : NodeId)
    (arguments : List NodeId) : Checked Halt (Compilation σ) Result := do
  let refuse (place : NodeId) : Checked Halt (Compilation σ) Result := do
    fail (Report.unexpectedElement (← span place) "core form name" "`core`" (← display place))
  match arguments.head? with
  | none => refuse node
  | some head => do
    match (← symbol? head).bind CoreForm.ofName? with
    | some form =>
      if form = .core then refuse head
      else coreForm frame sub b node form (← demand (itemsFrom arguments 1)) true
    | none => refuse head

theorem marked_passes {g : CheckedSub σ} {x : Sub σ} (hsub : SubPasses frame g x)
    {arguments : List NodeId} (hframe : frame.InBounds u.context)
    (hb : u.context.ir.HasBlock b) (hnode : u.forest.Has node)
    (harguments : ∀ n ∈ arguments, u.forest.Has n) :
    Passes (marked frame g b node arguments) (Lower.marked frame x b node arguments) u
      fun r u' => r.InBounds u'.context := by
  refine .given fun hu => ?_
  cases arguments with
  | nil => exact .read (span_reads hnode) (.read (display_reads hu hnode) fail_passes)
  | cons head rest =>
    obtain ⟨hhead, hrest⟩ := List.forall_mem_cons.1 harguments
    refine .read (symbol?_reads hu hhead) ?_
    cases (u.forest.symbol? head).bind CoreForm.ofName? with
    | none => exact .read (span_reads hhead) (.read (display_reads hu hhead) fail_passes)
    | some form =>
      refine .ite (fun _ => ?_) fun _ => ?_
      · exact .read (span_reads hhead) (.read (display_reads hu hhead) fail_passes)
      · exact .look itemsFrom_one
          (coreForm_passes hsub form true hframe hb hnode hrest)

/-- Processes arguments from left to right; the block to go on from comes with the results. -/
def arguments (sub : CheckedSub σ) :
    Ir.BlockId → List NodeId → Checked Halt (Compilation σ) (List Result × Ir.BlockId)
  | b, [] => return ([], b)
  | b, node :: nodes => do
    let r ← sub b node
    let (rs, b) ← arguments sub r.block nodes
    return (r :: rs, b)

theorem arguments_passes {g : CheckedSub σ} {x : Sub σ} (hsub : SubPasses frame g x)
    {nodes : List NodeId} (hframe : frame.InBounds u.context) (hb : u.context.ir.HasBlock b)
    (hnodes : ∀ n ∈ nodes, u.forest.Has n) :
    Passes (arguments g b nodes) (Lower.arguments x b nodes) u
      fun found u' => (∀ r ∈ found.1, r.InBounds u'.context) ∧ u'.context.ir.HasBlock found.2 := by
  induction nodes generalizing u b with
  | nil => exact .pure ⟨nofun, hb⟩
  | cons node nodes ih =>
    obtain ⟨hnode, hnodes⟩ := List.forall_mem_cons.1 hnodes
    refine (hsub u b node hframe hb hnode).bind fun r u₁ hu₁ hr => ?_
    refine (ih (hframe.mono hu₁.grows.context) hr.block fun n hn =>
      hu₁.grows.has (hnodes n hn)).bind fun found u₂ hu₂ hfound => .pure ⟨?_, hfound.2⟩
    exact List.forall_mem_cons.2 ⟨hr.mono hu₂.grows.context, hfound.1⟩

/-- Calls the overload of a name that takes exactly the types of the arguments. -/
def call (sub : CheckedSub σ) (b : Ir.BlockId) (node : NodeId) (name : String)
    (argumentNodes : List NodeId) : Checked Halt (Compilation σ) Result := do
  let (rs, b) ← arguments sub b argumentNodes
  let tys := rs.map (·.ty)
  match ← read fun c => Context.Checked.lookupFunction? c name tys with
  | none => do
    let names ← read fun c => tys.mapM (Context.Checked.typeName c)
    fail (Report.noMatchingFunction (← span node) name names)
  | some callee => do
    let returned ← emit node (Ir.Checked.call b callee.backend (rs.map (·.value)))
    let v ←
      match returned with
      | some v => pure v
      | none => onContext Context.Checked.voidValue
    let b ← dropAll b rs
    return .new b callee.returnType v

theorem call_passes {g : CheckedSub σ} {x : Sub σ} (hsub : SubPasses frame g x) (name : String)
    {argumentNodes : List NodeId} (hframe : frame.InBounds u.context)
    (hb : u.context.ir.HasBlock b) (hnode : u.forest.Has node)
    (harguments : ∀ n ∈ argumentNodes, u.forest.Has n) :
    Passes (call g b node name argumentNodes) (Lower.call x b node name argumentNodes) u
      fun r u' => r.InBounds u'.context := by
  refine (arguments_passes hsub hframe hb harguments).bind fun found u₁ hu₁ hfound => ?_
  obtain ⟨rs, b⟩ := found
  obtain ⟨hrs, hb⟩ := hfound
  have hnode₁ := hu₁.grows.has hnode
  have hc₁ := hu₁.inBounds.context
  refine .checkedRead (read_run (Context.Checked.lookupFunction?_eq hc₁ name _)) (.plainRead rfl ?_)
  cases hcallee : u₁.context.lookupFunction? name (rs.map (·.ty)) with
  | none =>
    refine .plainRead rfl (.checkedRead (read_run (mapM_eq fun t ht => ?_))
      (.read (span_reads hnode₁) fail_passes))
    obtain ⟨r, hr, rfl⟩ := List.mem_map.1 ht
    exact Context.Checked.typeName_eq hc₁ (hrs r hr).ty
  | some callee =>
    have hcallee := hc₁.lookupFunction hcallee
    refine (emit_passes hnode₁ (Ir.Checked.call_passes hb hcallee.backend
      (List.forall_mem_map.2 fun r hr => (hrs r hr).value))).bind
        fun returned u₂ hu₂ hreturned => ?_
    -- the value is what the call returned or the one for `void`; the rest is the same
    have hrest : ∀ (v : Ir.ValueId) (u₃ : Compilation σ), Bounds.After u₁ u₃ →
        u₃.context.ir.HasValue v →
        Passes (do return .new (← dropAll b rs) callee.returnType v)
          (do return .new (← Lower.dropAll b rs) callee.returnType v) u₃
          fun (r : Result) u' => r.InBounds u'.context := fun v u₃ hu₃ hv => by
      have hu₃' := hu₃.grows.context
      refine (dropAll_passes (hu₃'.ir.hasBlock hb) fun r hr => (hrs r hr).mono hu₃').bind
        fun b u₄ hu₄ hb => .pure ?_
      exact .new hb ((hu₃'.trans hu₄.grows.context).pool.has hcallee.returnType)
        (hu₄.grows.context.ir.hasValue hv)
    cases returned with
    | some v => exact hrest v u₂ hu₂ (hreturned v rfl)
    | none =>
      exact (onContext_passes Context.Checked.voidValue_passes).bind fun v u₃ hu₃ hv =>
        hrest v u₃ (hu₂.trans hu₃) hv

/-- Processes what a rewriter makes of a call, or else the call. -/
def callOrExpand (left : Nat) (sub again : CheckedSub σ) (b : Ir.BlockId) (node : NodeId)
    (name : String) (argumentNodes : List NodeId) : Checked Halt (Compilation σ) Result := do
  match ← tryExpand left node with
  | some result => again b result
  | none => call sub b node name argumentNodes

theorem callOrExpand_passes {g g' : CheckedSub σ} {x x' : Sub σ} (hsub : SubPasses frame g x)
    (hagain : SubPasses frame g' x') (left : Nat) (name : String) {argumentNodes : List NodeId}
    (hframe : frame.InBounds u.context) (hb : u.context.ir.HasBlock b) (hnode : u.forest.Has node)
    (harguments : ∀ n ∈ argumentNodes, u.forest.Has n) :
    Passes (callOrExpand left g g' b node name argumentNodes)
      (Lower.callOrExpand left x x' b node name argumentNodes) u
      fun r u' => r.InBounds u'.context := by
  refine (tryExpand_passes left hnode).bind fun expansion u₁ hu₁ hexpansion => ?_
  have hframe₁ := hframe.mono hu₁.grows.context
  have hb₁ := hu₁.grows.context.ir.hasBlock hb
  cases expansion with
  | some result => exact hagain u₁ b result hframe₁ hb₁ (hexpansion result rfl)
  | none =>
    exact call_passes hsub name hframe₁ hb₁ (hu₁.grows.has hnode)
      fun n hn => hu₁.grows.has (harguments n hn)

/-- Processes a list. -/
def list (frame : Frame) (left : Nat) (sub again : CheckedSub σ) (b : Ir.BlockId) (node : NodeId)
    (items : List NodeId) : Checked Halt (Compilation σ) Result := do
  match items.head? with
  | none => fail (Report.emptyList (← span node))
  | some head => do
    match ← symbol? head with
    | none =>
      fail (Report.unexpectedElement (← span head) "symbol" "head of form" (← describe head))
    | some name => do
      let argumentNodes ← demand (itemsFrom items 1)
      let shadowed ← read fun c => Context.Checked.hasFunction c name
      match CoreForm.ofName? name with
      | some .core => marked frame sub b node argumentNodes
      | some form =>
        if shadowed then callOrExpand left sub again b node name argumentNodes
        else coreForm frame sub b node form argumentNodes false
      | none => callOrExpand left sub again b node name argumentNodes

theorem list_passes {g g' : CheckedSub σ} {x x' : Sub σ} (hsub : SubPasses frame g x)
    (hagain : SubPasses frame g' x') (left : Nat) {items : List NodeId}
    (hframe : frame.InBounds u.context) (hb : u.context.ir.HasBlock b) (hnode : u.forest.Has node)
    (hitems : ∀ n ∈ items, u.forest.Has n) :
    Passes (list frame left g g' b node items) (Lower.list frame left x x' b node items) u
      fun r u' => r.InBounds u'.context := by
  refine .given fun hu => ?_
  cases items with
  | nil => exact .read (span_reads hnode) fail_passes
  | cons head argumentNodes =>
    obtain ⟨hhead, harguments⟩ := List.forall_mem_cons.1 hitems
    refine .read (symbol?_reads hu hhead) ?_
    cases u.forest.symbol? head with
    | none => exact .read (span_reads hhead) (.read (describe_reads hhead) fail_passes)
    | some name =>
      refine .look itemsFrom_one ?_
      refine .checkedRead (read_run (Context.Checked.hasFunction_eq hu.context name))
        (.plainRead rfl ?_)
      have hcall := callOrExpand_passes hsub hagain left name hframe hb hnode harguments
      have hcore := fun form => coreForm_passes hsub form false hframe hb hnode harguments
      cases CoreForm.ofName? name with
      | none => exact hcall
      | some form =>
        cases form with
        | core => exact marked_passes hsub hframe hb hnode harguments
        | _ => exact .ite (fun _ => hcall) fun _ => hcore _

/-! ## Expressions to any depth -/

/-- The address fields of a result agree with each other and with the type of the value. -/
def isConsistent (pool : Pool) (r : Result) : Except Fault Bool := do
  match r.address, r.addressTy with
  | some _, some addressTy =>
    return r.isLvalue && (← Pool.Checked.pointee? pool addressTy) == some r.ty
  | none, none => return !r.isLvalue
  | _, _ => return false

theorem isConsistent_eq {c : Context} {r : Result} (hr : r.InBounds c) :
    isConsistent c.pool r = .ok (r.isConsistent c.pool) := by
  unfold isConsistent Result.isConsistent
  cases r.address with
  | none => cases r.addressTy <;> rfl
  | some address =>
    cases haddressTy : r.addressTy with
    | none => rfl
    | some addressTy =>
      simp only [bind, Except.bind, Pool.Checked.pointee?_eq (hr.addressTy _ haddressTy)]
      rfl

/-- Processes one form by its handler. -/
def handled (frame : Frame) (left : Nat) (sub again : CheckedSub σ) : CheckedSub σ :=
  fun b node => do
    match ← kind node with
    | .token ⟨kind, name⟩ => do token frame b node kind (← text name)
    | .list items => list frame left sub again b node items

theorem handled_passes {g g' : CheckedSub σ} {x x' : Sub σ} (hsub : SubPasses frame g x)
    (hagain : SubPasses frame g' x') (left : Nat) :
    SubPasses frame (handled frame left g g') (Lower.form frame left x x') := by
  intro u b node hframe hb hnode
  refine .given fun hu => .checkedRead (kind_run hnode) (.plainRead rfl ?_)
  cases hkind : u.forest.kind node with
  | token token =>
    obtain ⟨kind, name⟩ := token
    exact .checkedRead (text_run (hu.forest.name_lt hnode hkind))
      (token_passes kind _ hframe hb hnode)
  | list items =>
    exact list_passes hsub hagain left hframe hb hnode (hu.forest.has_items hnode hkind)

/-- Processes one form. All ids in the unit and in the frame are checked before, and all in the unit
and in the result after. -/
def form (frame : Frame) (left : Nat) (sub again : CheckedSub σ) : CheckedSub σ := fun b node => do
  let before ← get
  demand (inRange (before.TablesInBounds ∧ frame.InBounds before.context ∧
    before.context.ir.HasBlock b))
  let r ← handled frame left sub again b node
  -- the handler may have added to every table
  let after ← get
  demand (inRange (after.TablesInBounds ∧ r.InBounds after.context))
  let _ ← demand (isConsistent after.context.pool r)
  return r

theorem form_passes {g g' : CheckedSub σ} {x x' : Sub σ} (hsub : SubPasses frame g x)
    (hagain : SubPasses frame g' x') (left : Nat) :
    SubPasses frame (form frame left g g') (Lower.form frame left x x') := by
  intro u b node hframe hb hnode
  refine .given fun hu => .state (.look (inRange_eq ⟨hu.tables, hframe, hb⟩) ?_)
  -- the ids of the result are in range of the unit after the handler, not of the one before
  exact (handled_passes hsub hagain left u b node hframe hb hnode).andThen
    fun r u₁ hu₁ hr => .state (.look (inRange_eq ⟨hu₁.inBounds.tables, hr⟩)
      (.look (isConsistent_eq hr) (.pure hr)))

/-- Processes a form whose id is below `bound`, with a number of expansions left. -/
def expressionBelow (frame : Frame) (left : Nat) (again : CheckedSub σ) :
    (bound : Nat) → CheckedSub σ
  | 0 => fun _ _ => refuse .unfinished
  | bound + 1 => form frame left (expressionBelow frame left again bound) again

/-- Processes a form with a number of expansions left. -/
def expression (frame : Frame) : (left : Nat) → CheckedSub σ
  | 0 => fun b node =>
    expressionBelow frame 0 (fun _ _ => refuse .unfinished) (node.index + 1) b node
  | left + 1 => fun b node =>
    expressionBelow frame (left + 1) (expression frame left) (node.index + 1) b node

/-- Processes the form at a node, emitting into a block. -/
def process (frame : Frame) : CheckedSub σ := fun b node => do
  let limit := (← get).maxExpansions
  expression frame limit b node

/-- Nothing is done where the bounds are used up. -/
theorem unfinished_passes :
    SubPasses (σ := σ) frame (fun _ _ => refuse .unfinished) fun _ _ => throw .unfinished :=
  fun _ _ _ _ _ _ => .refused rfl

theorem expressionBelow_passes {g : CheckedSub σ} {x : Sub σ} (hagain : SubPasses frame g x)
    (left bound : Nat) :
    SubPasses frame (expressionBelow frame left g bound)
      (Lower.expressionBelow frame left x bound) := by
  induction bound with
  | zero => exact unfinished_passes
  | succ bound ih => exact form_passes ih hagain left

theorem expression_passes (left : Nat) :
    SubPasses (σ := σ) frame (expression frame left) (Lower.expression frame left) := by
  induction left with
  | zero => exact fun u b node => expressionBelow_passes unfinished_passes 0 _ u b node
  | succ left ih => exact fun u b node => expressionBelow_passes ih (left + 1) _ u b node

theorem process_passes :
    SubPasses (σ := σ) frame (process frame) (Lower.process frame) :=
  fun u b node hframe hb hnode => .get (expression_passes _ u b node hframe hb hnode)

end FormCompiler.Lower.Checked
