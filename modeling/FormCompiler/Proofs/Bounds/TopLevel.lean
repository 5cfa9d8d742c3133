import FormCompiler.Proofs.Bounds.Declarations

/-!
# Functions and Top-Level Forms Stay in Bounds

Function declarations, namespace forms and definitions with their accesses checked, and the
processing of lists of top-level forms. Before every top-level form all ids in the unit are checked
as well.

A body that fails is followed by the repair of its function, and a namespace is left after its forms
failed; a fault stops at once.
-/

namespace FormCompiler.Lower.Checked

open FormCompiler.Checked (refuse demand free faultless)

variable {σ α β : Type} {u : Compilation σ} {node : NodeId} {frame : Frame} {b : Ir.BlockId}

/-! ## Functions -/

/-- The instructions that store a value in a new slot. -/
def spillInstrs (b : Ir.BlockId) (ty : Ir.TyId) (value : Ir.ValueId) :
    Checked Ir.Error Ir.Module Ir.ValueId := do
  let slot ← Ir.Checked.alloca b ty
  Ir.Checked.store b value slot
  return slot

theorem spillInstrs_passes {m : Ir.Module} {ty : Ir.TyId} {value : Ir.ValueId}
    (hb : m.HasBlock b) (hty : m.HasTy ty) (hvalue : m.HasValue value) :
    Passes (spillInstrs b ty value) (Lower.spillInstrs b ty value) m
      fun slot m' => m'.HasValue slot := by
  refine (Ir.Checked.alloca_passes hb hty).bind fun slot m₁ hm₁ hslot => ?_
  refine (Ir.Checked.store_passes (hm₁.grows.hasBlock hb) (hm₁.grows.hasValue hvalue) hslot).bind
    fun _ m₂ hm₂ _ => .pure (hm₂.grows.hasValue hslot)

/-- Stores the parameters of a function in slots, counted from an index on, and binds their
names. -/
def spillParams (b : Ir.BlockId) : (index : Nat) → Frame → List (Param × Span) →
    Checked Halt (Compilation σ) Frame
  | _, frame, [] => return frame
  | index, frame, (param, place) :: rest => do
    match ← read fun c => Ir.Checked.param? c.ir frame.func index with
    | none => fail (Report.internalError place "parameter index out of range")
    | some value => do
      let ty ← backendType param.ty
      let slot ← onContext (Context.Checked.emit place (spillInstrs b ty value))
      let (_, scope) := frame.scope.bind param.name ⟨param.ty, .slot slot⟩
      spillParams b (index + 1) { frame with scope } rest

theorem spillParams_passes (index : Nat) {params : List (Param × Span)}
    (hframe : frame.InBounds u.context) (hb : u.context.ir.HasBlock b)
    (hparams : ∀ p ∈ params, u.context.pool.Has p.1.ty) :
    Passes (spillParams b index frame params) (Lower.spillParams b index frame params) u
      fun (frame : Frame) u' => frame.InBounds u'.context := by
  induction params generalizing u index frame with
  | nil => exact .pure hframe
  | cons p rest ih =>
    obtain ⟨param, place⟩ := p
    obtain ⟨hparam, hrest⟩ := List.forall_mem_cons.1 hparams
    refine .given fun hu => .checkedRead (read_run (Ir.Checked.param?_eq hframe.func index))
      (.plainRead rfl ?_)
    cases hvalue : u.context.ir.param? frame.func index with
    | none => exact fail_passes
    | some value =>
      have hfunction := hu.context.ir.functions _ (Ir.Checked.function_mem hframe.func)
      have hvalue := hfunction.params value (List.mem_of_getElem? hvalue)
      refine (backendType_passes hparam).bind fun ty u₁ hu₁ hty => ?_
      have hc₁ := hu₁.grows.context
      refine (onContext_passes (Context.Checked.emitOr_passes _ (spillInstrs_passes
        (hc₁.ir.hasBlock hb) hty (hc₁.ir.hasValue hvalue)))).bind fun slot u₂ hu₂ hslot => ?_
      have hc₂ := (hu₁.trans hu₂).grows.context
      refine ih (index + 1) ((hframe.mono hc₂).bind param.name ⟨hc₂.pool.has hparam, ?_, nofun⟩)
        (hc₂.ir.hasBlock hb) fun p hp => hc₂.pool.has (hrest p hp)
      rintro _ ⟨⟩
      exact hslot

/-- Processes the forms of a body and returns the last of them with its result. -/
def bodyForms (frame : Frame) : Ir.BlockId → NodeId → List NodeId →
    Checked Halt (Compilation σ) (NodeId × Result)
  | b, last, [] => do
    let r ← process frame b last
    return (last, r)
  | b, node, next :: rest => do
    let r ← process frame b node
    let b ← drop r
    bodyForms frame b next rest

theorem bodyForms_passes {first : NodeId} {rest : List NodeId} (hframe : frame.InBounds u.context)
    (hb : u.context.ir.HasBlock b) (hfirst : u.forest.Has first)
    (hrest : ∀ n ∈ rest, u.forest.Has n) :
    Passes (bodyForms frame b first rest) (Lower.bodyForms frame b first rest) u
      fun found u' => u'.forest.Has found.1 ∧ found.2.InBounds u'.context := by
  induction rest generalizing u b first with
  | nil =>
    exact (process_passes u b first hframe hb hfirst).bind fun r u₁ hu₁ hr =>
      .pure ⟨hu₁.grows.has hfirst, hr⟩
  | cons next rest ih =>
    obtain ⟨hnext, hrest⟩ := List.forall_mem_cons.1 hrest
    refine (process_passes u b first hframe hb hfirst).bind fun r u₁ hu₁ hr => ?_
    refine (drop_passes hr).bind fun b u₂ hu₂ hb => ?_
    have hu₂' := (hu₁.trans hu₂).grows
    exact ih (hframe.mono hu₂'.context) hb (hu₂'.has hnext) fun n hn => hu₂'.has (hrest n hn)

/-- Returns the result of a body from its function. A function that returns `void` drops it. -/
def returnResult (returnType : TypeId) (last : NodeId) (r : Result) :
    Checked Halt (Compilation σ) PUnit := do
  if ← isVoid returnType then
    let b ← drop r
    emit last (Ir.Checked.ret b none)
  else if r.ty ≠ returnType then
    fail (Report.returnTypeMismatch (← span last) (← typeName returnType) (← typeName r.ty))
  else
    emit last (Ir.Checked.ret r.block (some r.value))

theorem returnResult_passes {returnType : TypeId} {last : NodeId} {r : Result}
    (hreturn : u.context.pool.Has returnType) (hlast : u.forest.Has last)
    (hr : r.InBounds u.context) :
    Passes (returnResult returnType last r) (Lower.returnResult returnType last r) u
      fun _ _ => True := by
  refine .given fun hu => .checkedRead (isVoid_run hreturn) (.plainRead rfl ?_)
  refine .ite (fun _ => ?_) fun _ => .ite (fun _ => ?_) fun _ => ?_
  · refine (drop_passes hr).bind fun b u₁ hu₁ hb => ?_
    exact emit_passes (hu₁.grows.has hlast) (Ir.Checked.ret_passes hb (by simp))
  · exact .read (span_reads hlast) (.read (typeName_reads hu hreturn)
      (.read (typeName_reads hu hr.ty) fail_passes))
  · exact emit_passes hlast (Ir.Checked.ret_passes hr.block (by simpa using hr.value))

/-- Emits the body of a function. -/
def body (func : Ir.FuncId) (params : List (Param × Span)) (returnType : TypeId)
    (first : NodeId) (rest : List NodeId) : Checked Halt (Compilation σ) PUnit := do
  let entry ← onModule (Ir.Checked.appendBlock func "entry")
  let frame ← spillParams entry 0 ⟨func, .empty⟩ params
  let (last, r) ← bodyForms frame entry first rest
  returnResult returnType last r

theorem body_passes {func : Ir.FuncId} {params : List (Param × Span)} {returnType : TypeId}
    {first : NodeId} {rest : List NodeId} (hfunc : u.context.ir.HasFunction func)
    (hparams : ∀ p ∈ params, u.context.pool.Has p.1.ty)
    (hreturn : u.context.pool.Has returnType) (hfirst : u.forest.Has first)
    (hrest : ∀ n ∈ rest, u.forest.Has n) :
    Passes (body func params returnType first rest) (Lower.body func params returnType first rest) u
      fun _ _ => True := by
  refine (onModule_passes (Ir.Checked.appendBlock_passes "entry" hfunc)).bind
    fun entry u₁ hu₁ hentry => ?_
  have hc₁ := hu₁.grows.context
  have hempty : Frame.InBounds u₁.context ⟨func, .empty⟩ := ⟨hc₁.ir.hasFunction hfunc, nofun⟩
  refine (spillParams_passes 0 hempty hentry fun p hp => hc₁.pool.has (hparams p hp)).bind
    fun frame u₂ hu₂ hframe => ?_
  have hu₂' := (hu₁.trans hu₂).grows
  refine (bodyForms_passes hframe (hu₂.grows.context.ir.hasBlock hentry) (hu₂'.has hfirst)
    fun n hn => hu₂'.has (hrest n hn)).bind fun found u₃ hu₃ hfound => ?_
  exact returnResult_passes (((hu₁.trans hu₂).trans hu₃).grows.context.pool.has hreturn) hfound.1
    hfound.2

/-- Runs a step and then another one, whether the first one stopped or not. After a fault nothing
is run. -/
def ensuring (step : Checked Halt (Compilation σ) α) (after : Checked Halt Context β) :
    Checked Halt (Compilation σ) α := fun u =>
  match step u with
  | .ok a u =>
    match onContext after u with
    | .ok _ u => .ok a u
    | .error e u => .error e u
  | .error (.fault f) u => .error (.fault f) u
  | .error (.refused e) u =>
    match onContext after u with
    | .ok _ u => .error (.refused e) u
    | .error e u => .error e u

/-- What is run after a step never stops. -/
theorem onContext_runs {g : Checked Halt Context β} {step : StateM Context β} (hu : u.InBounds)
    (h : Passes g (ofState step) u.context fun _ _ => True) :
    ∃ b u', onContext g u = .ok b u' ∧ Lower.onState step u = .ok b u' ∧ Bounds.After u u' :=
  have ⟨hsame, hafter, _⟩ := onContext_passes h hu
  ⟨_, _, hsame, rfl, hafter⟩

theorem ensuring_passes {g : Checked Halt (Compilation σ) α} {x : Lower σ α}
    {g' : Checked Halt Context β} {after : StateM Context β} {P : α → Compilation σ → Prop}
    (h : Passes g x u P)
    (h' : ∀ u', Bounds.After u u' → Passes g' (ofState after) u'.context fun _ _ => True) :
    Passes (ensuring g g') (Lower.ensuring x after) u fun _ _ => True := by
  intro hu
  obtain ⟨hsame, hends⟩ := h hu
  unfold Ends ensuring Lower.ensuring
  rw [hsame]
  cases hx : x u with
  | ok a u₁ =>
    have hu₁ := (hends.of_ok hx).1
    obtain ⟨b, u₂, hchecked, hrun, hu₂⟩ := onContext_runs hu₁.inBounds (h' u₁ hu₁)
    simp only [faultless, hchecked, hrun]
    exact ⟨trivial, hu₁.trans hu₂, trivial⟩
  | error e u₁ =>
    -- the unit that the step stopped in is in bounds too
    have hu₁ := hends.of_error hx
    obtain ⟨b, u₂, hchecked, hrun, hu₂⟩ := onContext_runs hu₁.inBounds (h' u₁ hu₁)
    simp only [faultless, hchecked, hrun]
    exact ⟨trivial, hu₁.trans hu₂⟩

/-- Declares a function from its linkage, return type, parameters and body. -/
def defineFunction (nameNode : NodeId) (name : String) (bodyNode : NodeId) (parts : List NodeId) :
    Checked Halt (Compilation σ) PUnit := do
  expectAtLeast bodyNode "fn" (parts.length - 1) 3
  let linkage ← expectLinkage (← demand (itemAt parts 1))
  let returnType ← resolveType (← demand (itemAt parts 2))
  let paramNodes ← expectList (← demand (itemAt parts 3)) "parameter list"
  let named ← typedNames "parameter" [] paramNodes
  let params := named.map fun (name, t) => Param.mk name t
  let nameSpan ← span nameNode
  let func ← onContext (Context.Checked.declareFunction name params returnType linkage nameSpan)
  match ← demand (itemsFrom parts 4) with
  | [] => return ⟨⟩
  | first :: rest => do
    -- the places of the parameters are read again, in the forest as it is now
    let spans ← demand (paramNodes.mapM (Forest.Checked.span (← get).forest))
    ensuring (body func (params.zip spans) returnType first rest)
      (Context.Checked.onModule (Ir.Checked.finishFunction func))

theorem defineFunction_passes {nameNode bodyNode : NodeId} (name : String) {parts : List NodeId}
    (hnameNode : u.forest.Has nameNode) (hbodyNode : u.forest.Has bodyNode)
    (hparts : ∀ n ∈ parts, u.forest.Has n) :
    Passes (defineFunction nameNode name bodyNode parts)
      (Lower.defineFunction nameNode name bodyNode parts.tail) u fun _ _ => True := by
  match parts with
  | [] | [_] | [_, _] | [_, _, _] => exact expect_unmet hbodyNode (by simp)
  | _ :: linkageNode :: tyNode :: paramsNode :: forms =>
    refine expect_met (by simp) (.look rfl ?_)
    refine (expectLinkage_passes (hparts linkageNode (by simp))).bind ?_
    rintro linkage _ - rfl
    refine .look rfl ((resolveType_passes (hparts tyNode (by simp))).bind
      fun returnType u₁ hu₁ hreturn => .look rfl ?_)
    refine (expectList_passes _ (hu₁.grows.has (hparts paramsNode (by simp)))).bind ?_
    rintro paramNodes _ - ⟨rfl, hparamNodes⟩
    refine (typedNames_passes "parameter" (by simp) hparamNodes).bind fun named u₂ hu₂ hnamed => ?_
    have hu₂' := hu₁.trans hu₂
    have hparams : ∀ p ∈ named.map fun (name, t) => Param.mk name t, u₂.context.pool.Has p.ty :=
      List.forall_mem_map.2 hnamed
    refine .read (span_reads (hu₂'.grows.has hnameNode)) ?_
    refine (onContext_passes (Context.Checked.declareFunction_passes name linkage _ hparams
      (hu₂.grows.context.pool.has hreturn))).bind fun func u₃ hu₃ ⟨hfunc, _⟩ => ?_
    have hu₃' := (hu₂'.trans hu₃).grows
    refine .look (itemsFrom_eq (by simp)) ?_
    cases forms with
    | nil => exact .pure trivial
    | cons first rest =>
      have hspans : paramNodes.mapM (Forest.Checked.span u₃.forest) =
          .ok (paramNodes.map u₃.forest.span) :=
        mapM_eq fun n hn => Forest.Checked.span_eq ((hu₂.trans hu₃).grows.has (hparamNodes n hn))
      refine .get (.look hspans (ensuring_passes (body_passes hfunc (fun p hp => ?_) ?_ ?_ ?_)
        fun u₄ hu₄ => ?_))
      · exact hu₃.grows.context.pool.has (hparams p.1 (List.of_mem_zip hp).1)
      · exact (hu₂.trans hu₃).grows.context.pool.has hreturn
      · exact hu₃'.has (hparts first (by simp))
      · exact fun n hn => hu₃'.has (hparts n (by simp [hn]))
      · exact Context.Checked.onModule_passes
          (Ir.Checked.finishFunction_passes (hu₄.grows.context.ir.hasFunction hfunc))

/-! ## Top-level forms -/

/-- Processes every form and fails if one of them failed. After a fault nothing is processed. -/
def every (step : NodeId → Checked Halt (Compilation σ) PUnit) :
    List NodeId → Checked Halt (Compilation σ) PUnit
  | [] => return ⟨⟩
  | node :: nodes => fun u =>
    match step node u with
    | .ok _ u => every step nodes u
    | .error (.refused .reported) u =>
      match every step nodes u with
      | .ok _ u => .error (.refused .reported) u
      | .error e u => .error e u
    | .error e u => .error e u

/-- In units that have the form, the checked way to process a top-level form passes. -/
def FormPasses (g : NodeId → Checked Halt (Compilation σ) PUnit) (x : NodeId → Lower σ PUnit) :
    Prop :=
  ∀ (u : Compilation σ) (node : NodeId), u.forest.Has node →
    Passes (g node) (x node) u fun _ _ => True

/-- In units that have the forms, the checked way to process several top-level forms passes. -/
def FormsPass (g : List NodeId → Checked Halt (Compilation σ) PUnit)
    (x : List NodeId → Lower σ PUnit) : Prop :=
  ∀ (u : Compilation σ) (nodes : List NodeId), (∀ n ∈ nodes, u.forest.Has n) →
    Passes (g nodes) (x nodes) u fun _ _ => True

theorem every_passes {g : NodeId → Checked Halt (Compilation σ) PUnit}
    {x : NodeId → Lower σ PUnit} (h : FormPasses g x) : FormsPass (every g) (Lower.every x) := by
  intro u nodes hnodes
  induction nodes generalizing u with
  | nil => exact .pure trivial
  | cons node nodes ih =>
    obtain ⟨hnode, hnodes⟩ := List.forall_mem_cons.1 hnodes
    intro hu
    obtain ⟨hsame, hends⟩ := h u node hnode hu
    unfold Ends every Lower.every
    rw [hsame]
    cases hx : x node u with
    | ok a u₁ =>
      have hu₁ := (hends.of_ok hx).1
      obtain ⟨hsame', hends'⟩ := ih u₁ (fun n hn => hu₁.grows.has (hnodes n hn)) hu₁.inBounds
      exact ⟨hsame', hends'.mono (fun _ _ h => ⟨hu₁.trans h.1, trivial⟩) fun _ => hu₁.trans⟩
    | error e u₁ =>
      have hu₁ := hends.of_error hx
      cases e with
      | unfinished => exact ⟨rfl, hu₁⟩
      | reported =>
        -- the rest is processed in any case, and the failure is handed on
        obtain ⟨hsame', hends'⟩ := ih u₁ (fun n hn => hu₁.grows.has (hnodes n hn)) hu₁.inBounds
        dsimp only [faultless]
        rw [hsame']
        cases hrest : Lower.every x nodes u₁ with
        | ok _ u₂ => exact ⟨rfl, hu₁.trans (hends'.of_ok hrest).1⟩
        | error e u₂ => exact ⟨rfl, hu₁.trans (hends'.of_error hrest)⟩

/-- Processes a namespace form: its forms by `inner`, inside the namespace. -/
def namespaceForm (inner : List NodeId → Checked Halt (Compilation σ) PUnit) (node : NodeId)
    (items : List NodeId) : Checked Halt (Compilation σ) PUnit := do
  expectAtLeast node "namespace" (items.length - 1) 1
  let name ← expectSymbol (← demand (itemAt items 1)) "namespace name"
  let _ ← onContext (Context.Checked.enter name)
  let nodes ← demand (itemsFrom items 2)
  ensuring (inner nodes) Context.Checked.leave

theorem namespaceForm_passes {g : List NodeId → Checked Halt (Compilation σ) PUnit}
    {x : List NodeId → Lower σ PUnit} (hinner : FormsPass g x) {items : List NodeId}
    (hnode : u.forest.Has node) (hitems : ∀ n ∈ items, u.forest.Has n) :
    Passes (namespaceForm g node items) (Lower.namespaceForm x node items.tail) u
      fun _ _ => True := by
  match items with
  | [] | [_] => exact expect_unmet hnode (by simp)
  | _ :: nameNode :: nodes =>
    refine expect_met (by simp) (.look rfl ?_)
    refine (expectSymbol_passes _ (hitems nameNode (by simp))).bind ?_
    rintro name _ - rfl
    refine (onContext_passes (Context.Checked.enter_passes name)).bind fun _ u₁ hu₁ _ => ?_
    refine .look (itemsFrom_eq (by simp)) (ensuring_passes (hinner u₁ nodes fun n hn => ?_)
      fun _ _ => Context.Checked.leave_passes)
    exact hu₁.grows.has (hitems n (by simp [hn]))

/-- Processes a definition. -/
def definition (node : NodeId) (items : List NodeId) : Checked Halt (Compilation σ) PUnit := do
  expectCount node "def" (items.length - 1) 2
  let nameNode ← demand (itemAt items 1)
  let name ← expectSymbol nameNode "declaration name"
  let body ← demand (itemAt items 2)
  let parts ← expectList body "declaration body"
  let word? ←
    match parts.head? with
    | none => pure none
    | some head => symbol? head
  if word? = some "enum" then defineEnum nameNode name body parts
  else if word? = some "struct" then defineStruct nameNode name body parts
  else if word? = some "fn" then defineFunction nameNode name body parts
  else
    fail (Report.unexpectedElement (← span body) "`enum`, `struct` or `fn`" "declaration"
      (← display body))

theorem definition_passes {items : List NodeId} (hnode : u.forest.Has node)
    (hitems : ∀ n ∈ items, u.forest.Has n) :
    Passes (definition node items) (Lower.definition node items.tail) u fun _ _ => True := by
  match items with
  | [] | [_] | [_, _] | _ :: _ :: _ :: _ :: _ => exact expect_unmet hnode (by simp)
  | [_, nameNode, body] =>
    have hnameNode := hitems nameNode (by simp)
    have hbody := hitems body (by simp)
    refine .given fun hu => expect_met rfl (.look rfl ?_)
    refine (expectSymbol_passes _ hnameNode).bind ?_
    rintro name _ - rfl
    refine .look rfl ((expectList_passes _ hbody).bind ?_)
    rintro parts _ - ⟨rfl, hparts⟩
    -- an empty body has no word; what is done with the word does not look at how it was found
    have hrest : ∀ word? : Option String, Passes
        (do
          if word? = some "enum" then defineEnum nameNode name body parts
          else if word? = some "struct" then defineStruct nameNode name body parts
          else if word? = some "fn" then defineFunction nameNode name body parts
          else
            fail (Report.unexpectedElement (← span body) "`enum`, `struct` or `fn`" "declaration"
              (← display body)))
        (do
          if word? = some "enum" then Lower.defineEnum nameNode name body parts.tail
          else if word? = some "struct" then Lower.defineStruct nameNode name body parts.tail
          else if word? = some "fn" then Lower.defineFunction nameNode name body parts.tail
          else
            Lower.fail (Report.unexpectedElement (← Lower.span body) "`enum`, `struct` or `fn`"
              "declaration" (← Lower.display body))) u fun _ _ => True := fun word? => by
      refine .ite (fun _ => defineEnum_passes name hnameNode hbody hparts) fun _ => ?_
      refine .ite (fun _ => defineStruct_passes name hnameNode hbody hparts) fun _ => ?_
      refine .ite (fun _ => defineFunction_passes name hnameNode hbody hparts) fun _ => ?_
      exact .read (span_reads hbody) (.read (display_reads hu hbody) fail_passes)
    cases parts with
    | nil => exact hrest none
    | cons head _ => exact .read (symbol?_reads hu (hparts head List.mem_cons_self)) (hrest _)

/-- Processes a top-level form. All ids in the unit are checked before. -/
def topForm (inner : List NodeId → Checked Halt (Compilation σ) PUnit) (left : Nat)
    (again : NodeId → Checked Halt (Compilation σ) PUnit) (node : NodeId) :
    Checked Halt (Compilation σ) PUnit := do
  demand (inRange (← get).TablesInBounds)
  let items ← expectList node "top-level form"
  match items.head? with
  | none => fail (Report.emptyList (← span node))
  | some head => do
    let word? ← symbol? head
    if word? = some "namespace" then namespaceForm inner node items
    else if word? = some "def" then definition node items
    else
      match ← tryExpand left node with
      | some result => again result
      | none =>
        fail (Report.unexpectedElement (← span head) "`namespace` or `def`" "top-level form"
          (← display head))

theorem topForm_passes {g : List NodeId → Checked Halt (Compilation σ) PUnit}
    {x : List NodeId → Lower σ PUnit} {g' : NodeId → Checked Halt (Compilation σ) PUnit}
    {x' : NodeId → Lower σ PUnit} (hinner : FormsPass g x) (left : Nat)
    (hagain : FormPasses g' x') : FormPasses (topForm g left g') (Lower.topForm x left x') := by
  intro u node hnode
  refine .given fun hu => .state (.look (inRange_eq hu.tables) ?_)
  refine (expectList_passes _ hnode).bind ?_
  rintro items _ - ⟨rfl, hitems⟩
  cases items with
  | nil => exact .read (span_reads hnode) fail_passes
  | cons head arguments =>
    have hhead := hitems head List.mem_cons_self
    refine .read (symbol?_reads hu hhead) ?_
    refine .ite (fun _ => namespaceForm_passes hinner hnode hitems) fun _ => ?_
    refine .ite (fun _ => definition_passes hnode hitems) fun _ => ?_
    refine (tryExpand_passes left hnode).bind fun expansion u₁ hu₁ hexpansion => ?_
    have hhead₁ := hu₁.grows.has hhead
    cases expansion with
    | some result => exact hagain u₁ result (hexpansion result rfl)
    | none =>
      exact .read (span_reads hhead₁) (.read (display_reads hu₁.inBounds hhead₁) fail_passes)

/-- Processes a top-level form with a number of expansions left. -/
def topFormWith (inner : List NodeId → Checked Halt (Compilation σ) PUnit) :
    (left : Nat) → NodeId → Checked Halt (Compilation σ) PUnit
  | 0 => topForm inner 0 fun _ => refuse .unfinished
  | left + 1 => topForm inner (left + 1) (topFormWith inner left)

/-- Processes a top-level form in which namespace forms nest less than `depth` deep. -/
def topFormBelow : (depth : Nat) → NodeId → Checked Halt (Compilation σ) PUnit
  | 0, _ => refuse .unfinished
  | depth + 1, node => do
    let limit := (← get).maxExpansions
    topFormWith (every (topFormBelow depth)) limit node

/-- Processes one top-level form. -/
def processTopLevel (node : NodeId) : Checked Halt (Compilation σ) PUnit :=
  topFormBelow maxNamespaceDepth node

/-- Processes top-level forms in order and fails if one of them failed. -/
def processAll (nodes : List NodeId) : Checked Halt (Compilation σ) PUnit :=
  every processTopLevel nodes

theorem topFormWith_passes {g : List NodeId → Checked Halt (Compilation σ) PUnit}
    {x : List NodeId → Lower σ PUnit} (hinner : FormsPass g x) (left : Nat) :
    FormPasses (topFormWith g left) (Lower.topFormWith x left) := by
  induction left with
  | zero => exact topForm_passes hinner 0 fun _ _ _ => .refused rfl
  | succ left ih => exact topForm_passes hinner (left + 1) ih

theorem topFormBelow_passes (depth : Nat) :
    FormPasses (σ := σ) (topFormBelow depth) (Lower.topFormBelow depth) := by
  induction depth with
  | zero => exact fun _ _ _ => .refused rfl
  | succ depth ih =>
    exact fun u node hnode => .get (topFormWith_passes (every_passes ih) _ u node hnode)

theorem processAll_passes : FormsPass (σ := σ) processAll Lower.processAll :=
  every_passes (topFormBelow_passes maxNamespaceDepth)

/-- Processes a definition of an enum, whatever word begins its body. -/
def declareEnum (node : NodeId) : Checked Halt (Compilation σ) PUnit := do
  let items ← expectList node "enum declaration"
  let word? ←
    match items.head? with
    | none => pure none
    | some head => symbol? head
  if word? = some "def" then
    expectCount node "def" (items.length - 1) 2
    let nameNode ← demand (itemAt items 1)
    let name ← expectSymbol nameNode "enum name"
    let body ← demand (itemAt items 2)
    let parts ← expectList body "enum declaration body"
    defineEnum nameNode name body parts
  else
    fail (Report.unexpectedElement (← span node) "`def`" "enum declaration" (← display node))

theorem declareEnum_passes : FormPasses (σ := σ) declareEnum Lower.declareEnum := by
  intro u node hnode
  refine .given fun hu => (expectList_passes _ hnode).bind ?_
  rintro items _ - ⟨rfl, hitems⟩
  cases items with
  | nil =>
    refine .read ⟨rfl, rfl⟩ (.ite (fun h => by cases h) fun _ => ?_)
    exact .read (span_reads hnode) (.read (display_reads hu hnode) fail_passes)
  | cons head arguments =>
    refine .read (symbol?_reads hu (hitems head List.mem_cons_self)) (.ite (fun _ => ?_) fun _ =>
      .read (span_reads hnode) (.read (display_reads hu hnode) fail_passes))
    match arguments with
    | [] | [_] | _ :: _ :: _ :: _ => exact expect_unmet hnode (by simp)
    | [nameNode, body] =>
      have hnameNode := hitems nameNode (by simp)
      have hbody := hitems body (by simp)
      refine expect_met rfl (.look rfl ((expectSymbol_passes _ hnameNode).bind ?_))
      rintro name _ - rfl
      refine .look rfl ((expectList_passes _ hbody).bind ?_)
      rintro parts _ - ⟨rfl, hparts⟩
      exact defineEnum_passes name hnameNode hbody hparts

end FormCompiler.Lower.Checked
