import FormCompiler.Lower.Forms
import FormCompiler.Proofs.Bounds.Compilation

/-!
# Tokens, Pointers and Assignments Stay in Bounds

Handlers of forms with their accesses checked: each takes its parts out of the form by position,
after it counted them, and what it reads of types, variables and code is looked up in its table.

* `Frame.InBounds`: the function and the variables of a body are in range.
* `SubPasses`: the checked way to process parts passes. Each handler passes if it does.
-/

namespace FormCompiler

/-! ## Frames in bounds -/

/-- The ids in a variable are in range. -/
@[mk_iff]
structure Variable.InBounds (c : Context) (v : Variable) : Prop where
  ty : c.pool.Has v.ty
  slot : ∀ address, v.storage = .slot address → c.ir.HasValue address
  value : ∀ value, v.storage = .value value → c.ir.HasValue value

/-- The function and the variables are in range. -/
@[mk_iff]
structure Frame.InBounds (c : Context) (frame : Frame) : Prop where
  func : c.ir.HasFunction frame.func
  vars : ∀ b ∈ frame.scope.bindings, b.2.InBounds c

instance (c : Context) (v : Variable) : Decidable (v.InBounds c) :=
  have : Decidable ((∀ address, v.storage = .slot address → c.ir.HasValue address) ∧
      ∀ value, v.storage = .value value → c.ir.HasValue value) :=
    match v with
    | ⟨_, .slot id⟩ | ⟨_, .value id⟩ => decidable_of_iff (c.ir.HasValue id) (by simp)
  decidable_of_iff _ (Variable.inBounds_iff c v).symm

instance (c : Context) (frame : Frame) : Decidable (frame.InBounds c) :=
  decidable_of_iff _ (Frame.inBounds_iff c frame).symm

section

variable {c c' : Context}

theorem Variable.InBounds.mono {v : Variable} (h : v.InBounds c) (hc : c.Widens c') :
    v.InBounds c' :=
  ⟨hc.pool.has h.ty, fun a ha => hc.ir.hasValue (h.slot a ha),
    fun x hx => hc.ir.hasValue (h.value x hx)⟩

theorem Frame.InBounds.mono {frame : Frame} (h : frame.InBounds c) (hc : c.Widens c') :
    frame.InBounds c' :=
  ⟨hc.ir.hasFunction h.func, fun b hb => (h.vars b hb).mono hc⟩

/-- A variable may be bound. -/
theorem Frame.InBounds.bind {frame : Frame} (h : frame.InBounds c) (name : String) {v : Variable}
    (hv : v.InBounds c) : Frame.InBounds c { frame with scope := (frame.scope.bind name v).2 } := by
  refine ⟨h.func, List.forall_mem_cons.2 ⟨hv, fun b hb => h.vars b ?_⟩⟩
  exact (List.mem_filter.1 hb).1

end

namespace Lower.Checked

open FormCompiler.Checked (refuse demand free)

variable {σ α : Type} {u : Compilation σ} {node : NodeId} {frame : Frame} {b : Ir.BlockId}

/-- The checked way to process a part of a form. -/
abbrev CheckedSub (σ : Type) := Ir.BlockId → NodeId → Checked Halt (Compilation σ) Result

/-- In units where the frame is in bounds, the checked way to process the parts of a form passes.
The ids in its results are in range. -/
def SubPasses (frame : Frame) (g : CheckedSub σ) (x : Sub σ) : Prop :=
  ∀ (u : Compilation σ) (b : Ir.BlockId) (node : NodeId), frame.InBounds u.context →
    u.context.ir.HasBlock b → u.forest.Has node →
      Passes (g b node) (x b node) u fun r u' => r.InBounds u'.context

/-! ## Steps of handlers -/

/-- A step on the module alone. -/
def onModule (step : Checked Halt Ir.Module α) : Checked Halt (Compilation σ) α :=
  onContext (Context.Checked.onModule step)

theorem onModule_passes {g : Checked Halt Ir.Module α} {step : StateM Ir.Module α}
    {Q : α → Ir.Module → Prop} (h : Passes g (ofState step) u.context.ir Q) :
    Passes (onModule g) (Lower.onModule step) u fun a u' => Q a u'.context.ir :=
  onContext_passes (Context.Checked.onModule_passes h)

/-- The backend type of a type. -/
def backendType (t : TypeId) : Checked Halt (Compilation σ) Ir.TyId :=
  onContext (Context.Checked.backendType t)

theorem backendType_passes {t : TypeId} (ht : u.context.pool.Has t) :
    Passes (backendType t) (Lower.onState (Context.backendType t)) u
      fun ty u' => u'.context.ir.HasTy ty :=
  onContext_passes (Context.Checked.backendType_passes ht)

/-- Enters the type of pointers to a type. -/
def pointerTo (t : TypeId) : Checked Halt (Compilation σ) TypeId :=
  onContext (Context.Checked.intern (.pointer t))

theorem pointerTo_passes {t : TypeId} (ht : u.context.pool.Has t) :
    Passes (pointerTo t) (Lower.onState (Context.onPool (·.pointerTo t))) u
      fun t u' => u'.context.pool.Has t := by
  refine onContext_passes (Context.Checked.intern_passes ?_)
  rintro _ ⟨⟩
  exact ht

/-- Drops a result and returns the block to go on from. -/
def drop (r : Result) : Checked Halt (Compilation σ) Ir.BlockId := do
  let r ← onContext (Context.Checked.destruct r)
  return r.block

theorem drop_passes {r : Result} (hr : r.InBounds u.context) :
    Passes (drop r) (Lower.drop r) u fun b u' => u'.context.ir.HasBlock b :=
  (onContext_passes (Context.Checked.destruct_passes hr)).bind fun _ _ _ hr => .pure hr.block

/-- Drops results one after the other, from a block on. -/
def dropAll : Ir.BlockId → List Result → Checked Halt (Compilation σ) Ir.BlockId
  | b, [] => return b
  | b, r :: rs => do
    let b ← drop (r.inBlock b)
    dropAll b rs

theorem dropAll_passes {rs : List Result} (hb : u.context.ir.HasBlock b)
    (hrs : ∀ r ∈ rs, r.InBounds u.context) :
    Passes (dropAll b rs) (Lower.dropAll b rs) u fun b u' => u'.context.ir.HasBlock b := by
  induction rs generalizing u b with
  | nil => exact .pure hb
  | cons r rs ih =>
    obtain ⟨hr, hrs⟩ := List.forall_mem_cons.1 hrs
    refine (drop_passes (hr.inBlock hb)).bind fun b₁ u₁ hu₁ hb₁ => ?_
    exact ih hb₁ fun r hr => (hrs r hr).mono hu₁.grows.context

/-- Whether a type is `void`. -/
def isVoid (t : TypeId) : Checked Halt (Compilation σ) Bool :=
  read fun c => Pool.Checked.has c.pool t .isVoid

theorem isVoid_run {t : TypeId} (ht : u.context.pool.Has t) :
    isVoid t u = .ok (u.context.pool.isVoid t) u :=
  read_run (Pool.Checked.has_eq ht _)

/-! ## Tokens -/

/-- Reports a literal token whose text is no literal. -/
def failMalformed (node : NodeId) (expected : String) : Checked Halt (Compilation σ) α := do
  fail (Report.unexpectedElement (← span node) expected "expression" (← display node))

theorem failMalformed_passes (hnode : u.forest.Has node) (expected : String)
    {Q : α → Compilation σ → Prop} :
    Passes (failMalformed node expected) (Lower.failMalformed node expected) u Q :=
  .given fun hu => .read (span_reads hnode) (.read (display_reads hu hnode) fail_passes)

/-- An integer token is a constant of type `int`. -/
def integerToken (b : Ir.BlockId) (node : NodeId) (text : String) :
    Checked Halt (Compilation σ) Result := do
  let ty ← backendType .int
  match ← onContext (Context.Checked.attempt (Ir.Checked.constIntOfText ty true text)) with
  | .ok v => return .new b .int v
  | .error (.literalOutOfRange _ _) => do
    fail (Report.literalOutOfRange (← span node) text (← typeName .int))
  | .error _ => failMalformed node "integer literal"

theorem integerToken_passes (text : String) (hb : u.context.ir.HasBlock b)
    (hnode : u.forest.Has node) :
    Passes (integerToken b node text) (Lower.integerToken b node text) u
      fun r u' => r.InBounds u'.context := by
  refine .given fun hu => ?_
  have hint := hu.context.pool.has_primitive .int
  refine (backendType_passes hint).bind fun ty u₁ hu₁ hty => ?_
  have hnode₁ := hu₁.grows.has hnode
  refine (onContext_passes (Context.Checked.attempt_passes
    (Ir.Checked.constIntOfText_passes hty true text))).bind fun outcome u₂ hu₂ hv => ?_
  have hu₂' := hu₁.trans hu₂
  have hnode₂ := hu₂.grows.has hnode₁
  have hint₂ := hu₂'.grows.context.pool.has hint
  cases outcome with
  | ok v => exact .pure (.new (hu₂'.grows.context.ir.hasBlock hb) hint₂ (hv v rfl))
  | error e =>
    cases e with
    | literalOutOfRange _ _ =>
      exact .read (span_reads hnode₂) (.read (typeName_reads hu₂.inBounds hint₂) fail_passes)
    | _ => exact failMalformed_passes hnode₂ _

/-- A float token is a constant of type `float`. -/
def floatToken (b : Ir.BlockId) (node : NodeId) (text : String) :
    Checked Halt (Compilation σ) Result := do
  match Number.Binary64.read? text with
  | some value => do
    let ty ← backendType .float
    let v ← onModule (Ir.Checked.newValue ty (.constFloat value))
    return .new b .float v
  | none => failMalformed node "floating-point literal"

theorem floatToken_passes (text : String) (hb : u.context.ir.HasBlock b)
    (hnode : u.forest.Has node) :
    Passes (floatToken b node text) (Lower.floatToken b node text) u
      fun r u' => r.InBounds u'.context := by
  refine .given fun hu => ?_
  unfold floatToken Lower.floatToken
  cases Number.Binary64.read? text with
  | some value =>
    have hfloat := hu.context.pool.has_primitive .float
    refine (backendType_passes hfloat).bind fun ty u₁ hu₁ hty => ?_
    refine (onModule_passes (Ir.Checked.newValue_passes hty (by simp))).bind fun v u₂ hu₂ hv => ?_
    have hu₂' := (hu₁.trans hu₂).grows.context
    exact .pure (.new (hu₂'.ir.hasBlock hb) (hu₂'.pool.has hfloat) hv.1)
  | none => exact failMalformed_passes hnode _

/-- A string token is a pointer to its characters. -/
def stringToken (b : Ir.BlockId) (text : String) : Checked Halt (Compilation σ) Result := do
  let ty ← pointerTo .char
  let v ← onModule (Ir.Checked.globalText text)
  return .new b ty v

theorem stringToken_passes (text : String) (hb : u.context.ir.HasBlock b) :
    Passes (stringToken b text) (Lower.stringToken b text) u
      fun r u' => r.InBounds u'.context := by
  refine .given fun hu => ?_
  refine (pointerTo_passes (hu.context.pool.has_primitive .char)).bind fun ty u₁ hu₁ hty => ?_
  refine (onModule_passes (Ir.Checked.globalText_passes text)).bind fun v u₂ hu₂ hv => ?_
  exact .pure (.new ((hu₁.trans hu₂).grows.context.ir.hasBlock hb)
    (hu₂.grows.context.pool.has hty) hv)

/-- A truth value is a constant of type `bool`. -/
def truthValue (b : Ir.BlockId) (value : Bool) : Checked Halt (Compilation σ) Result := do
  let ty ← backendType .bool
  let v ← onModule (Ir.Checked.constInt ty (if value then 1 else 0))
  return .new b .bool v

theorem truthValue_passes (value : Bool) (hb : u.context.ir.HasBlock b) :
    Passes (truthValue b value) (Lower.truthValue b value) u
      fun r u' => r.InBounds u'.context := by
  refine .given fun hu => ?_
  have hbool := hu.context.pool.has_primitive .bool
  refine (backendType_passes hbool).bind fun ty u₁ hu₁ hty => ?_
  refine (onModule_passes (Ir.Checked.constInt_passes hty _)).bind fun v u₂ hu₂ hv => ?_
  have hu₂' := (hu₁.trans hu₂).grows.context
  exact .pure (.new (hu₂'.ir.hasBlock hb) (hu₂'.pool.has hbool) hv)

/-- A variable is borrowed. One in a slot is read and is an lvalue. -/
def variableRead (frame : Frame) (b : Ir.BlockId) (node : NodeId) (name : String) :
    Checked Halt (Compilation σ) Result := do
  match frame.scope.lookup? name with
  | none => fail (Report.variableNotInScope (← span node) name)
  | some ⟨ty, .value v⟩ => return (Result.new b ty v).ownedElsewhere
  | some ⟨ty, .slot address⟩ => do
    let v ← emit node (Ir.Checked.load b address)
    let addressTy ← pointerTo ty
    return ((Result.new b ty v).withLvalue address addressTy).ownedElsewhere

theorem variableRead_passes (name : String) (hframe : frame.InBounds u.context)
    (hb : u.context.ir.HasBlock b) (hnode : u.forest.Has node) :
    Passes (variableRead frame b node name) (Lower.variableRead frame b node name) u
      fun r u' => r.InBounds u'.context := by
  unfold variableRead Lower.variableRead
  cases hlookup : frame.scope.lookup? name with
  | none => exact .read (span_reads hnode) fail_passes
  | some v =>
    have hv := hframe.vars _ (mem_of_lookup hlookup)
    obtain ⟨ty, storage⟩ := v
    cases storage with
    | value value => exact .pure (Result.InBounds.new hb hv.ty (hv.value value rfl)).ownedElsewhere
    | slot address =>
      have haddress := hv.slot address rfl
      refine (emit_passes hnode (Ir.Checked.load_passes hb haddress)).bind fun v u₁ hu₁ hvalue => ?_
      have hty := hu₁.grows.context.pool.has hv.ty
      refine (pointerTo_passes hty).bind fun addressTy u₂ hu₂ haddressTy => .pure ?_
      have hu₂' := (hu₁.trans hu₂).grows.context
      have hread := Result.InBounds.new (hu₂'.ir.hasBlock hb) (hu₂'.pool.has hv.ty)
        (hu₂.grows.context.ir.hasValue hvalue)
      exact (hread.withLvalue (hu₂'.ir.hasValue haddress) haddressTy).ownedElsewhere

/-- The result of a symbol: a truth value or a variable. -/
def symbolToken (frame : Frame) (b : Ir.BlockId) (node : NodeId) (name : String) :
    Checked Halt (Compilation σ) Result :=
  if name = "true" then truthValue b true
  else if name = "false" then truthValue b false
  else variableRead frame b node name

/-- The result of a token. -/
def token (frame : Frame) (b : Ir.BlockId) (node : NodeId) (kind : TokenKind) (text : String) :
    Checked Halt (Compilation σ) Result :=
  match kind with
  | .integer => integerToken b node text
  | .float => floatToken b node text
  | .string => stringToken b text
  | .symbol => symbolToken frame b node text

theorem token_passes (kind : TokenKind) (text : String) (hframe : frame.InBounds u.context)
    (hb : u.context.ir.HasBlock b) (hnode : u.forest.Has node) :
    Passes (token frame b node kind text) (Lower.token frame b node kind text) u
      fun r u' => r.InBounds u'.context := by
  cases kind with
  | integer => exact integerToken_passes text hb hnode
  | float => exact floatToken_passes text hb hnode
  | string => exact stringToken_passes text hb
  | symbol =>
    exact .ite (fun _ => truthValue_passes true hb) fun _ =>
      .ite (fun _ => truthValue_passes false hb) fun _ => variableRead_passes text hframe hb hnode

/-! ## Pointers -/

/-- Requires a result to be a pointer to a value and returns the type of that value. -/
def expectPointee (r : Result) (node : NodeId) : Checked Halt (Compilation σ) TypeId := do
  match ← read fun c => Pool.Checked.pointee? c.pool r.ty with
  | some pointee => return pointee
  | none => fail (Report.nonPointerDereference (← span node) (← typeName r.ty))

theorem expectPointee_passes {r : Result} (hr : r.InBounds u.context) (hnode : u.forest.Has node) :
    Passes (expectPointee r node) (Lower.expectPointee r node) u
      fun pointee u' => u = u' ∧ u.context.pool.Has pointee := by
  refine .given fun hu => .checkedRead (read_run (Pool.Checked.pointee?_eq hr.ty))
    (.plainRead rfl ?_)
  cases hpointee : u.context.pool.pointee? r.ty with
  | some pointee => exact .pure ⟨rfl, hu.context.pool.has_of_pointee? hr.ty hpointee⟩
  | none => exact .read (span_reads hnode) (.read (typeName_reads hu hr.ty) fail_passes)

/-- `(@ pointer)` reads through a pointer. If only the address is wanted nothing is read and the
pointer itself is the result. -/
def dereference (sub : CheckedSub σ) (b : Ir.BlockId) (node : NodeId) (arguments : List NodeId)
    (addressOnly marked : Bool) : Checked Halt (Compilation σ) Result := do
  expectCount node CoreForm.deref.name arguments.length 1
  let argument ← demand (itemAt arguments 0)
  let pointer ← sub b argument
  let pointee ← expectPointee pointer argument
  if ← isVoid pointee then
    fail (Report.voidPointerDereference (← span argument))
  else
    let r ←
      if addressOnly then
        pure (Result.new pointer.block pointer.ty pointer.value)
      else do
        let v ← emit node (Ir.Checked.load pointer.block pointer.value)
        pure ((Result.new pointer.block pointee v).withLvalue
          pointer.value pointer.ty).ownedElsewhere
    let b ← drop pointer
    return ({ r with noCopy := marked }).inBlock b

theorem dereference_passes {g : CheckedSub σ} {x : Sub σ} (hsub : SubPasses frame g x)
    {arguments : List NodeId} (addressOnly marked : Bool) (hframe : frame.InBounds u.context)
    (hb : u.context.ir.HasBlock b) (hnode : u.forest.Has node)
    (harguments : ∀ n ∈ arguments, u.forest.Has n) :
    Passes (dereference g b node arguments addressOnly marked)
      (Lower.dereference x b node arguments addressOnly marked) u
      fun r u' => r.InBounds u'.context := by
  match arguments with
  | [] | _ :: _ :: _ => exact expect_unmet hnode (by simp)
  | [argument] =>
    refine expect_met rfl (.look rfl ?_)
    have hargument := harguments argument List.mem_cons_self
    refine (hsub u b argument hframe hb hargument).bind fun pointer u₁ hu₁ hpointer => ?_
    have hargument₁ := hu₁.grows.has hargument
    refine (expectPointee_passes hpointer hargument₁).bind ?_
    rintro pointee _ - ⟨rfl, hpointee⟩
    refine .checkedRead (isVoid_run hpointee) (.plainRead rfl (.ite (fun _ => ?_) fun _ => ?_))
    · exact .read (span_reads hargument₁) fail_passes
    · -- whether the value or only its address is wanted, the pointer is dropped after that
      have hrest : ∀ (r : Result) (u₂ : Compilation σ), Bounds.After u₁ u₂ → r.InBounds u₂.context →
          Passes (do return ({ r with noCopy := marked } : Result).inBlock (← drop pointer))
            (do return ({ r with noCopy := marked } : Result).inBlock (← Lower.drop pointer)) u₂
            fun (r : Result) u' => r.InBounds u'.context := fun r u₂ hu₂ hr => by
        refine (drop_passes (hpointer.mono hu₂.grows.context)).bind fun b u₃ hu₃ hb => .pure ?_
        have hr₃ := hr.mono hu₃.grows.context
        exact ⟨hr₃.ty, hr₃.value, hb, hr₃.address, hr₃.addressTy⟩
      refine .given fun hu₁' => .ite (fun _ => ?_) fun _ => ?_
      · exact hrest _ u₁ (.refl hu₁') (.new hpointer.block hpointer.ty hpointer.value)
      · refine (emit_passes (hu₁.grows.has hnode) (Ir.Checked.load_passes hpointer.block
          hpointer.value)).bind fun v u₂ hu₂ hv => hrest _ u₂ hu₂ ?_
        have hpointer₂ := hpointer.mono hu₂.grows.context
        have hread := Result.InBounds.new hpointer₂.block (hu₂.grows.context.pool.has hpointee) hv
        exact (hread.withLvalue hpointer₂.value hpointer₂.ty).ownedElsewhere

/-- The arguments of a form that reads through a pointer, unless a function shadows the form. -/
def derefArguments? (node : NodeId) : Checked Halt (Compilation σ) (Option (List NodeId)) := do
  let inner := (← items? node).getD []
  match inner.head? with
  | none => return none
  | some head =>
    match ← symbol? head with
    | none => return none
    | some name =>
      let shadowed ← read fun c => Context.Checked.hasFunction c name
      if CoreForm.ofName? name = some .deref ∧ shadowed = false then
        return some (← demand (itemsFrom inner 1))
      else
        return none

theorem derefArguments?_passes (hnode : u.forest.Has node) :
    Passes (derefArguments? node) (Lower.derefArguments? node) u
      fun inner u' => u = u' ∧ ∀ ns, inner = some ns → ∀ n ∈ ns, u.forest.Has n := by
  refine .given fun hu => .read (items?_reads hnode) ?_
  cases hitems : u.forest.items? node with
  | none => exact .pure ⟨rfl, nofun⟩
  | some items =>
    have hhas := hu.forest.has_items hnode (Forest.items?_eq_some.1 hitems)
    cases items with
    | nil => exact .pure ⟨rfl, nofun⟩
    | cons head arguments =>
      refine .read (symbol?_reads hu (hhas head List.mem_cons_self)) ?_
      cases u.forest.symbol? head with
      | none => exact .pure ⟨rfl, nofun⟩
      | some name =>
        refine .checkedRead (read_run (Context.Checked.hasFunction_eq hu.context name))
          (.plainRead rfl (.ite (fun _ => ?_) fun _ => .pure ⟨rfl, nofun⟩))
        refine .look itemsFrom_one (.pure ⟨rfl, ?_⟩)
        rintro _ ⟨⟩ n hn
        exact hhas n (List.mem_cons_of_mem _ hn)

/-- `(# lvalue)` is the address of the storage of an lvalue. `(# (@ pointer))` is the pointer. -/
def addressOf (sub : CheckedSub σ) (b : Ir.BlockId) (node : NodeId) (arguments : List NodeId) :
    Checked Halt (Compilation σ) Result := do
  expectCount node CoreForm.addressOf.name arguments.length 1
  let operand ← demand (itemAt arguments 0)
  match ← derefArguments? operand with
  | some inner => dereference sub b operand inner true false
  | none => do
    let r ← sub b operand
    match r.address, r.addressTy with
    | some address, some addressTy => return (Result.new r.block addressTy address).ownedElsewhere
    | _, _ => fail (Report.addressOfNonLvalue (← span operand))

theorem addressOf_passes {g : CheckedSub σ} {x : Sub σ} (hsub : SubPasses frame g x)
    {arguments : List NodeId} (hframe : frame.InBounds u.context)
    (hb : u.context.ir.HasBlock b) (hnode : u.forest.Has node)
    (harguments : ∀ n ∈ arguments, u.forest.Has n) :
    Passes (addressOf g b node arguments) (Lower.addressOf x b node arguments) u
      fun r u' => r.InBounds u'.context := by
  match arguments with
  | [] | _ :: _ :: _ => exact expect_unmet hnode (by simp)
  | [operand] =>
    have hoperand := harguments operand List.mem_cons_self
    refine expect_met rfl (.look rfl ((derefArguments?_passes hoperand).bind ?_))
    rintro inner _ - ⟨rfl, hinner⟩
    cases inner with
    | some inner => exact dereference_passes hsub true false hframe hb hoperand (hinner inner rfl)
    | none =>
      refine (hsub u b operand hframe hb hoperand).bind fun r u₁ hu₁ hr => ?_
      have hrefused : Passes (do fail (Report.addressOfNonLvalue (← span operand)))
          (do Lower.fail (Report.addressOfNonLvalue (← Lower.span operand))) u₁
          fun (r : Result) u' => r.InBounds u'.context :=
        .read (span_reads (hu₁.grows.has hoperand)) fail_passes
      cases haddress : r.address with
      | none => exact hrefused
      | some address =>
        cases haddressTy : r.addressTy with
        | none => exact hrefused
        | some addressTy =>
          exact .pure (Result.InBounds.new hr.block (hr.addressTy _ haddressTy)
            (hr.address _ haddress)).ownedElsewhere

/-! ## Assignment -/

/-- The copy function for assigning a value and the address to copy from. -/
def copyAssign? (c : Context) (r : Result) (destTy : TypeId) :
    Except Fault (Option (Ir.FuncId × Ir.ValueId)) := do
  if r.isLvalue && !r.noCopy then
    match r.address, r.addressTy with
    | some source, some sourceTy =>
      let callee? ← Context.Checked.lookupFunction? c Context.copyAssignName [destTy, sourceTy]
      return callee?.map fun f => (f.backend, source)
    | _, _ => return none
  else return none

theorem copyAssign?_eq {c : Context} (hc : c.InBounds) (r : Result) (destTy : TypeId) :
    copyAssign? c r destTy = .ok (Lower.copyAssign? c r destTy) := by
  unfold copyAssign? Lower.copyAssign?
  split
  · cases r.address with
    | none => rfl
    | some source =>
      cases r.addressTy with
      | none => rfl
      | some sourceTy =>
        dsimp only
        rw [Context.Checked.lookupFunction?_eq hc]
        rfl
  · rfl

/-- The copy function and the address are in range. -/
theorem copyAssign_inBounds {c : Context} (hc : c.InBounds) {r : Result} (hr : r.InBounds c)
    {destTy : TypeId} {callee : Ir.FuncId} {source : Ir.ValueId}
    (h : Lower.copyAssign? c r destTy = some (callee, source)) :
    c.ir.HasFunction callee ∧ c.ir.HasValue source := by
  unfold Lower.copyAssign? at h
  split at h
  · split at h
    next address addressTy haddress _ =>
      obtain ⟨f, hf, heq⟩ := Option.map_eq_some_iff.1 h
      obtain ⟨rfl, rfl⟩ := Prod.mk.inj heq
      exact ⟨(hc.lookupFunction hf).backend, hr.address _ haddress⟩
    next => cases h
  · cases h

/-- `(setf destination value)` assigns through a pointer and yields `true`. -/
def assignment (sub : CheckedSub σ) (b : Ir.BlockId) (node : NodeId) (arguments : List NodeId) :
    Checked Halt (Compilation σ) Result := do
  expectCount node CoreForm.setf.name arguments.length 2
  let destNode ← demand (itemAt arguments 0)
  let dest ← sub b destNode
  let pointee ← expectPointee dest destNode
  let valueNode ← demand (itemAt arguments 1)
  let value ← sub dest.block valueNode
  if value.ty ≠ pointee then
    fail (Report.incorrectValueType (← span valueNode) (← typeName pointee) (← typeName value.ty))
  else
    let b ←
      match ← read fun c => copyAssign? c value dest.ty with
      | some (callee, source) => do
        let _ ← emit node (Ir.Checked.call value.block callee [dest.value, source])
        drop value
      | none => do
        emit node (Ir.Checked.store value.block value.value dest.value)
        pure value.block
    let b ← drop (dest.inBlock b)
    truthValue b true

theorem assignment_passes {g : CheckedSub σ} {x : Sub σ} (hsub : SubPasses frame g x)
    {arguments : List NodeId} (hframe : frame.InBounds u.context)
    (hb : u.context.ir.HasBlock b) (hnode : u.forest.Has node)
    (harguments : ∀ n ∈ arguments, u.forest.Has n) :
    Passes (assignment g b node arguments) (Lower.assignment x b node arguments) u
      fun r u' => r.InBounds u'.context := by
  match arguments with
  | [] | [_] | _ :: _ :: _ :: _ => exact expect_unmet hnode (by simp)
  | [destNode, valueNode] =>
    have hdestNode := harguments destNode List.mem_cons_self
    have hvalueNode := harguments valueNode (by simp)
    refine expect_met rfl (.look rfl ?_)
    refine (hsub u b destNode hframe hb hdestNode).bind fun dest u₁ hu₁ hdest => ?_
    refine (expectPointee_passes hdest (hu₁.grows.has hdestNode)).bind ?_
    rintro pointee _ - ⟨rfl, hpointee⟩
    refine .look rfl ?_
    refine (hsub u₁ dest.block valueNode (hframe.mono hu₁.grows.context) hdest.block
      (hu₁.grows.has hvalueNode)).bind fun value u₂ hu₂ hvalue => ?_
    have hu₂' := hu₁.trans hu₂
    have hdest₂ := hdest.mono hu₂.grows.context
    have hnode₂ := hu₂'.grows.has hnode
    refine .ite (fun _ => ?_) fun _ => ?_
    · exact .read (span_reads (hu₂'.grows.has hvalueNode)) (.read (typeName_reads hu₂.inBounds
        (hu₂.grows.context.pool.has hpointee)) (.read (typeName_reads hu₂.inBounds hvalue.ty)
          fail_passes))
    · -- after the value is copied or stored, the destination is dropped
      have hrest : ∀ (b : Ir.BlockId) (u₃ : Compilation σ), Bounds.After u₂ u₃ →
          u₃.context.ir.HasBlock b →
          Passes (do truthValue (← drop (dest.inBlock b)) true)
            (do Lower.truthValue (← Lower.drop (dest.inBlock b)) true) u₃
            fun (r : Result) u' => r.InBounds u'.context := fun b u₃ hu₃ hb =>
        (drop_passes ((hdest₂.mono hu₃.grows.context).inBlock hb)).bind fun b u₄ _ hb =>
          truthValue_passes true hb
      refine .checkedRead (read_run (copyAssign?_eq hu₂.inBounds.context value dest.ty))
        (.plainRead rfl ?_)
      cases hcopy : Lower.copyAssign? u₂.context value dest.ty with
      | some found =>
        obtain ⟨callee, source⟩ := found
        obtain ⟨hcallee, hsource⟩ := copyAssign_inBounds hu₂.inBounds.context hvalue hcopy
        refine (emit_passes hnode₂ (Ir.Checked.call_passes hvalue.block hcallee
          (by simpa using ⟨hdest₂.value, hsource⟩))).bind fun _ u₃ hu₃ _ => ?_
        exact (drop_passes (hvalue.mono hu₃.grows.context)).bind fun b u₄ hu₄ hb =>
          hrest b u₄ (hu₃.trans hu₄) hb
      | none =>
        refine (emit_passes hnode₂ (Ir.Checked.store_passes hvalue.block hvalue.value
          hdest₂.value)).bind fun _ u₃ hu₃ _ => ?_
        exact hrest value.block u₃ hu₃ (hu₃.grows.context.ir.hasBlock hvalue.block)

end Lower.Checked

end FormCompiler
