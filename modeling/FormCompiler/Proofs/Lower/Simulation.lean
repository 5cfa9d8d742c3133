import FormCompiler.Proofs.Ir.Execution
import FormCompiler.Proofs.Lower.Meaning
import FormCompiler.Proofs.Lower.Plain

/-!
# Execution Follows Evaluation

`Simulated machine frame U u u' b task out` says of the code that was emitted for a task from the
unit `u` to `u'`: in the module of the later unit `U`, execution leads from the end of `b` to the
end of the block of the output, and the task evaluates to what the output stands for then, with the
calls that were made and the memory that was left.

* `Scope.environment`, `Result.datum` and `Output.data` say what variables, results and outputs
  stand for in a state of execution; later steps do not change that.
* There is one theorem for each rule of `Lowers` that emits code. The simulations of the parts are
  hypotheses of it.
* `Lowers.simulated` puts these together, by induction on derivations.
-/

namespace FormCompiler

section

variable {V M : Type}

/-- What the storage of a variable stands for. -/
def Storage.held (machine : Ir.Machine V M) (m : Ir.Module) (values : Ir.ValueId → V) :
    Storage → Held V
  | .value v => .value (machine.operand m values v)
  | .slot address => .slot (machine.operand m values address)

/-- What the variables of a scope stand for. -/
def Scope.environment (machine : Ir.Machine V M) (m : Ir.Module) (values : Ir.ValueId → V)
    (scope : Scope) : Environment V :=
  fun name => (scope.lookup? name).map fun v => (v.ty, v.storage.held machine m values)

/-- What a result stands for. -/
def Result.datum (machine : Ir.Machine V M) (m : Ir.Module) (values : Ir.ValueId → V)
    (r : Result) : Datum V where
  ty := r.ty
  value := machine.operand m values r.value
  place := r.address.bind fun address =>
    r.addressTy.map fun t => (machine.operand m values address, t)

/-- What an output stands for. -/
def Output.data (machine : Ir.Machine V M) (m : Ir.Module) (values : Ir.ValueId → V) :
    Output → List (Datum V)
  | .one r => [r.datum machine m values]
  | .many rs _ => rs.map (·.datum machine m values)

variable {machine : Ir.Machine V M} {later : Ir.Module} {c : Context} {s s' : Ir.State V M}

/-- The variables of a typed scope stand for what they stood for. -/
theorem Scope.Typed.environment_eq {scope : Scope} (h : scope.Typed c)
    (hadvances : machine.Advances later c.ir s s') :
    scope.environment machine later s'.values = scope.environment machine later s.values := by
  funext name
  unfold environment
  cases hlookup : scope.lookup? name with
  | none => rfl
  | some v =>
    cases h name v hlookup with
    | value inTable => simp only [Option.map_some, Storage.held, hadvances.operand inTable]
    | slot inTable => simp only [Option.map_some, Storage.held, hadvances.operand inTable]

/-- A typed result stands for what it stood for. -/
theorem Result.Typed.datum_eq {r : Result} (h : r.Typed c)
    (hadvances : machine.Advances later c.ir s s') :
    r.datum machine later s'.values = r.datum machine later s.values := by
  unfold datum
  rw [hadvances.operand h.inTable]
  cases haddress : r.address with
  | none => rfl
  | some address =>
    obtain ⟨t, ht, inTable, -⟩ := h.addressed address haddress
    rw [ht, Option.bind_some, Option.bind_some, Option.map_some, Option.map_some,
      hadvances.operand inTable]

end

/-! ## The later unit -/

namespace Pool

variable {p p' : Pool} {t : TypeId}

/-- A pointer type that was entered is the same later. -/
theorem Extends.pointerTo_fst (h : (p.pointerTo t).2.Extends p') :
    (p'.pointerTo t).1 = (p.pointerTo t).1 := by
  have hfound := h.find? (intern_spec p (.pointer t)).2
  change (p'.intern (.pointer t)).1 = _
  rw [intern, hfound]
  rfl

/-- Pointers are not `void`. -/
theorem Extends.isVoid_pointerTo (h : (p.pointerTo t).2.Extends p') :
    p'.isVoid (p.pointerTo t).1 = false := by
  have hfound := h.find? (intern_spec p (.pointer t)).2
  rw [isVoid, pointerTo, type_of_getElem? (type_of_find hfound)]
  rfl

/-- Of the primitive types only `void` is `void`. -/
theorem Sound.isVoid_ofPrimitive (h : p.Sound) (q : Primitive) :
    p.isVoid (.ofPrimitive q) = (q == .void) := by
  rw [isVoid, type_of_getElem? (t := .ofPrimitive q) (h.primitives q)]
  rfl

end Pool

/-- The backend type is what represents a type. -/
theorem Context.Backs.represent_eq {c : Context} {t : TypeId} {ty : Ir.TyId}
    (h : c.Backs t ty) : c.represent t = ty := by
  rw [Context.represent, h.backendType]

namespace Result.Typed

variable {c : Context} {r : Result}

/-- The value of a typed result has the type that represents that of the result. -/
theorem represent_eq (h : r.Typed c) : c.represent r.ty = c.ir.valueType r.value :=
  h.backs.represent_eq

/-- The value is of type `void` if the result is. -/
theorem void_iff (h : r.Typed c) (hc : c.Valid) :
    c.ir.type (c.ir.valueType r.value) = .void ↔ c.pool.isVoid r.ty = true :=
  h.backs.void_iff hc.layouts

end Result.Typed

namespace Compilation.Kept

variable {σ : Type} {scope : Scope} {u U : Compilation σ}

/-- Nodes of a plain unit keep their shape. -/
theorem shape_eq (h : Compilation.Kept scope u U) (hu : u.Plain) (node : NodeId) :
    U.shape node = u.shape node := by
  have hforest := h.forest hu.noMacros
  have hlist : ∀ items, U.listShape items = u.listShape items := by
    intro items
    cases items with
    | nil => rfl
    | cons head arguments =>
      unfold Compilation.listShape Compilation.markedShape
      simp only [hforest, h.context.hasFunction]
  unfold Compilation.shape
  simp only [hforest, hlist]

/-- What was typed is so in the later unit. -/
theorem typed (h : Compilation.Kept scope u U) {r : Result} (hr : r.Typed u.context) :
    r.Typed U.context := hr.mono h.steady h.context.ir

end Compilation.Kept

namespace Lower

variable {σ V M : Type} {machine : Ir.Machine V M} {frame : Frame} {U u u' : Compilation σ}
  {b : Ir.BlockId} {node : NodeId} {r : Result}

/-- Code for expressions of the frame may be emitted to the block of a plain unit. -/
structure Ready (frame : Frame) (u : Compilation σ) (b : Ir.BlockId) : Prop where
  settled : u.Settled frame.scope
  plain : u.Plain
  inTable : b.index < u.context.ir.blocks.size
  isOpen : u.context.ir.isTerminated b = false

section

variable {task : Task} {es : List Event} {out : Output}

/-- Where the code of an expression leads. -/
theorem Ready.leads (hu : Ready frame u b) (h : Lowers frame u b task es u' out) :
    Ir.Module.Leads b u.context.ir out.block u'.context.ir :=
  h.leads hu.settled hu.plain hu.inTable hu.isOpen

/-- More code may be emitted after that for an expression. -/
theorem Lowers.ready (h : Lowers frame u b task es u' out) (hu : Ready frame u b) :
    Ready frame u' out.block :=
  ⟨h.kept.settled hu.settled, h.kept.plain hu.plain, (hu.leads h).inTable, (hu.leads h).isOpen⟩

/-- The shape of a node in a later unit. -/
theorem Lowers.shape_eq (h : Lowers frame u b task es u' out) (hu : Ready frame u b)
    (hU : Compilation.Kept frame.scope u' U) (node : NodeId) : U.shape node = u.shape node :=
  (IsTrans.trans _ _ _ h.kept hU).shape_eq hu.plain node

end

/-- Executing the code evaluates the task, in the module of a later unit. -/
def Simulated (machine : Ir.Machine V M) (frame : Frame) (U u u' : Compilation σ)
    (b : Ir.BlockId) (task : Task) (out : Output) : Prop :=
  ∀ s : Ir.State V M, s.At u.context.ir b → ∃ calls s',
    U.Evaluates machine (frame.scope.environment machine U.context.ir s.values) s.memory task
      calls s'.memory (out.data machine U.context.ir s'.values) ∧
    machine.Advances U.context.ir u.context.ir s s' ∧ s'.At u'.context.ir out.block ∧
    s'.calls = s.calls ++ calls

/-! ## Constants -/

/-- A constant stands for what the machine takes it for. -/
theorem IsConstant.datum_eq {kind : Ir.ValueKind} {t : TypeId} (h : IsConstant kind b t r u u')
    (hkind : kind.isConstant = true) (hU : Compilation.Kept frame.scope u' U)
    (hvalid : U.context.Valid) (hvoid : U.context.pool.isVoid t = false)
    (values : Ir.ValueId → V) :
    r.datum machine U.context.ir values = U.constant machine t kind := by
  have htyped := hU.typed h.typed
  have hty : r.ty = t := by rw [h.result]; rfl
  have hnotVoid : U.context.ir.type (U.context.ir.valueType r.value) ≠ .void := by
    rw [Ne, htyped.void_iff hvalid, hty, hvoid]
    decide
  have hkind' : U.context.ir.valueKind r.value = kind :=
    Ir.Module.valueKind_of_getElem? (hU.context.ir.values.getElem?_some h.fresh.value)
  have hvalue : machine.operand U.context.ir values r.value =
      machine.constant (U.context.represent t) kind := by
    rw [Ir.Machine.operand_constant hnotVoid hkind' (by rintro rfl; cases hkind)
      (by rintro _ _ rfl; cases hkind), ← htyped.represent_eq, hty]
  have haddress : r.address = none := by rw [h.result]; rfl
  rw [Result.datum, Compilation.constant, hvalue, hty, haddress]
  rfl

/-- A constant takes no steps. -/
theorem IsConstant.advances {kind : Ir.ValueKind} {t : TypeId} {s : Ir.State V M}
    (h : IsConstant kind b t r u u') (hs : s.At u.context.ir b) :
    s.At u'.context.ir r.block := by
  rw [h.result]
  exact hs.still h.fresh.still

/-- A form that is a constant. -/
theorem IsConstant.simulated {kind : Ir.ValueKind} {t : TypeId} (h : IsConstant kind b t r u u')
    (hkind : kind.isConstant = true) (hU : Compilation.Kept frame.scope u' U)
    (hvalid : U.context.Valid) (hvoid : U.context.pool.isVoid t = false)
    (heval : ∀ env memory, U.Evaluates machine env memory (.form node) [] memory
      [U.constant machine t kind]) :
    Simulated machine frame U u u' b (.form node) (.one r) := by
  intro s hs
  refine ⟨[], s, ?_, .refl _ _ _ s, h.advances hs, by simp⟩
  rw [Output.data, h.datum_eq hkind hU hvalid hvoid]
  exact heval _ _

/-! ## Variables and memory -/

/-- A result that was read stands for what is at the address. -/
theorem advances_loaded (machine : Ir.Machine V M) {m m' : Ir.Module} {s : Ir.State V M}
    {address : Ir.ValueId} {addressTy : TypeId} (hr : r.Typed U.context) (hvalid : U.context.Valid)
    (hvoid : U.context.pool.isVoid r.ty = false)
    (hemitted : Ir.Module.Emitted b (.load r.value address) m m')
    (hlater : m'.Extends U.context.ir) (hb : b.index < m.blocks.size) (hs : s.At m b)
    (hlt : address.index < m.values.size) (haddress : r.address = some address)
    (haddressTy : r.addressTy = some addressTy) :
    ∃ s', machine.Advances U.context.ir m s s' ∧ s'.At m' b ∧ s'.memory = s.memory ∧
      s'.calls = s.calls ∧ r.datum machine U.context.ir s'.values = U.loaded machine s'.memory r.ty
        (machine.operand U.context.ir s.values address) addressTy := by
  have hnotVoid : U.context.ir.type (U.context.ir.valueType r.value) ≠ .void := by
    rw [Ne, hr.void_iff hvalid, hvoid]
    decide
  obtain ⟨s', hadvances, hat, hmemory, hcalls, hvalue⟩ :=
    Ir.Machine.advances_load machine hemitted hlater hb hs hnotVoid
  refine ⟨s', hadvances, hat, hmemory, hcalls, ?_⟩
  rw [Result.datum, Compilation.loaded, hvalue, hr.represent_eq, haddress, haddressTy, hmemory,
    Option.bind_some, Option.map_some, hadvances.operand hlt]

/-- A variable with a value. -/
theorem value_simulated {name : String} {ty : TypeId} {v : Ir.ValueId}
    (shape : U.shape node = .variable name)
    (lookup : frame.scope.lookup? name = some ⟨ty, .value v⟩) :
    Simulated machine frame U u u b (.form node) (.one (Result.new b ty v).ownedElsewhere) := by
  intro s hs
  refine ⟨[], s, .value shape ?_, .refl _ _ _ s, hs, by simp⟩
  rw [Scope.environment, lookup]
  rfl

/-- A variable in a slot is read. -/
theorem slot_simulated {name : String} {ty : TypeId} {address v : Ir.ValueId} {ir : Ir.Module}
    (hu : Ready frame u b) (symbol : u.forest.symbol? node = some name)
    (notTrue : name ≠ "true") (notFalse : name ≠ "false")
    (lookup : frame.scope.lookup? name = some ⟨ty, .slot address⟩)
    (load : Ir.Module.load b address u.context.ir = .ok v ir)
    (hU : Compilation.Kept frame.scope
      (u.withContext ((u.context.withIr ir).withPool (u.context.pool.pointerTo ty).2)) U)
    (shape : U.shape node = .variable name) :
    Simulated machine frame U u
      (u.withContext ((u.context.withIr ir).withPool (u.context.pool.pointerTo ty).2)) b
      (.form node) (.one ((Result.new b ty v).withLvalue address
        (u.context.pool.pointerTo ty).1).ownedElsewhere) := by
  intro s hs
  have hlower := Lowers.slot symbol notTrue notFalse lookup load
  have hkept := IsTrans.trans _ _ _ hlower.kept hU
  have hr : Result.Typed _ _ := hlower.typed hu.settled
  cases hu.settled.scope _ _ lookup with
  | slot inTable notVoid backs =>
    have hvoid : U.context.pool.isVoid ty = false := by
      rw [hkept.steady.isVoid backs.index_lt, notVoid]
    obtain ⟨s', hadvances, hat, hmemory, hcalls, hdatum⟩ := advances_loaded machine
      (hU.typed hr) (hkept.settled hu.settled).valid hvoid
      ((Ir.Module.load_ends _ _ _).of_ok load).1 hU.context.ir hu.inTable hs inTable rfl rfl
    refine ⟨[], s', ?_, hadvances, hat, by rw [hcalls, List.append_nil]⟩
    rw [Output.data, hdatum, hmemory, ← hU.context.pool.grown.pointerTo_fst]
    refine .slot shape ?_
    rw [Scope.environment, lookup]
    rfl

/-- What a pointer points to is read. -/
theorem deref_simulated {u₁ u₂ : Compilation σ} {argument : NodeId} {marked : Bool}
    {b' : Ir.BlockId} {es es' : List Event} {pointer : Result} {pointee : TypeId}
    {v : Ir.ValueId} {ir : Ir.Module}
    (hu : Ready frame u b) (core : u.IsCore node .deref [argument] marked)
    (operand : Lowers frame u b (.form argument) es u₁ (.one pointer))
    (points : u₁.context.pool.pointee? pointer.ty = some pointee)
    (notVoid : u₁.context.pool.isVoid pointee = false)
    (load : Ir.Module.load pointer.block pointer.value u₁.context.ir = .ok v ir)
    (drop : Dropped pointer (u₁.withIr ir) es' u₂ b') (hU : Compilation.Kept frame.scope u₂ U)
    (ih : Simulated machine frame U u u₁ b (.form argument) (.one pointer)) :
    Simulated machine frame U u u₂ b (.form node) (.one
      { ((Result.new b' pointee v).withLvalue pointer.value pointer.ty).ownedElsewhere
        with noCopy := marked }) := by
  intro s hs
  obtain ⟨calls, s₁, heval, hadvances₁, hat₁, hcalls₁⟩ := ih s hs
  have hlower := Lowers.deref core operand points notVoid load drop
  have hr : Result.Typed _ _ := hlower.typed hu.settled
  have hpointer : pointer.Typed u₁.context := operand.typed hu.settled
  have hu₁ := operand.ready hu
  have hstep : Compilation.Kept frame.scope u₁ (u₁.withIr ir) :=
    kept_withIr frame.scope ((Ir.Module.load_keeps _ _).ok load)
  obtain ⟨rfl, rfl⟩ := drop.of_plain (hstep.plain hu₁.plain)
  -- the load happens in the final module, where its instruction stands as it was emitted
  have hkept := IsTrans.trans _ _ _ hstep hU
  have hshape := (IsTrans.trans _ _ _ hlower.kept hU).shape_eq hu.plain node
  obtain ⟨inner, hinner, -⟩ := hpointer.backs.of_pointee? points notVoid
  have hvoid : U.context.pool.isVoid pointee = false := by
    rw [hkept.steady.isVoid hinner.index_lt, notVoid]
  obtain ⟨s', hadvances, hat, hmemory, hcalls, hdatum⟩ := advances_loaded machine
    (hU.typed hr) (hkept.settled hu₁.settled).valid hvoid
    ((Ir.Module.load_ends _ _ _).of_ok load).1 hU.context.ir hu₁.inTable hat₁ hpointer.inTable
    rfl rfl
  refine ⟨calls, s', ?_, hadvances₁.trans hadvances operand.kept.size_le, hat,
    hcalls.trans hcalls₁⟩
  rw [Output.data, hdatum, hmemory]
  exact .deref (hshape.trans core.shape) heval (hkept.context.pool.grown.pointee? points)

/-- The address of an lvalue is taken. -/
theorem addressOf_simulated {u₁ : Compilation σ} {operand : NodeId} {lvalue : Result}
    {address : Ir.ValueId} {addressTy : TypeId} (shape : U.shape node = .core .addressOf [operand])
    (hasAddress : lvalue.address = some address) (hasType : lvalue.addressTy = some addressTy)
    (ih : Simulated machine frame U u u₁ b (.form operand) (.one lvalue)) :
    Simulated machine frame U u u₁ b (.form node)
      (.one (Result.new lvalue.block addressTy address).ownedElsewhere) := by
  intro s hs
  obtain ⟨calls, s', heval, hadvances, hat, hcalls⟩ := ih s hs
  refine ⟨calls, s', .addressOf shape heval ?_, hadvances, hat, hcalls⟩
  rw [Result.datum, hasAddress, hasType]
  rfl

/-- The address of what a pointer points to is the pointer. Nothing is read. -/
theorem addressOfDeref_simulated {u₁ : Compilation σ} {operand argument : NodeId}
    {pointer : Result} {pointee : TypeId} (shape : U.shape node = .core .addressOf [operand])
    (inner : U.shape operand = .core .deref [argument])
    (points : U.context.pool.pointee? pointer.ty = some pointee)
    (ih : Simulated machine frame U u u₁ b (.form argument) (.one pointer)) :
    Simulated machine frame U u u₁ b (.form node)
      (.one (Result.new pointer.block pointer.ty pointer.value)) := by
  intro s hs
  obtain ⟨calls, s', heval, hadvances, hat, hcalls⟩ := ih s hs
  exact ⟨calls, s', .addressOf shape (.deref inner heval points) rfl, hadvances, hat, hcalls⟩

/-! ## One task after the other -/

/-- A typed output stands for what it stood for. -/
theorem GivesTyped.data_eq {c : Context} {later : Ir.Module} {out : Output} {s s' : Ir.State V M}
    (h : GivesTyped c out) (hadvances : machine.Advances later c.ir s s') :
    out.data machine later s'.values = out.data machine later s.values := by
  cases out with
  | one r => exact congrArg (fun d => [d]) (Result.Typed.datum_eq h hadvances)
  | many rs block => exact List.map_congr_left fun r hr => (h r hr).datum_eq hadvances

/-- Two tasks are evaluated in the same environment, and what the first one gave stands for the same
after the second one. -/
theorem Simulated.andThen {u₁ u₂ : Compilation σ} {task task₁ : Task} {es : List Event}
    {out out₁ : Output} (h : Simulated machine frame U u u₁ b task out)
    (h₁ : Simulated machine frame U u₁ u₂ out.block task₁ out₁) (hu : Ready frame u b)
    (hlower : Lowers frame u b task es u₁ out) {s : Ir.State V M} (hs : s.At u.context.ir b) :
    ∃ calls calls' memory s',
      U.Evaluates machine (frame.scope.environment machine U.context.ir s.values) s.memory task
        calls memory (out.data machine U.context.ir s'.values) ∧
      U.Evaluates machine (frame.scope.environment machine U.context.ir s.values) memory task₁
        calls' s'.memory (out₁.data machine U.context.ir s'.values) ∧
      machine.Advances U.context.ir u.context.ir s s' ∧ s'.At u₂.context.ir out₁.block ∧
      s'.calls = s.calls ++ (calls ++ calls') := by
  obtain ⟨calls, s₁, heval, hadvances, hat, hcalls⟩ := h s hs
  obtain ⟨calls', s', heval', hadvances', hat', hcalls'⟩ := h₁ s₁ hat
  rw [hu.settled.scope.environment_eq hadvances] at heval'
  rw [← (hlower.typed hu.settled).data_eq hadvances'] at heval
  exact ⟨calls, calls', s₁.memory, s', heval, heval',
    hadvances.trans hadvances' hlower.kept.size_le, hat',
    by rw [hcalls', hcalls, List.append_assoc]⟩

/-- A value is written where a pointer points to. -/
theorem assign_simulated {u₁ u₂ u₃ u₄ : Compilation σ} {b₁ : Ir.BlockId}
    {destNode valueNode : NodeId} {marked : Bool} {es es₁ es₂ : List Event}
    {dest value : Result} {ir : Ir.Module} (hu : Ready frame u b)
    (core : u.IsCore node .setf [destNode, valueNode] marked)
    (destination : Lowers frame u b (.form destNode) es u₁ (.one dest))
    (points : u₁.context.pool.pointee? dest.ty = some value.ty)
    (assigned : Lowers frame u₁ dest.block (.form valueNode) es₁ u₂ (.one value))
    (store : Ir.Module.store value.block value.value dest.value u₂.context.ir = .ok ⟨⟩ ir)
    (dropDest : Dropped (dest.inBlock value.block) (u₂.withIr ir) es₂ u₃ b₁)
    (run : truthValue b₁ true u₃ = .ok r u₄) (hU : Compilation.Kept frame.scope u₄ U)
    (ih : Simulated machine frame U u u₁ b (.form destNode) (.one dest))
    (ih₁ : Simulated machine frame U u₁ u₂ dest.block (.form valueNode) (.one value)) :
    Simulated machine frame U u u₄ b (.form node) (.one r) := by
  intro s hs
  obtain ⟨calls, calls', memory, s₂, heval, heval', hadvances, hat, hcalls⟩ :=
    ih.andThen ih₁ hu destination hs
  have hu₁ := destination.ready hu
  have hu₂ := assigned.ready hu₁
  have hvalue : value.Typed u₂.context := assigned.typed hu₁.settled
  have hstep : Compilation.Kept frame.scope u₂ (u₂.withIr ir) :=
    kept_withIr frame.scope ((Ir.Module.store_keeps _ _ _).ok store)
  obtain ⟨rfl, rfl⟩ := dropDest.of_plain (hstep.plain hu₂.plain)
  have hconstant := truthValue_ok (hstep.settled hu₂.settled).valid run
  have hkept₂ := IsTrans.trans _ _ _ ((truthValue_keeps frame.scope _ _).ok run) hU
  have hkept₁ := IsTrans.trans _ _ _ hstep hkept₂
  have hkept := IsTrans.trans _ _ _ (IsTrans.trans _ _ _ destination.kept assigned.kept) hkept₁
  have hvalid := (hkept.settled hu.settled).valid
  obtain ⟨s₃, hstored, hat₃, hcalls₃, hmemory⟩ := Ir.Machine.advances_store machine
    ((Ir.Module.store_ends _ _ _ _).of_ok store).1 hkept₂.context.ir hu₂.inTable hat
  -- what the destination points to is the same in the final context
  have hpoints := (IsTrans.trans _ _ _ assigned.kept hkept₁).context.pool.grown.pointee? points
  have hevals := Compilation.Evaluates.assign ((hkept.shape_eq hu.plain node).trans core.shape)
    heval heval' hpoints
  refine ⟨calls ++ calls', s₃, ?_, hadvances.trans hstored
    (IsTrans.trans _ _ _ destination.kept assigned.kept).size_le, hconstant.advances hat₃,
    hcalls₃.trans hcalls⟩
  rw [Output.data, hconstant.datum_eq rfl hU hvalid (hvalid.pool.isVoid_ofPrimitive .bool), hmemory,
    ← (hkept₁.typed hvalue).represent_eq]
  exact hevals

/-- Forms are evaluated in order. -/
theorem next_simulated {u₁ u₂ u₃ : Compilation σ} {b₁ : Ir.BlockId} {following : NodeId}
    {rest : List NodeId} {es es₁ : List Event} {r' : Result} (hu : Ready frame u b)
    (form : Lowers frame u b (.form node) es u₁ (.one r)) (drop : Dropped r u₁ es₁ u₂ b₁)
    (ih : Simulated machine frame U u u₁ b (.form node) (.one r))
    (ih₁ : Simulated machine frame U u₂ u₃ b₁ (.forms following rest) (.one r')) :
    Simulated machine frame U u u₃ b (.forms node (following :: rest)) (.one r') := by
  intro s hs
  obtain ⟨rfl, rfl⟩ := drop.of_plain (form.ready hu).plain
  obtain ⟨calls, calls', memory, s', heval, heval', hrest⟩ := ih.andThen ih₁ hu form hs
  exact ⟨calls ++ calls', s', .next heval heval', hrest⟩

/-- Arguments are evaluated in order. -/
theorem more_simulated {u₁ u₂ : Compilation σ} {b₁ : Ir.BlockId} {nodes : List NodeId}
    {es : List Event} {rs : List Result} (hu : Ready frame u b)
    (form : Lowers frame u b (.form node) es u₁ (.one r))
    (ih : Simulated machine frame U u u₁ b (.form node) (.one r))
    (ih₁ : Simulated machine frame U u₁ u₂ r.block (.arguments nodes) (.many rs b₁)) :
    Simulated machine frame U u u₂ b (.arguments (node :: nodes)) (.many (r :: rs) b₁) := by
  intro s hs
  obtain ⟨calls, calls', memory, s', heval, heval', hrest⟩ := ih.andThen ih₁ hu form hs
  exact ⟨calls ++ calls', s', .more heval heval', hrest⟩

/-- A string token enters the type of pointers to characters. -/
theorem stringToken_pool {text : String} (h : stringToken b text u = .ok r u') :
    u'.context.pool = (u.context.pool.pointerTo .char).2 := by
  unfold stringToken at h
  obtain ⟨t, u₁, h₁, h⟩ := bind_ok_iff.1 h
  obtain ⟨rfl, rfl⟩ := onState_ok_iff.1 h₁
  obtain ⟨v, u₂, h₂, h⟩ := bind_ok_iff.1 h
  obtain ⟨rfl, rfl⟩ := onModule_ok_iff.1 h₂
  obtain ⟨rfl, rfl⟩ := pure_ok_iff.1 h
  rfl

/-- The value of type `void` is of that type in every later module. -/
theorem voidValue_type {v : Ir.ValueId} {later : Ir.Module}
    (h : onState Context.voidValue u = .ok v u') (hlater : u'.context.ir.Extends later) :
    later.type (later.valueType v) = .void := by
  obtain ⟨ty, hfound, hfresh⟩ := voidValue_fresh h
  rw [Ir.Module.valueType_of_getElem? (hlater.values.getElem?_some hfresh.value), Ir.Module.type,
    Array.getD_eq_getD_getElem?, Ir.Module.type_of_find (hlater.findType? hfound), Option.getD_some]

/-! ## Calls -/

/-- A function is called with the values of its arguments. -/
theorem call_simulated {u₂ u₃ u₄ : Compilation σ} {b₁ b₂ : Ir.BlockId} {name : String}
    {argumentNodes : List NodeId} {es es₁ : List Event} {rs : List Result} {callee : Function}
    {returned : Option Ir.ValueId} {v : Ir.ValueId} {ir : Ir.Module} (hu : Ready frame u b)
    (isCall : u.IsCall node name argumentNodes)
    (arguments : Lowers frame u b (.arguments argumentNodes) es u₂ (.many rs b₁))
    (lookup : u₂.context.lookupFunction? name (rs.map (·.ty)) = some callee)
    (call : Ir.Module.call b₁ callee.backend (rs.map (·.value)) u₂.context.ir = .ok returned ir)
    (result : (returned = some v ∧ u₃ = u₂.withIr ir) ∨
      (returned = none ∧ onState Context.voidValue (u₂.withIr ir) = .ok v u₃))
    (drop : DroppedAll rs u₃ b₁ es₁ u₄ b₂) (hU : Compilation.Kept frame.scope u₄ U)
    (ih : Simulated machine frame U u u₂ b (.arguments argumentNodes) (.many rs b₁)) :
    Simulated machine frame U u u₄ b (.form node) (.one (Result.new b₂ callee.returnType v)) := by
  intro s hs
  obtain ⟨calls, s₁, heval, hadvances, hat, hcalls⟩ := ih s hs
  have hu₂ : Ready frame u₂ b₁ := arguments.ready hu
  have hstep : Compilation.Kept frame.scope u₂ u₃ := call_kept call result
  obtain ⟨rfl, rfl⟩ := drop.of_plain (hstep.plain hu₂.plain)
  have hkept₂ := IsTrans.trans _ _ _ hstep hU
  have hkept := IsTrans.trans _ _ _ arguments.kept hkept₂
  have hvalid := (hkept.settled hu.settled).valid
  have htyped : (Result.new b₂ callee.returnType v).Typed U.context :=
    hU.typed (call_typed hu₂.settled lookup call result)
  have hstill : ir.Still u₄.context.ir := by
    rcases result with ⟨-, rfl⟩ | ⟨-, hvoid⟩
    · exact .refl ir
    · obtain ⟨_, -, hfresh⟩ := voidValue_fresh hvoid
      exact hfresh.still
  obtain ⟨s', hcalled, hat', hmemory, hcalls', hvalue⟩ :=
    Ir.Machine.advances_call machine ((Ir.Module.call_ends _ _ _ _).of_ok call).1
      (hstill.toExtends.trans hU.context.ir) hu₂.inTable hat
  -- the machine takes the operands from the values of the results, which are the data of the
  -- arguments
  have hxs : ((Output.many rs b₂).data machine U.context.ir s₁.values).map (·.value) =
      (rs.map (·.value)).map (machine.operand U.context.ir s₁.values) := by
    rw [Output.data, List.map_map, List.map_map]
    rfl
  have htys : ((Output.many rs b₂).data machine U.context.ir s₁.values).map (·.ty) =
      rs.map (·.ty) := by
    rw [Output.data, List.map_map]
    rfl
  have hevals := Compilation.Evaluates.call ((hkept.shape_eq hu.plain node).trans isCall.shape)
    heval (by rw [htys, hkept₂.context.lookupFunction?, lookup])
  rw [hxs, ← hmemory] at hevals
  refine ⟨_, s', ?_, hadvances.trans hcalled arguments.kept.size_le, hat'.still hstill,
    by rw [hcalls', hcalls, List.append_assoc]⟩
  -- a call without a value gives the unit, and any other the value that the machine returned
  have hreturned : machine.operand U.context.ir s'.values v =
      if U.context.pool.isVoid callee.returnType then machine.unit
      else (machine.call callee.backend
        ((rs.map (·.value)).map (machine.operand U.context.ir s₁.values)) s₁.memory).1 := by
    split
    next hvoid => exact Ir.Machine.operand_void ((htyped.void_iff hvalid).2 hvoid)
    next hvoid =>
      rcases result with ⟨rfl, -⟩ | ⟨-, hrun⟩
      · exact hvalue v rfl (mt (htyped.void_iff hvalid).1 hvoid)
      · exact absurd ((htyped.void_iff hvalid).1 (voidValue_type hrun hU.context.ir)) hvoid
  rw [Output.data, Result.datum]
  exact hreturned ▸ hevals

/-! ## Conditionals -/

/-- After a fork code may be emitted to the first branch, and then to the second one. -/
theorem fork_ready {task : Task} {es : List Event} {out : Output}
    {condition : Ir.ValueId} {thenEntry elseEntry : Ir.BlockId} {m m' ir : Ir.Module}
    (hu : Ready frame u b)
    (appendThen : Ir.Module.appendBlock frame.func "then" u.context.ir = (thenEntry, m))
    (appendElse : Ir.Module.appendBlock frame.func "else" m = (elseEntry, m'))
    (branch : Ir.Module.condBr b condition thenEntry elseEntry m' = .ok ⟨⟩ ir)
    (thenForm : Lowers frame (u.withIr ir) thenEntry task es u' out) :
    Ir.Module.Forked b u.context.ir ir thenEntry elseEntry ∧
      Ready frame (u.withIr ir) thenEntry ∧ Ready frame u' elseEntry := by
  have hkept : Compilation.Kept frame.scope u (u.withIr ir) :=
    branch_kept appendThen appendElse branch
  have hforked := Ir.Module.Forked.of_closed hu.inTable appendThen appendElse
    ((Ir.Module.condBr_ends _ _ _ _ _).of_ok branch)
  have hready : Ready frame (u.withIr ir) thenEntry :=
    ⟨hkept.settled hu.settled, hkept.plain hu.plain, hforked.lt_onTrue, hforked.openTrue⟩
  obtain ⟨hlt, hopen⟩ := hforked.ready_onFalse (hready.leads thenForm)
  have hready' := thenForm.ready hready
  exact ⟨hforked, hready, hready'.settled, hready'.plain, hlt, hopen⟩

/-- Control goes to the first branch if the condition is true, else to the second one. -/
theorem branch_simulated (machine : Ir.Machine V M) {func : Ir.FuncId} {condition : Ir.ValueId}
    {thenEntry elseEntry : Ir.BlockId} {m m₁ m₂ ir later : Ir.Module} {s : Ir.State V M}
    (hb : b.index < m.blocks.size) (hs : s.At m b)
    (appendThen : Ir.Module.appendBlock func "then" m = (thenEntry, m₁))
    (appendElse : Ir.Module.appendBlock func "else" m₁ = (elseEntry, m₂))
    (branch : Ir.Module.condBr b condition thenEntry elseEntry m₂ = .ok ⟨⟩ ir)
    (hlater : ir.Extends later) :
    machine.step? later s = some (Ir.Machine.enter s
      (if machine.truth (machine.operand later s.values condition) then thenEntry
        else elseEntry)) := by
  obtain ⟨-, hsize₁, -, hblock₁⟩ := Ir.Module.appendBlock_spec appendThen
  obtain ⟨-, hsize₂, -, hblock₂⟩ := Ir.Module.appendBlock_spec appendElse
  have hblock : m₂.block b = m.block b := (hblock₂ b (by omega)).trans (hblock₁ b hb)
  exact Ir.Machine.step?_of_condBr ((Ir.Module.condBr_ends _ _ _ _ _).of_ok branch) hlater
    (by omega) (hs.of_block hblock)

/-- The branch that was taken. -/
inductive Taken (onTrue onFalse : Result) : Result → Prop
  | onTrue : Taken onTrue onFalse onTrue
  | onFalse : Taken onTrue onFalse onFalse

/-- The values to merge are told apart by the blocks that they come from. -/
theorem Taken.find?_eq {onTrue onFalse taken : Result} (h : Taken onTrue onFalse taken)
    (hne : onFalse.block ≠ onTrue.block) :
    [(onTrue.value, onTrue.block), (onFalse.value, onFalse.block)].find?
      (fun entry => some entry.2 == some taken.block) = some (taken.value, taken.block) := by
  cases h with
  | onTrue => rw [List.find?_cons_of_pos (by simp)]
  | onFalse =>
    rw [List.find?_cons_of_neg (by simpa using hne.symm), List.find?_cons_of_pos (by simp)]

/-- From the end of either branch control goes to the block they are merged in. -/
theorem join_simulated (machine : Ir.Machine V M) {func : Ir.FuncId}
    {thenEntry elseEntry target : Ir.BlockId} {onTrue onFalse taken : Result}
    {m m₁ m₂ m₃ m₄ ir later : Ir.Module} {s : Ir.State V M}
    (hforked : Ir.Module.Forked b m m₁ thenEntry elseEntry)
    (hTrue : Ir.Module.Leads thenEntry m₁ onTrue.block m₂)
    (hFalse : Ir.Module.Leads elseEntry m₂ onFalse.block m₃)
    (happend : Ir.Module.appendBlock func "merge" m₃ = (target, m₄))
    (hjoin : join onTrue.block onFalse.block target m₄ = .ok ⟨⟩ ir) (hlater : ir.Extends later)
    (htaken : Taken onTrue onFalse taken) (hs : s.At m₃ taken.block) :
    machine.step? later s = some (Ir.Machine.enter s target) ∧
      (Ir.Machine.enter s target).At ir target := by
  obtain ⟨-, hsize, -, hblock⟩ := Ir.Module.appendBlock_spec happend
  obtain ⟨m₅, hclosed, hclosed'⟩ := join_ok hjoin
  have hempty := (hforked.merged hTrue hFalse happend hclosed hclosed').2
  have hltTrue : onTrue.block.index < m₃.blocks.size :=
    Nat.lt_of_lt_of_le hTrue.inTable hFalse.confined.extended.blocks
  have hltFalse := hFalse.inTable
  have hsize₅ := hclosed.size_blocks
  refine ⟨?_, Ir.Machine.at_enter s hempty⟩
  -- the jump of the first branch is emitted first, and that of the second leaves it as it is
  cases htaken with
  | onTrue =>
    exact Ir.Machine.step?_of_br hclosed (hclosed'.toExtends.trans hlater) (by omega)
      (hs.of_block (hblock _ hltTrue))
  | onFalse =>
    have hother := hclosed.block_of_ne (hforked.ends_ne hTrue hFalse)
    exact Ir.Machine.step?_of_br hclosed' hlater (by omega)
      (hs.of_block (hother.trans (hblock _ hltFalse)))

/-- The merged result stands for what the result of the branch that was taken stood for. -/
theorem merge_simulated (machine : Ir.Machine V M) {thenEntry elseEntry : Ir.BlockId}
    {onTrue onFalse taken : Result} {m m₁ m₂ : Ir.Module} {s : Ir.State V M}
    (hforked : Ir.Module.Forked b m m₁ thenEntry elseEntry)
    (hTrue : Ir.Module.Leads thenEntry m₁ onTrue.block m₂)
    (hFalse : Ir.Module.Leads elseEntry m₂ onFalse.block u.context.ir)
    (hmerge : merge frame node onTrue onFalse u = .ok r u') (htyped : onTrue.Typed u.context)
    (hsame : onTrue.ty = onFalse.ty) (hU : Compilation.Kept frame.scope u' U)
    (hu : u.Settled frame.scope) (htaken : Taken onTrue onFalse taken)
    (htaken' : taken.Typed u.context) (hs : s.At u.context.ir taken.block) :
    ∃ s', machine.Advances U.context.ir u.context.ir s s' ∧ s'.At u'.context.ir r.block ∧
      s'.memory = s.memory ∧ s'.calls = s.calls ∧ r.datum machine U.context.ir s'.values =
        ⟨taken.ty, machine.operand U.context.ir s.values taken.value, none⟩ := by
  have hr := hU.typed (merge_typed htyped hmerge)
  have hkept := IsTrans.trans _ _ _ ((merge_keeps frame.scope _ _ _ _).ok hmerge) hU
  have hvalid := (hkept.settled hu).valid
  have hty : onTrue.ty = taken.ty := by
    cases htaken with
    | onTrue => rfl
    | onFalse => exact hsame
  obtain ⟨target, v, m₃, ir, happend, hjoin, rfl, hvalue⟩ := merge_ok hmerge
  have hresult : ∀ values : Ir.ValueId → V, machine.operand U.context.ir values v =
        machine.operand U.context.ir s.values taken.value →
      Result.datum machine U.context.ir values
        ⟨onTrue.ty, v, target, false, none, none, false, onTrue.borrowed⟩ =
        ⟨taken.ty, machine.operand U.context.ir s.values taken.value, none⟩ := by
    intro values hoperand
    rw [Result.datum, hoperand, hty]
    rfl
  split at hvalue
  next hvoid =>
    -- nothing is chosen between values of type `void`
    have hfresh := (voidValue_fresh hvalue).choose_spec.2
    obtain ⟨hstep, hat⟩ := join_simulated machine hforked hTrue hFalse happend hjoin
      (hfresh.still.toExtends.trans hU.context.ir) htaken hs
    refine ⟨_, .of_step hstep rfl _, hat.still hfresh.still, rfl, rfl, hresult _ ?_⟩
    have htakenVoid : U.context.pool.isVoid taken.ty = true := by
      rw [← hty, hkept.steady.isVoid htyped.backs.index_lt, hvoid]
    rw [Ir.Machine.operand_void (voidValue_type hvalue hU.context.ir),
      Ir.Machine.operand_void (((hkept.typed htaken').void_iff hvalid).2 htakenVoid)]
  next hvoid =>
    obtain ⟨ir', hphi, rfl⟩ := hvalue
    have hemitted := ((Ir.Module.phi_ends _ _ _).of_ok hphi).1
    obtain ⟨hstep, hat⟩ := join_simulated machine hforked hTrue hFalse happend hjoin
      (hemitted.toExtends.trans hU.context.ir) htaken hs
    have hnotVoid : U.context.ir.type (U.context.ir.valueType v) ≠ .void := by
      refine mt (hr.void_iff hvalid).1 ?_
      rw [hkept.steady.isVoid htyped.backs.index_lt]
      exact hvoid
    have hfound : [(onTrue.value, onTrue.block), (onFalse.value, onFalse.block)].find?
        (fun entry => some entry.2 == (Ir.Machine.enter s target).previous) =
          some (taken.value, taken.block) := by
      rw [Ir.Machine.enter, hs.block]
      exact htaken.find?_eq (hforked.ends_ne hTrue hFalse)
    obtain ⟨m₅, hclosed, hclosed'⟩ := join_ok hjoin
    have hinTable := (hforked.merged hTrue hFalse happend hclosed hclosed').1.inTable
    obtain ⟨s', hadvances, hat', hmemory, hcalls, hvalue⟩ := Ir.Machine.advances_phi
      machine hemitted hU.context.ir hinTable hat hfound hnotVoid
    have hsize : u.context.ir.values.size ≤ ir.values.size :=
      (merge_extends happend hjoin).values.size_le
    exact ⟨s', (Ir.Machine.Advances.of_step hstep rfl _).trans hadvances hsize, hat', hmemory,
      hcalls, hresult _ hvalue⟩

/-- From the entry of the branch that was chosen execution evaluates that branch. -/
theorem taken_simulated {u₁ u₂ : Compilation σ} {thenEntry elseEntry : Ir.BlockId}
    {thenNode elseNode : NodeId} {onTrue onFalse : Result} {m : Ir.Module}
    (hforked : Ir.Module.Forked b m u.context.ir thenEntry elseEntry)
    (hTrue : Ir.Module.Leads thenEntry u.context.ir onTrue.block u₁.context.ir)
    (hFalse : Ir.Module.Leads elseEntry u₁.context.ir onFalse.block u₂.context.ir)
    (ih : Simulated machine frame U u u₁ thenEntry (.form thenNode) (.one onTrue))
    (ih₁ : Simulated machine frame U u₁ u₂ elseEntry (.form elseNode) (.one onFalse))
    (chosen : Bool) (s : Ir.State V M) :
    ∃ taken calls s', Taken onTrue onFalse taken ∧
      U.Evaluates machine (frame.scope.environment machine U.context.ir s.values) s.memory
        (.form (if chosen then thenNode else elseNode)) calls s'.memory
        [taken.datum machine U.context.ir s'.values] ∧
      machine.Advances U.context.ir u.context.ir
        (Ir.Machine.enter s (if chosen then thenEntry else elseEntry)) s' ∧
      s'.At u₂.context.ir taken.block ∧ s'.calls = s.calls ++ calls := by
  cases chosen with
  | true =>
    obtain ⟨calls, s', heval, hadvances, hat, hcalls⟩ :=
      ih _ (Ir.Machine.at_enter s hforked.instrsTrue)
    exact ⟨onTrue, calls, s', .onTrue, heval, hadvances,
      hat.of_block (hforked.endTrue_block hTrue hFalse), hcalls⟩
  | false =>
    have hentry := (Ir.Machine.at_enter s hforked.instrsFalse).of_block
      (hforked.onFalse_block hTrue)
    obtain ⟨calls, s', heval, hadvances, hat, hcalls⟩ := ih₁ _ hentry
    exact ⟨onFalse, calls, s', .onFalse, heval, (Ir.Machine.Advances.refl _ _ _ _).trans hadvances
      hTrue.confined.extended.values.size_le, hat, hcalls⟩

/-- Only the branch that the condition chooses is evaluated. -/
theorem conditional_simulated {u₁ u₂ u₃ u₄ u₅ u₆ : Compilation σ}
    {b₁ thenEntry elseEntry : Ir.BlockId} {conditionNode thenNode elseNode : NodeId}
    {marked : Bool} {es es₁ es₂ es₃ : List Event}
    {condition onTrue onFalse onTrue' onFalse' : Result} {m m' ir : Ir.Module}
    (hu : Ready frame u b)
    (core : u.IsCore node .conditional [conditionNode, thenNode, elseNode] marked)
    (test : Lowers frame u b (.form conditionNode) es u₁ (.one condition))
    (isBool : condition.ty = .bool) (drop : Dropped condition u₁ es₁ u₂ b₁)
    (appendThen : Ir.Module.appendBlock frame.func "then" u₂.context.ir = (thenEntry, m))
    (appendElse : Ir.Module.appendBlock frame.func "else" m = (elseEntry, m'))
    (branch : Ir.Module.condBr b₁ condition.value thenEntry elseEntry m' = .ok ⟨⟩ ir)
    (thenForm : Lowers frame (u₂.withIr ir) thenEntry (.form thenNode) es₂ u₃ (.one onTrue))
    (elseForm : Lowers frame u₃ elseEntry (.form elseNode) es₃ u₄ (.one onFalse))
    (sameType : onTrue.ty = onFalse.ty)
    (unify : unifyOwnership node onTrue onFalse u₄ = .ok (onTrue', onFalse') u₅)
    (merge : Lower.merge frame node onTrue' onFalse' u₅ = .ok r u₆)
    (hU : Compilation.Kept frame.scope u₆ U)
    (ih : Simulated machine frame U u u₁ b (.form conditionNode) (.one condition))
    (ih₁ : Simulated machine frame U (u₂.withIr ir) u₃ thenEntry (.form thenNode) (.one onTrue))
    (ih₂ : Simulated machine frame U u₃ u₄ elseEntry (.form elseNode) (.one onFalse)) :
    Simulated machine frame U u u₆ b (.form node) (.one r) := by
  intro s hs
  obtain ⟨calls, s₁, heval, hadvances, hat, hcalls⟩ := ih s hs
  have hu₁ : Ready frame u₁ condition.block := test.ready hu
  obtain ⟨rfl, rfl⟩ := drop.of_plain hu₁.plain
  have hbranch : Compilation.Kept frame.scope u₂ (u₂.withIr ir) :=
    branch_kept appendThen appendElse branch
  obtain ⟨hforked, huThen, huElse⟩ := fork_ready hu₁ appendThen appendElse branch thenForm
  have hTrue := huThen.leads thenForm
  have hFalse := huElse.leads elseForm
  have hu₄ := elseForm.ready huElse
  have htypedTrue : onTrue.Typed u₄.context :=
    elseForm.kept.typed (thenForm.typed huThen.settled)
  have htypedFalse : onFalse.Typed u₄.context := elseForm.typed huElse.settled
  obtain ⟨rfl, borrowed, rfl, rfl⟩ := unifyOwnership_of_plain hu₄.plain unify
  have hkept₄ := IsTrans.trans _ _ _ ((merge_keeps frame.scope _ _ _ _).ok merge) hU
  have hkept₃ := IsTrans.trans _ _ _ elseForm.kept hkept₄
  have hkept₂ := IsTrans.trans _ _ _ hbranch (IsTrans.trans _ _ _ thenForm.kept hkept₃)
  have hkept := IsTrans.trans _ _ _ test.kept hkept₂
  have hshape := (hkept.shape_eq hu.plain node).trans core.shape
  have hstep := branch_simulated machine hu₁.inTable hat appendThen appendElse branch
    (IsTrans.trans _ _ _ thenForm.kept hkept₃).context.ir
  obtain ⟨taken, calls', s₂, htaken, heval₂, hadvances₂, hat₂, hcalls₂⟩ := taken_simulated hforked
    hTrue hFalse ih₁ ih₂ (machine.truth (machine.operand U.context.ir s₁.values condition.value)) s₁
  have htypedTaken : taken.Typed u₅.context := by
    cases htaken with
    | onTrue => exact htypedTrue
    | onFalse => exact htypedFalse
  have htaken' : Taken { onTrue with borrowed } { onFalse with borrowed } { taken with borrowed } :=
    by cases htaken <;> constructor
  obtain ⟨s₃, hadvances₃, hat₃, hmemory, hcalls₃, hdatum⟩ := merge_simulated machine
    hforked (by exact hTrue) (by exact hFalse) merge
    ⟨htypedTrue.inTable, htypedTrue.backs, htypedTrue.addressed⟩ sameType hU hu₄.settled
    htaken' ⟨htypedTaken.inTable, htypedTaken.backs, htypedTaken.addressed⟩ hat₂
  -- what was evaluated in the branch, in the environment of the start
  rw [hu.settled.scope.environment_eq hadvances] at heval₂
  have hevals := Compilation.Evaluates.conditional hshape heval isBool heval₂
  have hrun₂ := (Ir.Machine.Advances.of_step hstep rfl u₂.context.ir).trans hadvances₂
    hbranch.size_le
  have hrun₃ := hrun₂.trans hadvances₃ (IsTrans.trans _ _ _ hbranch (IsTrans.trans _ _ _
    thenForm.kept elseForm.kept)).size_le
  refine ⟨calls ++ calls', s₃, ?_, hadvances.trans hrun₃ test.kept.size_le, hat₃,
    by rw [hcalls₃, hcalls₂, hcalls, List.append_assoc]⟩
  rw [Output.data, hdatum, hmemory]
  exact hevals

/-! ## Derivations -/

/-- Executing the code of a derivation evaluates its task. -/
theorem Lowers.simulated {task : Task} {es : List Event} {out : Output}
    (h : Lowers frame u b task es u' out) (hu : Ready frame u b)
    (hU : Compilation.Kept frame.scope u' U) :
    Simulated machine frame U u u' b task out := by
  have hvalid := ((IsTrans.trans _ _ _ h.kept hU).settled hu.settled).valid
  have hvoid := hvalid.pool.isVoid_ofPrimitive
  induction h with
  | @integer u u' b node text r kind run =>
    obtain ⟨bits, raw, hwidth, hliteral, hconstant⟩ := integerToken_ok hu.settled.valid run
    have hshape : U.shape node = .integer (u.forest.names.text text) := by
      rw [(Lowers.integer kind run).shape_eq hu hU, Compilation.shape, kind]
    have hty : U.context.represent .int = u'.context.ir.valueType r.value :=
      (hconstant.backs.mono hU.steady).represent_eq
    refine hconstant.simulated rfl hU hvalid (hvoid .int) fun env memory =>
      .integer hshape ?_ hliteral
    rw [hty]
    exact hU.context.ir.intWidth? hwidth
  | @float u u' b node text r kind run =>
    obtain ⟨value, hread, hconstant⟩ := floatToken_ok hu.settled.valid run
    have hshape : U.shape node = .float (u.forest.names.text text) := by
      rw [(Lowers.float kind run).shape_eq hu hU, Compilation.shape, kind]
    exact hconstant.simulated rfl hU hvalid (hvoid .float) fun env memory => .float hshape hread
  | @string u u' b node text r kind run =>
    have hshape : U.shape node = .string (u.forest.names.text text) := by
      rw [(Lowers.string kind run).shape_eq hu hU, Compilation.shape, kind]
    have hpool : (u.context.pool.pointerTo .char).2.Extends U.context.pool :=
      stringToken_pool run ▸ hU.context.pool.grown
    refine (stringToken_ok hu.settled.valid run).simulated rfl hU hvalid hpool.isVoid_pointerTo
      fun env memory => ?_
    rw [← hpool.pointerTo_fst]
    exact .string hshape
  | @truth u u' b node r value symbol run =>
    have hshape : U.shape node = .truth value := by
      rw [(Lowers.truth value symbol run).shape_eq hu hU, Compilation.shape_of_symbol symbol]
      cases value <;> rfl
    exact (truthValue_ok hu.settled.valid run).simulated rfl hU hvalid (hvoid .bool)
      fun env memory => .truth hshape
  | @value u b node name ty v symbol notTrue notFalse lookup =>
    refine value_simulated ?_ lookup
    rw [hU.shape_eq hu.plain, Compilation.shape_of_symbol symbol, Compilation.symbolShape,
      if_neg notTrue, if_neg notFalse]
  | slot symbol notTrue notFalse lookup load =>
    refine slot_simulated hu symbol notTrue notFalse lookup load hU ?_
    rw [(Lowers.slot symbol notTrue notFalse lookup load).shape_eq hu hU,
      Compilation.shape_of_symbol symbol, Compilation.symbolShape, if_neg notTrue, if_neg notFalse]
  | deref core operand points notVoid load drop ih =>
    have hload := kept_withIr frame.scope ((Ir.Module.load_keeps _ _).ok load)
    exact deref_simulated hu core operand points notVoid load drop hU
      (ih hu (IsTrans.trans _ _ _ hload (IsTrans.trans _ _ _ (drop.kept _) hU)))
  | addressOfDeref core deref inner points notVoid drop ih =>
    have hshape := (Lowers.addressOfDeref core deref inner points notVoid drop).shape_eq hu hU
    have hU₁ := IsTrans.trans _ _ _ (drop.kept frame.scope) hU
    obtain ⟨rfl, rfl⟩ := drop.of_plain (inner.ready hu).plain
    exact addressOfDeref_simulated ((hshape _).trans core.shape) ((hshape _).trans deref.shape)
      (hU.context.pool.grown.pointee? points) (ih hu hU₁)
  | addressOf core notDeref inner hasAddress hasType ih =>
    exact addressOf_simulated ((inner.shape_eq hu hU _).trans core.shape) hasAddress hasType
      (ih hu hU)
  | assignCopy core destination points assigned copy call dropValue dropDest run ih ih₁ =>
    rw [copyAssign?_of_plain (assigned.ready (destination.ready hu)).plain] at copy
    cases copy
  | assignMove core destination points assigned noCopy store dropDest run ih ih₁ =>
    have hstore := kept_withIr frame.scope ((Ir.Module.store_keeps _ _ _).ok store)
    have hU₂ := IsTrans.trans _ _ _ hstore (IsTrans.trans _ _ _ (dropDest.kept _)
      (IsTrans.trans _ _ _ ((truthValue_keeps frame.scope _ _).ok run) hU))
    exact assign_simulated hu core destination points assigned store dropDest run hU
      (ih hu (IsTrans.trans _ _ _ assigned.kept hU₂)) (ih₁ (destination.ready hu) hU₂)
  | sequence core forms ih =>
    intro s hs
    obtain ⟨calls, s', heval, hrest⟩ := ih hu hU s hs
    exact ⟨calls, s', .sequence ((forms.shape_eq hu hU _).trans core.shape) heval, hrest⟩
  | last form ih =>
    intro s hs
    obtain ⟨calls, s', heval, hrest⟩ := ih hu hU s hs
    exact ⟨calls, s', .last heval, hrest⟩
  | next form drop forms ih ih₁ =>
    have hU₁ := IsTrans.trans _ _ _ (drop.kept frame.scope) (IsTrans.trans _ _ _ forms.kept hU)
    have hu₁ := form.ready hu
    refine next_simulated hu form drop (ih hu hU₁) ?_
    obtain ⟨rfl, rfl⟩ := drop.of_plain hu₁.plain
    exact ih₁ hu₁ hU
  | conditional core test isBool drop appendThen appendElse branch thenForm elseForm sameType unify
      merge ih ih₁ ih₂ =>
    have hU₄ := IsTrans.trans _ _ _ ((unifyOwnership_keeps frame.scope _ _ _).ok unify)
      (IsTrans.trans _ _ _ ((merge_keeps frame.scope _ _ _ _).ok merge) hU)
    have hU₃ := IsTrans.trans _ _ _ elseForm.kept hU₄
    have hU₂ := IsTrans.trans _ _ _ (branch_kept appendThen appendElse branch)
      (IsTrans.trans _ _ _ thenForm.kept hU₃)
    have hu₁ : Ready frame _ _ := test.ready hu
    have hdrop := drop.of_plain hu₁.plain
    obtain ⟨-, huThen, huElse⟩ :=
      fork_ready (by rw [hdrop.1, hdrop.2]; exact hu₁) appendThen appendElse branch thenForm
    exact conditional_simulated hu core test isBool drop appendThen appendElse branch thenForm
      elseForm sameType unify merge hU (ih hu (IsTrans.trans _ _ _ (drop.kept _) hU₂))
      (ih₁ huThen hU₃) (ih₂ huElse hU₄)
  | call isCall offer arguments lookup call result drop ih =>
    obtain ⟨-, rfl⟩ := offer_of_plain hu.plain offer
    exact call_simulated hu isCall arguments lookup call result drop hU (ih hu
      (IsTrans.trans _ _ _ (call_kept call result) (IsTrans.trans _ _ _ (drop.kept _) hU)))
  | expanded isCall offer form ih =>
    obtain ⟨hanswer, -⟩ := offer_of_plain hu.plain offer
    cases hanswer
  | none => exact fun s hs => ⟨[], s, .none, .refl _ _ _ s, hs, by simp⟩
  | more form arguments ih ih₁ =>
    exact more_simulated hu form (ih hu (IsTrans.trans _ _ _ arguments.kept hU))
      (ih₁ (form.ready hu) hU)

end Lower

end FormCompiler
