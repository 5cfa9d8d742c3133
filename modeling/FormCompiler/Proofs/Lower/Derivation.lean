import FormCompiler.Proofs.Lower.Inversion

/-!
# Derivations of Expressions

`Lowers frame u b task events u' out` says how an expression was processed with success: one rule
for each kind of form, whose premises are the steps the handler took, in order. Every expression
that gives a result has a derivation (`process_lowers`), so a property of all expressions is proved
by induction on derivations.

Besides the result a derivation has the events that ownership is about: which values were read from
storage, which were cleaned up, and where `(# (@ pointer))` handed on a pointer.
-/

namespace FormCompiler

/-- What happens to a value in a derivation. -/
inductive Event where
  /-- The value was read from a slot or through a pointer. -/
  | read (value : Ir.ValueId)
  /-- Code that cleans up the value was emitted. -/
  | cleaned (value : Ir.ValueId)
  /-- The pointer was dropped, and is the result of taking the address of what it points to. -/
  | exposed (pointer : Ir.ValueId)
deriving DecidableEq

/-- What is derived: the processing of a form, of the forms of a sequence, or of arguments. -/
inductive Task where
  | form (node : NodeId)
  | forms (first : NodeId) (rest : List NodeId)
  | arguments (nodes : List NodeId)

/-- What a derivation gives: one result, or those of arguments and the block to go on from. -/
inductive Output where
  | one (r : Result)
  | many (rs : List Result) (block : Ir.BlockId)

namespace Lower

open Compilation

variable {σ : Type}

/-- A result was dropped: either no code was emitted, or the value was cleaned up. -/
inductive Dropped (r : Result) (u : Compilation σ) :
    List Event → Compilation σ → Ir.BlockId → Prop
  | idle {r' : Result} {c : Context} (run : Context.destruct r u.context = .ok r' c)
      (same : c.ir.blocks = u.context.ir.blocks) : Dropped r u [] (u.withContext c) r'.block
  | cleaned {r' : Result} {c : Context} (run : Context.destruct r u.context = .ok r' c)
      (differ : c.ir.blocks ≠ u.context.ir.blocks) :
      Dropped r u [.cleaned r.value] (u.withContext c) r'.block

/-- Results were dropped one after the other. -/
inductive DroppedAll : List Result → Compilation σ → Ir.BlockId → List Event →
    Compilation σ → Ir.BlockId → Prop
  | nil {u : Compilation σ} {b : Ir.BlockId} : DroppedAll [] u b [] u b
  | cons {r : Result} {rs : List Result} {u u₁ u₂ : Compilation σ} {b b₁ b₂ : Ir.BlockId}
      {es es' : List Event} (first : Dropped (r.inBlock b) u es u₁ b₁)
      (rest : DroppedAll rs u₁ b₁ es' u₂ b₂) : DroppedAll (r :: rs) u b (es ++ es') u₂ b₂

/-- The event of handing on a pointer, which matters if values of its type own resources. -/
def exposure (c : Context) (pointer : Result) : List Event :=
  if (c.destructor? pointer.ty).isSome then [.exposed pointer.value] else []

/-- The processing of a task that succeeded, with its events. -/
inductive Lowers (frame : Frame) : Compilation σ → Ir.BlockId → Task → List Event →
    Compilation σ → Output → Prop
  | integer {u u' : Compilation σ} {b : Ir.BlockId} {node : NodeId} {text : Name} {r : Result}
      (kind : u.forest.kind node = .token ⟨.integer, text⟩)
      (run : integerToken b node (u.forest.names.text text) u = .ok r u') :
      Lowers frame u b (.form node) [] u' (.one r)
  | float {u u' : Compilation σ} {b : Ir.BlockId} {node : NodeId} {text : Name} {r : Result}
      (kind : u.forest.kind node = .token ⟨.float, text⟩)
      (run : floatToken b node (u.forest.names.text text) u = .ok r u') :
      Lowers frame u b (.form node) [] u' (.one r)
  | string {u u' : Compilation σ} {b : Ir.BlockId} {node : NodeId} {text : Name} {r : Result}
      (kind : u.forest.kind node = .token ⟨.string, text⟩)
      (run : stringToken b (u.forest.names.text text) u = .ok r u') :
      Lowers frame u b (.form node) [] u' (.one r)
  | truth {u u' : Compilation σ} {b : Ir.BlockId} {node : NodeId} {r : Result} (value : Bool)
      (symbol : u.forest.symbol? node = some (if value then "true" else "false"))
      (run : truthValue b value u = .ok r u') : Lowers frame u b (.form node) [] u' (.one r)
  | value {u : Compilation σ} {b : Ir.BlockId} {node : NodeId} {name : String} {ty : TypeId}
      {v : Ir.ValueId} (symbol : u.forest.symbol? node = some name) (notTrue : name ≠ "true")
      (notFalse : name ≠ "false") (lookup : frame.scope.lookup? name = some ⟨ty, .value v⟩) :
      Lowers frame u b (.form node) [] u (.one (Result.new b ty v).ownedElsewhere)
  | slot {u : Compilation σ} {b : Ir.BlockId} {node : NodeId} {name : String} {ty : TypeId}
      {address v : Ir.ValueId} {ir : Ir.Module} (symbol : u.forest.symbol? node = some name)
      (notTrue : name ≠ "true") (notFalse : name ≠ "false")
      (lookup : frame.scope.lookup? name = some ⟨ty, .slot address⟩)
      (load : Ir.Module.load b address u.context.ir = .ok v ir) :
      Lowers frame u b (.form node) [.read v]
        (u.withContext ((u.context.withIr ir).withPool (u.context.pool.pointerTo ty).2))
        (.one ((Result.new b ty v).withLvalue address
          (u.context.pool.pointerTo ty).1).ownedElsewhere)
  | deref {u u₁ u₂ : Compilation σ} {b b' : Ir.BlockId} {node argument : NodeId} {marked : Bool}
      {es es' : List Event} {pointer : Result} {pointee : TypeId} {v : Ir.ValueId}
      {ir : Ir.Module} (core : u.IsCore node .deref [argument] marked)
      (operand : Lowers frame u b (.form argument) es u₁ (.one pointer))
      (points : u₁.context.pool.pointee? pointer.ty = some pointee)
      (notVoid : u₁.context.pool.isVoid pointee = false)
      (load : Ir.Module.load pointer.block pointer.value u₁.context.ir = .ok v ir)
      (drop : Dropped pointer (u₁.withIr ir) es' u₂ b') :
      Lowers frame u b (.form node) (es ++ .read v :: es') u₂
        (.one { ((Result.new b' pointee v).withLvalue pointer.value pointer.ty).ownedElsewhere with
          noCopy := marked })
  | addressOfDeref {u u₁ u₂ : Compilation σ} {b b' : Ir.BlockId} {node operand argument : NodeId}
      {marked : Bool} {es es' : List Event} {pointer : Result} {pointee : TypeId}
      (core : u.IsCore node .addressOf [operand] marked) (deref : u.IsDeref operand [argument])
      (inner : Lowers frame u b (.form argument) es u₁ (.one pointer))
      (points : u₁.context.pool.pointee? pointer.ty = some pointee)
      (notVoid : u₁.context.pool.isVoid pointee = false)
      (drop : Dropped pointer u₁ es' u₂ b') :
      Lowers frame u b (.form node) (es ++ es' ++ exposure u₁.context pointer) u₂
        (.one (Result.new b' pointer.ty pointer.value))
  | addressOf {u u₁ : Compilation σ} {b : Ir.BlockId} {node operand : NodeId} {marked : Bool}
      {es : List Event} {r : Result} {address : Ir.ValueId} {addressTy : TypeId}
      (core : u.IsCore node .addressOf [operand] marked)
      (notDeref : ∀ arguments, ¬ u.IsDeref operand arguments)
      (inner : Lowers frame u b (.form operand) es u₁ (.one r))
      (hasAddress : r.address = some address) (hasType : r.addressTy = some addressTy) :
      Lowers frame u b (.form node) es u₁
        (.one (Result.new r.block addressTy address).ownedElsewhere)
  | assignCopy {u u₁ u₂ u₃ u₄ u₅ : Compilation σ} {b b₁ b₂ : Ir.BlockId}
      {node destNode valueNode : NodeId} {marked : Bool} {es es₁ es₂ es₃ : List Event}
      {dest value r : Result} {callee : Ir.FuncId} {source : Ir.ValueId}
      {returned : Option Ir.ValueId} {ir : Ir.Module}
      (core : u.IsCore node .setf [destNode, valueNode] marked)
      (destination : Lowers frame u b (.form destNode) es u₁ (.one dest))
      (points : u₁.context.pool.pointee? dest.ty = some value.ty)
      (assigned : Lowers frame u₁ dest.block (.form valueNode) es₁ u₂ (.one value))
      (copy : copyAssign? u₂.context value dest.ty = some (callee, source))
      (call : Ir.Module.call value.block callee [dest.value, source] u₂.context.ir =
        .ok returned ir)
      (dropValue : Dropped value (u₂.withIr ir) es₂ u₃ b₁)
      (dropDest : Dropped (dest.inBlock b₁) u₃ es₃ u₄ b₂)
      (run : truthValue b₂ true u₄ = .ok r u₅) :
      Lowers frame u b (.form node) (es ++ es₁ ++ es₂ ++ es₃) u₅ (.one r)
  | assignMove {u u₁ u₂ u₃ u₄ : Compilation σ} {b b₁ : Ir.BlockId}
      {node destNode valueNode : NodeId} {marked : Bool} {es es₁ es₂ : List Event}
      {dest value r : Result} {ir : Ir.Module}
      (core : u.IsCore node .setf [destNode, valueNode] marked)
      (destination : Lowers frame u b (.form destNode) es u₁ (.one dest))
      (points : u₁.context.pool.pointee? dest.ty = some value.ty)
      (assigned : Lowers frame u₁ dest.block (.form valueNode) es₁ u₂ (.one value))
      (noCopy : copyAssign? u₂.context value dest.ty = none)
      (store : Ir.Module.store value.block value.value dest.value u₂.context.ir = .ok ⟨⟩ ir)
      (dropDest : Dropped (dest.inBlock value.block) (u₂.withIr ir) es₂ u₃ b₁)
      (run : truthValue b₁ true u₃ = .ok r u₄) :
      Lowers frame u b (.form node) (es ++ es₁ ++ es₂) u₄ (.one r)
  | sequence {u u₁ : Compilation σ} {b : Ir.BlockId} {node first : NodeId} {rest : List NodeId}
      {marked : Bool} {es : List Event} {r : Result}
      (core : u.IsCore node .sequence (first :: rest) marked)
      (forms : Lowers frame u b (.forms first rest) es u₁ (.one r)) :
      Lowers frame u b (.form node) es u₁ (.one r)
  | last {u u₁ : Compilation σ} {b : Ir.BlockId} {node : NodeId} {es : List Event} {r : Result}
      (form : Lowers frame u b (.form node) es u₁ (.one r)) :
      Lowers frame u b (.forms node []) es u₁ (.one r)
  | next {u u₁ u₂ u₃ : Compilation σ} {b b₁ : Ir.BlockId} {node following : NodeId}
      {rest : List NodeId} {es es₁ es₂ : List Event} {r r' : Result}
      (form : Lowers frame u b (.form node) es u₁ (.one r)) (drop : Dropped r u₁ es₁ u₂ b₁)
      (forms : Lowers frame u₂ b₁ (.forms following rest) es₂ u₃ (.one r')) :
      Lowers frame u b (.forms node (following :: rest)) (es ++ es₁ ++ es₂) u₃ (.one r')
  | conditional {u u₁ u₂ u₃ u₄ u₅ u₆ : Compilation σ} {b b₁ thenEntry elseEntry : Ir.BlockId}
      {node conditionNode thenNode elseNode : NodeId} {marked : Bool}
      {es es₁ es₂ es₃ : List Event} {condition onTrue onFalse onTrue' onFalse' r : Result}
      {m m' ir : Ir.Module}
      (core : u.IsCore node .conditional [conditionNode, thenNode, elseNode] marked)
      (test : Lowers frame u b (.form conditionNode) es u₁ (.one condition))
      (isBool : condition.ty = .bool) (drop : Dropped condition u₁ es₁ u₂ b₁)
      (appendThen : Ir.Module.appendBlock frame.func "then" u₂.context.ir = (thenEntry, m))
      (appendElse : Ir.Module.appendBlock frame.func "else" m = (elseEntry, m'))
      (branch : Ir.Module.condBr b₁ condition.value thenEntry elseEntry m' = .ok ⟨⟩ ir)
      (thenForm : Lowers frame (u₂.withIr ir) thenEntry (.form thenNode) es₂ u₃ (.one onTrue))
      (elseForm : Lowers frame u₃ elseEntry (.form elseNode) es₃ u₄ (.one onFalse))
      (sameType : onTrue.ty = onFalse.ty)
      (unify : unifyOwnership node onTrue onFalse u₄ = .ok (onTrue', onFalse') u₅)
      (merge : Lower.merge frame node onTrue' onFalse' u₅ = .ok r u₆) :
      Lowers frame u b (.form node) (es ++ es₁ ++ es₂ ++ es₃) u₆ (.one r)
  | call {u u₁ u₂ u₃ u₄ : Compilation σ} {b b₁ b₂ : Ir.BlockId} {node : NodeId} {name : String}
      {argumentNodes : List NodeId} {es es₁ : List Event} {rs : List Result} {callee : Function}
      {returned : Option Ir.ValueId} {v : Ir.ValueId} {ir : Ir.Module}
      (isCall : u.IsCall node name argumentNodes)
      (offer : Lower.offer node u = .ok .notApplicable u₁)
      (arguments : Lowers frame u₁ b (.arguments argumentNodes) es u₂ (.many rs b₁))
      (lookup : u₂.context.lookupFunction? name (rs.map (·.ty)) = some callee)
      (call : Ir.Module.call b₁ callee.backend (rs.map (·.value)) u₂.context.ir = .ok returned ir)
      (result : (returned = some v ∧ u₃ = u₂.withIr ir) ∨
        (returned = none ∧ onState Context.voidValue (u₂.withIr ir) = .ok v u₃))
      (drop : DroppedAll rs u₃ b₁ es₁ u₄ b₂) :
      Lowers frame u b (.form node) (es ++ es₁) u₄ (.one (Result.new b₂ callee.returnType v))
  | expanded {u u₁ u₂ : Compilation σ} {b : Ir.BlockId} {node expansion : NodeId} {name : String}
      {argumentNodes : List NodeId} {es : List Event} {r : Result}
      (isCall : u.IsCall node name argumentNodes)
      (offer : Lower.offer node u = .ok (.expanded expansion) u₁)
      (form : Lowers frame u₁ b (.form expansion) es u₂ (.one r)) :
      Lowers frame u b (.form node) es u₂ (.one r)
  | none {u : Compilation σ} {b : Ir.BlockId} :
      Lowers frame u b (.arguments []) [] u (.many [] b)
  | more {u u₁ u₂ : Compilation σ} {b b₁ : Ir.BlockId} {node : NodeId} {nodes : List NodeId}
      {es es₁ : List Event} {r : Result} {rs : List Result}
      (form : Lowers frame u b (.form node) es u₁ (.one r))
      (arguments : Lowers frame u₁ r.block (.arguments nodes) es₁ u₂ (.many rs b₁)) :
      Lowers frame u b (.arguments (node :: nodes)) (es ++ es₁) u₂ (.many (r :: rs) b₁)

/-! ## Every success has a derivation -/

/-- The function for the parts of a form gives results that have derivations. -/
def Derives (frame : Frame) (sub : Sub σ) : Prop :=
  ∀ b node u r u', sub b node u = .ok r u' →
    ∃ es, Lowers frame u b (.form node) es u' (.one r)

variable {frame : Frame} {sub again : Sub σ} {u u' : Compilation σ} {b : Ir.BlockId}
  {node : NodeId} {r : Result}

/-- A drop that succeeded. -/
theorem dropped_of_ok {b' : Ir.BlockId} (h : drop r u = .ok b' u') :
    ∃ es, Dropped r u es u' b' := by
  obtain ⟨r', c, hrun, rfl, rfl⟩ := drop_ok_iff.1 h
  by_cases same : c.ir.blocks = u.context.ir.blocks
  · exact ⟨_, .idle hrun same⟩
  · exact ⟨_, .cleaned hrun same⟩

/-- Several drops that succeeded. -/
theorem droppedAll_of_ok {rs : List Result} {b' : Ir.BlockId}
    (h : dropAll b rs u = .ok b' u') : ∃ es, DroppedAll rs u b es u' b' := by
  induction rs generalizing b u with
  | nil =>
    obtain ⟨rfl, rfl⟩ := pure_ok_iff.1 h
    exact ⟨_, .nil⟩
  | cons r rs ih =>
    obtain ⟨b₁, u₁, h₁, h⟩ := bind_ok_iff.1 h
    obtain ⟨es, hes⟩ := dropped_of_ok h₁
    obtain ⟨es', hes'⟩ := ih h
    exact ⟨_, .cons hes hes'⟩

/-- The text of a symbol token. -/
theorem symbol?_of_kind {f : Forest} {text : Name} (h : f.kind node = .token ⟨.symbol, text⟩) :
    f.symbol? node = some (f.names.text text) := by
  rw [Forest.symbol?, h]

/-- A token that gave a result. -/
theorem token_lowers {kind : TokenKind} {text : Name}
    (hkind : u.forest.kind node = .token ⟨kind, text⟩)
    (h : token frame b node kind (u.forest.names.text text) u = .ok r u') :
    ∃ es, Lowers frame u b (.form node) es u' (.one r) := by
  cases kind with
  | integer => exact ⟨_, .integer hkind h⟩
  | float => exact ⟨_, .float hkind h⟩
  | string => exact ⟨_, .string hkind h⟩
  | symbol =>
    have hsymbol := symbol?_of_kind hkind
    -- a symbol is a truth value, or else the name of a variable in scope
    generalize u.forest.names.text text = name at h hsymbol
    unfold token symbolToken at h
    dsimp only at h
    split at h
    next htrue => exact ⟨_, .truth true (by rw [hsymbol, htrue]; rfl) h⟩
    next htrue =>
      split at h
      next hfalse => exact ⟨_, .truth false (by rw [hsymbol, hfalse]; rfl) h⟩
      next hfalse =>
        unfold variableRead at h
        cases hlookup : frame.scope.lookup? name with
        | none =>
          rw [hlookup] at h
          simp only [bind_ok_iff, fail_ok_iff, and_false, exists_false] at h
        | some v =>
          rw [hlookup] at h
          obtain ⟨ty, storage⟩ := v
          cases storage with
          | value v =>
            obtain ⟨rfl, rfl⟩ := pure_ok_iff.1 h
            exact ⟨_, .value hsymbol htrue hfalse hlookup⟩
          | slot address =>
            obtain ⟨v, u₁, h₁, h⟩ := bind_ok_iff.1 h
            obtain ⟨ir, hload, rfl⟩ := emit_ok_iff.1 h₁
            obtain ⟨addressTy, u₁, h₁, h⟩ := bind_ok_iff.1 h
            obtain ⟨rfl, rfl⟩ := onState_ok_iff.1 h₁
            obtain ⟨rfl, rfl⟩ := pure_ok_iff.1 h
            exact ⟨_, .slot hsymbol htrue hfalse hlookup hload⟩

section

variable (hsub : Derives frame sub) (hagain : Derives frame again)

include hsub

/-- Taking an address gave a result. -/
theorem addressOf_lowers {arguments : List NodeId} {marked : Bool}
    (hcore : u.IsCore node .addressOf arguments marked)
    (h : addressOf sub b node arguments u = .ok r u') :
    ∃ es, Lowers frame u b (.form node) es u' (.one r) := by
  unfold addressOf at h
  split at h
  next operand =>
    obtain ⟨inner?, u₁, h₁, h⟩ := bind_ok_iff.1 h
    obtain ⟨rfl, hinner⟩ := derefArguments?_ok h₁
    -- the operand is a dereference, whose pointer is the address, or it is lowered and must have
    -- one
    cases inner? with
    | some inner =>
      obtain ⟨argument, pointer, pointee, u₁, b', rfl, h₁, hpoints, hvoid, hdrop, rfl⟩ :=
        dereference_ok h
      obtain ⟨es, hes⟩ := hsub _ _ _ _ _ h₁
      obtain ⟨es', hes'⟩ := dropped_of_ok hdrop
      have hlowers := Lowers.addressOfDeref hcore hinner hes hpoints hvoid hes'
      exact ⟨_, hlowers⟩
    | none =>
      obtain ⟨r₁, u₁, h₁, h⟩ := bind_ok_iff.1 h
      obtain ⟨es, hes⟩ := hsub _ _ _ _ _ h₁
      cases haddress : r₁.address with
      | none =>
        rw [haddress] at h
        simp only [bind_ok_iff, fail_ok_iff, and_false, exists_false] at h
      | some address =>
        cases hty : r₁.addressTy with
        | none =>
          rw [haddress, hty] at h
          simp only [bind_ok_iff, fail_ok_iff, and_false, exists_false] at h
        | some addressTy =>
          rw [haddress, hty] at h
          obtain ⟨rfl, rfl⟩ := pure_ok_iff.1 h
          exact ⟨_, .addressOf hcore hinner hes haddress hty⟩
  next => simp only [bind_ok_iff, fail_ok_iff, and_false, exists_false] at h

/-- Assigning gave a result. -/
theorem assignment_lowers {arguments : List NodeId} {marked : Bool}
    (hcore : u.IsCore node .setf arguments marked)
    (h : assignment sub b node arguments u = .ok r u') :
    ∃ es, Lowers frame u b (.form node) es u' (.one r) := by
  unfold assignment at h
  split at h
  next destNode valueNode =>
    obtain ⟨dest, u₁, h₁, h⟩ := bind_ok_iff.1 h
    obtain ⟨es, hes⟩ := hsub _ _ _ _ _ h₁
    obtain ⟨pointee, u₂, h₂, h⟩ := bind_ok_iff.1 h
    obtain ⟨hpoints, rfl⟩ := expectPointee_ok h₂
    obtain ⟨value, u₂, h₂, h⟩ := bind_ok_iff.1 h
    obtain ⟨es₁, hes₁⟩ := hsub _ _ _ _ _ h₂
    split at h
    next => simp only [bind_ok_iff, fail_ok_iff, and_false, exists_false] at h
    next hty =>
      rw [← not_ne_iff.1 hty] at hpoints
      obtain ⟨c, u₃, h₃, h⟩ := bind_ok_iff.1 h
      obtain ⟨rfl, rfl⟩ := read_ok_iff.1 h₃
      dsimp only at h
      -- a type that copies itself is called on, and any other value is stored
      cases hcopy : copyAssign? u₂.context value dest.ty with
      | some copy =>
        obtain ⟨callee, source⟩ := copy
        rw [hcopy] at h
        obtain ⟨returned, u₃, h₃, h⟩ := bind_ok_iff.1 h
        obtain ⟨ir, hcall, rfl⟩ := emit_ok_iff.1 h₃
        obtain ⟨b₁, u₃, h₃, h⟩ := bind_ok_iff.1 h
        obtain ⟨es₂, hes₂⟩ := dropped_of_ok h₃
        obtain ⟨b₂, u₄, h₄, h⟩ := bind_ok_iff.1 h
        obtain ⟨es₃, hes₃⟩ := dropped_of_ok h₄
        exact ⟨_, .assignCopy hcore hes hpoints hes₁ hcopy hcall hes₂ hes₃ h⟩
      | none =>
        rw [hcopy] at h
        obtain ⟨_, u₃, h₃, h⟩ := bind_ok_iff.1 h
        obtain ⟨ir, hstore, rfl⟩ := emit_ok_iff.1 h₃
        obtain ⟨b₁, u₃, h₃, h⟩ := bind_ok_iff.1 h
        obtain ⟨rfl, rfl⟩ := pure_ok_iff.1 h₃
        obtain ⟨b₂, u₄, h₄, h⟩ := bind_ok_iff.1 h
        obtain ⟨es₂, hes₂⟩ := dropped_of_ok h₄
        exact ⟨_, .assignMove hcore hes hpoints hes₁ hcopy hstore hes₂ h⟩
  next => simp only [bind_ok_iff, fail_ok_iff, and_false, exists_false] at h

/-- The forms of a sequence gave a result. -/
theorem forms_lowers {first : NodeId} {rest : List NodeId}
    (h : forms sub b first rest u = .ok r u') :
    ∃ es, Lowers frame u b (.forms first rest) es u' (.one r) := by
  induction rest generalizing b first u with
  | nil =>
    obtain ⟨es, hes⟩ := hsub _ _ _ _ _ h
    exact ⟨_, .last hes⟩
  | cons next rest ih =>
    obtain ⟨r₁, u₁, h₁, h⟩ := bind_ok_iff.1 h
    obtain ⟨es, hes⟩ := hsub _ _ _ _ _ h₁
    obtain ⟨b₁, u₂, h₂, h⟩ := bind_ok_iff.1 h
    obtain ⟨es₁, hes₁⟩ := dropped_of_ok h₂
    obtain ⟨es₂, hes₂⟩ := ih h
    exact ⟨_, .next hes hes₁ hes₂⟩

/-- A conditional gave a result. -/
theorem conditional_lowers {arguments : List NodeId} {marked : Bool}
    (hcore : u.IsCore node .conditional arguments marked)
    (h : conditional frame sub b node arguments u = .ok r u') :
    ∃ es, Lowers frame u b (.form node) es u' (.one r) := by
  unfold conditional at h
  split at h
  next conditionNode thenNode elseNode =>
    obtain ⟨condition, u₁, h₁, h⟩ := bind_ok_iff.1 h
    obtain ⟨es, hes⟩ := hsub _ _ _ _ _ h₁
    split at h
    next => simp only [bind_ok_iff, fail_ok_iff, and_false, exists_false] at h
    next hbool =>
      obtain ⟨b₁, u₂, h₂, h⟩ := bind_ok_iff.1 h
      obtain ⟨es₁, hes₁⟩ := dropped_of_ok h₂
      -- both branches have their block before either is lowered
      obtain ⟨thenEntry, u₃, h₃, h⟩ := bind_ok_iff.1 h
      obtain ⟨hthen, rfl⟩ := onModule_ok_iff.1 h₃
      obtain ⟨elseEntry, u₄, h₄, h⟩ := bind_ok_iff.1 h
      obtain ⟨helse, rfl⟩ := onModule_ok_iff.1 h₄
      obtain ⟨_, u₅, h₅, h⟩ := bind_ok_iff.1 h
      obtain ⟨ir, hbranch, rfl⟩ := emit_ok_iff.1 h₅
      obtain ⟨onTrue, u₃, h₃, h⟩ := bind_ok_iff.1 h
      obtain ⟨es₂, hes₂⟩ := hsub _ _ _ _ _ h₃
      obtain ⟨onFalse, u₄, h₄, h⟩ := bind_ok_iff.1 h
      obtain ⟨es₃, hes₃⟩ := hsub _ _ _ _ _ h₄
      split at h
      next => simp only [bind_ok_iff, fail_ok_iff, and_false, exists_false] at h
      next hty =>
        obtain ⟨⟨onTrue', onFalse'⟩, u₅, h₅, h⟩ := bind_ok_iff.1 h
        exact ⟨_, .conditional (m := (Ir.Module.appendBlock frame.func "then" u₂.context.ir).2)
          hcore hes (not_ne_iff.1 hbool) hes₁ (Prod.ext hthen rfl) (Prod.ext helse rfl) hbranch
          hes₂ hes₃ (not_ne_iff.1 hty) h₅ h⟩
  next => simp only [bind_ok_iff, fail_ok_iff, and_false, exists_false] at h

/-- A core form gave a result. -/
theorem coreForm_lowers {form : CoreForm} {arguments : List NodeId} {marked : Bool}
    (hcore : u.IsCore node form arguments marked)
    (h : coreForm frame sub b node form arguments marked u = .ok r u') :
    ∃ es, Lowers frame u b (.form node) es u' (.one r) := by
  cases form with
  | deref =>
    obtain ⟨argument, pointer, pointee, u₁, b', rfl, h₁, hpoints, hvoid, v, ir, hload, hdrop,
      rfl⟩ := dereference_ok h
    obtain ⟨es, hes⟩ := hsub _ _ _ _ _ h₁
    obtain ⟨es', hes'⟩ := dropped_of_ok hdrop
    exact ⟨_, .deref hcore hes hpoints hvoid hload hes'⟩
  | addressOf => exact addressOf_lowers hsub hcore h
  | setf => exact assignment_lowers hsub hcore h
  | sequence =>
    unfold coreForm sequence at h
    dsimp only at h
    split at h
    next => simp only [bind_ok_iff, fail_ok_iff, and_false, exists_false] at h
    next first rest =>
      obtain ⟨es, hes⟩ := forms_lowers hsub h
      exact ⟨_, .sequence hcore hes⟩
  | conditional => exact conditional_lowers hsub hcore h
  | core =>
    cases hcore with
    | direct _ _ _ plain => exact absurd rfl plain
    | marked _ _ _ _ _ plain => exact absurd rfl plain

/-- Arguments gave results. -/
theorem arguments_lowers {nodes : List NodeId} {rs : List Result} {b' : Ir.BlockId}
    (h : arguments sub b nodes u = .ok (rs, b') u') :
    ∃ es, Lowers frame u b (.arguments nodes) es u' (.many rs b') := by
  induction nodes generalizing b u rs with
  | nil =>
    obtain ⟨heq, rfl⟩ := pure_ok_iff.1 h
    cases heq
    exact ⟨_, .none⟩
  | cons node nodes ih =>
    obtain ⟨r, u₁, h₁, h⟩ := bind_ok_iff.1 h
    obtain ⟨es, hes⟩ := hsub _ _ _ _ _ h₁
    obtain ⟨⟨rs', b₁⟩, u₂, h₂, h⟩ := bind_ok_iff.1 h
    obtain ⟨heq, rfl⟩ := pure_ok_iff.1 h
    cases heq
    obtain ⟨es₁, hes₁⟩ := ih h₂
    exact ⟨_, .more hes hes₁⟩

/-- A call gave a result, when the expander had not replaced it. -/
theorem call_lowers {name : String} {argumentNodes : List NodeId} {u₀ : Compilation σ}
    (hcall : u₀.IsCall node name argumentNodes) (hoffer : offer node u₀ = .ok .notApplicable u)
    (h : call sub b node name argumentNodes u = .ok r u') :
    ∃ es, Lowers frame u₀ b (.form node) es u' (.one r) := by
  unfold call at h
  obtain ⟨⟨rs, b₁⟩, u₁, h₁, h⟩ := bind_ok_iff.1 h
  obtain ⟨es, hes⟩ := arguments_lowers hsub h₁
  dsimp only at h
  obtain ⟨c, u₂, h₂, h⟩ := bind_ok_iff.1 h
  obtain ⟨rfl, rfl⟩ := read_ok_iff.1 h₂
  cases hlookup : u₁.context.lookupFunction? name (rs.map (·.ty)) with
  | none =>
    rw [hlookup] at h
    simp only [bind_ok_iff, fail_ok_iff, and_false, exists_false] at h
  | some callee =>
    rw [hlookup] at h
    obtain ⟨returned, u₂, h₂, h⟩ := bind_ok_iff.1 h
    obtain ⟨ir, hemit, rfl⟩ := emit_ok_iff.1 h₂
    -- a call that returns nothing gives a value of the void type
    cases returned with
    | some v =>
      obtain ⟨v', u₂, h₂, h⟩ := bind_ok_iff.1 h
      obtain ⟨rfl, rfl⟩ := pure_ok_iff.1 h₂
      obtain ⟨b₂, u₃, h₃, h⟩ := bind_ok_iff.1 h
      obtain ⟨es₁, hes₁⟩ := droppedAll_of_ok h₃
      obtain ⟨rfl, rfl⟩ := pure_ok_iff.1 h
      exact ⟨_, .call hcall hoffer hes hlookup hemit (.inl ⟨rfl, rfl⟩) hes₁⟩
    | none =>
      obtain ⟨v', u₂, h₂, h⟩ := bind_ok_iff.1 h
      obtain ⟨b₂, u₃, h₃, h⟩ := bind_ok_iff.1 h
      obtain ⟨es₁, hes₁⟩ := droppedAll_of_ok h₃
      obtain ⟨rfl, rfl⟩ := pure_ok_iff.1 h
      exact ⟨_, .call hcall hoffer hes hlookup hemit (.inr ⟨rfl, h₂⟩) hes₁⟩

/-- A form after `core` gave a result. -/
theorem marked_lowers {mark : NodeId} {arguments : List NodeId} {markName : String}
    (hitems : u.forest.items? node = some (mark :: arguments))
    (hmark : u.forest.symbol? mark = some markName)
    (hword : CoreForm.ofName? markName = some .core)
    (h : marked frame sub b node arguments u = .ok r u') :
    ∃ es, Lowers frame u b (.form node) es u' (.one r) := by
  unfold marked at h
  dsimp only at h
  split at h
  next => simp only [bind_ok_iff, fail_ok_iff, and_false, exists_false] at h
  next head rest =>
    obtain ⟨name?, u₁, h₁, h⟩ := bind_ok_iff.1 h
    obtain ⟨hname, rfl⟩ := symbol?_ok_iff.1 h₁
    cases hform : name?.bind CoreForm.ofName? with
    | none =>
      rw [hform] at h
      simp only [bind_ok_iff, fail_ok_iff, and_false, exists_false] at h
    | some form =>
      rw [hform] at h
      rw [Option.bind_eq_some_iff] at hform
      obtain ⟨name, rfl, hform⟩ := hform
      dsimp only at h
      split at h
      next => simp only [bind_ok_iff, fail_ok_iff, and_false, exists_false] at h
      next hplain =>
        exact coreForm_lowers hsub (.marked hitems hmark hword hname hform hplain) h

include hagain

/-- A call, or what a rewriter made of it, gave a result. -/
theorem callOrExpand_lowers {left : Nat} {name : String} {argumentNodes : List NodeId}
    (hcall : u.IsCall node name argumentNodes)
    (h : callOrExpand left sub again b node name argumentNodes u = .ok r u') :
    ∃ es, Lowers frame u b (.form node) es u' (.one r) := by
  obtain ⟨expansion, u₁, h₁, h⟩ := bind_ok_iff.1 h
  have hoffer := tryExpand_ok h₁
  cases expansion with
  | some result =>
    obtain ⟨es, hes⟩ := hagain _ _ _ _ _ h
    exact ⟨_, .expanded hcall hoffer hes⟩
  | none => exact call_lowers hsub hcall hoffer h

/-- A list gave a result. -/
theorem list_lowers {left : Nat} {items : List NodeId}
    (hitems : u.forest.items? node = some items)
    (h : list frame left sub again b node items u = .ok r u') :
    ∃ es, Lowers frame u b (.form node) es u' (.one r) := by
  unfold list at h
  split at h
  next => simp only [bind_ok_iff, fail_ok_iff, and_false, exists_false] at h
  next head argumentNodes =>
    obtain ⟨name?, u₁, h₁, h⟩ := bind_ok_iff.1 h
    obtain ⟨hname, rfl⟩ := symbol?_ok_iff.1 h₁
    cases name? with
    | none => simp only [bind_ok_iff, fail_ok_iff, and_false, exists_false] at h
    | some name =>
      obtain ⟨c, u₁, h₁, h⟩ := bind_ok_iff.1 h
      obtain ⟨rfl, rfl⟩ := read_ok_iff.1 h₁
      have hcall : CoreForm.ofName? name ≠ some .core →
          (CoreForm.ofName? name = none ∨ u.context.hasFunction name = true) →
          u.IsCall node name argumentNodes :=
        fun hplain hshadowed => ⟨head, hitems, hname, hplain, hshadowed⟩
      cases hform : CoreForm.ofName? name with
      | none =>
        rw [hform] at h
        exact callOrExpand_lowers hsub hagain (hcall (by simp [hform]) (.inl hform)) h
      | some form =>
        rw [hform] at h
        -- a core form is one only while no function has its name
        have hcore : form ≠ .core →
            (if u.context.hasFunction name = true
              then callOrExpand left sub again b node name argumentNodes
              else coreForm frame sub b node form argumentNodes false) u = .ok r u' →
            ∃ es, Lowers frame u b (.form node) es u' (.one r) := by
          intro hplain h
          split at h
          next hshadowed =>
            exact callOrExpand_lowers hsub hagain
              (hcall (by simpa [hform] using hplain) (.inr hshadowed)) h
          next hfree =>
            exact coreForm_lowers hsub (.direct hitems hname hform hplain (by simpa using hfree)) h
        cases form with
        | core => exact marked_lowers hsub hitems hname hform h
        | deref => exact hcore (by decide) h
        | addressOf => exact hcore (by decide) h
        | setf => exact hcore (by decide) h
        | sequence => exact hcore (by decide) h
        | conditional => exact hcore (by decide) h

/-- A form gave a result. -/
theorem form_lowers {left : Nat} (h : form frame left sub again b node u = .ok r u') :
    ∃ es, Lowers frame u b (.form node) es u' (.one r) := by
  unfold form at h
  obtain ⟨f, u₁, h₁, h⟩ := bind_ok_iff.1 h
  obtain ⟨rfl, rfl⟩ := read_ok_iff.1 h₁
  cases hkind : u.forest.kind node with
  | token token =>
    obtain ⟨kind, text⟩ := token
    rw [hkind] at h
    exact token_lowers hkind h
  | list items =>
    rw [hkind] at h
    exact list_lowers hsub hagain (by rw [Forest.items?, hkind]) h

end

/-- An expression that gives a result has a derivation. -/
theorem process_lowers (h : process frame b node u = .ok r u') :
    ∃ es, Lowers frame u b (.form node) es u' (.one r) :=
  process_satisfies frame
    (Q := fun b node u outcome => ∀ r u', outcome = .ok r u' →
      ∃ es, Lowers frame u b (.form node) es u' (.one r))
    (fun _ _ _ _ _ h => by cases h)
    (fun left sub again hsub hagain _ _ _ _ _ h =>
      form_lowers (fun b node r u u' h => hsub b node r u u' h)
        (fun b node r u u' h => hagain b node r u u' h) h) b node u r u' h

/-! ## Derivations declare nothing -/

/-- Replacing the module by one that extends it. -/
theorem kept_withIr {ir : Ir.Module} (s : Scope) (h : u.context.ir.Extends ir) :
    Compilation.Kept s u (u.withIr ir) := ⟨.of_ir h, rfl, rfl, fun _ => rfl⟩

/-- Dropping declares nothing. -/
theorem Dropped.kept {es : List Event} {b' : Ir.BlockId} (h : Dropped r u es u' b') (s : Scope) :
    Compilation.Kept s u u' := by
  cases h with
  | idle run => exact ⟨(Context.destruct_keeps s r).ok run, rfl, rfl, fun _ => rfl⟩
  | cleaned run => exact ⟨(Context.destruct_keeps s r).ok run, rfl, rfl, fun _ => rfl⟩

/-- Dropping several results declares nothing. -/
theorem DroppedAll.kept {rs : List Result} {es : List Event} {b' : Ir.BlockId}
    (h : DroppedAll rs u b es u' b') (s : Scope) : Compilation.Kept s u u' := by
  induction h with
  | nil => exact Std.Refl.refl _
  | cons first _ ih => exact IsTrans.trans _ _ _ (first.kept s) ih

/-- Branching to two new blocks declares nothing. -/
theorem branch_kept {s : Scope} {func : Ir.FuncId} {condition : Ir.ValueId}
    {thenEntry elseEntry : Ir.BlockId} {m m' ir : Ir.Module}
    (hthen : Ir.Module.appendBlock func "then" u.context.ir = (thenEntry, m))
    (helse : Ir.Module.appendBlock func "else" m = (elseEntry, m'))
    (hbranch : Ir.Module.condBr b condition thenEntry elseEntry m' = .ok ⟨⟩ ir) :
    Compilation.Kept s u (u.withIr ir) := by
  have hm : u.context.ir.Extends m := by
    have h := Ir.Module.appendBlock_extends u.context.ir func "then"
    rwa [hthen] at h
  have hm' : m.Extends m' := by
    have h := Ir.Module.appendBlock_extends m func "else"
    rwa [helse] at h
  have hir := (Ir.Module.condBr_keeps _ _ _ _).ok hbranch
  exact kept_withIr _ ((hm.trans hm').trans hir)

/-- Calling a function declares nothing. -/
theorem call_kept {s : Scope} {callee : Ir.FuncId} {values : List Ir.ValueId}
    {returned : Option Ir.ValueId} {v : Ir.ValueId} {ir : Ir.Module}
    (hcall : Ir.Module.call b callee values u.context.ir = .ok returned ir)
    (hresult : (returned = some v ∧ u' = u.withIr ir) ∨
      (returned = none ∧ onState Context.voidValue (u.withIr ir) = .ok v u')) :
    Compilation.Kept s u u' := by
  have hkept : Compilation.Kept s u (u.withIr ir) :=
    kept_withIr _ ((Ir.Module.call_keeps _ _ _).ok hcall)
  rcases hresult with ⟨-, rfl⟩ | ⟨-, hvoid⟩
  · exact hkept
  · have hmoves : Moves (Context.Within (Pool.Kept s) Ir.Module.Extends) Context.voidValue :=
      Context.voidValue_moves.mono fun _ _ h =>
        h.mono (fun _ _ => .of_eq) fun _ _ => Ir.Module.Still.toExtends
    exact IsTrans.trans _ _ _ hkept ((onState_keeps hmoves).ok hvoid)

/-- Processing a form declares nothing. -/
theorem Lowers.kept {task : Task} {es : List Event} {out : Output}
    (h : Lowers frame u b task es u' out) : Compilation.Kept frame.scope u u' := by
  induction h with
  | integer _ run => exact (integerToken_keeps _ _ _ _).ok run
  | float _ run => exact (floatToken_keeps _ _ _ _).ok run
  | string _ run => exact (stringToken_keeps _ _ _).ok run
  | truth _ _ run => exact (truthValue_keeps _ _ _).ok run
  | value => exact Std.Refl.refl _
  | @slot u b node name ty address v ir symbol notTrue notFalse lookup load =>
    have hread : Keeps (Compilation.Kept frame.scope)
        (variableRead frame b node name : Lower σ Result) :=
      variableRead_keeps frame.scope frame.func b node name
    -- the rule names what the run gave, so the run is put together again from it
    refine hread.ok (s := u) (a := ((Result.new b ty v).withLvalue address
      (u.context.pool.pointerTo ty).1).ownedElsewhere) ?_
    unfold variableRead
    rw [lookup]
    exact bind_ok_iff.2 ⟨v, _, emit_ok_iff.2 ⟨ir, load, rfl⟩, rfl⟩
  | deref _ _ _ _ load drop ih =>
    exact IsTrans.trans _ _ _ ih (IsTrans.trans _ _ _
      (kept_withIr _ ((Ir.Module.load_keeps _ _).ok load)) (drop.kept _))
  | addressOfDeref _ _ _ _ _ drop ih => exact IsTrans.trans _ _ _ ih (drop.kept _)
  | addressOf _ _ _ _ _ ih => exact ih
  | assignCopy _ _ _ _ _ call dropValue dropDest run ih ih₁ =>
    exact IsTrans.trans _ _ _ ih (IsTrans.trans _ _ _ ih₁ (IsTrans.trans _ _ _
      (kept_withIr _ ((Ir.Module.call_keeps _ _ _).ok call)) (IsTrans.trans _ _ _
      (dropValue.kept _) (IsTrans.trans _ _ _ (dropDest.kept _)
      ((truthValue_keeps _ _ _).ok run)))))
  | assignMove _ _ _ _ _ store dropDest run ih ih₁ =>
    exact IsTrans.trans _ _ _ ih (IsTrans.trans _ _ _ ih₁ (IsTrans.trans _ _ _
      (kept_withIr _ ((Ir.Module.store_keeps _ _ _).ok store)) (IsTrans.trans _ _ _
      (dropDest.kept _) ((truthValue_keeps _ _ _).ok run))))
  | sequence _ _ ih => exact ih
  | last _ ih => exact ih
  | next _ drop _ ih ih₁ =>
    exact IsTrans.trans _ _ _ ih (IsTrans.trans _ _ _ (drop.kept _) ih₁)
  | conditional _ _ _ drop appendThen appendElse branch _ _ _ unify merge ih ih₁ ih₂ =>
    exact IsTrans.trans _ _ _ ih (IsTrans.trans _ _ _ (drop.kept _) (IsTrans.trans _ _ _
      (branch_kept appendThen appendElse branch) (IsTrans.trans _ _ _ ih₁
      (IsTrans.trans _ _ _ ih₂ (IsTrans.trans _ _ _
        ((unifyOwnership_keeps _ _ _ _).ok unify) ((merge_keeps _ _ _ _ _).ok merge))))))
  | @call _ _ _ _ _ _ _ _ node _ _ _ _ _ _ _ _ _ _ offer _ _ call result drop ih =>
    exact IsTrans.trans _ _ _ ((offer_keeps node).ok offer) (IsTrans.trans _ _ _ ih
      (IsTrans.trans _ _ _ (call_kept call result) (drop.kept _)))
  | expanded _ offer _ ih => exact IsTrans.trans _ _ _ ((offer_keeps _).ok offer) ih
  | none => exact Std.Refl.refl _
  | more _ _ ih ih₁ => exact IsTrans.trans _ _ _ ih ih₁

end Lower

end FormCompiler
