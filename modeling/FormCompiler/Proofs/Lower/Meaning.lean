import FormCompiler.Proofs.Ir.Semantics
import FormCompiler.Proofs.Lower.Derivation

/-!
# The Meaning of Expressions

A direct evaluation of expressions from left to right, by rules on the tree of the source
(`Compilation.Evaluates`). It knows nothing of blocks or of the values of a module: variables stand
for what the environment says, and memory and calls are those of a machine. Types play a part, as
they choose the overload of a call and say what is read and written; they are those of a unit.

`Compilation.shape` says what kind of expression a node is, so at most one rule applies to a node,
and an expression has one meaning (`Evaluates.deterministic`).
-/

namespace FormCompiler

/-- What kind of expression a node is. -/
inductive Shape where
  | integer (text : String)
  | float (text : String)
  | string (text : String)
  | truth (value : Bool)
  | variable (name : String)
  | core (form : CoreForm) (arguments : List NodeId)
  | call (name : String) (arguments : List NodeId)
  | malformed
deriving DecidableEq

namespace Compilation

variable {σ : Type} (u : Compilation σ)

/-- The kind of expression that a symbol is. -/
def symbolShape (name : String) : Shape :=
  if name = "true" then .truth true
  else if name = "false" then .truth false
  else .variable name

/-- The kind of expression that stands after `core`. -/
def markedShape : List NodeId → Shape
  | [] => .malformed
  | head :: arguments =>
    match (u.forest.symbol? head).bind CoreForm.ofName? with
    | some form => .core form arguments
    | none => .malformed

/-- The kind of expression that a list is: functions in scope shadow the core forms. -/
def listShape : List NodeId → Shape
  | [] => .malformed
  | head :: arguments =>
    match u.forest.symbol? head with
    | none => .malformed
    | some name =>
      match CoreForm.ofName? name with
      | none => .call name arguments
      | some .core => u.markedShape arguments
      | some form =>
        if u.context.hasFunction name then .call name arguments else .core form arguments

/-- The kind of expression that a node is. -/
def shape (node : NodeId) : Shape :=
  match u.forest.kind node with
  | .token ⟨.integer, text⟩ => .integer (u.forest.names.text text)
  | .token ⟨.float, text⟩ => .float (u.forest.names.text text)
  | .token ⟨.string, text⟩ => .string (u.forest.names.text text)
  | .token ⟨.symbol, text⟩ => symbolShape (u.forest.names.text text)
  | .list items => u.listShape items

variable {u} {node : NodeId} {arguments : List NodeId}

/-- The kind of a symbol. -/
theorem shape_of_symbol {name : String} (h : u.forest.symbol? node = some name) :
    u.shape node = symbolShape name := by
  unfold Forest.symbol? at h
  split at h
  next text hkind =>
    cases h
    rw [shape, hkind]
  next => cases h

/-- The kind of a list. -/
theorem shape_of_items {items : List NodeId} (h : u.forest.items? node = some items) :
    u.shape node = u.listShape items := by
  unfold Forest.items? at h
  split at h
  next => cases h
  next hkind =>
    cases h
    rw [shape, hkind]

/-- The kind of a core form, marked or not. -/
theorem IsCore.shape {form : CoreForm} {marked : Bool}
    (h : u.IsCore node form arguments marked) : u.shape node = .core form arguments := by
  cases h with
  | direct items symbol word plain free =>
    rw [shape_of_items items, listShape, symbol]
    dsimp only
    rw [word]
    cases form with
    | core => exact absurd rfl plain
    | _ =>
      dsimp only
      rw [free]
      rfl
  | marked items mark markWord symbol word plain =>
    rw [shape_of_items items, listShape, mark]
    dsimp only
    rw [markWord]
    dsimp only
    rw [markedShape, symbol, Option.bind_some, word]

/-- The kind of a form that reads through a pointer. -/
theorem IsDeref.shape (h : u.IsDeref node arguments) :
    u.shape node = .core .deref arguments := by
  obtain ⟨head, name, items, symbol, word, free⟩ := h
  exact IsCore.shape (.direct items symbol word (by decide) free)

/-- The kind of a call. -/
theorem IsCall.shape {name : String} (h : u.IsCall node name arguments) :
    u.shape node = .call name arguments := by
  obtain ⟨head, items, symbol, plain, shadowed⟩ := h
  rw [shape_of_items items, listShape, symbol]
  dsimp only
  rcases shadowed with word | shadowed
  · rw [word]
  · rw [shadowed]
    split
    · rfl
    next word => exact absurd word plain
    · rfl

end Compilation

/-- What a variable stands for. -/
inductive Held (V : Type) where
  | value (x : V)
  /-- The variable is what is stored at the address. -/
  | slot (address : V)

/-- The types of variables and what they stand for. -/
abbrev Environment (V : Type) := String → Option (TypeId × Held V)

/-- What an expression evaluates to. -/
structure Datum (V : Type) where
  ty : TypeId
  value : V
  /-- Where an lvalue is stored, and the type of that address. -/
  place : Option (V × TypeId)

/-- The type of the module that represents a type. -/
def Context.represent (c : Context) (t : TypeId) : Ir.TyId := (Context.backendType t c).1

namespace Compilation

section

variable {σ V M : Type} (u : Compilation σ) (machine : Ir.Machine V M) (env : Environment V)

/-- A constant of a type. -/
def constant (t : TypeId) (kind : Ir.ValueKind) : Datum V :=
  ⟨t, machine.constant (u.context.represent t) kind, none⟩

/-- What is read at an address. -/
def loaded (memory : M) (t : TypeId) (address : V) (addressTy : TypeId) : Datum V :=
  ⟨t, machine.load (u.context.represent t) memory address, some (address, addressTy)⟩

/-- The task is evaluated from a memory on: these calls are made, this memory is left, and these
are the values. A form has one value. -/
inductive Evaluates : M → Task → List (Ir.Call V) → M → List (Datum V) → Prop
  | integer {memory : M} {node : NodeId} {text : String} {bits raw : Nat}
      (shape : u.shape node = .integer text)
      (width : u.context.ir.intWidth? (u.context.represent .int) = some bits)
      (literal : Ir.parseIntLiteral text bits true = .ok raw) :
      Evaluates memory (.form node) [] memory [u.constant machine .int (.constInt raw)]
  | float {memory : M} {node : NodeId} {text : String} {x : Number.Binary64}
      (shape : u.shape node = .float text) (literal : Number.Binary64.read? text = some x) :
      Evaluates memory (.form node) [] memory [u.constant machine .float (.constFloat x)]
  | string {memory : M} {node : NodeId} {text : String} (shape : u.shape node = .string text) :
      Evaluates memory (.form node) [] memory
        [u.constant machine (u.context.pool.pointerTo .char).1 (.text text)]
  | truth {memory : M} {node : NodeId} {value : Bool} (shape : u.shape node = .truth value) :
      Evaluates memory (.form node) [] memory
        [u.constant machine .bool (.constInt (if value then 1 else 0))]
  | value {memory : M} {node : NodeId} {name : String} {t : TypeId} {x : V}
      (shape : u.shape node = .variable name) (found : env name = some (t, .value x)) :
      Evaluates memory (.form node) [] memory [⟨t, x, none⟩]
  | slot {memory : M} {node : NodeId} {name : String} {t : TypeId} {address : V}
      (shape : u.shape node = .variable name) (found : env name = some (t, .slot address)) :
      Evaluates memory (.form node) [] memory
        [u.loaded machine memory t address (u.context.pool.pointerTo t).1]
  | deref {memory memory' : M} {node argument : NodeId} {calls : List (Ir.Call V)}
      {pointer : Datum V} {t : TypeId} (shape : u.shape node = .core .deref [argument])
      (operand : Evaluates memory (.form argument) calls memory' [pointer])
      (points : u.context.pool.pointee? pointer.ty = some t) :
      Evaluates memory (.form node) calls memory'
        [u.loaded machine memory' t pointer.value pointer.ty]
  | addressOf {memory memory' : M} {node operand : NodeId} {calls : List (Ir.Call V)}
      {d : Datum V} {address : V} {addressTy : TypeId}
      (shape : u.shape node = .core .addressOf [operand])
      (lvalue : Evaluates memory (.form operand) calls memory' [d])
      (place : d.place = some (address, addressTy)) :
      Evaluates memory (.form node) calls memory' [⟨addressTy, address, none⟩]
  | assign {memory memory₁ memory₂ : M} {node destNode valueNode : NodeId}
      {calls calls' : List (Ir.Call V)} {dest d : Datum V}
      (shape : u.shape node = .core .setf [destNode, valueNode])
      (destination : Evaluates memory (.form destNode) calls memory₁ [dest])
      (assigned : Evaluates memory₁ (.form valueNode) calls' memory₂ [d])
      (points : u.context.pool.pointee? dest.ty = some d.ty) :
      Evaluates memory (.form node) (calls ++ calls')
        (machine.store (u.context.represent d.ty) memory₂ d.value dest.value)
        [u.constant machine .bool (.constInt 1)]
  | sequence {memory memory' : M} {node first : NodeId} {rest : List NodeId}
      {calls : List (Ir.Call V)} {ds : List (Datum V)}
      (shape : u.shape node = .core .sequence (first :: rest))
      (forms : Evaluates memory (.forms first rest) calls memory' ds) :
      Evaluates memory (.form node) calls memory' ds
  | last {memory memory' : M} {node : NodeId} {calls : List (Ir.Call V)} {ds : List (Datum V)}
      (form : Evaluates memory (.form node) calls memory' ds) :
      Evaluates memory (.forms node []) calls memory' ds
  | next {memory memory₁ memory₂ : M} {node following : NodeId} {rest : List NodeId}
      {calls calls' : List (Ir.Call V)} {ds ds' : List (Datum V)}
      (form : Evaluates memory (.form node) calls memory₁ ds)
      (forms : Evaluates memory₁ (.forms following rest) calls' memory₂ ds') :
      Evaluates memory (.forms node (following :: rest)) (calls ++ calls') memory₂ ds'
  | conditional {memory memory₁ memory₂ : M} {node conditionNode thenNode elseNode : NodeId}
      {calls calls' : List (Ir.Call V)} {condition d : Datum V}
      (shape : u.shape node = .core .conditional [conditionNode, thenNode, elseNode])
      (test : Evaluates memory (.form conditionNode) calls memory₁ [condition])
      (isBool : condition.ty = .bool)
      (branch : Evaluates memory₁
        (.form (if machine.truth condition.value then thenNode else elseNode))
        calls' memory₂ [d]) :
      Evaluates memory (.form node) (calls ++ calls') memory₂ [⟨d.ty, d.value, none⟩]
  | call {memory memory' : M} {node : NodeId} {name : String} {argumentNodes : List NodeId}
      {calls : List (Ir.Call V)} {ds : List (Datum V)} {callee : Function}
      (shape : u.shape node = .call name argumentNodes)
      (arguments : Evaluates memory (.arguments argumentNodes) calls memory' ds)
      (lookup : u.context.lookupFunction? name (ds.map (·.ty)) = some callee) :
      Evaluates memory (.form node) (calls ++ [(callee.backend, ds.map (·.value))])
        (machine.call callee.backend (ds.map (·.value)) memory').2
        [⟨callee.returnType, if u.context.pool.isVoid callee.returnType then machine.unit
          else (machine.call callee.backend (ds.map (·.value)) memory').1, none⟩]
  | none {memory : M} : Evaluates memory (.arguments []) [] memory []
  | more {memory memory₁ memory₂ : M} {node : NodeId} {nodes : List NodeId}
      {calls calls' : List (Ir.Call V)} {d : Datum V} {ds : List (Datum V)}
      (form : Evaluates memory (.form node) calls memory₁ [d])
      (arguments : Evaluates memory₁ (.arguments nodes) calls' memory₂ ds) :
      Evaluates memory (.arguments (node :: nodes)) (calls ++ calls') memory₂ (d :: ds)

end

variable {σ V M : Type} {u : Compilation σ} {machine : Ir.Machine V M} {env : Environment V}

/-- An expression has one meaning. -/
theorem Evaluates.deterministic {memory memory₁ memory₂ : M} {task : Task}
    {calls calls' : List (Ir.Call V)} {ds ds' : List (Datum V)}
    (h : u.Evaluates machine env memory task calls memory₁ ds)
    (h' : u.Evaluates machine env memory task calls' memory₂ ds') :
    calls = calls' ∧ memory₁ = memory₂ ∧ ds = ds' := by
  induction h generalizing calls' memory₂ ds' with
  | none =>
    cases h'
    exact ⟨rfl, rfl, rfl⟩
  | more form arguments ih ih₁ =>
    cases h' with
    | more form' arguments' =>
      obtain ⟨rfl, rfl, hd⟩ := ih form'
      obtain ⟨rfl, rfl, rfl⟩ := ih₁ arguments'
      cases hd
      exact ⟨rfl, rfl, rfl⟩
  | last form ih =>
    cases h' with
    | last form' => exact ih form'
  | next form forms ih ih₁ =>
    cases h' with
    | next form' forms' =>
      obtain ⟨rfl, rfl, -⟩ := ih form'
      obtain ⟨rfl, rfl, rfl⟩ := ih₁ forms'
      exact ⟨rfl, rfl, rfl⟩
  -- a form: only the rule for its shape applies
  | integer shape width literal =>
    cases h' with
    | integer shape' width' literal' =>
      cases shape.symm.trans shape'
      cases width.symm.trans width'
      cases literal.symm.trans literal'
      exact ⟨rfl, rfl, rfl⟩
    | _ => simp_all
  | float shape literal =>
    cases h' with
    | float shape' literal' =>
      cases shape.symm.trans shape'
      cases literal.symm.trans literal'
      exact ⟨rfl, rfl, rfl⟩
    | _ => simp_all
  | string shape =>
    cases h' with
    | string shape' =>
      cases shape.symm.trans shape'
      exact ⟨rfl, rfl, rfl⟩
    | _ => simp_all
  | truth shape =>
    cases h' with
    | truth shape' =>
      cases shape.symm.trans shape'
      exact ⟨rfl, rfl, rfl⟩
    | _ => simp_all
  | value shape found =>
    cases h' with
    | value shape' found' =>
      cases shape.symm.trans shape'
      cases found.symm.trans found'
      exact ⟨rfl, rfl, rfl⟩
    | _ => simp_all
  | slot shape found =>
    cases h' with
    | slot shape' found' =>
      cases shape.symm.trans shape'
      cases found.symm.trans found'
      exact ⟨rfl, rfl, rfl⟩
    | _ => simp_all
  | deref shape operand points ih =>
    cases h' with
    | deref shape' operand' points' =>
      cases shape.symm.trans shape'
      obtain ⟨rfl, rfl, hpointer⟩ := ih operand'
      cases hpointer
      cases points.symm.trans points'
      exact ⟨rfl, rfl, rfl⟩
    | _ => simp_all
  | addressOf shape lvalue place ih =>
    cases h' with
    | addressOf shape' lvalue' place' =>
      cases shape.symm.trans shape'
      obtain ⟨rfl, rfl, hd⟩ := ih lvalue'
      cases hd
      cases place.symm.trans place'
      exact ⟨rfl, rfl, rfl⟩
    | _ => simp_all
  | assign shape destination assigned points ih ih₁ =>
    cases h' with
    | assign shape' destination' assigned' points' =>
      cases shape.symm.trans shape'
      obtain ⟨rfl, rfl, hdest⟩ := ih destination'
      obtain ⟨rfl, rfl, hd⟩ := ih₁ assigned'
      cases hdest
      cases hd
      exact ⟨rfl, rfl, rfl⟩
    | _ => simp_all
  | sequence shape forms ih =>
    cases h' with
    | sequence shape' forms' =>
      cases shape.symm.trans shape'
      exact ih forms'
    | _ => simp_all
  | conditional shape test isBool branch ih ih₁ =>
    cases h' with
    | conditional shape' test' isBool' branch' =>
      cases shape.symm.trans shape'
      obtain ⟨rfl, rfl, hcondition⟩ := ih test'
      cases hcondition
      obtain ⟨rfl, rfl, hd⟩ := ih₁ branch'
      cases hd
      exact ⟨rfl, rfl, rfl⟩
    | _ => simp_all
  | call shape arguments lookup ih =>
    cases h' with
    | call shape' arguments' lookup' =>
      cases shape.symm.trans shape'
      obtain ⟨rfl, rfl, rfl⟩ := ih arguments'
      cases lookup.symm.trans lookup'
      exact ⟨rfl, rfl, rfl⟩
    | _ => simp_all

end Compilation

end FormCompiler
