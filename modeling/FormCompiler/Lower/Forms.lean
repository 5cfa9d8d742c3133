import FormCompiler.Lower.Cleanup
import FormCompiler.Lower.Compilation
import FormCompiler.Lower.Scope
import FormCompiler.Number.Shortest

/-!
# Handlers of Forms

One function for each kind of expression. A handler gets the block to emit into and returns the
block to go on from in its result. It processes its parts by the function `sub` it is given, so a
handler is not recursive itself; `Lower.expression` ties the knot. A part that fails stops the
handler before it emits anything further.

An expression is one of these:

* an integer, float or string token: a constant;
* `true` or `false`: a constant of type `bool`;
* any other symbol: a variable;
* `(core form argument...)`: the core form, marked as such;
* `(form argument...)` with the name of a core form that no function in scope has: the core form;
* any other list: a macro call if the expander replaces it, otherwise a call of the overload that
  takes exactly the types of the arguments.
-/

namespace FormCompiler

/-- The function whose body is processed, and its variables. -/
structure Frame where
  func : Ir.FuncId
  scope : Scope
deriving Repr, Inhabited

namespace Lower

variable {σ : Type}

/-- The way to process a part of a form: from the block to emit into and the part. -/
abbrev Sub (σ : Type) := Ir.BlockId → NodeId → Lower σ Result

/-- Drops a result and returns the block to go on from. -/
def drop (r : Result) : Lower σ Ir.BlockId := do
  let r ← onContext (Context.destruct r)
  return r.block

/-- Drops results one after the other, from a block on. -/
def dropAll : Ir.BlockId → List Result → Lower σ Ir.BlockId
  | b, [] => return b
  | b, r :: rs => do
    let b ← drop (r.inBlock b)
    dropAll b rs

/-! ## Tokens -/

/-- Reports a literal token whose text is no literal. -/
def failMalformed {α : Type} (node : NodeId) (expected : String) : Lower σ α := do
  fail (Report.unexpectedElement (← span node) expected "expression" (← display node))

/-- An integer token is a constant of type `int`. -/
def integerToken (b : Ir.BlockId) (node : NodeId) (text : String) : Lower σ Result := do
  let ty ← onState (Context.backendType .int)
  match ← onState (Context.attempt (Ir.Module.constIntOfText ty true text)) with
  | .ok v => return .new b .int v
  | .error (.literalOutOfRange _ _) => do
    fail (Report.literalOutOfRange (← span node) text (← typeName .int))
  | .error _ => failMalformed node "integer literal"

/-- A float token is a constant of type `float`. -/
def floatToken (b : Ir.BlockId) (node : NodeId) (text : String) : Lower σ Result := do
  match Number.Binary64.read? text with
  | some value => do
    let ty ← onState (Context.backendType .float)
    let v ← onModule (Ir.Module.constFloat ty value)
    return .new b .float v
  | none => failMalformed node "floating-point literal"

/-- A string token is a pointer to its characters. -/
def stringToken (b : Ir.BlockId) (text : String) : Lower σ Result := do
  let ty ← onState (Context.onPool (·.pointerTo .char))
  let v ← onModule (Ir.Module.globalText text)
  return .new b ty v

/-- A truth value is a constant of type `bool`. -/
def truthValue (b : Ir.BlockId) (value : Bool) : Lower σ Result := do
  let ty ← onState (Context.backendType .bool)
  let v ← onModule (Ir.Module.constInt ty (if value then 1 else 0))
  return .new b .bool v

/-- A variable is borrowed. One in a slot is read and is an lvalue. -/
def variableRead (frame : Frame) (b : Ir.BlockId) (node : NodeId) (name : String) :
    Lower σ Result := do
  match frame.scope.lookup? name with
  | none => fail (Report.variableNotInScope (← span node) name)
  | some ⟨ty, .value v⟩ => return (Result.new b ty v).ownedElsewhere
  | some ⟨ty, .slot address⟩ => do
    let v ← emit node (Ir.Module.load b address)
    let addressTy ← onState (Context.onPool (·.pointerTo ty))
    return ((Result.new b ty v).withLvalue address addressTy).ownedElsewhere

/-- The result of a symbol: a truth value or a variable. -/
def symbolToken (frame : Frame) (b : Ir.BlockId) (node : NodeId) (name : String) :
    Lower σ Result :=
  if name = "true" then truthValue b true
  else if name = "false" then truthValue b false
  else variableRead frame b node name

/-- The result of a token. -/
def token (frame : Frame) (b : Ir.BlockId) (node : NodeId) (kind : TokenKind) (text : String) :
    Lower σ Result :=
  match kind with
  | .integer => integerToken b node text
  | .float => floatToken b node text
  | .string => stringToken b text
  | .symbol => symbolToken frame b node text

/-! ## Pointers -/

/-- Requires a result to be a pointer to a value and returns the type of that value. -/
def expectPointee (r : Result) (node : NodeId) : Lower σ TypeId := do
  match (← context).pool.pointee? r.ty with
  | some pointee => return pointee
  | none => fail (Report.nonPointerDereference (← span node) (← typeName r.ty))

/-- `(@ pointer)` reads through a pointer; the value is borrowed and an lvalue at the pointer. If
only the address is wanted nothing is read and the pointer itself is the result. -/
def dereference (sub : Sub σ) (b : Ir.BlockId) (node : NodeId) (arguments : List NodeId)
    (addressOnly marked : Bool) : Lower σ Result := do
  match arguments with
  | [argument] => do
    let pointer ← sub b argument
    let pointee ← expectPointee pointer argument
    if (← context).pool.isVoid pointee then
      fail (Report.voidPointerDereference (← span argument))
    else
      let r ←
        if addressOnly then
          pure (Result.new pointer.block pointer.ty pointer.value)
        else do
          let v ← emit node (Ir.Module.load pointer.block pointer.value)
          pure ((Result.new pointer.block pointee v).withLvalue
            pointer.value pointer.ty).ownedElsewhere
      let b ← drop pointer
      return ({ r with noCopy := marked }).inBlock b
  | _ =>
    fail (Report.incorrectArgumentCount (← span node) CoreForm.deref.name 1 arguments.length)

/-- The arguments of a form that reads through a pointer, unless a function shadows the form. -/
def derefArguments? (node : NodeId) : Lower σ (Option (List NodeId)) := do
  match ← items? node with
  | some (head :: arguments) => do
    match ← symbol? head with
    | some name =>
      if CoreForm.ofName? name = some .deref ∧ (← context).hasFunction name = false then
        return some arguments
      else
        return none
    | none => return none
  | _ => return none

/-- `(# lvalue)` is the address of the storage of an lvalue. `(# (@ pointer))` is the pointer. -/
def addressOf (sub : Sub σ) (b : Ir.BlockId) (node : NodeId) (arguments : List NodeId) :
    Lower σ Result := do
  match arguments with
  | [operand] => do
    match ← derefArguments? operand with
    | some inner => dereference sub b operand inner true false
    | none => do
      let r ← sub b operand
      match r.address, r.addressTy with
      | some address, some addressTy => return (Result.new r.block addressTy address).ownedElsewhere
      | _, _ => fail (Report.addressOfNonLvalue (← span operand))
  | _ =>
    fail (Report.incorrectArgumentCount (← span node) CoreForm.addressOf.name 1 arguments.length)

/-! ## Assignment -/

/-- The copy function for assigning a value and the address to copy from. There is one for lvalues
that may be copied, if an overload on the types of the two addresses is in scope. -/
def copyAssign? (c : Context) (r : Result) (destTy : TypeId) :
    Option (Ir.FuncId × Ir.ValueId) :=
  if r.isLvalue && !r.noCopy then
    match r.address, r.addressTy with
    | some source, some sourceTy =>
      (c.lookupFunction? Context.copyAssignName [destTy, sourceTy]).map fun f =>
        (f.backend, source)
    | _, _ => none
  else none

/-- `(setf destination value)` assigns through a pointer and yields `true`. A value with a copy
function is copied and then dropped, any other is moved. -/
def assignment (sub : Sub σ) (b : Ir.BlockId) (node : NodeId) (arguments : List NodeId) :
    Lower σ Result := do
  match arguments with
  | [destNode, valueNode] => do
    let dest ← sub b destNode
    let pointee ← expectPointee dest destNode
    let value ← sub dest.block valueNode
    if value.ty ≠ pointee then
      fail (Report.incorrectValueType (← span valueNode) (← typeName pointee)
        (← typeName value.ty))
    else
      let b ←
        match copyAssign? (← context) value dest.ty with
        | some (callee, source) => do
          let _ ← emit node (Ir.Module.call value.block callee [dest.value, source])
          drop value
        | none => do
          emit node (Ir.Module.store value.block value.value dest.value)
          pure value.block
      let b ← drop (dest.inBlock b)
      truthValue b true
  | _ => fail (Report.incorrectArgumentCount (← span node) CoreForm.setf.name 2 arguments.length)

/-! ## Sequences and conditionals -/

/-- Processes forms one after the other; every result but the last is dropped. -/
def forms (sub : Sub σ) : Ir.BlockId → NodeId → List NodeId → Lower σ Result
  | b, last, [] => sub b last
  | b, form, next :: rest => do
    let r ← sub b form
    let b ← drop r
    forms sub b next rest

/-- `(do form...)` yields the value of its last form. -/
def sequence (sub : Sub σ) (b : Ir.BlockId) (node : NodeId) (arguments : List NodeId) :
    Lower σ Result := do
  match arguments with
  | [] => fail (Report.tooFewArguments (← span node) CoreForm.sequence.name 1 0)
  | first :: rest => forms sub b first rest

/-- The instructions that copy a borrowed value at the end of a block. -/
def copyInstrs (b : Ir.BlockId) (ty : Ir.TyId) (value : Ir.ValueId) (copy : Ir.FuncId) :
    Ir.Build Ir.ValueId := do
  let source ← Ir.Module.alloca b ty
  Ir.Module.store b value source
  let fresh ← Ir.Module.alloca b ty
  let _ ← Ir.Module.call b copy [fresh, source]
  Ir.Module.load b fresh

/-- An owned copy of a borrowed result, made at the end of its block. -/
def copyBorrowed (node : NodeId) (r : Result) : Lower σ Result := do
  match (← context).pointerFunction? Context.copyAssignName r.ty 2 with
  | some copy => do
    let ty ← onState (Context.backendType r.ty)
    let v ← emit node (copyInstrs r.block ty r.value copy)
    return .new r.block r.ty v
  | none => fail (Report.branchOwnershipDiffers (← span node) (← typeName r.ty))

/-- Gives the results of both branches the same ownership. If one owns its value and the other
borrows it, the borrowed value is copied; a type that takes no cleanup needs no copy. -/
def unifyOwnership (node : NodeId) (onTrue onFalse : Result) : Lower σ (Result × Result) := do
  if onTrue.borrowed = onFalse.borrowed then
    return (onTrue, onFalse)
  else if (← context).ownsResources onTrue.ty = false then
    return (onTrue.ownedElsewhere, onFalse.ownedElsewhere)
  else if onTrue.borrowed then
    let copy ← copyBorrowed node onTrue
    return (copy, onFalse)
  else
    let copy ← copyBorrowed node onFalse
    return (onTrue, copy)

/-- Goes on to a block from two others. -/
def join (first second target : Ir.BlockId) : Ir.Build PUnit := do
  Ir.Module.br first target
  Ir.Module.br second target

/-- Merges the results of two branches in a new block. -/
def merge (frame : Frame) (node : NodeId) (onTrue onFalse : Result) : Lower σ Result := do
  let target ← onModule (Ir.Module.appendBlock frame.func "merge")
  emit node (join onTrue.block onFalse.block target)
  let v ←
    if (← context).pool.isVoid onTrue.ty then
      onState Context.voidValue
    else
      emit node (Ir.Module.phi target
        [(onTrue.value, onTrue.block), (onFalse.value, onFalse.block)])
  return { Result.new target onTrue.ty v with borrowed := onTrue.borrowed }

/-- `(if condition then else)`: each branch has a block of its own and goes on, from wherever it
ended, to a block where the values merge. -/
def conditional (frame : Frame) (sub : Sub σ) (b : Ir.BlockId) (node : NodeId)
    (arguments : List NodeId) : Lower σ Result := do
  match arguments with
  | [conditionNode, thenNode, elseNode] => do
    let condition ← sub b conditionNode
    if condition.ty ≠ .bool then
      fail (Report.conditionNotBool (← span conditionNode) (← typeName condition.ty))
    else
      let b ← drop condition
      let thenEntry ← onModule (Ir.Module.appendBlock frame.func "then")
      let elseEntry ← onModule (Ir.Module.appendBlock frame.func "else")
      emit node (Ir.Module.condBr b condition.value thenEntry elseEntry)
      let onTrue ← sub thenEntry thenNode
      let onFalse ← sub elseEntry elseNode
      if onTrue.ty ≠ onFalse.ty then
        fail (Report.branchTypesDiffer (← span node) (← typeName onTrue.ty)
          (← typeName onFalse.ty))
      else
        let (onTrue, onFalse) ← unifyOwnership node onTrue onFalse
        merge frame node onTrue onFalse
  | _ =>
    fail (Report.incorrectArgumentCount (← span node) CoreForm.conditional.name 3
      arguments.length)

/-! ## Core forms and calls -/

/-- Processes a core form. It is marked if it stands after `core`. -/
def coreForm (frame : Frame) (sub : Sub σ) (b : Ir.BlockId) (node : NodeId) (form : CoreForm)
    (arguments : List NodeId) (marked : Bool) : Lower σ Result := do
  match form with
  | .deref => dereference sub b node arguments false marked
  | .addressOf => addressOf sub b node arguments
  | .setf => assignment sub b node arguments
  | .sequence => sequence sub b node arguments
  | .conditional => conditional frame sub b node arguments
  | .core =>
    fail (Report.unexpectedElement (← span node) "core form name" "`core`" CoreForm.core.name)

/-- `(core form argument...)` is the core form even if a function has its name. -/
def marked (frame : Frame) (sub : Sub σ) (b : Ir.BlockId) (node : NodeId)
    (arguments : List NodeId) : Lower σ Result := do
  let refuse (place : NodeId) : Lower σ Result := do
    fail (Report.unexpectedElement (← span place) "core form name" "`core`" (← display place))
  match arguments with
  | [] => refuse node
  | head :: rest => do
    match (← symbol? head).bind CoreForm.ofName? with
    | some form =>
      if form = .core then refuse head else coreForm frame sub b node form rest true
    | none => refuse head

/-- Processes arguments from left to right; the block to go on from comes with the results. -/
def arguments (sub : Sub σ) : Ir.BlockId → List NodeId → Lower σ (List Result × Ir.BlockId)
  | b, [] => return ([], b)
  | b, node :: nodes => do
    let r ← sub b node
    let (rs, b) ← arguments sub r.block nodes
    return (r :: rs, b)

/-- Calls the overload of a name that takes exactly the types of the arguments. The arguments are
dropped after the call, from left to right. -/
def call (sub : Sub σ) (b : Ir.BlockId) (node : NodeId) (name : String)
    (argumentNodes : List NodeId) : Lower σ Result := do
  let (rs, b) ← arguments sub b argumentNodes
  let tys := rs.map (·.ty)
  match (← context).lookupFunction? name tys with
  | none => do
    let c ← context
    fail (Report.noMatchingFunction (← span node) name (tys.map c.typeName))
  | some callee => do
    let returned ← emit node (Ir.Module.call b callee.backend (rs.map (·.value)))
    let v ←
      match returned with
      | some v => pure v
      | none => onState Context.voidValue
    let b ← dropAll b rs
    return .new b callee.returnType v

/-- Processes what a rewriter makes of a call, or else the call. `left` is the number of expansions
left, and `again` processes the form that an expansion gives. -/
def callOrExpand (left : Nat) (sub again : Sub σ) (b : Ir.BlockId) (node : NodeId) (name : String)
    (argumentNodes : List NodeId) : Lower σ Result := do
  match ← tryExpand left node with
  | some result => again b result
  | none => call sub b node name argumentNodes

/-- Processes a list. -/
def list (frame : Frame) (left : Nat) (sub again : Sub σ) (b : Ir.BlockId) (node : NodeId)
    (items : List NodeId) : Lower σ Result := do
  match items with
  | [] => fail (Report.emptyList (← span node))
  | head :: argumentNodes => do
    match ← symbol? head with
    | none =>
      fail (Report.unexpectedElement (← span head) "symbol" "head of form" (← describe head))
    | some name => do
      let shadowed := (← context).hasFunction name
      match CoreForm.ofName? name with
      | some .core => marked frame sub b node argumentNodes
      | some form =>
        if shadowed then callOrExpand left sub again b node name argumentNodes
        else coreForm frame sub b node form argumentNodes false
      | none => callOrExpand left sub again b node name argumentNodes

/-- Processes one form by its handler. -/
def form (frame : Frame) (left : Nat) (sub again : Sub σ) : Sub σ := fun b node => do
  let f ← forest
  match f.kind node with
  | .token ⟨kind, name⟩ => token frame b node kind (f.names.text name)
  | .list items => list frame left sub again b node items

end Lower

end FormCompiler
