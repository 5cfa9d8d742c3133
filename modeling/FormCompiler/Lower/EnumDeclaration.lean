import FormCompiler.Lower.Compilation
import FormCompiler.Lower.EnumFunctions

/-!
# Enum Declarations

`(def Name (enum linkage type (element...)))` declares an enum over an integer type. An element is
a symbol, or a list of a symbol and an integer; any other list is offered to the macro expander.

The members are collected first. The enum, the struct that backs it and its functions are
registered only after every element was accepted and both names were found to be free.
-/

namespace FormCompiler.Lower

variable {σ : Type}

/-- Reports an integer that is not a value of the type under an enum. -/
def failOutOfRange {α : Type} (node : NodeId) (text : String) (underlying : TypeId) :
    Lower σ α := do
  fail (Report.literalOutOfRange (← span node) text (← typeName underlying))

/-- Reports an element that is none. -/
def failElement {α : Type} (node : NodeId) : Lower σ α := do
  fail (Report.unexpectedElement (← span node) "symbol or (symbol integer)" "enum elements"
    (← display node))

/-- The builder with a member added, or the report of why it was refused. -/
def memberAdded (outcome : Except MemberError EnumBuilder) (node : NodeId) (name : String)
    (underlying : TypeId) : Lower σ EnumBuilder := do
  match outcome with
  | .ok builder => return builder
  | .error .duplicate => fail (Report.redeclaration .elementRedeclared (← span node) name)
  | .error (.outOfRange value) => failOutOfRange node (toString value) underlying

/-- The value of the literal of a member, read at the type under the enum. A value above the
largest one a member can have is out of range. -/
def memberLiteral (node : NodeId) (text : String) (underlying : TypeId) : Lower σ Int := do
  let signed := (← context).pool.isSigned underlying
  let ty ← onState (Context.backendType underlying)
  match ← onState (Context.attempt (Ir.Module.constIntOfText ty signed text)) with
  | .ok v => do
    let ir := (← context).ir
    let value? :=
      if signed then ir.constIntValue? v
      else (ir.constRaw? v).map Int.ofNat |>.filter (· ≤ maxMember)
    match value? with
    | some value => return value
    | none => failOutOfRange node text underlying
  | .error (.literalOutOfRange _ _) => failOutOfRange node text underlying
  | .error _ => do
    fail (Report.unexpectedElement (← span node) "integer literal" "enum element" text)

/-- The name, the node of the value and its text, if a list is a symbol and an integer. -/
def explicitMember? (f : Forest) (items : List NodeId) : Option (String × NodeId × String) :=
  match items with
  | [nameNode, valueNode] =>
    match f.symbol? nameNode, f.kind valueNode with
    | some name, .token ⟨.integer, text⟩ => some (name, valueNode, f.names.text text)
    | _, _ => none
  | _ => none

/-- Adds the member of an element. `left` is the number of expansions left, and `again` adds the
member of the element that an expansion gives. -/
def element (underlying : TypeId) (left : Nat)
    (again : EnumBuilder → NodeId → Lower σ EnumBuilder) (builder : EnumBuilder)
    (node : NodeId) : Lower σ EnumBuilder := do
  let f ← forest
  match f.kind node with
  | .token ⟨.symbol, text⟩ => do
    let name := f.names.text text
    memberAdded (builder.addAuto name) node name underlying
  | .token _ => failElement node
  | .list items =>
    match explicitMember? f items with
    | some (name, valueNode, text) => do
      let value ← memberLiteral valueNode text underlying
      memberAdded (builder.add name value) node name underlying
    | none => do
      match ← tryExpand left node with
      | some result => again builder result
      | none => failElement node

/-- Adds the member of an element, with a number of expansions left. -/
def elementWith (underlying : TypeId) :
    (left : Nat) → EnumBuilder → NodeId → Lower σ EnumBuilder
  | 0 => element underlying 0 fun _ _ => throw .unfinished
  | left + 1 => element underlying (left + 1) (elementWith underlying left)

/-- Adds the members of several elements. -/
def elements (underlying : TypeId) : EnumBuilder → List NodeId → Lower σ EnumBuilder
  | builder, [] => return builder
  | builder, node :: nodes => do
    let limit := (← get).maxExpansions
    let builder ← elementWith underlying limit builder node
    elements underlying builder nodes

/-- Registers an enum, its backing struct and its functions in the current namespace. -/
def registerEnum (name : String) (builder : EnumBuilder) (linkage : Ir.Linkage)
    (underlying : TypeId) (nameSpan bodySpan : Span) : Check PUnit := do
  if (← get).hasLocalEnum name then
    Context.fail (Report.redeclaration .enumRedeclared nameSpan name)
  else if (← get).hasLocalStruct name then
    Context.fail (Report.redeclaration .structRedeclared nameSpan name)
  else
    let member ← Context.always (Context.backendType underlying)
    let symbol := (← get).structSymbol name
    let refusal (e : Ir.Error) : Diagnostic :=
      match e with
      | .duplicateSymbol _ => Report.redeclaration .structRedeclared nameSpan name
      | e => Report.backendError nameSpan e.message
    let backing ← Context.emitOr refusal (Ir.Module.namedStruct symbol [member])
    let path := (← get).path
    let onceTag := (← get).onceTag
    let enumTy ← Context.always (Context.onPool (·.namedEnum name path))
    let structTy ← Context.always (Context.onPool (·.namedStruct name path))
    Context.always (Context.setLayout enumTy backing)
    Context.always (Context.setLayout structTy backing)
    let _ ← Context.always
      (Context.addEnum name (builder.finish linkage onceTag enumTy underlying))
    let _ ← Context.always
      (Context.addStruct name
        ⟨linkage, onceTag, structTy, backing, symbol, [("_enum_value", underlying)]⟩)
    Context.defineEnumFunctions name enumTy underlying linkage bodySpan

/-- Declares an enum from its linkage, type and elements. What stands after the elements is
ignored. -/
def defineEnum (nameNode : NodeId) (name : String) (body : NodeId) (parts : List NodeId) :
    Lower σ PUnit := do
  match parts with
  | linkageNode :: tyNode :: elementsNode :: _ => do
    let linkage ← expectLinkage linkageNode
    let underlying ← resolveType tyNode
    if (← context).pool.isInteger underlying = false then
      fail (Report.enumTypeNotInteger (← span tyNode) (← typeName underlying))
    else
      let elementNodes ← expectList elementsNode "enum elements"
      match (← context).pool.intWidth? underlying with
      | none => fail (Report.internalError (← span tyNode) "integer type without a width")
      | some bits => do
        let signed := (← context).pool.isSigned underlying
        let builder ← elements underlying (EnumBuilder.start bits signed) elementNodes
        let nameSpan ← span nameNode
        let bodySpan ← span body
        onContext (registerEnum name builder linkage underlying nameSpan bodySpan)
  | _ => fail (Report.tooFewArguments (← span body) "enum" 3 parts.length)

end FormCompiler.Lower
