import FormCompiler.Lower.Compilation

/-!
# Struct Declarations

`(def Name (struct linkage ((member type)...)))` declares a struct. The members are checked and
their types resolved first; then the struct is entered in the module, the pool and the current
namespace.
-/

namespace FormCompiler.Lower

variable {σ : Type}

/-- The name and type of each of several pairs, whose names must differ from each other and from
those of `done`. `what` names a pair in reports. -/
def typedNames (what : String) (done : List (String × TypeId)) :
    List NodeId → Lower σ (List (String × TypeId))
  | [] => return done.reverse
  | node :: nodes => do
    let pair ← expectList node what
    match pair with
    | [nameNode, tyNode] => do
      let name ← expectSymbol nameNode (what ++ " name")
      if done.any fun d => d.1 == name then
        fail (Report.redeclaration .variableRedeclared (← span nameNode) name)
      else
        let t ← resolveType tyNode
        typedNames what ((name, t) :: done) nodes
    | _ => fail (Report.incorrectArgumentCount (← span node) what 1 (pair.length - 1))

/-- Registers a struct in the module, the pool and the current namespace. -/
def registerStruct (name : String) (members : List (String × TypeId)) (linkage : Ir.Linkage)
    (nameSpan : Span) : Check PUnit := do
  let redeclared := Report.redeclaration .structRedeclared nameSpan name
  if (← get).hasLocalStruct name then
    Context.fail redeclared
  else
    let layout ← Context.always (Context.backendTypes (members.map (·.2)))
    let symbol := (← get).structSymbol name
    let refusal (e : Ir.Error) : Diagnostic :=
      match e with
      | .duplicateSymbol _ => redeclared
      | e => Report.backendError nameSpan e.message
    let backend ← Context.emitOr refusal (Ir.Module.namedStruct symbol layout)
    let path := (← get).path
    let onceTag := (← get).onceTag
    let t ← Context.always (Context.onPool (·.namedStruct name path))
    Context.always (Context.setLayout t backend)
    let _ ← Context.always (Context.addStruct name ⟨linkage, onceTag, t, backend, symbol, members⟩)

/-- Declares a struct from its linkage and members. -/
def defineStruct (nameNode : NodeId) (name : String) (body : NodeId) (parts : List NodeId) :
    Lower σ PUnit := do
  match parts with
  | [linkageNode, membersNode] => do
    let linkage ← expectLinkage linkageNode
    let memberNodes ← expectList membersNode "struct members"
    let members ← typedNames "struct member" [] memberNodes
    let nameSpan ← span nameNode
    onContext (registerStruct name members linkage nameSpan)
  | _ => fail (Report.incorrectArgumentCount (← span body) "struct" 2 parts.length)

end FormCompiler.Lower
