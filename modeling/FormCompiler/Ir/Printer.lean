import FormCompiler.Ir.Emit
import FormCompiler.Number.Shortest
import FormCompiler.Text.Quoted

/-!
# The Text of a Module

Every entity of a module in its written form: constants stand where they are used, other values
are written by their id, and a block by its label and id. A module lists its named structs, then
its functions in the order of declaration.
-/

namespace FormCompiler.Ir.Module

/-- Written form of a value as an operand. -/
def valueName (m : Module) (v : ValueId) : String :=
  match m.valueKind v with
  | .constInt raw => toString (Number.signed (m.constWidth (m.valueType v)) raw)
  | .constFloat value => value.text
  | .undefined => "undef"
  | .text text => "c" ++ Text.quote text
  | .param _ _ => v.text
  | .result => v.text

/-- Written form of a value after its type. -/
def typed (m : Module) (v : ValueId) : String :=
  m.typeName (m.valueType v) ++ " " ++ m.valueName v

/-- Written form of several values after their types. -/
def typedList (m : Module) (vs : List ValueId) : String := ", ".intercalate (vs.map m.typed)

/-- Written form of a block as a target. -/
def blockName (m : Module) (b : BlockId) : String :=
  (m.block b).label ++ "." ++ toString b.index

/-- Written form of a value on its way from a block. -/
def incomingText (m : Module) (incoming : ValueId × BlockId) : String :=
  "[ " ++ m.valueName incoming.1 ++ ", %" ++ m.blockName incoming.2 ++ " ]"

/-- Written form of an instruction. -/
def instrText (m : Module) : Instr → String
  | .alloca dst ty => dst.text ++ " = alloca " ++ m.typeName ty
  | .load dst pointer =>
    dst.text ++ " = load " ++ m.typeName (m.valueType dst) ++ ", " ++ m.typed pointer
  | .store value pointer => "store " ++ m.typed value ++ ", " ++ m.typed pointer
  | .call dst callee arguments =>
    let func := m.function callee
    let result :=
      match dst with
      | some dst => dst.text ++ " = "
      | none => ""
    result ++ "call " ++ m.typeName func.ret ++ " @" ++ func.symbol ++ "(" ++
      m.typedList arguments ++ ")"
  | .extractValue dst aggregate index =>
    dst.text ++ " = extractvalue " ++ m.typed aggregate ++ ", " ++ toString index
  | .insertValue dst aggregate value index =>
    dst.text ++ " = insertvalue " ++ m.typed aggregate ++ ", " ++ m.typed value ++ ", " ++
      toString index
  | .icmp dst predicate lhs rhs =>
    dst.text ++ " = icmp " ++ predicate.text ++ " " ++ m.typed lhs ++ ", " ++ m.valueName rhs
  | .phi dst incoming =>
    dst.text ++ " = phi " ++ m.typeName (m.valueType dst) ++ " " ++
      ", ".intercalate (incoming.map m.incomingText)

/-- Written form of the end of a block. -/
def terminatorText (m : Module) : Terminator → String
  | .ret (some v) => "ret " ++ m.typed v
  | .ret none => "ret void"
  | .br target => "br label %" ++ m.blockName target
  | .condBr condition onTrue onFalse =>
    "br " ++ m.typed condition ++ ", label %" ++ m.blockName onTrue ++ ", label %" ++
      m.blockName onFalse
  | .unreachable => "unreachable"

/-- The lines of a block: its name, its instructions and its end. -/
def blockLines (m : Module) (b : BlockId) : List String :=
  let data := m.block b
  (m.blockName b ++ ":") ::
    (data.instrs.toList.map fun i => "  " ++ m.instrText i) ++
    (data.terminator.toList.map fun t => "  " ++ m.terminatorText t)

/-- The lines of a function: a declaration, or a definition with its blocks. -/
def functionLines (m : Module) (f : Function) : List String :=
  let head :=
    f.linkage.text ++ " " ++ m.typeName f.ret ++ " @" ++ f.symbol ++ "(" ++
      m.typedList f.params ++ ")"
  if f.isDeclaration then ["declare " ++ head]
  else
    ("define " ++ head ++ " \x7b") :: f.blocks.toList.flatMap m.blockLines ++ ["\x7d"]

/-- The line of a named struct; other types have none. -/
def typeLine? (m : Module) : Ty → Option String
  | .struct (some name) fields =>
    some ("%" ++ name ++ " = type \x7b " ++ ", ".intercalate (fields.map m.typeName) ++ " \x7d")
  | _ => none

/-- The lines of a module. -/
def lines (m : Module) : List String :=
  ("; module " ++ m.name) ::
    m.types.toList.filterMap m.typeLine? ++
    m.functions.toList.flatMap m.functionLines

/-- The text of a module, each line ended. -/
def text (m : Module) : String := String.join (m.lines.map (· ++ "\n"))

end FormCompiler.Ir.Module
