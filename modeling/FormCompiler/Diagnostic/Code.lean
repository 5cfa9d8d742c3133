/-!
# Diagnostic Codes

Every diagnostic has a code: the letter E and four digits, the first of which tells the phase that
reports it. A code has a one-line description, which stands in for a missing message.
-/

namespace FormCompiler

/-- The phases that report diagnostics. -/
inductive Phase where
  /-- Shape and arity of forms. -/
  | form
  /-- Types of values. -/
  | type
  /-- Declarations. -/
  | declaration
  /-- Ownership and cleanup of values. -/
  | lifetime
  /-- Emission of instructions. -/
  | backend
  /-- Expansion of forms. -/
  | expansion
  /-- Rules of the compiler itself. -/
  | internal
deriving DecidableEq, Repr

/-- What a diagnostic is about. -/
inductive Code where
  /-- A form has the wrong number of arguments. -/
  | incorrectArgumentCount
  /-- A form has fewer arguments than it needs. -/
  | tooFewArguments
  /-- A form has an element that does not belong there. -/
  | unexpectedElement
  /-- An argument is a list or an atom where the other is needed. -/
  | incorrectArgumentShape
  /-- A linkage is no linkage word. -/
  | invalidLinkage
  /-- An empty list stands where a form is needed. -/
  | emptyList
  /-- A value that is no pointer is dereferenced. -/
  | nonPointerDereference
  /-- A pointer to `void` is dereferenced. -/
  | voidPointerDereference
  /-- A symbol names no variable. -/
  | variableNotInScope
  /-- A form names no type. -/
  | typeNotInScope
  /-- The type under an enum is no integer type. -/
  | enumTypeNotInteger
  /-- An integer literal is not a value of its type. -/
  | literalOutOfRange
  /-- No overload takes arguments of these types. -/
  | noMatchingFunction
  /-- The address of a value without storage is asked for. -/
  | addressOfNonLvalue
  /-- The branches of a conditional have different types. -/
  | branchTypesDiffer
  /-- The condition of a conditional is no `bool`. -/
  | conditionNotBool
  /-- A body does not have the declared return type. -/
  | returnTypeMismatch
  /-- A value does not have the type of its destination. -/
  | incorrectValueType
  /-- An enum of this name is declared already. -/
  | enumRedeclared
  /-- A struct of this name is declared already. -/
  | structRedeclared
  /-- An enum has two elements of one name. -/
  | elementRedeclared
  /-- An overload with these parameter types is declared already. -/
  | functionRedeclared
  /-- Two members or parameters have one name. -/
  | variableRedeclared
  /-- The cleanup of a value could not be emitted. -/
  | destructorFailed
  /-- One branch owns its value and the other borrows it. -/
  | branchOwnershipDiffers
  /-- The backend refused an instruction or a definition. -/
  | backendError
  /-- A form could not be expanded. -/
  | expansionFailed
  /-- The compiler broke one of its own rules. -/
  | internalError
deriving DecidableEq, Repr, Inhabited

namespace Code

/-- All codes, in the order of their numbers. -/
def all : List Code :=
  [.incorrectArgumentCount, .tooFewArguments, .unexpectedElement, .incorrectArgumentShape,
   .invalidLinkage, .emptyList, .nonPointerDereference, .voidPointerDereference,
   .variableNotInScope, .typeNotInScope, .enumTypeNotInteger, .literalOutOfRange,
   .noMatchingFunction, .addressOfNonLvalue, .branchTypesDiffer, .conditionNotBool,
   .returnTypeMismatch, .incorrectValueType, .enumRedeclared, .structRedeclared,
   .elementRedeclared, .functionRedeclared, .variableRedeclared, .destructorFailed,
   .branchOwnershipDiffers, .backendError, .expansionFailed, .internalError]

/-- The written form of a code. -/
def text : Code → String
  | incorrectArgumentCount => "E1001"
  | tooFewArguments => "E1002"
  | unexpectedElement => "E1003"
  | incorrectArgumentShape => "E1004"
  | invalidLinkage => "E1005"
  | emptyList => "E1006"
  | nonPointerDereference => "E2001"
  | voidPointerDereference => "E2002"
  | variableNotInScope => "E2003"
  | typeNotInScope => "E2004"
  | enumTypeNotInteger => "E2005"
  | literalOutOfRange => "E2006"
  | noMatchingFunction => "E2007"
  | addressOfNonLvalue => "E2008"
  | branchTypesDiffer => "E2009"
  | conditionNotBool => "E2010"
  | returnTypeMismatch => "E2011"
  | incorrectValueType => "E2012"
  | enumRedeclared => "E3001"
  | structRedeclared => "E3002"
  | elementRedeclared => "E3003"
  | functionRedeclared => "E3004"
  | variableRedeclared => "E3005"
  | destructorFailed => "E4001"
  | branchOwnershipDiffers => "E4002"
  | backendError => "E5001"
  | expansionFailed => "E6001"
  | internalError => "E9001"

/-- One-line summary, used when a diagnostic has no message of its own. -/
def description : Code → String
  | incorrectArgumentCount => "incorrect number of arguments"
  | tooFewArguments => "too few arguments"
  | unexpectedElement => "unexpected element"
  | incorrectArgumentShape => "incorrect argument type"
  | invalidLinkage => "invalid linkage"
  | emptyList => "empty list cannot be evaluated"
  | nonPointerDereference => "cannot dereference non-pointer"
  | voidPointerDereference => "cannot dereference void pointer"
  | variableNotInScope => "variable not in scope"
  | typeNotInScope => "type not in scope"
  | enumTypeNotInteger => "enum type must be integer"
  | literalOutOfRange => "integer literal out of range"
  | noMatchingFunction => "no matching function or macro"
  | addressOfNonLvalue => "cannot take address of non-lvalue"
  | branchTypesDiffer => "branch types differ"
  | conditionNotBool => "condition must be bool"
  | returnTypeMismatch => "return type mismatch"
  | incorrectValueType => "incorrect value type"
  | enumRedeclared => "redeclaration of enum"
  | structRedeclared => "redeclaration of struct"
  | elementRedeclared => "redeclaration of enum element"
  | functionRedeclared => "redeclaration of function"
  | variableRedeclared => "redeclaration of variable"
  | destructorFailed => "destructor could not be emitted"
  | branchOwnershipDiffers => "branches differ in ownership"
  | backendError => "backend error"
  | expansionFailed => "macro expansion failed"
  | internalError => "internal compiler error"

/-- The phase that reports a code. -/
def phase : Code → Phase
  | incorrectArgumentCount | tooFewArguments | unexpectedElement | incorrectArgumentShape
  | invalidLinkage | emptyList => .form
  | nonPointerDereference | voidPointerDereference | variableNotInScope | typeNotInScope
  | enumTypeNotInteger | literalOutOfRange | noMatchingFunction | addressOfNonLvalue
  | branchTypesDiffer | conditionNotBool | returnTypeMismatch | incorrectValueType => .type
  | enumRedeclared | structRedeclared | elementRedeclared | functionRedeclared
  | variableRedeclared => .declaration
  | destructorFailed | branchOwnershipDiffers => .lifetime
  | backendError => .backend
  | expansionFailed => .expansion
  | internalError => .internal

/-- The code with this written form. -/
def ofText? (s : String) : Option Code := all.find? fun code => code.text == s

end Code

end FormCompiler
