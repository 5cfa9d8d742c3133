import FormCompiler.Diagnostic.Basic

/-!
# Reports

The diagnostics of form handlers, one function for each kind of failure, so that all failures of a
kind have one wording. Descriptions such as `symbol` or `list` say what was expected and found.
-/

namespace FormCompiler.Report

/-- The ending of a noun after a number. -/
def plural (n : Nat) : String := if n = 1 then "" else "s"

/-- A form has the wrong number of arguments. -/
def incorrectArgumentCount (span : Span) (form : String) (expected found : Nat) : Diagnostic :=
  .errorAt .incorrectArgumentCount
    ("`" ++ form ++ "` expects " ++ toString expected ++ " argument" ++ plural expected ++
      ", found " ++ toString found)
    span "incorrect number of arguments"

/-- A form has fewer arguments than it needs. -/
def tooFewArguments (span : Span) (form : String) (least found : Nat) : Diagnostic :=
  .errorAt .tooFewArguments
    ("`" ++ form ++ "` expects at least " ++ toString least ++ " argument" ++ plural least ++
      ", found " ++ toString found)
    span "too few arguments"

/-- A form has an element that does not belong there. -/
def unexpectedElement (span : Span) (expected context found : String) : Diagnostic :=
  .errorAt .unexpectedElement
    ("expected " ++ expected ++ " in " ++ context ++ ", found " ++ found)
    span ("expected " ++ expected)

/-- An argument has the wrong shape. -/
def incorrectArgumentShape (span : Span) (expected context found : String) : Diagnostic :=
  .errorAt .incorrectArgumentShape
    (context ++ " must be a " ++ expected ++ ", found " ++ found)
    span ("expected " ++ expected)

/-- A linkage is no linkage word. -/
def invalidLinkage (span : Span) (found : String) : Diagnostic :=
  (Diagnostic.errorAt .invalidLinkage ("invalid linkage `" ++ found ++ "`")
    span "not a linkage").withNote "expected `intern` or `extern`"

/-- An empty list stands where a form is needed. -/
def emptyList (span : Span) : Diagnostic :=
  .errorAt .emptyList "empty list cannot be evaluated" span "empty list"

/-- A value that is no pointer is dereferenced. -/
def nonPointerDereference (span : Span) (found : String) : Diagnostic :=
  .errorAt .nonPointerDereference
    ("cannot dereference non-pointer type `" ++ found ++ "`")
    span "not a pointer"

/-- A pointer to `void` is dereferenced. -/
def voidPointerDereference (span : Span) : Diagnostic :=
  .errorAt .voidPointerDereference "cannot dereference void pointer" span "points to void"

/-- A symbol names no variable. -/
def variableNotInScope (span : Span) (name : String) : Diagnostic :=
  .errorAt .variableNotInScope ("variable `" ++ name ++ "` not in scope") span "not found"

/-- A form names no type. -/
def typeNotInScope (span : Span) (name : String) : Diagnostic :=
  .errorAt .typeNotInScope ("type `" ++ name ++ "` not in scope") span "unknown type"

/-- The type under an enum is no integer type. -/
def enumTypeNotInteger (span : Span) (found : String) : Diagnostic :=
  .errorAt .enumTypeNotInteger
    ("enum type must be integer, found `" ++ found ++ "`")
    span "not an integer type"

/-- An integer literal is not a value of its type. -/
def literalOutOfRange (span : Span) (text ty : String) : Diagnostic :=
  .errorAt .literalOutOfRange
    ("integer literal `" ++ text ++ "` out of range for `" ++ ty ++ "`")
    span "out of range"

/-- No overload takes arguments of these types. -/
def noMatchingFunction (span : Span) (name : String) (arguments : List String) : Diagnostic :=
  (Diagnostic.errorAt .noMatchingFunction
    ("no function or macro `" ++ name ++ "` matches these arguments")
    span "no match").withNote ("argument types: (" ++ " ".intercalate arguments ++ ")")

/-- The address of a value without storage is asked for. -/
def addressOfNonLvalue (span : Span) : Diagnostic :=
  .errorAt .addressOfNonLvalue "cannot take address of non-lvalue" span "has no storage"

/-- The branches of a conditional have different types. -/
def branchTypesDiffer (span : Span) (thenTy elseTy : String) : Diagnostic :=
  .errorAt .branchTypesDiffer
    ("branches have different types: `" ++ thenTy ++ "` and `" ++ elseTy ++ "`")
    span "branch types differ"

/-- The condition of a conditional is no `bool`. -/
def conditionNotBool (span : Span) (found : String) : Diagnostic :=
  .errorAt .conditionNotBool
    ("condition must be bool, found `" ++ found ++ "`")
    span "not a bool"

/-- A body does not have the declared return type. -/
def returnTypeMismatch (span : Span) (expected found : String) : Diagnostic :=
  .errorAt .returnTypeMismatch
    ("function returns `" ++ expected ++ "`, body produces `" ++ found ++ "`")
    span "return type mismatch"

/-- A value does not have the type of its destination. -/
def incorrectValueType (span : Span) (expected found : String) : Diagnostic :=
  .errorAt .incorrectValueType
    ("expected value of type `" ++ expected ++ "`, found `" ++ found ++ "`")
    span "incorrect value type"

/-- A name is declared already; the code tells as what. -/
def redeclaration (code : Code) (span : Span) (name : String) : Diagnostic :=
  .errorAt code (code.description ++ " `" ++ name ++ "`") span "already declared"

/-- One branch owns its value and the other borrows it. -/
def branchOwnershipDiffers (span : Span) (ty : String) : Diagnostic :=
  .errorAt .branchOwnershipDiffers
    ("one branch owns its `" ++ ty ++ "` and the other borrows it, and `" ++ ty ++
      "` has no `setf-copy-assign`")
    span "branches differ in ownership"

/-- The cleanup of a value could not be emitted. No place in the source stands for it. -/
def destructorFailed (detail : String) : Diagnostic :=
  { code := .destructorFailed, severity := .error
    message := "destructor could not be emitted: " ++ detail, labels := [], notes := [] }

/-- The backend refused an instruction or a definition. -/
def backendError (span : Span) (detail : String) : Diagnostic :=
  .errorAt .backendError ("backend error: " ++ detail) span "while emitting this form"

/-- A form could not be expanded. -/
def expansionFailed (span : Span) (detail : String) : Diagnostic :=
  .errorAt .expansionFailed ("macro expansion failed: " ++ detail) span "in this expansion"

/-- The compiler broke one of its own rules. -/
def internalError (span : Span) (detail : String) : Diagnostic :=
  .errorAt .internalError ("internal compiler error: " ++ detail)
    span "while processing this form"

end FormCompiler.Report
