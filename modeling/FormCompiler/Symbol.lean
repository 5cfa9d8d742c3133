/-!
# Mangled Symbols

Symbols of declarations: a mark, the namespaces around the declaration, its name and, for a
function, its parameter types, so that each overload has a symbol of its own.

Letters, digits and underscores of ASCII stand for themselves and a space is written as an
underscore. Some punctuation has an escape of letters, any other character one of its code point in
at least two hexadecimal digits. Escapes and separators begin with a dollar sign.
-/

namespace FormCompiler.Symbol

/-- The mark of every symbol. -/
def mark : String := "_kiln_"

/-- The mark of the name of a struct type. -/
def structMark : String := "struct_"

/-- The character stands for itself. -/
def isPlain (c : Char) : Bool := c.isAlphanum || c == '_'

/-- At least two lowercase hexadecimal digits of a code point. -/
def codeDigits (n : Nat) : List Char :=
  let digits := Nat.toDigits 16 n
  List.replicate (2 - digits.length) '0' ++ digits

/-- Written form of one character of an identifier. -/
def encodeChar (c : Char) : List Char :=
  if isPlain c then [c]
  else
    match c with
    | ' ' => ['_']
    | '<' => ['$', 'L', 'T']
    | '>' => ['$', 'G', 'T']
    | '=' => ['$', 'E', 'Q']
    | '!' => ['$', 'B', 'G']
    | '-' => ['$', 'D']
    | '@' => ['$', 'A', 'T']
    | '#' => ['$', 'H', 'S']
    | '(' => ['$', 'L', 'P']
    | ')' => ['$', 'R', 'P']
    | '.' => ['$', 'D', 'T']
    | c => '$' :: codeDigits c.toNat

/-- Written form of an identifier or of the text of a type. -/
def encode (cs : List Char) : List Char := cs.flatMap encodeChar

/-- Written form of the namespaces around a declaration, each with a dollar sign after it. -/
def encodePath (path : List String) : List Char :=
  path.flatMap fun segment => encode segment.toList ++ ['$']

/-- Written form of parameter types: a mark and the types, separated. -/
def encodeParams : List String → List Char
  | [] => []
  | param :: params =>
    ['$', '$'] ++ encode param.toList ++
      params.flatMap fun param => ['$', 'C'] ++ encode param.toList

/-- The characters of the symbol of a name declared under a namespace path. -/
def nameChars (path : List String) (name : String) : List Char :=
  mark.toList ++ encodePath path ++ encode name.toList

/-- The symbol of a name declared under a namespace path. -/
def ofName (path : List String) (name : String) : String := String.ofList (nameChars path name)

/-- The symbol of the overload of a function with parameters of these types. -/
def ofFunction (path : List String) (name : String) (params : List String) : String :=
  String.ofList (nameChars path name ++ encodeParams params)

/-- The name of the struct type of a struct declared under a namespace path. -/
def ofStruct (path : List String) (name : String) : String := structMark ++ ofName path name

end FormCompiler.Symbol
