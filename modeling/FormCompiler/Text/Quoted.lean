import FormCompiler.Text.Shown

/-!
# Quoted Texts

The written form of a text between double quotes. A quote and a backslash are written after a
backslash, four control characters have a letter of their own, and every other character that is
not shown is written by its code point in braces, in hexadecimal without leading zeros.
-/

namespace FormCompiler.Text

/-- Lowercase hexadecimal digits of a number, without leading zeros. -/
def hexDigits (n : Nat) : List Char := Nat.toDigits 16 n

/-- Written form of one character inside double quotes. -/
def quoteChar (c : Char) : List Char :=
  if c = '"' then ['\\', '"']
  else if c = '\\' then ['\\', '\\']
  else if c = '\n' then ['\\', 'n']
  else if c = '\r' then ['\\', 'r']
  else if c = '\t' then ['\\', 't']
  else if c.toNat = 0 then ['\\', '0']
  else if isShown c then [c]
  else ['\\', 'u', '\x7b'] ++ hexDigits c.toNat ++ ['\x7d']

/-- Written form of the characters of a text, without the quotes around it. -/
def quoteChars (cs : List Char) : List Char := cs.flatMap quoteChar

/-- The text between double quotes, with every character that is not shown escaped. -/
def quote (s : String) : String := "\"" ++ String.ofList (quoteChars s.toList) ++ "\""

end FormCompiler.Text
