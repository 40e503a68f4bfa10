import Frontend.Text.Offset
import Frontend.Unicode.Classes

/-!
# Quoted texts

A quoted text shows every character so that it can be told from all others: quotes and
backslashes are escaped, and so is what would not be seen or would attach to its neighbour.
-/

namespace Frontend.Quoted

/-- A code point in braces, in lower-case hexadecimal digits. -/
def codePoint (c : Char) : Text :=
  ['\\', 'u', '\x7b'] ++ Nat.toDigits 16 c.toNat ++ ['\x7d']

/-- One character of a text in the given quotes. -/
def escape (quote : Char) (c : Char) : Text :=
  if c = '\x00' then ['\\', '0']
  else if c = '\t' then ['\\', 't']
  else if c = '\r' then ['\\', 'r']
  else if c = '\n' then ['\\', 'n']
  else if c = '\\' then ['\\', '\\']
  else if c = quote then ['\\', c]
  else if Unicode.isExtending c then codePoint c
  else if Unicode.isPrintable c then [c]
  else codePoint c

/-- A text in double quotes. -/
def text (t : Text) : String :=
  String.ofList (['\x22'] ++ t.flatMap (escape '\x22') ++ ['\x22'])

/-- A character in single quotes. -/
def char (c : Char) : String :=
  String.ofList (['\x27'] ++ escape '\x27' c ++ ['\x27'])

end Frontend.Quoted
