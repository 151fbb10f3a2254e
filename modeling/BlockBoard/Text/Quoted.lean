import BlockBoard.Text.Hex
import BlockBoard.Text.Printable

/-!
# Quoted text

A text between double quotes in which every character can be seen: a quote and a backslash are
preceded by a backslash, line ends, tabs and NUL have short names, and any other character that does
not print as itself is written by its code point.
-/

namespace BlockBoard

namespace Text

/-- The characters that stand for one character between the quotes. -/
def escape (c : Char) : List Char :=
  if c = '"' ∨ c = '\\' then ['\\', c]
  else if c = '\n' then ['\\', 'n']
  else if c = '\r' then ['\\', 'r']
  else if c = '\t' then ['\\', 't']
  else if c = '\x00' then ['\\', '0']
  else if isPrintable c then [c]
  else ['\\', 'u', '\x7b'] ++ hex c.toNat ++ ['\x7d']

/-- A text between double quotes, every character of it visible. -/
def quote (text : String) : String :=
  "\"" ++ String.ofList (text.toList.flatMap escape) ++ "\""

end Text

end BlockBoard
