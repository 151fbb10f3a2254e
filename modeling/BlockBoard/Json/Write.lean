import BlockBoard.Json.Value
import BlockBoard.Text.Hex

/-!
# Writing JSON

JSON text in two layouts: compact, with no blanks at all, and indented by two spaces a level, where
only empty arrays and objects stay on one line. In strings only quotes, backslashes and control
characters are escaped.
-/

namespace BlockBoard

namespace Json

/-- A number below 256 as two hexadecimal digits. -/
def twoDigits (n : Nat) : List Char :=
  (if n < 16 then ['0'] else []) ++ Text.hex n

/-- The characters that stand for one character in a string. -/
def escape (c : Char) : List Char :=
  if c = '"' ∨ c = '\\' then ['\\', c]
  else if c = '\x08' then ['\\', 'b']
  else if c = '\t' then ['\\', 't']
  else if c = '\n' then ['\\', 'n']
  else if c = '\x0c' then ['\\', 'f']
  else if c = '\r' then ['\\', 'r']
  else if c.toNat < 0x20 then ['\\', 'u', '0', '0'] ++ twoDigits c.toNat
  else [c]

/-- A string with its quotes. -/
def quote (text : String) : String :=
  "\"" ++ String.ofList (text.toList.flatMap escape) ++ "\""

/-- Whether a text is spread over lines. -/
inductive Layout where
  | compact
  | indented
deriving DecidableEq, Repr

namespace Layout

/-- What precedes an item at a level, or the closing bracket of what holds it. -/
def lineStart : Layout → (level : Nat) → String
  | compact, _ => ""
  | indented, level => "\n" ++ "".pushn ' ' (2 * level)

/-- What stands between a key and its value. -/
def colon : Layout → String
  | compact => ":"
  | indented => ": "

end Layout

mutual

/-- The text of a value that stands at a level of nesting. -/
def write (layout : Layout) (level : Nat) : Json → String
  | null => "null"
  | bool true => "true"
  | bool false => "false"
  | int n => toString n
  | real => "0.0"
  | text s => quote s
  | array [] => "[]"
  | array (item :: items) =>
    "[" ++ layout.lineStart (level + 1) ++ item.write layout (level + 1)
      ++ writeItems layout (level + 1) items ++ layout.lineStart level ++ "]"
  | object [] => "\x7b\x7d"
  | object ((key, value) :: members) =>
    "\x7b" ++ layout.lineStart (level + 1) ++ quote key ++ layout.colon
      ++ value.write layout (level + 1)
      ++ writeMembers layout (level + 1) members ++ layout.lineStart level ++ "\x7d"

/-- The text of the items of an array after the first. -/
def writeItems (layout : Layout) (level : Nat) : List Json → String
  | [] => ""
  | item :: items =>
    "," ++ layout.lineStart level ++ item.write layout level ++ writeItems layout level items

/-- The text of the members of an object after the first. -/
def writeMembers (layout : Layout) (level : Nat) : List (String × Json) → String
  | [] => ""
  | (key, value) :: members =>
    "," ++ layout.lineStart level ++ quote key ++ layout.colon ++ value.write layout level
      ++ writeMembers layout level members

end

/-- A value without blanks. -/
def compact (j : Json) : String :=
  j.write .compact 0

/-- A value indented by two spaces a level. -/
def pretty (j : Json) : String :=
  j.write .indented 0

end Json

end BlockBoard
