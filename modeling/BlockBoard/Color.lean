import BlockBoard.Text.Blank
import BlockBoard.Text.Hex

/-!
# Colors

A color is a text: `#rgb`, `#rrggbb`, either of them without the `#`, or one of twenty names, in any
letter case and with blanks around it. `normalize` gives each of these one spelling, `#` and six
lower case digits. A text that is no color is only trimmed and put in lower case; `toRgb` refuses
it.
-/

namespace BlockBoard

/-- The red, green and blue parts of a color, each from 0 to 255. -/
structure Rgb where
  red : Nat
  green : Nat
  blue : Nat
deriving DecidableEq, Repr

namespace Color

/-- The color of a cell that was never painted. -/
def white : String := "#ffffff"

/-- The ink of a two-color picture that names no other. -/
def black : String := "#000000"

/-- The color of a fill block whose field is blank. -/
def defaultFill : String := "#ffd54f"

/-- The color names, with what they stand for. -/
def named : List (String × String) :=
  [("black", "#000000"), ("silver", "#c0c0c0"), ("gray", "#808080"), ("grey", "#808080"),
    ("white", "#ffffff"), ("maroon", "#800000"), ("red", "#ff0000"), ("purple", "#800080"),
    ("fuchsia", "#ff00ff"), ("magenta", "#ff00ff"), ("green", "#008000"), ("lime", "#00ff00"),
    ("olive", "#808000"), ("yellow", "#ffff00"), ("navy", "#000080"), ("blue", "#0000ff"),
    ("teal", "#008080"), ("aqua", "#00ffff"), ("cyan", "#00ffff"), ("orange", "#ffa500")]

/-- A color without its leading `#`. -/
def digits : List Char → List Char
  | '#' :: cs => cs
  | cs => cs

/-- Three digits doubled, or six kept, behind a `#`; nothing for any other characters. -/
def spell? (cs : List Char) : Option String :=
  if cs.all Text.isHexDigit then
    match cs with
    | [r, g, b] => some (String.ofList ['#', r, r, g, g, b, b])
    | [_, _, _, _, _, _] => some (String.ofList ('#' :: cs))
    | _ => none
  else none

/-- The one spelling of a color. Blank text is white, and what is no color is kept, trimmed and in
lower case. -/
def normalize (color : String) : String :=
  let text := (Text.trim color).toLower
  if text = "" then white
  else match named.lookup text with
    | some hex => hex
    | none => (spell? (digits text.toList)).getD text

/-- The number written by one or more hexadecimal digits, after a sign `+` if there is one. -/
def readHex? : List Char → Option Nat
  | [] => none
  | ['+'] => none
  | '+' :: cs => Text.ofHex? cs
  | cs => Text.ofHex? cs

/-- The parts of a color whose normal spelling is a `#` and six more bytes that write a number. -/
def toRgb? (color : String) : Option Rgb :=
  match (normalize color).toList with
  | '#' :: cs =>
    if (String.ofList cs).utf8ByteSize = 6 then
      (readHex? cs).map fun n => ⟨n / 65536, n / 256 % 256, n % 256⟩
    else none
  | _ => none

end Color

end BlockBoard
