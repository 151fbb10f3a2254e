import BlockBoard.Text.Emoji
import BlockBoard.Text.Ignorable
import BlockBoard.Text.Joining

/-!
# The width of text

How many columns a text takes on a screen. Most characters take one, those of East Asian scripts
take two, and marks that join another character take none. Some characters change the width of the
ones before them: a picture that is joined to another one, a style that is asked for, a skin tone,
the second letter of a ligature. The width is therefore computed from the end of a text.
-/

namespace BlockBoard

namespace Text

/-- The closed ranges of code points with an East_Asian_Width of Wide or Fullwidth, apart from emoji,
in order. -/
def wideRanges : List (Nat × Nat) :=
  [(0x1100, 0x115F), (0x2329, 0x232A), (0x2630, 0x2637), (0x268A, 0x268F), (0x2E80, 0x2E99),
    (0x2E9B, 0x2EF3), (0x2F00, 0x2FD5), (0x2FF0, 0x303E), (0x3041, 0x3096), (0x3099, 0x30FF),
    (0x3105, 0x312F), (0x3131, 0x318E), (0x3190, 0x31E5), (0x31EF, 0x321E), (0x3220, 0x3247),
    (0x3250, 0xA48C), (0xA490, 0xA4C6), (0xA960, 0xA97C), (0xAC00, 0xD7A3), (0xF900, 0xFAFF),
    (0xFE10, 0xFE19), (0xFE30, 0xFE52), (0xFE54, 0xFE66), (0xFE68, 0xFE6B), (0xFF01, 0xFF60),
    (0xFFE0, 0xFFE6), (0x16FE0, 0x16FE4), (0x16FF0, 0x16FF1), (0x17000, 0x187F7),
    (0x18800, 0x18CD5), (0x18CFF, 0x18D08), (0x1AFF0, 0x1AFF3), (0x1AFF5, 0x1AFFB),
    (0x1AFFD, 0x1AFFE), (0x1B000, 0x1B122), (0x1B132, 0x1B132), (0x1B150, 0x1B152),
    (0x1B155, 0x1B155), (0x1B164, 0x1B167), (0x1B170, 0x1B2FB), (0x1D300, 0x1D356),
    (0x1D360, 0x1D376), (0x1F200, 0x1F200), (0x1F202, 0x1F202), (0x1F210, 0x1F219),
    (0x1F21B, 0x1F22E), (0x1F230, 0x1F231), (0x1F237, 0x1F237), (0x1F23B, 0x1F23B),
    (0x1F240, 0x1F248), (0x1F260, 0x1F265), (0x20000, 0x2FFFD), (0x30000, 0x3FFFD)]

/-- The closed ranges of further code points without a width, in order: vowels and trailing
consonants of Hangul syllables, marks that the next character joins, and a caret. -/
def flatRanges : List (Nat × Nat) :=
  [(0x605, 0x605), (0x70F, 0x70F), (0x890, 0x891), (0x8E2, 0x8E2), (0xD4E, 0xD4E),
    (0x1160, 0x11FF), (0xA8FA, 0xA8FA), (0xD7B0, 0xD7C6), (0xD7CB, 0xD7FB), (0x111C2, 0x111C3),
    (0x113D1, 0x113D1), (0x1193F, 0x1193F), (0x11941, 0x11941), (0x11A84, 0x11A89),
    (0x11D46, 0x11D46), (0x11F02, 0x11F02)]

/-- The last of the first code points, which take one column each, apart from the line feed. -/
def lastPlain : Nat := 0xA0

/-- The columns that a character takes where it makes no use of the next one. -/
def charWidth (c : Char) : Nat :=
  if c.toNat ≤ lastPlain then (if c = '\n' then 0 else 1)
  else if c = '\u115F' ∨ c = '\u17A4' then 2
  else if c = '\u17D8' then 3
  else if c = '\u2D7F' then 1
  else if isJoining c ∨ isIgnorable c ∨ inRanges flatRanges c.toNat then 0
  else if inRanges wideRanges c.toNat ∨ isPictureEmoji c ∨ isTone c then 2
  else 1

/-- What a text begins with, as far as it changes the width of what stands before. -/
inductive Opening where
  | plain
  | lineFeed
  /-- A picture. -/
  | picture
  | tone
  /-- A joiner with a picture behind it. -/
  | joined
  /-- A request for plain text. -/
  | textStyle
  /-- A request for a picture, which may have a joined picture behind it. -/
  | pictureStyle (joined : Bool)
  /-- The Arabic letter Alef, which makes a ligature with a Lam before it. -/
  | alef
  /-- A Khmer letter that is written below the one before it. -/
  | subscript
deriving DecidableEq, Repr

/-- Whether a character is a form of the Arabic letter Alef. -/
def isAlef (c : Char) : Bool :=
  inRanges [(0x622, 0x623), (0x625, 0x625), (0x627, 0x627), (0x671, 0x673), (0x675, 0x675),
    (0x773, 0x774), (0x870, 0x882)] c.toNat

/-- Whether a character is a form of the Arabic letter Lam. -/
def isLam (c : Char) : Bool :=
  inRanges [(0x644, 0x644), (0x6B5, 0x6B8), (0x76A, 0x76A), (0x8A6, 0x8A6), (0x8C7, 0x8C7)] c.toNat

/-- Whether a Khmer letter is written below the one before it after the sign Coeng. -/
def isSubscript (c : Char) : Bool :=
  inRanges [(0x1780, 0x1782), (0x1784, 0x1787), (0x1789, 0x178C), (0x178E, 0x1793), (0x1795, 0x1798),
    (0x179B, 0x179D), (0x17A0, 0x17A0), (0x17A2, 0x17A2), (0x17A7, 0x17A7), (0x17AB, 0x17AC),
    (0x17AF, 0x17AF)] c.toNat

/-- What a text begins with if its first character makes no use of the next one. -/
def Opening.of (c : Char) : Opening :=
  if c = '\n' then lineFeed
  else if c = '\uFE0E' then textStyle
  else if c = '\uFE0F' then pictureStyle false
  else if isTone c then tone
  else if isPictureEmoji c then picture
  else if isAlef c then alef
  else if isSubscript c then subscript
  else plain

/-- A text from some character on, by its width and its beginning. -/
structure Measured where
  width : Nat := 0
  opening : Opening := .plain
deriving DecidableEq, Repr

namespace Measured

/-- A text with a character in front that makes no use of the next one. -/
def add (c : Char) (m : Measured) : Measured :=
  ⟨m.width + charWidth c, .of c⟩

/-- A text with a character in front. -/
def cons (c : Char) (m : Measured) : Measured :=
  match m.opening with
  | .pictureStyle joined =>
    if hasPictureStyle c then ⟨m.width + (if joined then 0 else 2), .picture⟩ else m.add c
  | .lineFeed => if c = '\r' then ⟨m.width, .plain⟩ else m.add c
  | .textStyle => if hasTextStyle c then ⟨m.width + 1, .plain⟩ else m.add c
  | .tone =>
    if c = '\u200D' then ⟨m.width, .joined⟩
    else if isToned c then ⟨m.width, .picture⟩
    else m.add c
  | .picture => if c = '\u200D' then ⟨m.width, .joined⟩ else m.add c
  | .joined =>
    if c = '\uFE0F' then ⟨m.width, .pictureStyle true⟩
    else if isTone c then ⟨m.width, .tone⟩
    else if isPictureEmoji c then ⟨m.width, .picture⟩
    else m.add c
  | .alef =>
    if isLam c then ⟨m.width, .plain⟩
    else if isJoining c ∧ c ≠ '\u200C' then ⟨m.width, .alef⟩
    else m.add c
  | .subscript =>
    if c = '\u17D2' then ⟨m.width - 1, .plain⟩
    else if isJoining c ∧ isIgnorable c ∨ c = '\u200D' then ⟨m.width, .subscript⟩
    else m.add c
  | .plain => m.add c

end Measured

/-- The columns that a text takes. -/
def width (text : String) : Nat :=
  (text.toList.foldr Measured.cons {}).width

end Text

end BlockBoard
