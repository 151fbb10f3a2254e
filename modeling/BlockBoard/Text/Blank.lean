import BlockBoard.Text.Ranges

/-!
# Blank characters

The characters with the Unicode property White_Space, and `trim`, which takes them off both ends of
a text. Zero-width spaces, the byte order mark and the information separators U+001C to U+001F are
not blank.
-/

namespace BlockBoard

namespace Text

/-- The closed ranges of code points with the Unicode property White_Space, in order. -/
def blankRanges : List (Nat × Nat) :=
  [(0x09, 0x0D), (0x20, 0x20), (0x85, 0x85), (0xA0, 0xA0), (0x1680, 0x1680), (0x2000, 0x200A),
    (0x2028, 0x2029), (0x202F, 0x202F), (0x205F, 0x205F), (0x3000, 0x3000)]

/-- Whether a character is blank, that is, has the Unicode property White_Space. -/
def isBlank (c : Char) : Bool :=
  inRanges blankRanges c.toNat

/-- Characters with the blank ones taken off both ends. -/
def trimList (cs : List Char) : List Char :=
  ((cs.dropWhile isBlank).reverse.dropWhile isBlank).reverse

/-- A text with the blank characters taken off both ends. -/
def trim (text : String) : String :=
  String.ofList (trimList text.toList)

end Text

end BlockBoard
