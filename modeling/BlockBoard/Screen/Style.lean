import BlockBoard.Color
import BlockBoard.Text.Cluster
import BlockBoard.Text.Width

/-!
# Styled text

Text for a terminal: lines of spans, each with a style. A style sets some of the foreground color,
the background color and two text attributes, and leaves the others as they are.
-/

namespace BlockBoard

/-- A color of the terminal. -/
inductive Tint where
  /-- The black of the terminal's palette. -/
  | black
  | rgb (color : Rgb)
deriving DecidableEq, Repr

namespace Tint

/-- The tint of red, green and blue parts. -/
def of (red green blue : Nat) : Tint :=
  rgb ⟨red, green, blue⟩

end Tint

/-- What a style sets. -/
structure Style where
  fg : Option Tint := none
  bg : Option Tint := none
  bold : Bool := false
  dim : Bool := false
deriving DecidableEq, Repr

namespace Style

/-- A style on top of another: what it sets replaces, and attributes add up. -/
def onto (top bottom : Style) : Style where
  fg := top.fg.or bottom.fg
  bg := top.bg.or bottom.bg
  bold := top.bold || bottom.bold
  dim := top.dim || bottom.dim

end Style

/-- Text in one style. -/
structure Span where
  text : String
  style : Style := {}
deriving DecidableEq, Repr

/-- A line of spans, with a style under them. -/
structure Line where
  spans : List Span
  style : Style := {}
deriving DecidableEq, Repr

/-- What stands in a cell of a screen: a cluster of characters, which covers the cells to the right
of its own if it is wide. -/
structure Glyph where
  text : String := " "
  style : Style := {}
deriving DecidableEq, Repr

namespace Glyph

/-- The columns that a glyph takes. -/
def width (g : Glyph) : Nat :=
  Text.width g.text

/-- The first glyphs that fit into a number of columns together. -/
def takeFitting (columns : Nat) : List Glyph → List Glyph
  | [] => []
  | g :: gs => if g.width ≤ columns then g :: takeFitting (columns - g.width) gs else []

/-- The columns that glyphs take one behind the other. -/
def totalWidth (gs : List Glyph) : Nat :=
  gs.foldr (fun g columns => g.width + columns) 0

end Glyph

namespace Span

/-- The glyphs of a span, over a style. Line ends are not shown. -/
def glyphs (s : Span) (under : Style) : List Glyph :=
  ((Text.clusters s.text).filter (· ≠ "\n")).map fun cluster => ⟨cluster, s.style.onto under⟩

/-- The columns that a span takes. -/
def width (s : Span) : Nat :=
  Text.width s.text

end Span

namespace Line

/-- The glyphs of a line. -/
def glyphs (l : Line) : List Glyph :=
  l.spans.flatMap (·.glyphs l.style)

/-- The columns that a line takes. -/
def width (l : Line) : Nat :=
  l.spans.foldr (fun span columns => span.width + columns) 0

/-- What is shown of a line in a number of columns: the glyphs that take columns and fit, up to the
first one for which there is no room left. -/
def shownIn (l : Line) (columns : Nat) : List Glyph :=
  Glyph.takeFitting columns (l.glyphs.filter fun g => 0 < g.width && g.width ≤ columns)

/-- A line of text without a style. -/
def plain (text : String) : Line :=
  ⟨[⟨text, {}⟩], {}⟩

end Line

end BlockBoard
