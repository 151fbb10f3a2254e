import BlockBoard.Screen.Style

/-!
# Drawing on a grid of characters

A canvas is a rectangle of glyphs. What is drawn outside of it is lost. Drawing a glyph puts its
style on top of the style that is there. The operations draw a paragraph, which is cut at the edges
of its area and never wrapped, and a frame with a title in its upper and in its lower edge.
-/

namespace BlockBoard

/-- A rectangle of a canvas. -/
structure Area where
  x : Nat
  y : Nat
  width : Nat
  height : Nat
deriving DecidableEq, Repr

namespace Area

/-- What is left of an area inside its frame. -/
def inner (a : Area) : Area where
  x := a.x + min 1 a.width
  y := a.y + min 1 a.height
  width := a.width - 2
  height := a.height - 2

end Area

/-- Glyphs in rows of a given width. -/
structure Canvas where
  width : Nat
  height : Nat
  glyphs : Array Glyph

/-- How the lines of a paragraph are placed. -/
inductive Align where
  | left
  | right
deriving DecidableEq, Repr

namespace Canvas

/-- A canvas of spaces. -/
def blank (width height : Nat) : Canvas :=
  ⟨width, height, Array.replicate (width * height) {}⟩

/-- The area of the whole canvas. -/
def area (c : Canvas) : Area :=
  ⟨0, 0, c.width, c.height⟩

/-- Changes the glyph at a position. -/
def modify (c : Canvas) (x y : Nat) (f : Glyph → Glyph) : Canvas :=
  if x < c.width ∧ y < c.height then
    { c with glyphs := c.glyphs.modify (y * c.width + x) f }
  else c

/-- Draws a glyph. -/
def put (c : Canvas) (x y : Nat) (g : Glyph) : Canvas :=
  c.modify x y fun old => ⟨g.text, g.style.onto old.style⟩

/-- Puts a style on all glyphs of an area. -/
def paint (c : Canvas) (a : Area) (style : Style) : Canvas :=
  (List.range a.height).foldl (fun c row =>
    (List.range a.width).foldl (fun c col =>
      c.modify (a.x + col) (a.y + row) fun old => { old with style := style.onto old.style }) c) c

/-- Draws glyphs from a position to the right, each one behind the columns of the one before it. -/
def putAll (c : Canvas) (x y : Nat) : List Glyph → Canvas
  | [] => c
  | g :: gs => (c.put x y g).putAll (x + g.width) y gs

/-- Draws a line into a row of an area. The end of a line that is too long is cut off. -/
def putLine (c : Canvas) (a : Area) (row : Nat) (align : Align) (l : Line) : Canvas :=
  let shown := l.shownIn a.width
  let indent := match align with
    | .left => 0
    | .right => a.width - Glyph.totalWidth shown
  c.putAll (a.x + indent) (a.y + row) shown

/-- Draws lines into the rows of an area from a given row on. -/
def putLines (c : Canvas) (a : Area) (align : Align) (row : Nat) : List Line → Canvas
  | [] => c
  | l :: ls => (c.putLine a row align l).putLines a align (row + 1) ls

/-- Draws a paragraph in a style of its own, from a given line on. -/
def paragraph (c : Canvas) (a : Area) (style : Style) (align : Align) (scroll : Nat)
    (lines : List Line) : Canvas :=
  (c.paint a style).putLines a align 0
    (((lines.drop scroll).take a.height).map fun l => { l with style := l.style.onto style })

/-- Draws a line of equal glyphs downwards. -/
def vertical (c : Canvas) (x y height : Nat) (g : Glyph) : Canvas :=
  (List.range height).foldl (fun c row => c.put x (y + row) g) c

/-- Draws a line of equal glyphs to the right. -/
def horizontal (c : Canvas) (x y width : Nat) (g : Glyph) : Canvas :=
  (List.range width).foldl (fun c col => c.put (x + col) y g) c

/-- Draws a glyph behind the text that is there already. -/
def join (c : Canvas) (x y : Nat) (g : Glyph) : Canvas :=
  c.modify x y fun old => ⟨old.text ++ g.text, g.style.onto old.style⟩

/-- Empties cells of a row. -/
def clear (c : Canvas) (x y count : Nat) : Canvas :=
  (List.range count).foldl (fun c col => c.modify (x + col) y fun _ => {}) c

/-- Draws glyphs of a title that begins at column `start`, up to the first one that would reach over
column `stop`. A glyph without a width joins the one before it, or the next one if it is the first
of all. The cells that a wide glyph covers are emptied. -/
def putTitleGlyphs (c : Canvas) (start stop y x : Nat) (first : Bool) : List Glyph → Canvas
  | [] => c
  | g :: gs =>
    if stop < x + g.width then c
    else
      let c :=
        if first then c.put x y g
        else if x = start then c.join x y g
        else if g.width = 0 then c.join (x - 1) y g
        else c.put x y g
      (c.clear (x + 1) y (g.width - 1)).putTitleGlyphs start stop y (x + g.width) false gs

/-- Draws spans of a title over a style, each one behind the columns of the one before it. -/
def putTitleSpans (c : Canvas) (stop y x : Nat) (under : Style) : List Span → Canvas
  | [] => c
  | s :: ss =>
    let c :=
      if s.width = 0 ∨ stop ≤ x then c else c.putTitleGlyphs x stop y x true (s.glyphs under)
    c.putTitleSpans stop y (x + s.width) under ss

/-- Draws a title into a row of an area. The end of a title that is too long is cut off. -/
def putTitle (c : Canvas) (a : Area) (row : Nat) (l : Line) : Canvas :=
  c.putTitleSpans (a.x + min l.width a.width) (a.y + row) a.x l.style l.spans

/-- Draws a frame along the edges of an area, with titles in its upper and its lower edge. -/
def frame (c : Canvas) (a : Area) (style : Style) (upper lower : Line) : Canvas :=
  if a.width = 0 ∨ a.height = 0 then c
  else
    let (right, bottom) := (a.x + a.width - 1, a.y + a.height - 1)
    let c := c.vertical a.x a.y a.height ⟨"│", style⟩
    let c := c.horizontal a.x a.y a.width ⟨"─", style⟩
    let c := c.vertical right a.y a.height ⟨"│", style⟩
    let c := c.horizontal a.x bottom a.width ⟨"─", style⟩
    let c := c.put right bottom ⟨"┘", style⟩
    let c := c.put right a.y ⟨"┐", style⟩
    let c := c.put a.x bottom ⟨"└", style⟩
    let c := c.put a.x a.y ⟨"┌", style⟩
    let title : Area := { a with x := a.x + 1, width := a.width - 2 }
    let c := c.putTitle title 0 upper
    c.putTitle title (a.height - 1) lower

/-- The glyph at an index, counted along the rows. -/
def glyphAt (c : Canvas) (index : Nat) : Glyph :=
  c.glyphs[index]?.getD {}

/-- The glyphs of a row. -/
def row (c : Canvas) (y : Nat) : List Glyph :=
  (c.glyphs.extract (y * c.width) ((y + 1) * c.width)).toList

/-- The text of the rows. -/
def text (c : Canvas) : List String :=
  (List.range c.height).map fun y => String.join ((c.row y).map Glyph.text)

/-- The glyphs of a row, those that follow each other in one style put together. -/
def runs (c : Canvas) (y : Nat) : List (List Glyph) :=
  (c.row y).splitBy fun a b => a.style = b.style

end Canvas

end BlockBoard
