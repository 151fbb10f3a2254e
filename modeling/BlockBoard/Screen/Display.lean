import BlockBoard.Screen.Canvas

/-!
# A display

A display shows one frame after the other. Only the cells that differ from the frame before are
drawn again, and a cell that a wide glyph covers is not drawn at all: there the display keeps what
it has shown before.
-/

namespace BlockBoard

/-- A display that is given frames. -/
structure Display where
  /-- What is seen. -/
  shown : Canvas
  /-- The frame that it was given last. -/
  frame : Canvas

/-- A walk along the cells of a display that is given a frame. -/
structure Sweep where
  /-- The glyphs that are seen, up to date as far as the walk has come. -/
  glyphs : Array Glyph
  /-- How many of the next cells are covered by the glyph before them. -/
  covered : Nat := 0
  /-- How many of the next cells were or are covered, so that they are drawn even if the frame has
  not changed there. -/
  stale : Nat := 0

namespace Sweep

/-- The walk after a cell, where the frame has a new glyph instead of an old one. -/
def visit (s : Sweep) (index : Nat) (new old : Glyph) : Sweep where
  glyphs :=
    if s.covered = 0 ∧ (new ≠ old ∨ 0 < s.stale) then s.glyphs.setIfInBounds index new
    else s.glyphs
  covered := new.width - 1
  stale := max (max new.width old.width) s.stale - 1

end Sweep

namespace Display

/-- A display that has shown nothing yet. -/
def blank (width height : Nat) : Display :=
  ⟨.blank width height, .blank width height⟩

/-- The width of a display. -/
def width (d : Display) : Nat :=
  d.shown.width

/-- The height of a display. -/
def height (d : Display) : Nat :=
  d.shown.height

/-- Brings a display up to date with a frame of its size. -/
def present (d : Display) (frame : Canvas) : Display where
  shown := { d.shown with
    glyphs := ((List.range d.shown.glyphs.size).foldl
      (fun s index => s.visit index (frame.glyphAt index) (d.frame.glyphAt index))
      (⟨d.shown.glyphs, 0, 0⟩ : Sweep)).glyphs }
  frame := frame

end Display

end BlockBoard
