import BlockBoard.Board.Basic
import BlockBoard.Pane.Theme
import BlockBoard.Screen.Canvas

/-!
# The board pane

The grid, two characters a cell, each on the background of its color, in a frame that tells the
dimensions and the positions of the piece and the start.
-/

namespace BlockBoard

namespace BoardPane

/-- The background of a cell; white if its color cannot be decoded. -/
def cellTint (s : Scene) (cell : Cell) : Tint :=
  (((s.colorAt? cell).bind Color.toRgb?).map Tint.rgb).getD Theme.emptyCell

/-- The two characters of a cell. -/
def cellSpan (s : Scene) (cell : Cell) : Span :=
  let bg := some (cellTint s cell)
  if cell = s.piece then ⟨"● ", { fg := some Theme.piece, bg, bold := true }⟩
  else if cell = s.start then ⟨"· ", { fg := some Theme.startMark, bg }⟩
  else ⟨"  ", { bg }⟩

/-- The line of a row, of which at most `limit` cells are given. -/
def rowLine (s : Scene) (limit row : Nat) : Line :=
  ⟨(List.range (min s.cols limit)).map fun col => cellSpan s ⟨row, col⟩, {}⟩

/-- The lines of the board. -/
def lines (s : Scene) : List Line :=
  (List.range s.rows).map (rowLine s s.cols)

/-- The part of the lines that fits an area. -/
def linesIn (s : Scene) (a : Area) : List Line :=
  (List.range (min s.rows a.height)).map (rowLine s a.width)

/-- Draws the pane, with the name of a start preset and a number of queued steps. -/
def draw (c : Canvas) (a : Area) (s : Scene) (preset : String) (pending : Nat) : Canvas :=
  let lower : Line := ⟨
    [⟨s!" piece ({s.piece.row}, {s.piece.col}) ", { fg := some Theme.primary }⟩,
      ⟨s!"│ start ({s.start.row}, {s.start.col}) {preset} ", { fg := some Theme.comment }⟩,
      ⟨s!"│ {pending} steps queued ", { fg := some Theme.comment }⟩], {}⟩
  (c.frame a { fg := some Theme.border } (Line.plain s!" Board {s.rows}×{s.cols} ") lower).paragraph
    a.inner {} .left 0 (linesIn s a.inner)

end BoardPane

end BlockBoard
