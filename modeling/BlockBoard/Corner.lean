import BlockBoard.Board.Basic

/-!
# Start presets

The five named positions at which a program may start: the corners of the grid, and its center.
-/

namespace BlockBoard

/-- A named start position. -/
inductive Corner where
  | topLeft
  | topRight
  | bottomLeft
  | bottomRight
  | center
deriving DecidableEq, Repr

namespace Corner

/-- The presets in the order in which they are offered. -/
def all : List Corner := [topLeft, topRight, bottomLeft, bottomRight, center]

/-- The name of a preset in settings and on the command line. -/
def name : Corner → String
  | topLeft => "top-left"
  | topRight => "top-right"
  | bottomLeft => "bottom-left"
  | bottomRight => "bottom-right"
  | center => "center"

/-- The preset of a name. -/
def ofName? (name : String) : Option Corner :=
  all.find? (·.name = name)

/-- The preset as it is shown to the user. -/
def label : Corner → String
  | topLeft => "top left"
  | topRight => "top right"
  | bottomLeft => "bottom left"
  | bottomRight => "bottom right"
  | center => "center"

/-- The preset offered after this one; the last is followed by the first. -/
def next : Corner → Corner
  | topLeft => topRight
  | topRight => bottomLeft
  | bottomLeft => bottomRight
  | bottomRight => center
  | center => topLeft

/-- The position of a preset, as row and column, on a grid of the given dimensions. -/
def position (c : Corner) (rows cols : Int) : Int × Int :=
  let rows := max rows 1
  let cols := max cols 1
  match c with
  | topLeft => (0, 0)
  | topRight => (0, cols - 1)
  | bottomLeft => (rows - 1, 0)
  | bottomRight => (rows - 1, cols - 1)
  | center => (rows / 2, cols / 2)

/-- The preset of a position: the first corner that lies there, else the center. -/
def infer (rows cols row col : Int) : Corner :=
  let corners := [topLeft, topRight, bottomLeft, bottomRight]
  (corners.find? fun c => c.position rows cols = (row, col)).getD center

/-- The position of the preset on a board. -/
def positionOn (c : Corner) (b : Board) : Int × Int :=
  c.position b.rows b.cols

/-- Puts the start of a board at the preset. -/
def apply (c : Corner) (b : Board) : Board :=
  b.setStart (c.positionOn b).1 (c.positionOn b).2

/-- The reports on putting the start of a board at the preset. -/
def applyRecords (c : Corner) (b : Board) : List Record :=
  b.setStartRecords (c.positionOn b).1 (c.positionOn b).2

end Corner

end BlockBoard
