import BlockBoard.Board.Basic
import BlockBoard.Text.Quoted

/-!
# Boards as text

`Scene.picture` draws the grid with one character a cell. `Scene.inspect` writes out the fields.
-/

namespace BlockBoard

namespace Scene

/-- The character that stands for a cell: the piece, a painted cell or a white cell. -/
def mark (s : Scene) (cell : Cell) : Char :=
  if cell = s.piece then '@'
  else if s.fills.contains cell then '#'
  else '.'

/-- The characters of one row. -/
def pictureRow (s : Scene) (row : Nat) : String :=
  String.ofList ((List.range s.cols).map fun col => s.mark ⟨row, col⟩)

/-- The grid, a line for each row. -/
def picture (s : Scene) : String :=
  String.join ((List.range s.rows).map fun row => s.pictureRow row ++ "\n")

end Scene

/-- A cell as a pair of numbers. -/
def Cell.pair (c : Cell) : String :=
  s!"({c.row}, {c.col})"

namespace Scene

/-- The fields of the scene, the fills in the order of their cells. -/
def inspect (s : Scene) : String :=
  let fills := s.fills.toList.map fun (cell, color) => cell.pair ++ ": " ++ Text.quote color
  "Board \x7b rows: " ++ toString s.rows ++ ", cols: " ++ toString s.cols
    ++ ", position: " ++ s.piece.pair ++ ", start: " ++ s.start.pair
    ++ ", fill_colors: \x7b" ++ ", ".intercalate fills ++ "\x7d, .. \x7d"

end Scene

end BlockBoard
