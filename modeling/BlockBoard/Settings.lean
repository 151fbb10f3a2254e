import BlockBoard.Corner

/-!
# Board settings

The dimensions and the start position that a project file stores. They are signed words and need
not make sense; applying them to a board moves them into range.
-/

namespace BlockBoard

/-- The dimensions of a grid and a start position. -/
structure Settings where
  rows : Int := 15
  cols : Int := 15
  startRow : Int := 0
  startCol : Int := 0
deriving DecidableEq, Repr

namespace Settings

/-- The settings that describe a board. -/
def ofBoard (b : Board) : Settings :=
  ⟨b.rows, b.cols, b.start.row, b.start.col⟩

/-- Resizes a board, places the start and puts the piece there. -/
def apply (s : Settings) (b : Board) : Board :=
  ((b.setGrid s.rows s.cols).setStart s.startRow s.startCol).applyStart true

/-- The reports on applying settings to a board. -/
def applyRecords (s : Settings) (b : Board) : List Record :=
  Board.setGridRecords s.rows s.cols
    ++ (b.setGrid s.rows s.cols).setStartRecords s.startRow s.startCol

/-- The start preset that the stored position stands for. -/
def corner (s : Settings) : Corner :=
  Corner.infer s.rows s.cols s.startRow s.startCol

end Settings

end BlockBoard
