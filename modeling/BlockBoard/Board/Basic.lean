import BlockBoard.Color
import BlockBoard.Direction
import BlockBoard.Record
import Std.Data.TreeMap

/-!
# The board

A grid with a piece on it, the cell the piece starts from, and the colors of the painted cells. No
number is ever refused: dimensions are raised to 1 and positions are moved into the grid, so each
operation leaves the piece and the start inside. Moves wrap around at the edges.

Every change is followed by a redraw, which is counted. An observer, when one is installed, is shown
the scene of each redraw; what it was shown is kept in the board.
-/

namespace BlockBoard

/-- A cell of the grid, by row from the top and column from the left. -/
structure Cell where
  row : Nat
  col : Nat
deriving DecidableEq, Repr

/-- Cells are ordered by row, then by column. -/
instance : Ord Cell := ⟨compareLex (compareOn Cell.row) (compareOn Cell.col)⟩

instance : Std.TransOrd Cell :=
  inferInstanceAs (Std.TransCmp (compareLex (compareOn Cell.row) (compareOn Cell.col)))

instance : Std.LawfulEqOrd Cell where
  eq_of_compare {a b} h := by
    obtain ⟨hr, hc⟩ := Ordering.then_eq_eq.1 h
    have hr := Nat.compare_eq_eq.1 hr
    have hc := Nat.compare_eq_eq.1 hc
    cases a; cases b; simp_all

/-- The colors of the painted cells; a cell that is missing is white. -/
abbrev Fills := Std.TreeMap Cell String

/-- All that can be seen of a board at one time. -/
structure Scene where
  rows : Nat
  cols : Nat
  /-- Where the piece stands. -/
  piece : Cell
  /-- Where the piece is put back to. -/
  start : Cell
  fills : Fills
  /-- How many redraws there have been. They are made and counted one by one, so a counter of 64
  bits does not overflow in any time that a run can last. -/
  redraws : Nat

namespace Scene

/-- The color of a cell, if it was painted. -/
def colorAt? (s : Scene) (cell : Cell) : Option String :=
  s.fills[cell]?

end Scene

/-- A board: its scene, and the scenes that an observer was shown, the latest first, if one is
installed. -/
structure Board extends Scene where
  seen : Option (List Scene) := none

namespace Board

/-- The number of rows and of columns when nothing else is configured. -/
def defaultSize : Int := 15

/-- A dimension of the grid: at least 1. -/
def dimension (n : Int) : Nat :=
  (max n 1).toNat

/-- The index nearest to a number on an axis of the given length. -/
def clampIndex (n : Int) (length : Nat) : Nat :=
  (min (max n 0) ((length : Int) - 1)).toNat

/-- The index that lies `delta` further on an axis of the given length, around the edges. -/
def wrap (index : Nat) (delta : Int) (length : Nat) : Nat :=
  (((index : Int) + delta) % (length : Int)).toNat

/-- A board of the given dimensions that starts at the top left cell. -/
def ofSize (rows cols : Int) : Board where
  rows := dimension rows
  cols := dimension cols
  piece := ⟨0, 0⟩
  start := ⟨0, 0⟩
  fills := ∅
  redraws := 0

/-- The board that is used when nothing else is configured. -/
def standard : Board :=
  ofSize defaultSize defaultSize

/-! ### Redraws -/

/-- Installs an observer that has not been shown anything yet. -/
def observe (b : Board) : Board :=
  { b with seen := some [] }

/-- Removes the observer, if there is one. -/
def unobserve (b : Board) : Board :=
  { b with seen := none }

/-- Counts a redraw and shows the scene to the observer. -/
def draw (b : Board) : Board :=
  let scene := { b.toScene with redraws := b.redraws + 1 }
  { toScene := scene, seen := b.seen.map (scene :: ·) }

/-! ### Setup -/

/-- Puts the piece back to the start, and clears the fills if asked to. -/
def applyStart (b : Board) (clearFills : Bool) : Board :=
  draw { b with
    piece := b.start
    fills := if clearFills then ∅ else b.fills }

/-- Puts the piece back to the start and clears the fills. -/
def reset (b : Board) : Board :=
  b.applyStart true

/-- Resizes the grid, moves the start into it and resets the board. -/
def setGrid (b : Board) (rows cols : Int) : Board :=
  let rows := dimension rows
  let cols := dimension cols
  reset { b with
    rows
    cols
    start := ⟨min b.start.row (rows - 1), min b.start.col (cols - 1)⟩ }

/-- Sets the start to the cell nearest to a position and resets the board. -/
def setStart (b : Board) (row col : Int) : Board :=
  reset { b with start := ⟨clampIndex row b.rows, clampIndex col b.cols⟩ }

/-- The report on dimensions that had to be raised. -/
def setGridRecords (rows cols : Int) : List Record :=
  if (dimension rows : Int) = rows ∧ (dimension cols : Int) = cols then []
  else [⟨.warn, .board, s!"grid {rows}x{cols} clamped to {dimension rows}x{dimension cols}"⟩]

/-- The report on a start position that had to be moved into the grid. -/
def setStartRecords (b : Board) (row col : Int) : List Record :=
  let (r, c) := (clampIndex row b.rows, clampIndex col b.cols)
  if (r : Int) = row ∧ (c : Int) = col then []
  else [⟨.warn, .board, s!"start ({row}, {col}) clamped to ({r}, {c})"⟩]

/-! ### Moves and fills -/

/-- One step of the piece, around the edges, and a redraw. -/
def advance (b : Board) (d : Direction) : Board :=
  draw { b with
    piece := ⟨wrap b.piece.row d.delta.1 b.rows, wrap b.piece.col d.delta.2 b.cols⟩ }

/-- The board after a number of steps in one direction. -/
def advances (b : Board) (d : Direction) : Nat → Board
  | 0 => b
  | n + 1 => (b.advance d).advances d n

/-- The boards after each of a number of steps in one direction. -/
def trail (b : Board) (d : Direction) : Nat → List Board
  | 0 => []
  | n + 1 => b.advance d :: (b.advance d).trail d n

/-- Steps in a direction, and the boards at which to pause: after each step if the delay is not
zero. Without a direction nothing happens. -/
def go (b : Board) (direction : Option Direction) (steps delay : Nat) : Board × List Board :=
  match direction with
  | none => (b, [])
  | some d => (b.advances d steps, if delay = 0 then [] else b.trail d steps)

/-- Whether a position lies in the grid. -/
def Contains (b : Board) (row col : Int) : Prop :=
  0 ≤ row ∧ 0 ≤ col ∧ row < b.rows ∧ col < b.cols

instance (b : Board) (row col : Int) : Decidable (b.Contains row col) := by
  unfold Contains; infer_instance

/-- Paints a cell and redraws; a position outside the grid is ignored. -/
def fill (b : Board) (row col : Int) (color : String) : Board :=
  if b.Contains row col then
    draw { b with fills := b.fills.insert ⟨row.toNat, col.toNat⟩ (Color.normalize color) }
  else b

/-- Paints the cell under the piece. -/
def fillPiece (b : Board) (color : String) : Board :=
  b.fill b.piece.row b.piece.col color

end Board

end BlockBoard
