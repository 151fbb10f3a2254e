import BlockBoard.Text.Blank

/-!
# Directions

The four unit moves on the grid, and the text of a move block's field that names one.
-/

namespace BlockBoard

/-- A unit move on the grid. -/
inductive Direction where
  | up
  | down
  | left
  | right
deriving DecidableEq, Repr

namespace Direction

/-- The four directions. -/
def all : List Direction := [up, down, left, right]

/-- The change of row and column in one step. -/
def delta : Direction → Int × Int
  | up => (-1, 0)
  | down => (1, 0)
  | left => (0, -1)
  | right => (0, 1)

/-- The text of a field that names the direction. -/
def name : Direction → String
  | up => "UP"
  | down => "DOWN"
  | left => "LEFT"
  | right => "RIGHT"

/-- The arrow that outlines show. -/
def arrow : Direction → String
  | up => "↑"
  | down => "↓"
  | left => "←"
  | right => "→"

/-- The direction that a text names; blanks around it and the case of its letters do not matter. -/
def ofText? (text : String) : Option Direction :=
  all.find? fun d => d.name.toLower = (Text.trim text).toLower

/-- The report on a text that names no direction. -/
def unknownMessage (text : String) : String :=
  "unknown direction '" ++ text ++ "'"

end Direction

end BlockBoard
