import BlockBoard.Direction
import BlockBoard.Program.Block

/-!
# Steps

What a program is reduced to before it runs.
-/

namespace BlockBoard

/-- One instruction of a compiled program. -/
inductive Step where
  /-- Mark a block as the one that is running. -/
  | highlight (id : BlockId)
  /-- Remove the mark. -/
  | unhighlight (id : BlockId)
  /-- Move the piece by one cell; without a direction nothing happens. -/
  | move (direction : Option Direction)
  /-- Paint the cell under the piece. -/
  | fill (color : String)
deriving DecidableEq, Repr

/-- A step as text. -/
def Step.text : Step → String
  | highlight id => "highlight " ++ id
  | unhighlight id => "unhighlight " ++ id
  | move (some direction) => "move " ++ direction.name
  | move none => "move ?"
  | fill color => "fill " ++ color

end BlockBoard
