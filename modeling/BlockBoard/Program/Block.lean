/-!
# Blocks

A program is made of blocks. A start block is where it begins, a move block takes one step, a fill
block paints a cell, and a repeat block runs its body a number of times. A block names the first
block of its body and the block that follows it.
-/

namespace BlockBoard

/-- The name of a block, unique in its workspace. -/
abbrev BlockId := String

/-- The type of a block and the values of its fields, which are kept as they were typed. -/
inductive Kind where
  /-- Where a program begins; only its body runs. -/
  | start
  /-- One step in the direction that the field names. -/
  | move (direction : String)
  /-- Paints the current cell; a blank field stands for the default color. -/
  | fill (color : String)
  /-- Runs its body a number of times. -/
  | repetition (times : Int)
deriving DecidableEq, Repr

namespace Kind

/-- The name of the type. -/
def name : Kind → String
  | start => "start"
  | move _ => "move"
  | fill _ => "fill"
  | repetition _ => "repeat"

/-- Whether blocks of this type have a body. -/
def hasBody : Kind → Bool
  | start | repetition _ => true
  | move _ | fill _ => false

end Kind

/-- A block with its links. -/
structure Block where
  id : BlockId
  kind : Kind
  /-- The first block of the body. -/
  body : Option BlockId := none
  /-- The block that follows in the same list. -/
  next : Option BlockId := none
deriving DecidableEq, Repr

/-- Why an edit is refused. -/
inductive EditError where
  | unknownBlock (id : BlockId)
  | duplicateId (id : BlockId)
  | noBody (id : BlockId) (kind : Kind)
  | alreadyAttached (id : BlockId)
  | successorTaken (id : BlockId)
  | startNotAttachable (id : BlockId)
  | selfAttachment (id : BlockId)
deriving DecidableEq, Repr

/-- The report on a refused edit. -/
def EditError.message : EditError → String
  | unknownBlock id => s!"unknown block '{id}'"
  | duplicateId id => s!"block id '{id}' is already in use"
  | noBody id kind => s!"{kind.name} block '{id}' has no body"
  | alreadyAttached id => s!"block '{id}' is already attached"
  | successorTaken id => s!"block '{id}' already has a successor"
  | startNotAttachable id => s!"start block '{id}' can only be top-level"
  | selfAttachment id => s!"block '{id}' cannot be attached to itself"

end BlockBoard
