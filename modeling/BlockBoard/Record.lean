import BlockBoard.Text.Controls

/-!
# Log records

What the library reports beside its results: a line of text, its level, and the part of the program
that it comes from. Nothing here writes a record anywhere; the operations that have something to
report return the records in the order in which they arise.
-/

namespace BlockBoard

/-- How serious a record is. -/
inductive Level where
  /-- A request was bent or refused. -/
  | warn
  /-- Progress. -/
  | info
deriving DecidableEq, Repr

/-- The name of a level as answers and log lines spell it. -/
def Level.name : Level → String
  | .warn => "WARN"
  | .info => "INFO"

/-- The part of the program that a record comes from. -/
inductive Origin where
  | board
  | bitmap
  | compiler
  | machine
  | project
  | app
deriving DecidableEq, Repr

/-- The path that log lines print for an origin. -/
def Origin.path : Origin → String
  | .board => "tily::board"
  | .bitmap => "tily::board::export"
  | .compiler => "tily::program::compiler"
  | .machine => "tily::interpreter::runner"
  | .project => "tily::project"
  | .app => "tily::ui::app"

/-- One log record. -/
structure Record where
  level : Level
  origin : Origin
  text : String
deriving DecidableEq, Repr

namespace Record

/-- The record as a log line; the level is padded to five columns, and what a terminal would take
for commands is left out. -/
def line (r : Record) : String :=
  "[" ++ r.level.name ++ "  " ++ r.origin.path ++ "] " ++ Text.withoutControls r.text

end Record

end BlockBoard
