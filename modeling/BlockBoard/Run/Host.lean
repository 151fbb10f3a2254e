import BlockBoard.Board.Basic
import BlockBoard.Program.Step
import BlockBoard.Run.Speed

/-!
# The host of a run

A run hands control to its host wherever a step calls for a pause. A `Host` says what it does at a
pause and with a notice, over a state of its own. It sees the run, and it may move the speed slider
and ask for the run to stop.
-/

namespace BlockBoard

/-- What the machine that runs a program is doing. -/
inductive RunState where
  | idle
  | running
  /-- A run was cancelled; new requests are taken as when idle. -/
  | stopped
deriving DecidableEq, Repr

/-- What can be seen of a run. -/
structure RunView where
  board : Board
  /-- The block that is running. -/
  highlighted : Option BlockId
  /-- The steps that are still to be executed. -/
  pending : List Step
  state : RunState
  /-- The number of steps executed since the program was compiled. -/
  executed : Nat

/-- What to do after a pause. -/
inductive Interrupt where
  | resume
  /-- Cancel the run. -/
  | stop
deriving DecidableEq, Repr

/-- What a host is told at the end of a run. -/
inductive Notice where
  | finished
  | stopped
deriving DecidableEq, Repr

/-- A notice as it is shown to the user. -/
def Notice.message : Notice → String
  | finished => "The program has finished."
  | stopped => "The program was stopped."

/-- The host of a run, over states of type `σ`. -/
structure Host (σ : Type) where
  /-- Spends a pause of some milliseconds, which are never zero. Given are the view of the run, the
  delay and the slider; the slider may be moved. -/
  pause : RunView → (delay : Nat) → Slider → σ → Interrupt × Slider × σ
  /-- Takes a notice. -/
  notify : Notice → σ → σ

/-- What a host that only waits keeps of a run. -/
structure Waited where
  /-- How long it has waited. -/
  milliseconds : Nat := 0
  /-- The notices in order. -/
  notices : List Notice := []
deriving DecidableEq, Repr

namespace Host

/-- A host that does not wait and drops notices. -/
def silent : Host Unit where
  pause _ _ slider s := (.resume, slider, s)
  notify _ s := s

/-- A host that only waits. It counts the time and keeps the notices. -/
def waiting : Host Waited where
  pause _ delay slider w := (.resume, slider, { w with milliseconds := w.milliseconds + delay })
  notify notice w := { w with notices := w.notices ++ [notice] }

end Host

end BlockBoard
