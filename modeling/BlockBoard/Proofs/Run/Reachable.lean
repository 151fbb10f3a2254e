import Mathlib.Algebra.Order.Ring.Int
import BlockBoard.Proofs.Board.Changes
import BlockBoard.Proofs.Run.SingleSteps

/-!
# Machines that a program can get

Whatever was done with a machine, between requests it is not running, and its board is one that can
be got by changes of a board.
-/

namespace BlockBoard

namespace Board

variable {b : Board}

theorem Reachable.act (h : b.Reachable) (step : Step) : (b.act step).Reachable := by
  match step with
  | .move (some d) => exact h.advance d
  | .fill color => exact h.fillPiece color
  | .highlight _ | .unhighlight _ | .move none => exact h

theorem Reachable.acts (h : b.Reachable) (steps : List Step) :
    (steps.foldl Board.act b).Reachable := by
  induction steps generalizing b with
  | nil => exact h
  | cons step steps ih => exact ih (h.act step)

/-- The dimensions and the start are the same. -/
structure SameGrid (a b : Board) : Prop where
  rows : a.rows = b.rows
  cols : a.cols = b.cols
  start : a.start = b.start

theorem SameGrid.trans {a c : Board} (hab : a.SameGrid b) (hbc : b.SameGrid c) : a.SameGrid c :=
  ⟨hab.rows.trans hbc.rows, hab.cols.trans hbc.cols, hab.start.trans hbc.start⟩

theorem sameGrid_applyStart (b : Board) (clearFills : Bool) :
    (b.applyStart clearFills).SameGrid b :=
  ⟨rfl, rfl, rfl⟩

theorem sameGrid_act (b : Board) (step : Step) : (b.act step).SameGrid b := by
  match step with
  | .fill color =>
    unfold act fillPiece fill
    split_ifs <;> exact ⟨rfl, rfl, rfl⟩
  | .move (some _) | .highlight _ | .unhighlight _ | .move none => exact ⟨rfl, rfl, rfl⟩

theorem sameGrid_acts (b : Board) (steps : List Step) : (steps.foldl Board.act b).SameGrid b := by
  induction steps generalizing b with
  | nil => exact ⟨rfl, rfl, rfl⟩
  | cons step steps ih => exact (ih (b.act step)).trans (sameGrid_act b step)

end Board

namespace Machine

/-- What a program can make of a machine that it creates. Between requests it may change the board,
and it may move the slider. -/
inductive Reachable : Machine → Prop
  | new {b : Board} (board : b.Reachable) (position : ℤ) :
      Reachable { board := b, speed := .ofInt position }
  | setBoard {r : Machine} {b : Board} : Reachable r → r.state ≠ .running → b.Reachable →
      Reachable { r with board := b }
  | setSpeed {r : Machine} (position : ℤ) : Reachable r →
      Reachable { r with speed := .ofInt position }
  | run {σ : Type} {r : Machine} (p : Host σ) (ws : Workspace) (s : σ) : Reachable r →
      Reachable (r.run p ws s).machine
  | singleStep {σ : Type} {r : Machine} (p : Host σ) (ws : Workspace) (s : σ) : Reachable r →
      Reachable (r.singleStep p ws s).machine
  | stop {r : Machine} : Reachable r → Reachable r.stop
  | reset {r : Machine} (ws : Workspace) : Reachable r → Reachable (r.reset ws).1

/-- What holds of a machine between requests. -/
structure Settled (r : Machine) : Prop where
  idle : r.state ≠ .running
  board : r.board.Reachable

variable {r m : Machine}

namespace Settled

theorem stop (board : m.board.Reachable) : m.stop.Settled :=
  ⟨nofun, board.applyStart true⟩

theorem load (board : m.board.Reachable) (steps : List Step) : (m.load steps).Settled :=
  ⟨nofun, board.applyStart true⟩

theorem ended (board : m.board.Reachable) (answer : Interrupt) : (m.ended answer).Settled := by
  cases answer with
  | resume => exact ⟨nofun, board⟩
  | stop => exact stop board

/-- Neither a refused request nor loading a program makes a machine run. -/
theorem ready (h : r.Settled) {ws : Workspace} {records : List Record}
    (ready : r.ready ws = .ok (m, records)) : m.Settled := by
  by_cases queued : r.queue = []
  · cases compiled : ws.compile? with
    | none => simp [Machine.ready, queued, compiled] at ready
    | some c =>
      rw [ready_of_queue_eq_nil queued compiled, Except.ok.injEq, Prod.mk.injEq] at ready
      exact ready.1 ▸ load h.board _
  · rw [ready_of_queue_ne_nil queued, Except.ok.injEq, Prod.mk.injEq] at ready
    exact ready.1 ▸ h

variable {σ : Type} (p : Host σ) (ws : Workspace) (s : σ)

theorem progress {p : Host σ} {s : σ} {asked : ℕ} {result : RunResult σ}
    (h : Progress p m s asked result) (board : m.board.Reachable) : result.machine.Settled := by
  cases h with
  | stepped => exact ⟨nofun, board.acts _⟩
  | ended => exact ended (board.acts _) _

theorem run (h : r.Settled) : (r.run p ws s).machine.Settled := by
  cases compiled : ws.compile? with
  | none => simpa [Machine.run, h.idle, compiled] using h
  | some c => exact progress (progress_run h.idle compiled p s) (h.board.applyStart true)

theorem singleStep (h : r.Settled) : (r.singleStep p ws s).machine.Settled := by
  cases ready : r.ready ws with
  | error e => simpa [Machine.singleStep, h.idle, ready] using h
  | ok loaded =>
    obtain ⟨m, records⟩ := loaded
    exact progress (progress_singleSteps h.idle ready p s 0) (h.ready ready).board

end Settled

theorem Reachable.settled (h : r.Reachable) : r.Settled := by
  induction h with
  | new board => exact ⟨nofun, board⟩
  | setBoard _ idle board => exact ⟨idle, board⟩
  | setSpeed _ _ ih => exact ⟨ih.idle, ih.board⟩
  | run p ws s _ ih => exact ih.run p ws s
  | singleStep p ws s _ ih => exact ih.singleStep p ws s
  | stop _ ih => exact .stop ih.board
  | reset _ _ ih => exact ⟨nofun, (ih.board.applyStart true).applyStart true⟩

/-- A machine with the standard board and slider. -/
def standard : Machine where
  board := .standard
  speed := .ofInt Speed.standard

theorem reachable_standard : standard.Reachable :=
  .new Board.reachable_standard _

end Machine

end BlockBoard
