import Mathlib.Algebra.Order.Ring.Int
import BlockBoard.Proofs.App.Reachable

/-!
# Projects that cannot be loaded

The key that loads a project stops the program before the file is read. If the file cannot be loaded
the workspace, the grid, the preset and the scroll offset stay, but the program has lost its place
and the board its painting (`press_of_unloadable`). Nothing is lost exactly if the machine was at
rest.
-/

namespace BlockBoard

namespace Project

variable {disk : Disk} {path : String}

/-- The file at a path cannot be loaded. -/
inductive Unloadable (disk : Disk) (path : String) : ProjectFileError → Prop
  /-- There is no text at the path. -/
  | unreachable {cause : FileError} (read : disk.readText path = .error cause) :
      Unloadable disk path (.unreachable path cause)
  /-- The text is no JSON, or JSON of another shape. -/
  | unreadable {text : String} {fault : Json.Fault} (read : disk.readText path = .ok text)
      (parsed : Document.parse text = .error fault) :
      Unloadable disk path (.unloadable (.unreadable fault))
  /-- The blocks cannot be placed. -/
  | misplaced {text : String} {d : Document} {cause : EditError}
      (read : disk.readText path = .ok text) (parsed : Document.parse text = .ok d)
      (built : d.build = .error cause) : Unloadable disk path (.unloadable (.misplaced cause))

theorem loadFile_eq_error_iff {e : ProjectFileError} :
    loadFile disk path = .error e ↔ Unloadable disk path e := by
  constructor
  · intro h
    rw [loadFile_eq] at h
    split at h
    · cases h
      exact .unreachable ‹_›
    · split at h
      · cases h
        exact .unreadable ‹_› ‹_›
      · split at h <;> cases h
        exact .misplaced ‹_› ‹_› ‹_›
  · intro h
    rw [loadFile_eq]
    cases h with
    | unreachable read => simp only [read]
    | unreadable read parsed => simp only [read, parsed]
    | misplaced read parsed built => simp only [read, parsed, built]

/-- On an empty disk nothing can be loaded. -/
theorem exists_unloadable_empty (path : String) : ∃ e, Unloadable {} path e := by
  cases read : Disk.readText {} path with
  | error cause => exact ⟨_, .unreachable read⟩
  | ok text =>
    obtain ⟨contents, read, -⟩ := bind_eq_ok_iff.1 read
    obtain ⟨names, -, read⟩ := bind_eq_ok_iff.1 read
    obtain ⟨place, -, read⟩ := bind_eq_ok_iff.1 read
    cases read

end Project

namespace Machine

/-- The machines are at the same point of a run, on boards that look the same. -/
structure Alike (r r' : Machine) : Prop where
  board : r.board.toScene.Alike r'.board.toScene
  queue : r.queue = r'.queue
  highlighted : r.highlighted = r'.highlighted
  state : r.state = r'.state

/-- The machine was stopped, and nothing happened since. -/
structure AtRest (r : Machine) : Prop where
  queue : r.queue = []
  highlighted : r.highlighted = none
  state : r.state = .stopped
  piece : r.board.piece = r.board.start
  fills : r.board.fills = ∅

theorem atRest_stop (r : Machine) : r.stop.AtRest :=
  ⟨rfl, rfl, rfl, rfl, rfl⟩

/-- Stopping a machine makes no difference exactly if it is at rest. -/
theorem alike_stop_iff {r : Machine} : r.stop.Alike r ↔ r.AtRest := by
  constructor
  · rintro ⟨⟨-, -, piece, -, fills⟩, queue, highlighted, state⟩
    exact ⟨queue.symm, highlighted.symm, state.symm, piece.symm, fills.symm⟩
  · rintro ⟨queue, highlighted, state, piece, fills⟩
    exact ⟨⟨rfl, rfl, piece.symm, rfl, fills.symm⟩, queue.symm, highlighted.symm, state.symm⟩

end Machine

namespace App

/-- A file that cannot be loaded changes nothing but the message, except that the machine is
stopped. So all is as before exactly if the machine was at rest. -/
theorem press_of_unloadable (a : App) (o : Outside) {key : Key} {e : ProjectFileError}
    (asked : key.request? = some .load) (bad : Project.Unloadable o.disk a.projectPath e) :
    (a.press o key).outside = o ∧
      (a.press o key).app =
        { a with machine := a.machine.stop, status := s!"Load failed: {e.message}" } ∧
      (a.press o key).app.machine.board.SameGrid a.machine.board ∧
      (a.press o key).app.machine.AtRest ∧
      ((a.press o key).app.machine.Alike a.machine ↔ a.machine.AtRest) := by
  have failed : a.press o key =
      ⟨{ a.halt with status := s!"Load failed: {e.message}" }, o,
        a.machine.stopRecords ++ [loadFailedRecord a.projectPath e]⟩ := by
    simp only [press, asked, answer, load, Project.loadFile_eq_error_iff.2 bad]
  rw [failed]
  exact ⟨rfl, rfl, Board.sameGrid_applyStart _ true, Machine.atRest_stop _, Machine.alike_stop_iff⟩

/-- A stopped machine does not notice. -/
theorem press_of_unloadable_stopped :
    ∃ e, Project.Unloadable {} painter.halt.projectPath e ∧
      (painter.halt.press { display := .blank 80 24, stamp := "0" } (.char 'l')).app.machine.Alike
        painter.halt.machine := by
  have asked : (Key.char 'l').request? = some .load := rfl
  obtain ⟨e, bad⟩ := Project.exists_unloadable_empty painter.halt.projectPath
  obtain ⟨-, -, -, -, same⟩ := painter.halt.press_of_unloadable
    { display := .blank 80 24, stamp := "0" } asked bad
  exact ⟨e, bad, same.2 (Machine.atRest_stop _)⟩

/-- A program that is gone through step by step loses its queue and its mark. -/
theorem queue_press_of_unloadable :
    painting.Reachable ∧ (∃ e, Project.Unloadable {} painting.projectPath e) ∧
      painting.machine.queue ≠ [] ∧ painting.machine.highlighted = some "paint" ∧
      painting.machine.state = .idle ∧
      ∃ after,
        (painting.press { display := .blank 80 24, stamp := "0" } (.char 'l')).app = after ∧
          after.machine.queue = [] ∧ after.machine.highlighted = none ∧
          after.machine.state = .stopped := by
  obtain ⟨e, bad⟩ := Project.exists_unloadable_empty painting.projectPath
  obtain ⟨rest, more, machine⟩ := machine_painting
  have failed := Project.loadFile_eq_error_iff.2 bad
  refine ⟨reachable_painting, ⟨e, bad⟩, ?_, ?_, ?_,
    { painting.halt with status := s!"Load failed: {e.message}" }, ?_, rfl, rfl, rfl⟩
  · rwa [machine]
  · rw [machine]
  · rw [machine]
    rfl
  · show (painting.load _).app = _
    simp only [load, failed]

end App

end BlockBoard
