import Mathlib.Algebra.Order.Ring.Int
import BlockBoard.App.Press
import BlockBoard.Proofs.Project.Words
import BlockBoard.Proofs.Run.Mark

/-!
# The application between keys

A machine and a workspace change apart from each other, but between keys the machine serves the
workspace (`Reachable.ready`): it follows the program of the workspace or none. For a key that
replaces the program or sets up the board stops the machine first. So there always is a program, and
what a run or a step executes is that program (`Reachable.executes_workspace`).
-/

namespace BlockBoard

namespace Machine

variable {σ : Type} {r : Machine} {ws ws' : Workspace}

/-! ### A machine and a workspace -/

/-- What holds of a machine and the workspace whose programs it runs. -/
structure Serves (r : Machine) (ws : Workspace) : Prop where
  machine : r.Reachable
  workspace : ws.Reachable
  start : ∃ start, ws.start? = some start
  inStep : r.InStep ws

namespace Serves

theorem idle (h : r.Serves ws) : r.state ≠ .running :=
  h.machine.settled.idle

theorem board (h : r.Serves ws) : r.board.Reachable :=
  h.machine.settled.board

theorem exists_compile (h : r.Serves ws) : ∃ c, ws.compile? = some c :=
  h.start.elim fun _ hs => Workspace.exists_compile hs

theorem run (h : r.Serves ws) (p : Host σ) (s : σ) : (r.run p ws s).machine.Serves ws := by
  obtain ⟨c, compiled⟩ := h.exists_compile
  have executes := executes_run h.idle compiled p s
  exact ⟨h.machine.run p ws s, h.workspace, h.start, executes.inStep compiled⟩

theorem singleStep (h : r.Serves ws) (p : Host σ) (s : σ) :
    (r.singleStep p ws s).machine.Serves ws := by
  obtain ⟨c, compiled⟩ := h.exists_compile
  have executes := h.inStep.executes_singleStep h.idle compiled p s
  exact ⟨h.machine.singleStep p ws s, h.workspace, h.start, executes.inStep compiled⟩

theorem stop (h : r.Serves ws) : r.stop.Serves ws :=
  ⟨h.machine.stop, h.workspace, h.start, .inl (halted_stop r)⟩

theorem setBoard (h : r.Serves ws) {b : Board} (board : b.Reachable) :
    Serves { r with board := b } ws :=
  ⟨h.machine.setBoard h.idle board, h.workspace, h.start, h.inStep.congr rfl rfl rfl⟩

theorem setSpeed (h : r.Serves ws) (position : ℤ) : Serves { r with speed := .ofInt position } ws :=
  ⟨h.machine.setSpeed position, h.workspace, h.start, h.inStep.congr rfl rfl rfl⟩

theorem reset (h : r.Serves ws) : (r.reset ws).1.Serves (r.reset ws).2 where
  machine := h.machine.reset ws
  workspace := h.workspace.run [.clear, .ensureStart]
  start := ws.clear.exists_start?_ensureStart
  inStep := .inl ⟨rfl, rfl⟩

/-- A machine that has nothing to do serves any workspace. -/
theorem replace (h : r.Serves ws) (halted : r.Halted) (workspace : ws'.Reachable)
    (start : ∃ start, ws'.start? = some start) : r.Serves ws' :=
  ⟨h.machine, workspace, start, .inl halted⟩

end Serves

end Machine

/-! ### Keys -/

namespace App

variable {a : App}

/-- What keys make of an application with a new machine and a workspace with a start block. Outside
of it anything can be different at each key, also the project file, and runs and steps can be paced
by any host. -/
inductive Reachable : App → Prop
  | new {b : Board} {ws : Workspace} {start : Block} (board : b.Reachable) (position : ℤ)
      (workspace : ws.Reachable) (hs : ws.start? = some start) (corner : Corner)
      (projectPath exportFolder exportBase : String) :
      Reachable
        { machine := { board := b, speed := .ofInt position }, workspace := ws, corner, projectPath,
          exportFolder, exportBase }
  | settle {a : App} (height : ℕ) : Reachable a → Reachable (a.settle height)
  | press {a : App} (o : Outside) (key : Key) : Reachable a → Reachable (a.press o key).app
  | run {σ : Type} {a : App} (p : Host σ) (s : σ) (scroll : ℕ) (status : String) (quit : Bool) :
      Reachable a →
        Reachable
          { a with machine := (a.machine.run p a.workspace s).machine, scroll, status, quit }
  | step {σ : Type} {a : App} (p : Host σ) (s : σ) (scroll : ℕ) (status : String) (quit : Bool) :
      Reachable a →
        Reachable
          { a with machine := (a.machine.singleStep p a.workspace s).machine, scroll, status, quit }

/-- The machine serves the workspace. -/
def Ready (a : App) : Prop :=
  a.machine.Serves a.workspace

namespace Ready

variable (o : Outside)

theorem nextCorner (h : a.Ready) : (a.nextCorner o).app.Ready :=
  have stopped := h.stop
  stopped.setBoard (stopped.board.change (c := .corner a.corner.next) trivial)

theorem resize (h : a.Ready) (rows cols : ℤ) : (a.resize o rows cols).app.Ready := by
  have stopped := h.stop
  let b := a.machine.stop.board
  have grid := stopped.board.change (c := .setGrid (Word.sum b.rows rows) (Word.sum b.cols cols))
    ⟨Word.fits_sum _ _, Word.fits_sum _ _⟩
  exact stopped.setBoard (grid.change (c := .corner a.corner) trivial)

theorem save (h : a.Ready) : (a.save o).app.Ready := by
  unfold App.save
  split <;> exact h

theorem exportBitmap (h : a.Ready) : (a.exportBitmap o).app.Ready := by
  unfold App.exportBitmap
  dsimp only
  split <;> exact h

theorem load (h : a.Ready) : (a.load o).app.Ready := by
  have stopped := h.stop
  unfold App.load
  split
  · next p loaded =>
    obtain ⟨text, d, -, -, built, -⟩ := Project.exists_document_of_loadFile loaded
    have placed := stopped.setBoard (Project.reachable_board loaded stopped.board)
    exact placed.replace ⟨rfl, rfl⟩ (Workspace.reachable_of_build built)
      (Workspace.exists_start?_of_build built)
  · exact stopped

theorem answer (h : a.Ready) (request : Request) : (a.answer o request).app.Ready := by
  cases request with
  | quit | scrollUp | scrollDown => exact h
  | run => exact h.run (Watch.host a) (a.watch o)
  | step => exact h.singleStep (Watch.host a) (a.watch o)
  | stop => exact h.stop
  | reset => exact h.reset
  | pace amount => exact h.setSpeed _
  | nextCorner => exact h.nextCorner o
  | resize rows cols => exact h.resize o rows cols
  | save => exact h.save o
  | load => exact h.load o
  | exportBitmap => exact h.exportBitmap o

theorem press (h : a.Ready) (key : Key) : (a.press o key).app.Ready := by
  unfold App.press
  split
  · exact h.answer o _
  · exact h

end Ready

theorem Reachable.ready (h : a.Reachable) : a.Ready := by
  induction h with
  | new board position workspace hs =>
    exact ⟨.new board position, workspace, ⟨_, hs⟩, .inl ⟨rfl, rfl⟩⟩
  | settle _ _ ih => exact ih
  | press o key _ ih => exact ih.press o key
  | run p s _ _ _ _ ih => exact ih.run p s
  | step p s _ _ _ _ ih => exact ih.singleStep p s

/-- A conversation is a series of keys. -/
theorem Reachable.loop (h : a.Reachable) (o : Outside) (rounds : ℕ) :
    (a.loop o rounds).app.Reachable := by
  induction rounds generalizing a o with
  | zero => exact h
  | succ rounds ih =>
    have shown : (a.refresh o).1.Reachable := h.settle _
    unfold App.loop
    dsimp only
    split_ifs
    · exact shown
    · split
      · exact shown
      · exact ih (shown.press _ _) _

/-- Whatever was done with an application, its machine does not run, it has a program, and a run or
a step is never refused and executes that program only. The steps in the queue are the rest of it,
and a marked block is one of the workspace. -/
theorem Reachable.executes_workspace (h : a.Reachable) :
    a.machine.state ≠ .running ∧
      ∃ start c, a.workspace.start? = some start ∧ a.workspace.compile? = some c ∧
        (a.machine.queue ≠ [] → a.machine.queue = c.steps.toList.drop a.machine.executed) ∧
        (∀ id, a.machine.highlighted = some id → ∃ block, a.workspace.get? id = some block) ∧
        ∀ {σ : Type} (p : Host σ) (s : σ),
          (a.machine.run p a.workspace s).outcome ≠ .error .missingStart ∧
          (a.machine.singleStep p a.workspace s).outcome ≠ .error .missingStart ∧
          Machine.Executes c.steps.toList p s (a.machine.run p a.workspace s) ∧
          Machine.Executes c.steps.toList p s (a.machine.singleStep p a.workspace s) := by
  have serves : a.machine.Serves a.workspace := h.ready
  obtain ⟨start, hs⟩ := serves.start
  obtain ⟨c, compiled⟩ := serves.exists_compile
  refine ⟨serves.idle, start, c, hs, compiled, fun queued => ?_, fun id marked => ?_,
    fun p s => ?_⟩
  · exact (serves.inStep.follows compiled queued).queue
  · obtain ⟨block, acting, rfl⟩ := serves.inStep.exists_of_highlighted marked
    exact ⟨block, serves.workspace.coherent.get?_of_mem_actions acting⟩
  · have run := Machine.executes_run serves.idle compiled p s
    have step := serves.inStep.executes_singleStep serves.idle compiled p s
    exact ⟨run.outcome_ne_error _, step.outcome_ne_error _, run, step⟩

/-- An application with the program that paints. -/
def painter : App where
  machine := .standard
  workspace := .painter
  corner := .topLeft

theorem reachable_painter : painter.Reachable :=
  .new Board.reachable_standard Speed.standard ⟨_, .inr rfl⟩ Workspace.start?_painter .topLeft _ _ _

/-- The same after a single step, which marks the block that paints. -/
def painting : App :=
  (painter.press { display := .blank 80 24, stamp := "0" } (.char 's')).app

theorem reachable_painting : painting.Reachable :=
  reachable_painter.press _ _

theorem machine_painting : ∃ rest, rest ≠ [] ∧ painting.machine =
    { Machine.standard.load rest with highlighted := some "paint", executed := 1 } := by
  obtain ⟨c, compiled, steps⟩ := Workspace.exists_compile_painter
  have ready := Machine.ready_of_queue_eq_nil (r := .standard) rfl compiled
  rw [steps, List.replicate_succ, List.flatten_cons, List.cons_append] at ready
  have stepped := Machine.singleStep_of_queue_eq_cons (p := Watch.host painter)
    (s := painter.watch { display := .blank 80 24, stamp := "0" })
    Machine.reachable_standard.settled.idle ready rfl
  exact ⟨_, List.cons_ne_nil _ _, congrArg RunResult.machine stepped⟩

theorem Reachable.executes_workspace_painting :
    painting.Reachable ∧ painting.machine.queue ≠ [] ∧
      (∃ c, painting.workspace.compile? = some c ∧
        painting.machine.queue = c.steps.toList.drop 1) ∧
      ∃ block, painting.workspace.get? "paint" = some block := by
  obtain ⟨-, start, c, -, compiled, queue, marked, -⟩ := reachable_painting.executes_workspace
  obtain ⟨rest, more, machine⟩ := machine_painting
  rw [machine] at queue marked ⊢
  exact ⟨reachable_painting, more, ⟨c, compiled, queue more⟩, marked _ rfl⟩

end App

end BlockBoard
