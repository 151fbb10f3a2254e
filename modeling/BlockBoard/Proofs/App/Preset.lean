import BlockBoard.Command.Execute
import BlockBoard.Proofs.App.Reachable
import BlockBoard.Proofs.Project.Placement

/-!
# The start preset

The application shows a start preset beside the board, and the two change apart from each other: the
grid is resized, the preset moves on, a project brings settings that need not make sense. Still a
board honors the preset that is shown (`Handled.honors`): unless that is the center, the start is
where the preset puts it. A loaded start may be anywhere, and then the center is shown for want of a
better preset; right after a key that puts the start in place the center is right as well
(`start_at_preset`).
-/

namespace BlockBoard

open Relation

/-! ### Presets and boards -/

namespace Board

/-- The start is where the preset puts it. -/
def StartsAt (b : Board) (c : Corner) : Prop :=
  ((b.start.row : ℤ), (b.start.col : ℤ)) = c.positionOn b

/-- The board has cells, and its start is where the preset puts it unless that is the center. -/
structure Honors (b : Board) (c : Corner) : Prop where
  rows_pos : 0 < b.rows
  cols_pos : 0 < b.cols
  start : c = .center ∨ b.StartsAt c

variable {b b' : Board} {c : Corner}

theorem StartsAt.congr (h : b.StartsAt c) (same : b'.SameGrid b) : b'.StartsAt c := by
  unfold StartsAt Corner.positionOn at h ⊢
  rw [same.rows, same.cols, same.start]
  exact h

theorem Honors.congr (h : b.Honors c) (same : b'.SameGrid b) : b'.Honors c where
  rows_pos := same.rows ▸ h.rows_pos
  cols_pos := same.cols ▸ h.cols_pos
  start := h.start.imp_right fun start => start.congr same

end Board

namespace Corner

variable (c : Corner)

theorem startsAt_apply {b : Board} (rows : 0 < b.rows) (cols : 0 < b.cols) :
    (c.apply b).StartsAt c := by
  have placed := c.clampIndex_position b.rows b.cols
  rw [Board.dimension_natCast rows, Board.dimension_natCast cols] at placed
  exact placed

theorem honors_apply {b : Board} (rows : 0 < b.rows) (cols : 0 < b.cols) :
    (c.apply b).Honors c :=
  ⟨rows, cols, .inr (c.startsAt_apply rows cols)⟩

end Corner

/-- The preset that stands for settings is inferred from numbers that are not yet moved into range,
and still is honored by the board that they are applied to. -/
theorem Settings.honors_apply (s : Settings) (b : Board) : (s.apply b).Honors s.corner where
  rows_pos := Board.dimension_pos s.rows
  cols_pos := Board.dimension_pos s.cols
  start := by
    by_cases center : s.corner = .center
    · exact .inl center
    right
    have stored : s.corner.position s.rows s.cols = (s.startRow, s.startCol) :=
      Corner.position_infer center
    have placed := s.corner.clampIndex_position s.rows s.cols
    rw [stored] at placed
    show ((Board.clampIndex s.startRow (Board.dimension s.rows) : ℤ),
      (Board.clampIndex s.startCol (Board.dimension s.cols) : ℤ)) =
        s.corner.position (Board.dimension s.rows) (Board.dimension s.cols)
    rw [placed, Corner.position_dimension, stored]

/-! ### Runs -/

namespace Machine

variable {σ : Type} {m r : Machine} {p : Host σ} {s : σ}

theorem Progress.sameGrid {asked : ℕ} {a : RunResult σ} (h : Progress p m s asked a) :
    a.machine.board.SameGrid m.board := by
  cases h with
  | stepped => exact Board.sameGrid_acts _ _
  | @ended answer =>
    cases answer with
    | resume => exact Board.sameGrid_acts _ _
    | stop => exact (Board.sameGrid_applyStart _ true).trans (Board.sameGrid_acts _ _)

theorem sameGrid_ready {ws : Workspace} {records : List Record}
    (ready : r.ready ws = .ok (m, records)) : m.board.SameGrid r.board := by
  unfold Machine.ready at ready
  split_ifs at ready
  · split at ready
    · cases ready
    · obtain ⟨rfl, -⟩ := Prod.mk.inj (Except.ok.inj ready)
      exact Board.sameGrid_applyStart _ true
  · obtain ⟨rfl, -⟩ := Prod.mk.inj (Except.ok.inj ready)
    exact ⟨rfl, rfl, rfl⟩

variable (r p s) (ws : Workspace)

/-- A run leaves the grid and the start as they are. -/
theorem sameGrid_run : (r.run p ws s).machine.board.SameGrid r.board := by
  by_cases busy : r.state = .running
  · unfold Machine.run
    rw [if_pos busy]
    exact ⟨rfl, rfl, rfl⟩
  cases compiled : ws.compile? with
  | none =>
    rw [machine_run_of_compile_eq_none compiled]
    exact ⟨rfl, rfl, rfl⟩
  | some c =>
    exact (progress_run busy compiled p s).sameGrid.trans (Board.sameGrid_applyStart _ true)

theorem sameGrid_singleStep : (r.singleStep p ws s).machine.board.SameGrid r.board := by
  by_cases busy : r.state = .running
  · unfold Machine.singleStep
    rw [if_pos busy]
    exact ⟨rfl, rfl, rfl⟩
  cases ready : r.ready ws with
  | error e =>
    simp only [Machine.singleStep, if_neg busy, ready]
    exact ⟨rfl, rfl, rfl⟩
  | ok loaded =>
    obtain ⟨m, records⟩ := loaded
    exact (progress_singleSteps busy ready p s 0).sameGrid.trans (sameGrid_ready ready)

end Machine

/-! ### Keys -/

namespace App

variable {a a' : App}

/-- What happens to an application between two keys: the screen is drawn, a key is handled, or a run
or a step is paced by any host. What is outside can be different each time, also the project
file. -/
inductive Handled (a : App) : App → Prop
  | settle (height : ℕ) : Handled a (a.settle height)
  | press (o : Outside) (key : Key) : Handled a (a.press o key).app
  | run {σ : Type} (p : Host σ) (s : σ) (scroll : ℕ) (status : String) (quit : Bool) :
      Handled a { a with machine := (a.machine.run p a.workspace s).machine, scroll, status, quit }
  | step {σ : Type} (p : Host σ) (s : σ) (scroll : ℕ) (status : String) (quit : Bool) :
      Handled a
        { a with machine := (a.machine.singleStep p a.workspace s).machine, scroll, status, quit }

/-- A preset is shown, and the board was just put there. -/
structure PutAt (a : App) (c : Corner) : Prop where
  corner : a.corner = c
  start : a.machine.board.StartsAt c
  piece : a.machine.board.piece = a.machine.board.start
  fills : a.machine.board.fills = ∅

section Keys

variable (o : Outside)

theorem putAt_nextCorner (h : a.machine.board.Honors a.corner) :
    (a.nextCorner o).app.PutAt a.corner.next :=
  ⟨rfl, a.corner.next.startsAt_apply (b := a.halt.machine.board) h.rows_pos h.cols_pos, rfl, rfl⟩

/-- Whatever the dimensions were and become, the preset is put in place on the new grid. -/
theorem putAt_resize (a : App) (rows cols : ℤ) : (a.resize o rows cols).app.PutAt a.corner :=
  ⟨rfl, a.corner.startsAt_apply (b := a.halt.machine.board.setGrid _ _) (Board.dimension_pos _)
    (Board.dimension_pos _), rfl, rfl⟩

theorem honors_load (h : a.machine.board.Honors a.corner) :
    (a.load o).app.machine.board.Honors (a.load o).app.corner := by
  unfold App.load
  split
  · next p _ => exact p.settings.honors_apply _
  · exact h.congr (Board.sameGrid_applyStart _ true)

/-- No request takes the start off the preset that is shown. -/
theorem honors_answer (h : a.machine.board.Honors a.corner) (request : Request) :
    (a.answer o request).app.machine.board.Honors (a.answer o request).app.corner := by
  cases request with
  | quit | pace | scrollUp | scrollDown => exact h
  | run => exact h.congr (a.machine.sameGrid_run (Watch.host a) (a.watch o) a.workspace)
  | step => exact h.congr (a.machine.sameGrid_singleStep (Watch.host a) (a.watch o) a.workspace)
  | stop | reset => exact h.congr ⟨rfl, rfl, rfl⟩
  | nextCorner =>
    exact ⟨h.rows_pos, h.cols_pos, .inr (putAt_nextCorner o h).start⟩
  | resize rows cols =>
    exact ⟨Board.dimension_pos _, Board.dimension_pos _, .inr (putAt_resize o a rows cols).start⟩
  | save =>
    show (a.save o).app.machine.board.Honors (a.save o).app.corner
    unfold App.save
    split <;> exact h
  | load => exact honors_load o h
  | exportBitmap =>
    show (a.exportBitmap o).app.machine.board.Honors (a.exportBitmap o).app.corner
    unfold App.exportBitmap
    dsimp only
    split <;> exact h

end Keys

theorem Handled.honors (step : Handled a a') (h : a.machine.board.Honors a.corner) :
    a'.machine.board.Honors a'.corner := by
  cases step with
  | settle => exact h
  | press o key =>
    unfold App.press
    split
    · exact honors_answer o h _
    · exact h
  | run p s => exact h.congr (a.machine.sameGrid_run p s a.workspace)
  | step p s => exact h.congr (a.machine.sameGrid_singleStep p s a.workspace)

/-- The board of an application that is opened honors its preset, whatever the command line, the
configuration and the project file say. -/
theorem honors_openApp {i : Invocation} {s : Setting} {c : Config} {file : Option String}
    {opening : Invocation.Opening} (opened : i.openApp s c file = .ok opening) :
    opening.app.machine.board.Honors opening.app.corner := by
  have adjusted {b : Board} {corner : Corner} (h : b.Honors corner) :
      (i.adjust b corner).Honors corner := by
    unfold Invocation.adjust
    split_ifs
    · exact corner.honors_apply (Board.dimension_pos _) (Board.dimension_pos _)
    · exact h
  have fresh : c.board.Honors c.corner :=
    c.corner.honors_apply (Board.dimension_pos c.rowCount) (Board.dimension_pos c.colCount)
  obtain ⟨disk, -, opened⟩ := bind_eq_ok_iff.1 opened
  dsimp only at opened
  by_cases there : disk.hasPath (file.getD c.projectPath)
  · rw [if_pos there] at opened
    obtain ⟨p, -, opened⟩ := bind_eq_ok_iff.1 opened
    obtain rfl := Except.ok.inj opened
    exact adjusted (p.settings.honors_apply c.board)
  · rw [if_neg there] at opened
    obtain rfl := Except.ok.inj opened
    exact adjusted fresh

/-- A corner that is shown as the preset is where the start is, after every series of keys, runs and
steps on whatever files; and right after a key that moves the preset on or resizes the grid, every
preset is, with the piece at the start of an unpainted board. It is enough that this held when the
application was made, as it does when one is opened. -/
theorem start_at_preset (h : a.machine.board.Honors a.corner) (used : ReflTransGen Handled a a') :
    (a'.corner ≠ .center → a'.machine.board.StartsAt a'.corner) ∧
      (∀ o key, key.request? = some .nextCorner → (a'.press o key).app.PutAt a'.corner.next) ∧
      (∀ o key rows cols, key.request? = some (.resize rows cols) →
        (a'.press o key).app.PutAt a'.corner) ∧
      ∀ (i : Invocation) s c file opening, i.openApp s c file = .ok opening →
        opening.app.machine.board.Honors opening.app.corner := by
  have kept : a'.machine.board.Honors a'.corner := by
    induction used with
    | refl => exact h
    | tail _ step ih => exact step.honors ih
  refine ⟨fun corner => kept.start.resolve_left corner, fun o key asked => ?_,
    fun o key rows cols asked => ?_, fun _ _ _ _ _ => honors_openApp⟩
  · rw [press, asked]
    exact putAt_nextCorner o kept
  · rw [press, asked]
    exact putAt_resize o a' rows cols

/-- The preset of `painter` moves on from the top left to the top right of the grid, and stays there
when a row is added. -/
theorem start_at_preset_painter :
    painter.machine.board.Honors painter.corner ∧ ∃ moved,
      ReflTransGen Handled painter moved ∧ moved.corner = .topRight ∧
        moved.machine.board.StartsAt .topRight ∧
        (moved.press { display := .blank 80 24, stamp := "0" } (.char ']')).app.PutAt
          .topRight := by
  have h : painter.machine.board.Honors painter.corner :=
    ⟨by decide, by decide, .inr rfl⟩
  have used : ReflTransGen Handled painter
      (painter.press { display := .blank 80 24, stamp := "0" } (.char 'c')).app :=
    .single (.press _ _)
  obtain ⟨shown, -, resized, -⟩ := start_at_preset h used
  exact ⟨h, _, used, rfl, shown (by decide), resized _ _ 1 0 rfl⟩

end App

end BlockBoard
