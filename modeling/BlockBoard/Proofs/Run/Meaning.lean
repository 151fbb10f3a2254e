import Mathlib.Algebra.Order.Ring.Int
import BlockBoard.Board.Picture
import BlockBoard.Proofs.Program.Flatten
import BlockBoard.Proofs.Run.Reachable

/-!
# What a program draws

The steps of a program have a plain meaning: a piece that walks over a grid and paints it. A run
that is not stopped draws just that, whatever the machine did before and however the host spends
the pauses (`Reachable.run_completes`).
-/

namespace BlockBoard

/-- Where the piece stands on a grid, and the colors of the painted cells. -/
structure Sketch where
  piece : Cell
  fills : Fills

namespace Sketch

/-- The sketch after a step. -/
def step (rows cols : ℕ) (k : Sketch) : Step → Sketch
  | .move (some d) => { k with piece := k.piece.neighbor rows cols d }
  | .fill color => { k with fills := k.fills.insert k.piece (Color.normalize color) }
  | .highlight _ | .unhighlight _ | .move none => k

/-- What some steps draw on an empty grid. -/
def ofSteps (rows cols : ℕ) (start : Cell) (steps : List Step) : Sketch :=
  steps.foldl (step rows cols) ⟨start, ∅⟩

end Sketch

/-- Two scenes that differ at most in the number of redraws. -/
structure Scene.Alike (a b : Scene) : Prop where
  rows : a.rows = b.rows
  cols : a.cols = b.cols
  piece : a.piece = b.piece
  start : a.start = b.start
  fills : a.fills = b.fills

theorem Scene.Alike.picture_eq {a b : Scene} (h : a.Alike b) : a.picture = b.picture := by
  unfold picture pictureRow mark
  rw [h.rows, h.cols, h.piece, h.fills]

namespace Board

def sketch (b : Board) : Sketch :=
  ⟨b.piece, b.fills⟩

variable {b : Board}

theorem Sound.fillPiece_eq (h : b.Sound) (color : String) :
    b.fillPiece color =
      draw { b with fills := b.fills.insert b.piece (Color.normalize color) } := by
  have inGrid : b.Contains b.piece.row b.piece.col := by
    have := h.piece_inside
    simp only [Contains, Cell.Inside] at this ⊢
    omega
  have painted := fill_of_contains b inGrid color
  rw [Int.toNat_natCast, Int.toNat_natCast] at painted
  exact painted

theorem Sound.sketch_act (h : b.Sound) (step : Step) :
    (b.act step).sketch = b.sketch.step b.rows b.cols step := by
  match step with
  | .move (some d) =>
    have moved := piece_advance h.piece_inside d
    simp only [act, sketch, Sketch.step, moved, fills_advance]
  | .fill color => simp only [act, sketch, Sketch.step, h.fillPiece_eq, piece_draw, fills_draw]
  | .highlight _ | .unhighlight _ | .move none => rfl

theorem Reachable.sketch_acts (h : b.Reachable) (steps : List Step) :
    (steps.foldl Board.act b).sketch = steps.foldl (Sketch.step b.rows b.cols) b.sketch := by
  induction steps generalizing b with
  | nil => rfl
  | cons step steps ih =>
    have same := sameGrid_act b step
    have later := ih (h.act step)
    rw [h.sound.sketch_act, same.rows, same.cols] at later
    exact later

end Board

variable {σ : Type}

/-- A host that never asks for a stop. -/
def Host.Resumes (p : Host σ) : Prop :=
  ∀ view delay slider s, (p.pause view delay slider s).1 = .resume

theorem Host.resumes_silent : Host.silent.Resumes :=
  fun _ _ _ _ => rfl

theorem Host.resumes_waiting : Host.waiting.Resumes :=
  fun _ _ _ _ => rfl

namespace Machine

variable {p : Host σ} {m r r' : Machine} {s s' : σ} {n : ℕ} {speed : Slider} {answer : Interrupt}

theorem Course.eq_resume (course : Course p m s answer n speed s') (resumes : p.Resumes) :
    answer = .resume := by
  cases course with
  | start => rfl
  | @step _ speed _ s₁ _ _ _ _ _ _ paused =>
    unfold pause at paused
    split_ifs at paused with none
    · exact (congrArg Prod.fst paused).symm
    · exact (congrArg Prod.fst paused).symm.trans (resumes _ _ _ _)

/-- A program was run to its end, and drew what its steps draw. -/
structure Drew (steps : List Step) (before : Board) (result : RunResult σ) : Prop where
  outcome : result.outcome = .ok .completed
  state : result.machine.state = .idle
  queue : result.machine.queue = []
  executed : result.machine.executed = steps.length
  sketch : result.machine.board.sketch = .ofSteps before.rows before.cols before.start steps
  sameGrid : result.machine.board.SameGrid before

theorem Settled.drew (h : r.Settled) {ws : Workspace} {c : Compilation}
    (compiled : ws.compile? = some c) (resumes : p.Resumes) (s : σ) :
    Drew c.steps.toList r.board (r.run p ws s) := by
  have ran := progress_run h.idle compiled p s
  generalize r.run p ws s = result at ran
  cases ran with
  | stepped _ left => exact absurd left (Nat.lt_irrefl _)
  | @ended answer n speed s' full within records =>
    obtain rfl := full.course.eq_resume resumes
    obtain rfl : n = c.steps.toList.length := Nat.le_antisymm within (full.full rfl)
    have board : ((r.load c.steps.toList).after c.steps.toList.length .running speed).board =
        c.steps.toList.foldl Board.act (r.board.applyStart true) := by
      unfold after
      rw [queue_load, List.take_length]
      rfl
    refine ⟨rfl, rfl, List.drop_length, Nat.zero_add _, ?_, ?_⟩
    · exact (congrArg Board.sketch board).trans ((h.board.applyStart true).sketch_acts _)
    · have same := (Board.sameGrid_acts (r.board.applyStart true) c.steps.toList).trans
        (Board.sameGrid_applyStart _ _)
      rwa [← board] at same

/-- Two runs of a program draw the same on equal grids. -/
theorem Drew.alike {τ : Type} {steps : List Step} {before before' : Board} {a : RunResult σ}
    {b : RunResult τ} (ha : Drew steps before a) (hb : Drew steps before' b)
    (same : before.SameGrid before') :
    a.machine.board.toScene.Alike b.machine.board.toScene := by
  have grid : a.machine.board.SameGrid before' := ha.sameGrid.trans same
  have drawn : a.machine.board.sketch = b.machine.board.sketch := by
    rw [ha.sketch, hb.sketch, same.rows, same.cols, same.start]
  exact
    { rows := grid.rows.trans hb.sameGrid.rows.symm
      cols := grid.cols.trans hb.sameGrid.cols.symm
      start := grid.start.trans hb.sameGrid.start.symm
      piece := congrArg Sketch.piece drawn
      fills := congrArg Sketch.fills drawn }

/-- A run that is never stopped completes, and the board shows what the steps of the program draw
from the start on an empty grid. So two such runs on equal grids end with the same picture. -/
theorem Reachable.run_completes (h : r.Reachable) {ws : Workspace} {start : Block}
    (hs : ws.start? = some start) (resumes : p.Resumes) (s : σ) :
    ∃ c, ws.compile? = some c ∧ Drew c.steps.toList r.board (r.run p ws s) ∧
      ∀ {r' : Machine} {τ : Type} {q : Host τ}, r'.Reachable → q.Resumes →
        r.board.SameGrid r'.board → ∀ t : τ,
          (r.run p ws s).machine.board.toScene.Alike (r'.run q ws t).machine.board.toScene ∧
            (r.run p ws s).machine.board.picture = (r'.run q ws t).machine.board.picture := by
  obtain ⟨c, compiled⟩ := Workspace.exists_compile hs
  have drew := h.settled.drew compiled resumes s
  refine ⟨c, compiled, drew, fun h' resumes' same t => ?_⟩
  have alike := drew.alike (h'.settled.drew compiled resumes' t) same
  exact ⟨alike, alike.picture_eq⟩

theorem Reachable.run_completes_painter :
    standard.Reachable ∧ Host.silent.Resumes ∧ Host.waiting.Resumes ∧
      (standard.run .silent Workspace.painter ()).machine.executed = 600 ∧
      (standard.run .silent Workspace.painter ()).machine.board.picture =
        (Machine.run { standard with speed := .ofInt 5 } .waiting Workspace.painter
          {}).machine.board.picture := by
  obtain ⟨c, compiled, steps⟩ := Workspace.exists_compile_painter
  obtain ⟨c', compiled', drew, alike⟩ := reachable_standard.run_completes Workspace.start?_painter
    Host.resumes_silent ()
  obtain rfl : c = c' := Option.some.inj (compiled.symm.trans compiled')
  have slow : Reachable { standard with speed := .ofInt 5 } := reachable_standard.setSpeed 5
  refine ⟨reachable_standard, Host.resumes_silent, Host.resumes_waiting, ?_,
    (alike slow Host.resumes_waiting ⟨rfl, rfl, rfl⟩ {}).2⟩
  rw [drew.executed, steps, List.length_flatten, List.map_replicate, List.sum_replicate]
  rfl

end Machine

end BlockBoard
