import Mathlib.Logic.Relation
import BlockBoard.Proofs.Run.Reachable

/-!
# What an observer of a machine misses

Each operation on a board changes its scene and draws it at once (`Board.Redraw`), once or several
times, or it leaves the board as it is. The same holds of whatever a machine does with its board. So
an observer that was installed stays so, is shown one scene for each redraw that is counted, and
after each operation that changed anything, the last scene that it was shown is the current one
(`Machine.observer_misses_nothing`).
-/

namespace BlockBoard

namespace Board

/-- A change of the scene that is drawn at once. -/
inductive Redraw (b : Board) : Board → Prop
  | intro (s : Scene) (same : s.redraws = b.redraws) : Redraw b (draw ⟨s, b.seen⟩)

/-- Any number of such changes. -/
abbrev Redraws : Board → Board → Prop :=
  Relation.ReflTransGen Redraw

variable {b b' : Board}

/-! ### Operations on a board -/

theorem redraw_applyStart (b : Board) (clearFills : Bool) : b.Redraw (b.applyStart clearFills) :=
  .intro _ rfl

theorem redraw_setGrid (b : Board) (rows cols : ℤ) : b.Redraw (b.setGrid rows cols) :=
  .intro _ rfl

theorem redraw_setStart (b : Board) (row col : ℤ) : b.Redraw (b.setStart row col) :=
  .intro _ rfl

theorem redraw_advance (b : Board) (d : Direction) : b.Redraw (b.advance d) :=
  .intro _ rfl

theorem redraws_advances (b : Board) (d : Direction) (n : ℕ) : b.Redraws (b.advances d n) := by
  induction n generalizing b with
  | zero => exact .refl
  | succ n ih => exact .head (b.redraw_advance d) (ih (b.advance d))

theorem redraws_fill (b : Board) (row col : ℤ) (color : String) :
    b.Redraws (b.fill row col color) := by
  by_cases inGrid : b.Contains row col
  · rw [fill_of_contains b inGrid]
    exact .single (.intro _ rfl)
  · rw [fill_of_not_contains b inGrid]

/-- The change is not that of the observer. -/
def Change.KeepsObserver : Change → Prop
  | .observe | .unobserve => False
  | _ => True

theorem redraws_change (b : Board) {c : Change} (keeps : c.KeepsObserver) :
    b.Redraws (b.change c) := by
  cases c with
  | setGrid rows cols => exact .single (b.redraw_setGrid rows cols)
  | setStart row col => exact .single (b.redraw_setStart row col)
  | applyStart clearFills => exact .single (b.redraw_applyStart clearFills)
  | reset => exact .single (b.redraw_applyStart true)
  | go direction steps delay =>
    cases direction with
    | none => exact .refl
    | some d => exact b.redraws_advances d steps
  | fill row col color => exact b.redraws_fill row col color
  | fillPiece color => exact b.redraws_fill _ _ color
  | settings s =>
    -- Settings are drawn three times.
    exact ((Relation.ReflTransGen.single (b.redraw_setGrid s.rows s.cols)).tail
      (redraw_setStart _ s.startRow s.startCol)).tail (redraw_applyStart _ true)
  | corner c => exact .single (b.redraw_setStart _ _)
  | observe | unobserve => exact keeps.elim

theorem redraws_act (b : Board) (step : Step) : b.Redraws (b.act step) := by
  match step with
  | .move (some d) => exact .single (b.redraw_advance d)
  | .fill color => exact b.redraws_fill _ _ color
  | .highlight _ | .unhighlight _ | .move none => exact .refl

theorem redraws_acts (b : Board) (steps : List Step) : b.Redraws (steps.foldl Board.act b) := by
  induction steps generalizing b with
  | nil => exact .refl
  | cons step steps ih => exact (b.redraws_act step).trans (ih (b.act step))

/-! ### What is shown -/

/-- For each redraw one scene is shown, with its number, and the last of them is the scene that the
board has then. -/
theorem Redraws.exists_shown (h : b.Redraws b') {shown : List Scene}
    (installed : b.seen = some shown) :
    ∃ new, b'.seen = some (new ++ shown) ∧ b'.redraws = b.redraws + new.length ∧
      (∀ (i : ℕ) (s : Scene), new[i]? = some s → s.redraws + i = b'.redraws) ∧
      (new.head? = some b'.toScene ∨ new = [] ∧ b' = b) := by
  induction h with
  | refl => exact ⟨[], installed, rfl, nofun, Or.inr ⟨rfl, rfl⟩⟩
  | @tail b' _ _ drawn ih =>
    obtain ⟨new, seen, count, numbered, -⟩ := ih
    obtain ⟨s, same⟩ := drawn
    refine ⟨(draw ⟨s, b'.seen⟩).toScene :: new, by rw [draw, seen]; rfl, ?_, ?_, Or.inl rfl⟩
    · show s.redraws + 1 = _
      rw [same, count, List.length_cons, Nat.add_assoc]
    · intro i s' hi
      show s'.redraws + i = s.redraws + 1
      cases i with
      | zero =>
        obtain rfl := Option.some.inj hi
        rfl
      | succ i =>
        have := numbered i s' hi
        omega

end Board

/-! ### Operations of a machine -/

/-- What can be asked of a machine, and of its board, while an observer is installed. -/
inductive Operation : Type 1 where
  /-- A change of the board, which is refused during a run. -/
  | change (c : Board.Change) (keeps : c.KeepsObserver)
  | setSpeed (position : ℤ)
  | run {σ : Type} (p : Host σ) (ws : Workspace) (s : σ)
  | singleStep {σ : Type} (p : Host σ) (ws : Workspace) (s : σ)
  | stop
  | reset (ws : Workspace)

namespace Machine

variable {r m : Machine}

/-- The machine after an operation. -/
def perform (r : Machine) : Operation → Machine
  | .change c _ => if r.state = .running then r else { r with board := r.board.change c }
  | .setSpeed position => { r with speed := .ofInt position }
  | .run p ws s => (r.run p ws s).machine
  | .singleStep p ws s => (r.singleStep p ws s).machine
  | .stop => r.stop
  | .reset ws => (r.reset ws).1

theorem redraw_load (r : Machine) (steps : List Step) : r.board.Redraw (r.load steps).board :=
  r.board.redraw_applyStart true

theorem redraw_stop (r : Machine) : r.board.Redraw r.stop.board :=
  r.board.redraw_applyStart true

theorem redraws_after (m : Machine) (n : ℕ) (state : RunState) (speed : Slider) :
    m.board.Redraws (m.after n state speed).board :=
  m.board.redraws_acts _

theorem redraws_ended (r : Machine) (answer : Interrupt) :
    r.board.Redraws (r.ended answer).board := by
  cases answer with
  | resume => exact .refl
  | stop => exact .single r.redraw_stop

theorem redraws_ready {ws : Workspace} {records : List Record}
    (ready : r.ready ws = .ok (m, records)) : r.board.Redraws m.board := by
  by_cases queued : r.queue = []
  · cases compiled : ws.compile? with
    | none => simp [Machine.ready, queued, compiled] at ready
    | some c =>
      rw [ready_of_queue_eq_nil queued compiled, Except.ok.injEq, Prod.mk.injEq] at ready
      exact ready.1 ▸ .single (r.redraw_load _)
  · rw [ready_of_queue_ne_nil queued, Except.ok.injEq, Prod.mk.injEq] at ready
    exact ready.1 ▸ .refl

variable {σ : Type} (p : Host σ) (ws : Workspace) (s : σ)

/-- Steps are drawn, and so is the end of a run that is stopped. -/
theorem Progress.redraws {p : Host σ} {s : σ} {asked : ℕ} {result : RunResult σ}
    (h : Progress p m s asked result) : m.board.Redraws result.machine.board := by
  cases h with
  | stepped => exact m.redraws_after _ _ _
  | ended => exact (m.redraws_after _ _ _).trans (redraws_ended _ _)

theorem redraws_run (r : Machine) : r.board.Redraws (r.run p ws s).machine.board := by
  by_cases running : r.state = .running
  · rw [run, if_pos running]
  · cases compiled : ws.compile? with
    | none =>
      have refused : (r.run p ws s).machine = r := by simp [run, running, compiled]
      rw [refused]
    | some c =>
      exact .head (r.redraw_load c.steps.toList) (progress_run running compiled p s).redraws

theorem redraws_singleStep (r : Machine) : r.board.Redraws (r.singleStep p ws s).machine.board := by
  by_cases running : r.state = .running
  · rw [singleStep, if_pos running]
  · cases ready : r.ready ws with
    | error e =>
      have refused : (r.singleStep p ws s).machine = r := by simp [singleStep, running, ready]
      rw [refused]
    | ok loaded =>
      obtain ⟨m, records⟩ := loaded
      exact (redraws_ready ready).trans (progress_singleSteps running ready p s 0).redraws

theorem redraws_perform (r : Machine) (operation : Operation) :
    r.board.Redraws (r.perform operation).board := by
  cases operation with
  | change c keeps =>
    rw [perform]
    split_ifs
    · exact .refl
    · exact r.board.redraws_change keeps
  | setSpeed position => exact .refl
  | run p ws s => exact r.redraws_run p ws s
  | singleStep p ws s => exact r.redraws_singleStep p ws s
  | stop => exact .single r.redraw_stop
  | reset ws =>
    -- The board goes back to its start twice.
    exact (Relation.ReflTransGen.single r.redraw_stop).tail (Board.redraw_applyStart _ true)

theorem redraws_performs (r : Machine) (operations : List Operation) :
    r.board.Redraws (operations.foldl perform r).board := by
  induction operations generalizing r with
  | nil => exact .refl
  | cons operation operations ih => exact (r.redraws_perform operation).trans (ih _)

/-- A change that does nothing to the board does nothing to the machine. -/
theorem perform_change_eq_self {c : Board.Change} (keeps : c.KeepsObserver)
    (ignored : r.board.change c = r.board) : r.perform (.change c keeps) = r := by
  rw [perform, ignored]
  exact ite_self r

/-- Whatever is done with a machine whose board has an observer, the observer stays installed and is
shown one scene for each redraw, in order. If an operation changes the board in any way, the last
scene that the observer was shown is that of the board after the operation. An operation that is
ignored is not drawn: painting a cell outside of the grid, and going in no direction or by no
steps. -/
theorem observer_misses_nothing {shown : List Scene} (installed : r.board.seen = some shown) :
    (∀ operations : List Operation, ∃ new,
      let after := (operations.foldl perform r).board
      after.seen = some (new ++ shown) ∧ after.redraws = r.board.redraws + new.length ∧
      (∀ (i : ℕ) (s : Scene), new[i]? = some s → s.redraws + i = after.redraws) ∧
      (new.head? = some after.toScene ∨ new = [] ∧ after = r.board)) ∧
    (∀ (operations : List Operation) (operation : Operation),
      let before := operations.foldl perform r
      let after := before.perform operation
      after.board ≠ before.board →
        ∃ scenes, after.board.seen = some (after.board.toScene :: scenes)) ∧
    (∀ row col color, ¬ r.board.Contains row col →
      r.perform (.change (.fill row col color) trivial) = r) ∧
    (∀ steps delay, r.perform (.change (.go none steps delay) trivial) = r) ∧
    ∀ direction delay, r.perform (.change (.go direction 0 delay) trivial) = r := by
  refine ⟨fun operations => (r.redraws_performs operations).exists_shown installed,
    fun operations operation changed => ?_, fun row col color outside => ?_, fun steps delay => ?_,
    fun direction delay => ?_⟩
  · obtain ⟨shown', seen, -⟩ := (r.redraws_performs operations).exists_shown installed
    obtain ⟨new, seen', -, -, last⟩ := (redraws_perform _ operation).exists_shown seen
    rcases last with last | ⟨-, same⟩
    · obtain ⟨rest, rfl⟩ := List.head?_eq_some_iff.1 last
      exact ⟨_, seen'⟩
    · exact absurd same changed
  · exact perform_change_eq_self _ (Board.fill_of_not_contains _ outside color)
  · exact perform_change_eq_self _ rfl
  · refine perform_change_eq_self _ ?_
    cases direction <;> rfl

/-- A machine with the standard board, under observation. -/
def observed : Machine :=
  { standard with board := standard.board.observe }

/-- Painting a cell, moving, stopping, and two requests that are ignored. -/
def requests : List Operation :=
  [.change (.fill 2 3 " RED ") trivial, .change (.go (some .left) 2 0) trivial,
    .change (.go none 5 0) trivial, .change (.fill (-1) 3 "blue") trivial, .stop]

theorem observer_misses_nothing_observed :
    observed.board.seen = some [] ∧ ∃ new,
      (requests.foldl perform observed).board.seen = some new ∧ new.length = 4 ∧
      new.head? = some (requests.foldl perform observed).board.toScene := by
  have installed : observed.board.seen = some [] := rfl
  obtain ⟨all, -⟩ := observer_misses_nothing installed
  obtain ⟨new, seen, count, -, last⟩ := all requests
  have redraws : (requests.foldl perform observed).board.redraws = 4 := by decide +kernel
  have length : new.length = 4 := by
    rw [redraws, show observed.board.redraws = 0 from rfl] at count
    omega
  refine ⟨installed, new, by rw [seen, List.append_nil], length, last.resolve_right ?_⟩
  rintro ⟨rfl, -⟩
  cases length

end Machine

end BlockBoard
