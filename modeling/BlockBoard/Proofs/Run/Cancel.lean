import Mathlib.Algebra.Order.Ring.Int
import BlockBoard.Proofs.Run.Log

/-!
# Stopping a run

When the host answers a pause with a stop, nothing else is executed and the host hears no more than
one notice. The machine has dropped its queue and the board is back at its start
(`Reachable.stop_cancels`).
-/

namespace BlockBoard

/-- A host that asks for a stop whenever it can. -/
def Host.stopping : Host Unit where
  pause _ _ slider s := (.stop, slider, s)
  notify _ s := s

namespace Machine

variable {σ : Type} {p : Host σ} {m r : Machine} {s : σ} {a : RunResult σ} {log : List Event}

/-- What it means for the machine `r` that its steps were cancelled in a pause with the given view.
The machine `m` holds the steps, and the host saw and heard something before the pause and later. -/
structure Cancelled (r m : Machine) (a : RunResult σ) (seen : List Event) (view : RunView)
    (later : List Event) : Prop where
  /-- It was the first stop. -/
  first : ∀ e ∈ seen, e.Resumed
  /-- The pause was in the last of `n` steps, and these are all that were executed. -/
  steps : ∃ n speed, 0 < n ∧ n ≤ m.queue.length ∧ view = (m.after n .running speed).view ∧
    a.machine.executed = m.executed + n
  board : a.machine.board = view.board.applyStart true
  later : later = [.notice .stopped]
  outcome : a.outcome = .ok .stopped
  state : a.machine.state = .stopped
  queue : a.machine.queue = []
  highlighted : a.machine.highlighted = none
  piece : a.machine.board.piece = r.board.start
  fills : a.machine.board.fills = ∅
  sameGrid : a.machine.board.SameGrid r.board

/-- A stop cancels the steps of `m`, and nothing else does. -/
structure HeedsStops (r m : Machine) (a : RunResult σ) (log : List Event) : Prop where
  cancelled : ∀ {seen view delay later}, log = seen ++ .pause view delay .stop :: later →
    Cancelled r m a seen view later
  only : a.outcome = .ok .stopped → ∃ view delay, .pause view delay .stop ∈ log

theorem not_resumed_stop (view : RunView) (delay : ℕ) : ¬ (Event.pause view delay .stop).Resumed :=
  nofun

/-- The first stop is where the resumed pauses end. -/
theorem first_stop_eq {seen seen' later : List Event} {view view' : RunView} {delay delay' : ℕ}
    (all : ∀ e ∈ seen', e.Resumed)
    (h : seen' ++ [.pause view' delay' .stop, .notice .stopped] =
      seen ++ .pause view delay .stop :: later) :
    seen = seen' ∧ view = view' ∧ later = [.notice .stopped] := by
  -- Neither list of resumed pauses goes on past the stop behind the other.
  induction seen generalizing seen' with
  | nil =>
    cases seen' with
    | nil =>
      simp only [List.nil_append, List.cons.injEq, Event.pause.injEq] at h
      exact ⟨rfl, h.1.1.symm, h.2.symm⟩
    | cons e seen' =>
      rw [List.cons_append, List.nil_append, List.cons.injEq] at h
      exact absurd (h.1 ▸ all e List.mem_cons_self) (not_resumed_stop _ _)
  | cons e seen ih =>
    cases seen' with
    | nil =>
      rcases seen with _ | ⟨e', seen⟩ <;> simp at h
    | cons e' seen' =>
      rw [List.cons_append, List.cons_append, List.cons.injEq] at h
      obtain ⟨rfl, same, last⟩ := ih (fun e he => all e (List.mem_cons_of_mem _ he)) h.2
      exact ⟨by rw [h.1], same, last⟩

theorem Report.heedsStops (report : Report m p a log) (sameGrid : m.board.SameGrid r.board) :
    HeedsStops r m a log := by
  cases report with
  | stepped all s records =>
    constructor
    · rintro seen view delay later rfl
      have stop := all (.pause view delay .stop) (by simp)
      exact absurd stop (not_resumed_stop _ _)
    · nofun
  | @ended answer n speed events pauses le s records =>
    cases pauses with
    | resumed all =>
      constructor
      · intro seen view delay later h
        have stop : .pause view delay .stop ∈ events ++ [.notice Interrupt.resume.notice] := by
          simp [h]
        rcases List.mem_append.1 stop with stop | stop
        · exact absurd (all _ stop) (not_resumed_stop _ _)
        · simp at stop
      · nofun
    | @stopped seen' all pos speed' delay' =>
      constructor
      · intro seen view delay later h
        rw [List.append_assoc] at h
        obtain ⟨rfl, rfl, rfl⟩ := first_stop_eq all h
        have same := ((Board.sameGrid_applyStart _ true).trans
          (Board.sameGrid_acts m.board (m.queue.take n))).trans sameGrid
        exact
          { first := all
            steps := ⟨n, speed', pos, le, rfl, rfl⟩
            board := rfl
            later := rfl
            outcome := rfl
            state := rfl
            queue := rfl
            highlighted := rfl
            piece := same.start
            fills := rfl
            sameGrid := same }
      · intro _
        exact ⟨(m.after n .running speed').view, delay', by simp⟩

/-- If the host answers a pause of a run, or of a series of single steps, with a stop, no other step
is executed and the host only hears that the run was stopped. A run that was not asked to stop is
not stopped. -/
theorem Reachable.stop_cancels (h : r.Reachable) {ws : Workspace} {start : Block}
    (hs : ws.start? = some start) (p : Host σ) (s : σ) :
    ∃ c, ws.compile? = some c ∧
      (∃ log, (r.run p.logged ws (s, [])).host = ((r.run p ws s).host, log) ∧
        HeedsStops r (r.load c.steps.toList) (r.run p ws s) log) ∧
      ∀ more, ∃ log,
        (r.singleSteps p.logged ws (s, []) more).host =
          ((r.singleSteps p ws s more).host, log) ∧
        HeedsStops r (if r.queue = [] then r.load c.steps.toList else r)
          (r.singleSteps p ws s more) log := by
  have idle := h.settled.idle
  obtain ⟨c, compiled⟩ := Workspace.exists_compile hs
  have loaded : (r.load c.steps.toList).board.SameGrid r.board := Board.sameGrid_applyStart _ _
  refine ⟨c, compiled, ?_, fun more => ?_⟩
  · obtain ⟨log, logged, report⟩ := (progress_run idle compiled p s).exists_log
      (progress_run idle compiled p.logged (s, []))
    exact ⟨log, logged, report.heedsStops loaded⟩
  · obtain ⟨m, records, ready, rfl, grid⟩ : ∃ m records, r.ready ws = .ok (m, records) ∧
        m = (if r.queue = [] then r.load c.steps.toList else r) ∧ m.board.SameGrid r.board := by
      split_ifs with empty
      · exact ⟨_, _, ready_of_queue_eq_nil empty compiled, rfl, loaded⟩
      · exact ⟨_, _, ready_of_queue_ne_nil empty ws, rfl, rfl, rfl, rfl⟩
    obtain ⟨log, logged, report⟩ := (progress_singleSteps idle ready p s more).exists_log
      (progress_singleSteps idle ready p.logged (s, []) more)
    exact ⟨log, logged, report.heedsStops grid⟩

/-- A run that is stopped in the first pause. -/
theorem host_run_stopping {ws : Workspace} {c : Compilation} (compiled : ws.compile? = some c)
    {id : BlockId} {rest : List Step} (first : c.steps.toList = .highlight id :: rest) :
    (standard.run Host.stopping.logged ws ((), [])).host =
      ((), [.pause ((standard.load c.steps.toList).after 1 .running standard.speed).view 50 .stop,
        .notice .stopped]) := by
  have delay : Step.wait (standard.load c.steps.toList).speed.delay (.highlight id) = 50 := by
    change standard.speed.delay / 2 = 50
    decide
  have course : Course Host.stopping.logged (standard.load c.steps.toList) ((), []) .stop 1
      standard.speed ((), [.pause _ 50 .stop]) :=
    .step .start first (by rw [delay]; exact if_neg (by decide))
  have ended := Progress.ended ⟨course, nofun⟩ course.le_length []
  have ran := progress_run reachable_standard.settled.idle compiled Host.stopping.logged ((), [])
  exact (ran.agrees ended).host

theorem Reachable.stop_cancels_painter :
    standard.Reachable ∧ ∃ c view, Workspace.painter.compile? = some c ∧
      (standard.run Host.stopping.logged Workspace.painter ((), [])).host =
        ((), [.pause view 50 .stop, .notice .stopped]) ∧
      Cancelled standard (standard.load c.steps.toList)
        (standard.run .stopping Workspace.painter ()) [] view [.notice .stopped] := by
  obtain ⟨c, compiled, steps⟩ := Workspace.exists_compile_painter
  obtain ⟨c', compiled', ⟨log, logged, heeds⟩, -⟩ :=
    reachable_standard.stop_cancels Workspace.start?_painter .stopping ()
  obtain rfl : c = c' := Option.some.inj (compiled.symm.trans compiled')
  have ran := host_run_stopping compiled (steps.trans (by rw [List.replicate_succ]; rfl))
  have log_eq := congrArg Prod.snd (logged.symm.trans ran)
  exact ⟨reachable_standard, c, _, compiled, ran, heeds.cancelled log_eq⟩

end Machine

end BlockBoard
