import Mathlib.Algebra.Order.Ring.Int
import BlockBoard.Proofs.Program.Flatten
import BlockBoard.Proofs.Run.Reachable

/-!
# What a host sees of a run

Any host can keep a log of what happens to it, and the run goes the same way. So the log tells what
the host itself sees: the pauses of the course, and one notice at its end (`Progress.exists_log`).

Single steps leave behind what a run leaves behind, and the host cannot tell them apart
(`Reachable.singleSteps_agree_run`).
-/

namespace BlockBoard

/-- What happens to a host. -/
inductive Event where
  /-- It spent a pause and gave an answer. -/
  | pause (view : RunView) (delay : ℕ) (answer : Interrupt)
  | notice (notice : Notice)

namespace Event

def IsPause : Event → Prop
  | pause _ _ _ => True
  | notice _ => False

/-- A pause after which the run went on. -/
def Resumed : Event → Prop
  | pause _ _ answer => answer = .resume
  | notice _ => False

theorem Resumed.isPause {e : Event} (h : e.Resumed) : e.IsPause := by
  cases e with
  | pause => trivial
  | notice => exact h

end Event

variable {σ : Type}

/-- The host that also logs what happens to it. -/
def Host.logged (p : Host σ) : Host (σ × List Event) where
  pause view delay slider s :=
    let (answer, slider, s') := p.pause view delay slider s.1
    (answer, slider, s', s.2 ++ [.pause view delay answer])
  notify notice s := (p.notify notice s.1, s.2 ++ [.notice notice])

namespace Machine

variable {p : Host σ} {m r r' : Machine} {s s' : σ} {n : ℕ} {speed : Slider} {answer : Interrupt}

/-- The log of a course: the run went on after all pauses but the last, which was answered as
given. -/
inductive Pauses (m : Machine) (n : ℕ) : Interrupt → List Event → Prop
  | resumed {events : List Event} (all : ∀ e ∈ events, e.Resumed) : Pauses m n .resume events
  | stopped {seen : List Event} (all : ∀ e ∈ seen, e.Resumed) (pos : 0 < n) (speed : Slider)
      (delay : ℕ) : Pauses m n .stop (seen ++ [.pause (m.after n .running speed).view delay .stop])

theorem Pauses.isPause {events : List Event} (h : Pauses m n answer events) :
    ∀ e ∈ events, e.IsPause := by
  intro e he
  cases h with
  | resumed all => exact (all e he).isPause
  | stopped all =>
    rcases List.mem_append.1 he with he | he
    · exact (all e he).isPause
    · rw [List.mem_singleton.1 he]
      trivial

/-- A pause is logged, unless it has no length. -/
theorem exists_pause_logged {delay : ℕ} (paused : r.pause p delay s = (answer, r', s'))
    (log : List Event) :
    ∃ events, r.pause p.logged delay (s, log) = (answer, r', s', log ++ events) ∧
      (events = [] ∧ answer = .resume ∨ events = [.pause r.view delay answer]) := by
  unfold pause at paused ⊢
  split_ifs at paused ⊢ with none
  · obtain ⟨rfl, rfl, rfl⟩ := paused
    exact ⟨[], by rw [List.append_nil], .inl ⟨rfl, rfl⟩⟩
  · obtain ⟨rfl, rfl, rfl⟩ := paused
    exact ⟨_, rfl, .inr rfl⟩

theorem Course.exists_logged (course : Course p m s answer n speed s') (log : List Event) :
    ∃ events, Course p.logged m (s, log) answer n speed (s', log ++ events) ∧
      Pauses m n answer events := by
  induction course with
  | start => exact ⟨[], by simpa using Course.start, .resumed (by simp)⟩
  | @step n speed speed' s₁ s₂ step rest answer _ next paused ih =>
    obtain ⟨seen, before, pauses⟩ := ih
    obtain ⟨last, paused', h⟩ := exists_pause_logged paused (log ++ seen)
    refine ⟨seen ++ last, ?_, ?_⟩
    · rw [← List.append_assoc]
      exact before.step next paused'
    · cases pauses with
      | resumed all =>
        rcases h with ⟨rfl, rfl⟩ | rfl
        · simpa using Pauses.resumed all
        · cases answer with
          | resume =>
            refine .resumed fun e he => ?_
            rcases List.mem_append.1 he with he | he
            · exact all e he
            · rw [List.mem_singleton.1 he]
              rfl
          | stop => exact .stopped all (Nat.succ_pos n) speed _

/-- The log that goes with what is left behind. -/
inductive Report (m : Machine) (p : Host σ) : RunResult σ → List Event → Prop
  | stepped {asked : ℕ} {speed : Slider} {log : List Event} (all : ∀ e ∈ log, e.Resumed) (s : σ)
      (records : List Record) :
      Report m p ((m.after asked .running speed).stepped s records) log
  | ended {answer : Interrupt} {n : ℕ} {speed : Slider} {events : List Event}
      (pauses : Pauses m n answer events) (le : n ≤ m.queue.length) (s : σ)
      (records : List Record) :
      Report m p ((m.after n .running speed).close p answer s records)
        (events ++ [.notice answer.notice])

/-- Logging makes no difference. -/
theorem Progress.exists_log {asked : ℕ} {a : RunResult σ} {b : RunResult (σ × List Event)}
    (ha : Progress p m s asked a) (hb : Progress p.logged m (s, []) asked b) :
    ∃ log, b.host = (a.host, log) ∧ Report m p a log := by
  cases ha with
  | stepped course left records =>
    obtain ⟨events, course', pauses⟩ := course.exists_logged []
    cases pauses with
    | resumed all => exact ⟨events, (hb.agrees (.stepped course' left [])).host, .stepped all _ _⟩
  | @ended answer n speed s' full within records =>
    obtain ⟨events, course', pauses⟩ := full.course.exists_logged []
    exact ⟨_, (hb.agrees (.ended ⟨course', full.full⟩ within [])).host,
      .ended pauses full.course.le_length _ _⟩

theorem Report.exists_notice {a : RunResult σ} {log : List Event} (h : Report m p a log)
    (last : a.outcome ≠ .ok .stepped) :
    ∃ pauses notice, (∀ e ∈ pauses, e.IsPause) ∧ log = pauses ++ [.notice notice] := by
  cases h with
  | stepped => exact absurd rfl last
  | ended pauses => exact ⟨_, _, pauses.isPause, rfl⟩

theorem Progress.outcome_ne_stepped {a : RunResult σ} (h : Progress p m s m.queue.length a) :
    a.outcome ≠ .ok .stepped := by
  cases h with
  | stepped _ left => exact absurd left (Nat.lt_irrefl _)
  | ended => exact outcome_close_ne_stepped _ _ _ _ _

/-- Once enough single steps are asked for, they leave behind what a run of the same program leaves
behind, and the host sees the same pauses and the same notice. -/
theorem Reachable.singleSteps_agree_run (h : r.Reachable) (empty : r.queue = [])
    {ws : Workspace} {start : Block} (hs : ws.start? = some start) (p : Host σ) (s : σ) :
    ∃ c, ws.compile? = some c ∧ ∀ more, c.steps.size ≤ more + 1 →
      (r.singleSteps p ws s more).outcome ≠ .ok .stepped ∧
      (r.singleSteps p ws s more).Agrees (r.run p ws s) ∧
      ∃ pauses notice, (∀ e ∈ pauses, e.IsPause) ∧
        (r.run p.logged ws (s, [])).host =
          ((r.run p ws s).host, pauses ++ [.notice notice]) ∧
        (r.singleSteps p.logged ws (s, []) more).host =
          ((r.singleSteps p ws s more).host, pauses ++ [.notice notice]) := by
  have idle := h.settled.idle
  obtain ⟨c, compiled⟩ := Workspace.exists_compile hs
  have ready := ready_of_queue_eq_nil empty compiled
  refine ⟨c, compiled, fun more enough => ?_⟩
  have whole {τ : Type} (q : Host τ) (t : τ) := progress_run idle compiled q t
  have single {τ : Type} (q : Host τ) (t : τ) :=
    (progress_singleSteps idle ready q t more).to_length (by simpa using enough)
  have last := (single p s).outcome_ne_stepped
  have agrees := (single p s).agrees (whole p s)
  obtain ⟨log, logged, report⟩ := (single p s).exists_log (single p.logged (s, []))
  obtain ⟨pauses, notice, arePauses, rfl⟩ := report.exists_notice last
  refine ⟨last, agrees, pauses, notice, arePauses, ?_, logged⟩
  rw [← ((single p.logged (s, [])).agrees (whole p.logged (s, []))).host, logged, agrees.host]

theorem Reachable.singleSteps_agree_run_painter :
    standard.Reachable ∧
      (standard.singleSteps .waiting Workspace.painter {} 599).Agrees
        (standard.run .waiting Workspace.painter {}) := by
  obtain ⟨c, compiled, steps⟩ := Workspace.exists_compile_painter
  obtain ⟨c', compiled', h⟩ := reachable_standard.singleSteps_agree_run rfl
    Workspace.start?_painter .waiting {}
  obtain rfl : c = c' := Option.some.inj (compiled.symm.trans compiled')
  have size : c.steps.size ≤ 599 + 1 := by
    rw [← Array.length_toList, steps, List.length_flatten, List.map_replicate, List.sum_replicate]
    decide
  exact ⟨reachable_standard, (h 599 size).2.1⟩

end Machine

end BlockBoard
