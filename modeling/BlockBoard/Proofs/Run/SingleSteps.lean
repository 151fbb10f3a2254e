import Mathlib.Algebra.Order.Ring.Int
import BlockBoard.Proofs.Run.Course

/-!
# Step by step

A series of single steps follows the course of a run, up to its end or until enough steps were taken
(`progress_singleSteps`). So a series that is long enough leaves behind what a run leaves behind.
-/

namespace BlockBoard

namespace Machine

variable {σ : Type}

/-- Asks for a step, and for up to `more` further ones as long as steps are left. This is what the
last one leaves behind. -/
def singleSteps (r : Machine) (p : Host σ) (ws : Workspace) (s : σ) : (more : ℕ) → RunResult σ
  | 0 => r.singleStep p ws s
  | more + 1 =>
    let one := r.singleStep p ws s
    if one.outcome = .ok .stepped then one.machine.singleSteps p ws one.host more else one

variable {r m : Machine} {ws : Workspace} {p : Host σ} {s s₁ : σ} {speed : Slider} {n : ℕ}
  {records : List Record}

theorem ready_of_queue_ne_nil (h : r.queue ≠ []) (ws : Workspace) : r.ready ws = .ok (r, []) := by
  have : ¬ r.queue.isEmpty := by simpa using h
  exact if_neg this

theorem ready_of_queue_eq_nil (h : r.queue = []) {c : Compilation}
    (compiled : ws.compile? = some c) : r.ready ws = .ok (r.load c.steps.toList, c.records) := by
  simp [ready, h, compiled]

/-- A machine that is ready but has nothing to do was loaded just now. -/
theorem state_eq_idle_of_ready (ready : r.ready ws = .ok (m, records)) (empty : m.queue = []) :
    m.state = .idle := by
  by_cases h : r.queue = []
  · cases compiled : ws.compile? with
    | none => simp [Machine.ready, h, compiled] at ready
    | some c =>
      rw [ready_of_queue_eq_nil h compiled, Except.ok.injEq, Prod.mk.injEq] at ready
      rw [← ready.1]
      rfl
  · rw [ready_of_queue_ne_nil h, Except.ok.injEq, Prod.mk.injEq] at ready
    exact absurd (ready.1 ▸ empty) h

theorem singleStep_of_queue_eq_cons (idle : r.state ≠ .running)
    (ready : r.ready ws = .ok (m, records)) {step : Step} {rest : List Step}
    (queued : m.queue = step :: rest) :
    r.singleStep p ws s =
      match { m with state := .running }.take p step rest s with
      | (.stop, r, s, stopping) => r.finish p s (records ++ stopping)
      | (.resume, r, s, _) =>
        if r.queue.isEmpty then r.finish p s records else r.stepped s records := by
  simp only [singleStep, if_neg idle, ready, queued]
  rfl

theorem singleStep_of_queue_eq_nil (idle : r.state ≠ .running)
    (ready : r.ready ws = .ok (m, records)) (empty : m.queue = []) :
    r.singleStep p ws s = m.finish p s records := by
  simp only [singleStep, if_neg idle, ready, empty]

theorem outcome_close_ne_stepped (r : Machine) (p : Host σ) (answer : Interrupt) (s : σ)
    (records : List Record) : (r.close p answer s records).outcome ≠ .ok .stepped := by
  cases answer <;> nofun

theorem Course.singleStep (course : Course p m s .resume n speed s₁) (left : n < m.queue.length)
    (idle : r.state ≠ .running) {state : RunState}
    (ready : r.ready ws = .ok (m.after n state speed, records)) :
    Progress p m s (n + 1) (r.singleStep p ws s₁) := by
  obtain ⟨step, rest, next⟩ := List.exists_cons_of_ne_nil (List.drop_eq_nil_iff.not.2 left.not_ge)
  obtain ⟨answer, speed', s₂, stopping, further, taken⟩ := course.take next
  have running : { m.after n state speed with state := .running } = m.after n .running speed := rfl
  rw [singleStep_of_queue_eq_cons idle ready next, running, taken]
  cases answer with
  | resume =>
    dsimp only [heed]
    split_ifs with empty
    · have last : m.queue.length ≤ n + 1 := by simpa [after] using empty
      exact .finish ⟨further, fun _ => last⟩ le_rfl records
    · have more : n + 1 < m.queue.length := by simpa [after] using empty
      exact .stepped further more records
  | stop => exact .finish ⟨further, nofun⟩ le_rfl (records ++ stopping)

theorem Course.singleSteps (course : Course p m s .resume n speed s₁) (left : n < m.queue.length)
    (idle : r.state ≠ .running) {state : RunState}
    (ready : r.ready ws = .ok (m.after n state speed, records)) (more : ℕ) :
    Progress p m s (n + 1 + more) (r.singleSteps p ws s₁ more) := by
  induction more generalizing r n speed s₁ state records with
  | zero => exact course.singleStep left idle ready
  | succ more ih =>
    unfold Machine.singleSteps
    have one := course.singleStep left idle ready
    generalize r.singleStep p ws s₁ = result at one
    cases one with
    | @stepped speed' s₂ further left' records' =>
      -- The next request finds the rest of the queue, so nothing is compiled again.
      have queued : m.queue.drop (n + 1) ≠ [] := List.drop_eq_nil_iff.not.2 left'.not_ge
      rw [← Nat.add_assoc, Nat.add_right_comm]
      exact ih further left' (r := m.after (n + 1) .idle speed') nofun
        (ready_of_queue_ne_nil queued ws)
    | ended full within records' =>
      rw [if_neg (outcome_close_ne_stepped _ _ _ _ _)]
      exact .ended full (by omega) records'

/-- A series of single steps that goes on for at most `more` further steps. -/
theorem progress_singleSteps (idle : r.state ≠ .running) (ready : r.ready ws = .ok (m, records))
    (p : Host σ) (s : σ) (more : ℕ) : Progress p m s (more + 1) (r.singleSteps p ws s more) := by
  rcases Nat.eq_zero_or_pos m.queue.length with empty | pos
  · rw [List.length_eq_zero_iff] at empty
    have full : FullCourse p m s .resume 0 m.speed s := ⟨.start, fun _ => by simp [empty]⟩
    have going : ¬ m.state = .stopped := by simp [state_eq_idle_of_ready ready empty]
    have one : r.singleStep p ws s = (m.after 0 .running m.speed).close p .resume s _ :=
      (singleStep_of_queue_eq_nil idle ready empty).trans (if_neg going)
    have series : r.singleSteps p ws s more = r.singleStep p ws s := by
      cases more with
      | zero => rfl
      | succ more =>
        unfold Machine.singleSteps
        rw [one]
        exact if_neg (outcome_close_ne_stepped _ _ _ _ _)
    rw [series, one]
    exact .ended full (Nat.zero_le _) _
  · have ready : r.ready ws = .ok (m.after 0 m.state m.speed, records) := ready
    rw [Nat.add_comm, ← Nat.zero_add 1]
    exact (Course.start (p := p) (m := m) (s := s)).singleSteps pos idle ready more

end Machine

end BlockBoard
