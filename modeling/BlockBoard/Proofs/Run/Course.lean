import Mathlib.Algebra.Order.Ring.Int
import BlockBoard.Run.Machine

/-!
# The course of a run

A step has an effect on the board and the mark, and calls for a pause. The two are apart
(`execute_eq`), so after `n` steps the board and the mark are those that the first `n` steps of the
queue give, and the host decides only about the slider and the end. A `Course` records what the host
answered so far. It is determined by the machine and the host, so two ways of going through a queue
leave the same behind if both follow a course (`Progress.agrees`), as a run does (`progress_run`).
-/

namespace BlockBoard

/-- What a step does to a board. -/
def Board.act (b : Board) : Step → Board
  | .move (some d) => b.advance d
  | .fill color => b.fillPiece color
  | .highlight _ | .unhighlight _ | .move none => b

namespace Step

/-- The block that is marked after a step. -/
def mark (marked : Option BlockId) : Step → Option BlockId
  | .highlight id => some id
  | .unhighlight _ => none
  | .move _ | .fill _ => marked

/-- The pause that a step calls for, given the delay between steps. -/
def wait (delay : ℕ) : Step → ℕ
  | .highlight _ | .fill _ => delay / 2
  | .move (some _) => delay
  | .unhighlight _ | .move none => 0

end Step

namespace Interrupt

/-- How a run ends with the given answer to its last pause. -/
def outcome : Interrupt → RunOutcome
  | resume => .completed
  | stop => .stopped

/-- What the host is told at the end. -/
def notice : Interrupt → Notice
  | resume => .finished
  | stop => .stopped

end Interrupt

/-- Two results that differ at most in the reports. -/
structure RunResult.Agrees {σ : Type} (a b : RunResult σ) : Prop where
  outcome : a.outcome = b.outcome
  machine : a.machine = b.machine
  host : a.host = b.host

namespace Machine

/-- The machine when the first `n` steps of its queue are executed. -/
def after (m : Machine) (n : ℕ) (state : RunState) (speed : Slider) : Machine where
  board := (m.queue.take n).foldl Board.act m.board
  speed
  queue := m.queue.drop n
  state
  highlighted := (m.queue.take n).foldl Step.mark m.highlighted
  executed := m.executed + n

/-- The machine that goes by an answer. -/
def heed (r : Machine) : Interrupt → Machine
  | .resume => r
  | .stop => r.stop

/-- The machine after its last step. -/
def ended (r : Machine) : Interrupt → Machine
  | .resume => { r with state := .idle }
  | .stop => r.stop

variable {σ : Type}

/-- What is left behind when the host has given its last answer. -/
def close (r : Machine) (p : Host σ) (answer : Interrupt) (s : σ) (records : List Record) :
    RunResult σ :=
  ⟨.ok answer.outcome, r.ended answer, p.notify answer.notice s, records⟩

/-- What is left behind between two single steps. -/
def stepped (r : Machine) (s : σ) (records : List Record) : RunResult σ :=
  ⟨.ok .stepped, { r with state := .idle }, s, records⟩

/-! ### One step -/

@[simp] theorem queue_load (r : Machine) (steps : List Step) : (r.load steps).queue = steps := rfl

theorem after_zero (m : Machine) (state : RunState) :
    m.after 0 state m.speed = { m with state } := rfl

variable {m r : Machine} {n : ℕ} {step : Step} {rest : List Step}

theorem after_succ (next : m.queue.drop n = step :: rest) (state : RunState) (speed : Slider) :
    m.after (n + 1) state speed =
      { board := (m.after n state speed).board.act step
        speed, queue := rest, state
        highlighted := step.mark (m.after n state speed).highlighted
        executed := (m.after n state speed).executed + 1 } := by
  have head : m.queue[n]? = some step := by rw [← List.head?_drop, next, List.head?_cons]
  have tail : m.queue.drop (n + 1) = rest := by rw [← List.tail_drop, next, List.tail_cons]
  unfold after
  rw [List.take_add_one, head, tail]
  simp only [Option.toList_some, List.foldl_append, List.foldl_cons, List.foldl_nil,
    Nat.add_assoc]

variable (p : Host σ)

/-- A step takes its effect, and then the host spends the pause. -/
theorem execute_eq (r : Machine) (step : Step) (s : σ) :
    r.execute p step s =
      { r with
        board := r.board.act step
        highlighted := step.mark r.highlighted
        executed := r.executed + 1 }.pause p (step.wait r.speed.delay) s := by
  match step with
  | .highlight _ | .move (some _) | .fill _ => rfl
  | .unhighlight _ | .move none => exact (if_pos rfl).symm

/-- A pause may move the slider, and no other part of the machine. -/
theorem exists_pause_eq (r : Machine) (delay : ℕ) (s : σ) :
    ∃ answer speed s', r.pause p delay s = (answer, { r with speed }, s') := by
  unfold pause
  split_ifs
  · exact ⟨_, r.speed, s, rfl⟩
  · exact ⟨_, _, _, rfl⟩

/-! ### The course -/

/-- The first `n` steps of the queue of `m` were executed. The host let the run go on at each pause
but the last, which it answered as given. -/
inductive Course (m : Machine) (s : σ) : Interrupt → ℕ → Slider → σ → Prop
  | start : Course m s .resume 0 m.speed s
  | step {n : ℕ} {speed speed' : Slider} {s₁ s₂ : σ} {step : Step} {rest : List Step}
      {answer : Interrupt} (before : Course m s .resume n speed s₁)
      (next : m.queue.drop n = step :: rest)
      (paused : (m.after (n + 1) .running speed).pause p (step.wait speed.delay) s₁ =
        (answer, m.after (n + 1) .running speed', s₂)) :
      Course m s answer (n + 1) speed' s₂

/-- A course that goes no further, since no step is left or the host asked for a stop. -/
structure FullCourse (m : Machine) (s : σ) (answer : Interrupt) (n : ℕ) (speed : Slider) (s' : σ) :
    Prop where
  course : Course p m s answer n speed s'
  full : answer = .resume → m.queue.length ≤ n

variable {p} {s s₁ s₂ : σ} {speed speed' : Slider} {answer answer' : Interrupt} {k : ℕ}

namespace Course

theorem le_length (course : Course p m s answer n speed s₁) : n ≤ m.queue.length := by
  cases course with
  | start => exact Nat.zero_le _
  | @step n _ _ _ _ _ rest _ _ next _ =>
    have left := congrArg List.length next
    simp only [List.length_drop, List.length_cons] at left
    omega

/-- Before the last answer the host let the run go on. -/
theorem exists_of_lt (course : Course p m s answer n speed s₁) (lt : k < n) :
    ∃ speed s', Course p m s .resume k speed s' := by
  induction course with
  | start => omega
  | @step n _ _ _ _ _ _ _ before _ _ ih =>
    rcases Nat.lt_or_ge k n with lt' | ge
    · exact ih lt'
    · obtain rfl : k = n := by omega
      exact ⟨_, _, before⟩

theorem unique (course : Course p m s answer n speed s₁)
    (course' : Course p m s answer' n speed' s₂) : answer = answer' ∧ speed = speed' ∧ s₁ = s₂ := by
  induction course generalizing answer' speed' s₂ with
  | start =>
    cases course'
    exact ⟨rfl, rfl, rfl⟩
  | step _ next paused ih =>
    obtain _ | ⟨before', next', paused'⟩ := course'
    obtain ⟨-, rfl, rfl⟩ := ih before'
    obtain ⟨rfl, rfl⟩ := List.cons_eq_cons.1 (next.symm.trans next')
    have same := paused.symm.trans paused'
    simp only [Prod.mk.injEq] at same
    exact ⟨same.1, congrArg Machine.speed same.2.1, same.2.2⟩

/-- Taking one more step. -/
theorem take (course : Course p m s .resume n speed s₁) (next : m.queue.drop n = step :: rest) :
    ∃ answer speed' s₂ records, Course p m s answer (n + 1) speed' s₂ ∧
      (m.after n .running speed).take p step rest s₁ =
        (answer, (m.after (n + 1) .running speed').heed answer, s₂, records) := by
  obtain ⟨answer, speed', s₂, paused⟩ :=
    exists_pause_eq p (m.after (n + 1) .running speed) (step.wait speed.delay) s₁
  have executed : { m.after n .running speed with queue := rest }.execute p step s₁ =
      (answer, m.after (n + 1) .running speed', s₂) := by
    rw [execute_eq]
    rw [after_succ next] at paused ⊢
    exact paused
  unfold Machine.take
  rw [executed]
  cases answer with
  | resume => exact ⟨_, speed', s₂, _, course.step next paused, rfl⟩
  | stop => exact ⟨_, speed', s₂, _, course.step next paused, rfl⟩

/-- A queue is drained up to its end or the first stop. -/
theorem drain (course : Course p m s .resume n speed s₁) :
    ∃ answer k speed' s₂ records, FullCourse p m s answer k speed' s₂ ∧
      (m.after n .running speed).drain p s₁ (m.queue.drop n) =
        ((m.after k .running speed').heed answer, s₂, records) := by
  -- The induction is on what is left of the queue; the course keeps what was before.
  generalize left : m.queue.drop n = steps
  induction steps generalizing n speed s₁ with
  | nil => exact ⟨_, n, speed, s₁, _, ⟨course, fun _ => List.drop_eq_nil_iff.1 left⟩, rfl⟩
  | cons step rest ih =>
    obtain ⟨answer, speed', s₂, records, further, taken⟩ := course.take left
    unfold Machine.drain
    rw [taken]
    cases answer with
    | resume => exact ih further (by rw [← List.tail_drop, left, List.tail_cons])
    | stop => exact ⟨_, n + 1, speed', s₂, records, ⟨further, nofun⟩, rfl⟩

end Course

namespace FullCourse

/-- No course goes further than a full one. -/
theorem le (full : FullCourse p m s answer n speed s₁) (course : Course p m s answer' k speed' s₂) :
    k ≤ n := by
  by_contra lt
  obtain ⟨_, _, further⟩ := course.exists_of_lt (Nat.lt_of_not_le lt)
  have ended := full.full (full.course.unique further).1
  have := course.le_length
  omega

theorem unique (full : FullCourse p m s answer n speed s₁)
    (full' : FullCourse p m s answer' k speed' s₂) :
    answer = answer' ∧ n = k ∧ speed = speed' ∧ s₁ = s₂ := by
  obtain rfl : n = k := Nat.le_antisymm (full'.le full.course) (full.le full'.course)
  obtain ⟨h₁, h₂, h₃⟩ := full.course.unique full'.course
  exact ⟨h₁, rfl, h₂, h₃⟩

end FullCourse

/-! ### What is left behind -/

/-- What can be left behind when `asked` steps of the queue of `m` are asked for: they were executed
and others are left, or the course goes no further. -/
inductive Progress (p : Host σ) (m : Machine) (s : σ) (asked : ℕ) : RunResult σ → Prop
  | stepped {speed : Slider} {s' : σ} (course : Course p m s .resume asked speed s')
      (left : asked < m.queue.length) (records : List Record) :
      Progress p m s asked ((m.after asked .running speed).stepped s' records)
  | ended {answer : Interrupt} {n : ℕ} {speed : Slider} {s' : σ}
      (full : FullCourse p m s answer n speed s') (within : n ≤ asked) (records : List Record) :
      Progress p m s asked ((m.after n .running speed).close p answer s' records)

namespace Progress

variable {asked : ℕ} {a b : RunResult σ}

/-- More steps than there are need not be asked for. -/
theorem to_length (h : Progress p m s asked a) (le : m.queue.length ≤ asked) :
    Progress p m s m.queue.length a := by
  cases h with
  | stepped _ left => omega
  | ended full _ records => exact .ended full full.course.le_length records

theorem agrees (ha : Progress p m s asked a) (hb : Progress p m s asked b) : a.Agrees b := by
  have apart {n : ℕ} {speed speed' : Slider} {answer : Interrupt} {s₁ s₂ : σ}
      (full : FullCourse p m s answer n speed s₁) (within : n ≤ asked)
      (course : Course p m s .resume asked speed' s₂) (left : asked < m.queue.length) : False := by
    obtain rfl : asked = n := Nat.le_antisymm (full.le course) within
    have := full.full (full.course.unique course).1
    omega
  cases ha with
  | stepped course left =>
    cases hb with
    | stepped course' _ =>
      obtain ⟨-, rfl, rfl⟩ := course.unique course'
      exact ⟨rfl, rfl, rfl⟩
    | ended full within => exact (apart full within course left).elim
  | ended full within =>
    cases hb with
    | stepped course left => exact (apart full within course left).elim
    | ended full' _ =>
      obtain ⟨rfl, rfl, rfl, rfl⟩ := full.unique full'
      exact ⟨rfl, rfl, rfl⟩

theorem finish (full : FullCourse p m s answer n speed s₁) (within : n ≤ asked)
    (records : List Record) :
    Progress p m s asked (((m.after n .running speed).heed answer).finish p s₁ records) := by
  cases answer with
  | resume => exact .ended full within _
  | stop => exact .ended full within _

end Progress

/-- A run asks for all steps of the program. -/
theorem progress_run (idle : r.state ≠ .running) {ws : Workspace} {c : Compilation}
    (compiled : ws.compile? = some c) (p : Host σ) (s : σ) :
    Progress p (r.load c.steps.toList) s c.steps.toList.length (r.run p ws s) := by
  obtain ⟨answer, n, speed, s', records, full, drained⟩ :=
    (Course.start (p := p) (m := r.load c.steps.toList) (s := s)).drain
  rw [after_zero, List.drop_zero, queue_load] at drained
  simp only [run, if_neg idle, compiled, queue_load, drained]
  exact .finish full full.course.le_length _

end Machine

end BlockBoard
