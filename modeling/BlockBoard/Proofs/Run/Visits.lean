import Mathlib.Algebra.Order.Ring.Int
import BlockBoard.Proofs.Run.Mark

/-!
# The pauses of a run

Any host can keep the pauses that it spends, and the run goes the same way
(`Progress.exists_visits`). Each pause shows the run right behind a step that calls for one, with
the block of that step marked and the rest of the program pending, and lasts as long as the slider
said before the step. A step that calls for a pause gets exactly one, unless the slider is at its
top (`Reachable.pauses_show_program`).
-/

namespace BlockBoard

/-- A pause that a host spent: what it was given, and where it left the slider. -/
structure Visit where
  view : RunView
  delay : ℕ
  left : Slider

variable {σ : Type}

/-- The host that also keeps its pauses. -/
def Host.visited (p : Host σ) : Host (σ × List Visit) where
  pause view delay slider s :=
    let (answer, left, s') := p.pause view delay slider s.1
    (answer, left, s', s.2 ++ [⟨view, delay, left⟩])
  notify notice s := (p.notify notice s.1, s.2)

/-- The slider before the step with index `k`: where the last pause of an earlier step left it, if
there was one. -/
def sliderBefore (k : ℕ) (speed : Slider) (visits : List Visit) : Slider :=
  ((visits.filter fun v => v.view.executed ≤ k).getLast?.map Visit.left).getD speed

namespace Step

/-- The step calls for a pause. -/
def Pauses : Step → Prop
  | highlight _ | move (some _) | fill _ => True
  | unhighlight _ | move none => False

/-- A delay is a number of notches of two milliseconds each, so half a delay is not lost. -/
theorem wait_ne_zero_iff (step : Step) (speed : Slider) :
    step.wait speed.delay ≠ 0 ↔ step.Pauses ∧ speed.delay ≠ 0 := by
  have half : speed.delay / 2 ≠ 0 ↔ speed.delay ≠ 0 := by
    unfold Slider.delay Speed.delayAt Speed.notchDelay
    omega
  match step with
  | highlight _ | fill _ => simpa [wait, Pauses] using half
  | move (some _) => simp [wait, Pauses]
  | unhighlight _ | move none => simp [wait, Pauses]

end Step

/-! ### Sliders -/

section Sliders

variable {k : ℕ} {speed : Slider} {visits : List Visit} {v : Visit}

theorem sliderBefore_of_le (le : ∀ v ∈ visits, v.view.executed ≤ k) :
    sliderBefore k speed visits = (visits.getLast?.map Visit.left).getD speed := by
  rw [sliderBefore, List.filter_eq_self.2 fun v hv => decide_eq_true (le v hv)]

/-- A later pause does not count. -/
theorem sliderBefore_append_of_lt (lt : k < v.view.executed) :
    sliderBefore k speed (visits ++ [v]) = sliderBefore k speed visits := by
  have late : [v].filter (fun v => v.view.executed ≤ k) = [] := by simpa using lt
  rw [sliderBefore, List.filter_append, late, List.append_nil, sliderBefore]

end Sliders

namespace Machine

variable {p : Host σ} {m r r' : Machine} {s s' : σ} {n : ℕ} {speed : Slider} {answer : Interrupt}
  {visits : List Visit}

/-! ### The pauses of a course -/

/-- The pauses in the first `n` steps of the queue of `m`, after which the slider is as given. -/
inductive Visits (m : Machine) : ℕ → Slider → List Visit → Prop
  | start : Visits m 0 m.speed []
  | passed {n : ℕ} {speed : Slider} {visits : List Visit} {step : Step}
      (before : Visits m n speed visits) (next : m.queue[n]? = some step)
      (none : step.wait speed.delay = 0) : Visits m (n + 1) speed visits
  | paused {n : ℕ} {speed : Slider} {visits : List Visit} {step : Step}
      (before : Visits m n speed visits) (next : m.queue[n]? = some step)
      (wait : step.wait speed.delay ≠ 0) (left : Slider) :
      Visits m (n + 1) left
        (visits ++ [⟨(m.after (n + 1) .running speed).view, step.wait speed.delay, left⟩])

/-- A pause is kept, unless it has no length. -/
theorem pause_visited {delay : ℕ} (paused : r.pause p delay s = (answer, r', s'))
    (visits : List Visit) :
    r.pause p.visited delay (s, visits) =
      (answer, r', s', if delay = 0 then visits else visits ++ [⟨r.view, delay, r'.speed⟩]) := by
  unfold pause at paused ⊢
  split_ifs at paused ⊢
  · obtain ⟨rfl, rfl, rfl⟩ := paused
    rfl
  · obtain ⟨rfl, rfl, rfl⟩ := paused
    rfl

theorem Course.exists_visited (course : Course p m s answer n speed s') :
    ∃ visits, Course p.visited m (s, []) answer n speed (s', visits) ∧ Visits m n speed visits := by
  induction course with
  | start => exact ⟨[], .start, .start⟩
  | @step n speed speed' s₁ s₂ step rest answer _ next paused ih =>
    obtain ⟨visits, before, kept⟩ := ih
    refine ⟨_, before.step next (pause_visited paused visits), ?_⟩
    have head : m.queue[n]? = some step := by rw [← List.head?_drop, next, List.head?_cons]
    split_ifs with none
    · -- Without a pause the slider stays where it is.
      rw [none] at paused
      obtain rfl : speed = speed' := congrArg (fun result => result.2.1.speed) paused
      exact kept.passed head none
    · exact kept.paused head none speed'

/-- Keeping the pauses makes no difference. -/
theorem Progress.exists_visits {asked : ℕ} {a : RunResult σ} {b : RunResult (σ × List Visit)}
    (ha : Progress p m s asked a) (hb : Progress p.visited m (s, []) asked b) :
    ∃ n speed visits, b.host = (a.host, visits) ∧ Visits m n speed visits ∧
      a.machine.executed = m.executed + n := by
  cases ha with
  | stepped course left =>
    obtain ⟨visits, course', kept⟩ := course.exists_visited
    exact ⟨_, _, visits, (hb.agrees (.stepped course' left [])).host, kept, rfl⟩
  | @ended answer _ _ _ full within =>
    obtain ⟨visits, course', kept⟩ := full.course.exists_visited
    refine ⟨_, _, visits, (hb.agrees (.ended ⟨course', full.full⟩ within [])).host, kept, ?_⟩
    cases answer <;> rfl

namespace Visits

variable {k : ℕ} {step : Step} {v : Visit}

theorem executed_le (h : Visits m n speed visits) (hv : v ∈ visits) :
    v.view.executed ≤ m.executed + n := by
  induction h with
  | start => exact absurd hv List.not_mem_nil
  | passed _ _ _ ih => exact Nat.le_succ_of_le (ih hv)
  | paused _ _ _ _ ih =>
    rcases List.mem_append.1 hv with hv | hv
    · exact Nat.le_succ_of_le (ih hv)
    · rw [List.mem_singleton.1 hv]
      exact Nat.le_refl _

/-- The slider is where the last pause left it. -/
theorem sliderBefore_eq (h : Visits m n speed visits) :
    sliderBefore (m.executed + n) m.speed visits = speed := by
  rw [sliderBefore_of_le fun _ => h.executed_le]
  induction h with
  | start => rfl
  | passed _ _ _ ih => exact ih
  | paused => rw [List.getLast?_concat, Option.map_some, Option.getD_some]

theorem pairwise (h : Visits m n speed visits) :
    visits.Pairwise fun v w => v.view.executed < w.view.executed := by
  induction h with
  | start => exact .nil
  | passed _ _ _ ih => exact ih
  | paused before _ _ _ ih =>
    refine List.pairwise_append.2 ⟨ih, List.pairwise_singleton _ _, fun v hv w hw => ?_⟩
    rw [List.mem_singleton.1 hw]
    exact Nat.lt_succ_of_le (before.executed_le hv)

/-- A pause shows the machine right behind a step, and lasts as long as the slider said before. -/
theorem exists_step (h : Visits m n speed visits) (hv : v ∈ visits) :
    ∃ k step speed', k < n ∧ m.queue[k]? = some step ∧
      sliderBefore (m.executed + k) m.speed visits = speed' ∧ step.wait speed'.delay ≠ 0 ∧
      v.delay = step.wait speed'.delay ∧ v.view = (m.after (k + 1) .running speed').view := by
  induction h with
  | start => exact absurd hv List.not_mem_nil
  | passed _ _ _ ih =>
    obtain ⟨k, step, speed', lt, shown⟩ := ih hv
    exact ⟨k, step, speed', Nat.lt_succ_of_lt lt, shown⟩
  | @paused n speed visits step before next wait left ih =>
    have late {k : ℕ} (le : k ≤ n) (speed : Slider) :
        m.executed + k < (m.after (n + 1) .running speed).view.executed :=
      Nat.add_lt_add_left (Nat.lt_succ_of_le le) _
    rcases List.mem_append.1 hv with hv | hv
    · obtain ⟨k, step, speed', lt, head, slider, shown⟩ := ih hv
      refine ⟨k, step, speed', Nat.lt_succ_of_lt lt, head, ?_, shown⟩
      rw [sliderBefore_append_of_lt (late (Nat.le_of_lt lt) _), slider]
    · rw [List.mem_singleton.1 hv]
      refine ⟨n, step, speed, Nat.lt_succ_self n, next, ?_, wait, rfl, rfl⟩
      rw [sliderBefore_append_of_lt (late (Nat.le_refl n) _), before.sliderBefore_eq]

/-- A step that calls for a pause gets one. -/
theorem exists_visit (h : Visits m n speed visits) (lt : k < n) (next : m.queue[k]? = some step)
    (wait : step.wait (sliderBefore (m.executed + k) m.speed visits).delay ≠ 0) :
    ∃ v ∈ visits, v.view.executed = m.executed + k + 1 := by
  induction h with
  | start => exact absurd lt (Nat.not_lt_zero k)
  | passed before next' none ih =>
    rcases Nat.lt_succ_iff_lt_or_eq.1 lt with lt | rfl
    · exact ih lt wait
    · obtain rfl := Option.some.inj (next.symm.trans next')
      rw [before.sliderBefore_eq] at wait
      exact absurd none wait
  | @paused n speed visits _ _ _ _ left ih =>
    rcases Nat.lt_succ_iff_lt_or_eq.1 lt with lt | rfl
    · rw [sliderBefore_append_of_lt (Nat.add_lt_add_left (Nat.lt_succ_of_lt lt) _)] at wait
      obtain ⟨v, hv, executed⟩ := ih lt wait
      exact ⟨v, List.mem_append_left _ hv, executed⟩
    · exact ⟨_, List.mem_append_right _ (List.mem_singleton_self _), rfl⟩

theorem countP_eq_one (h : Visits m n speed visits) (hv : v ∈ visits) :
    visits.countP (fun w => w.view.executed = v.view.executed) = 1 := by
  have ordered := h.pairwise
  obtain ⟨earlier, later, rfl⟩ := List.append_of_mem hv
  rw [List.pairwise_append, List.pairwise_cons] at ordered
  obtain ⟨-, ⟨after, -⟩, before⟩ := ordered
  have none₁ : earlier.countP (fun w => w.view.executed = v.view.executed) = 0 := by
    refine List.countP_eq_zero.2 fun w hw same => ?_
    exact Nat.ne_of_lt (before w hw v List.mem_cons_self) (of_decide_eq_true same)
  have none₂ : later.countP (fun w => w.view.executed = v.view.executed) = 0 := by
    refine List.countP_eq_zero.2 fun w hw same => ?_
    exact Nat.ne_of_gt (after w hw) (of_decide_eq_true same)
  rw [List.countP_append, List.countP_cons, none₁, none₂, if_pos (decide_eq_true rfl)]

end Visits

/-! ### What a pause shows -/

/-- What a pause in the program of a workspace shows. The machine loaded the program as `r`. -/
structure Shows (r : Machine) (ws : Workspace) (program : List Step) (visits : List Visit)
    (v : Visit) : Prop where
  delay_ne_zero : v.delay ≠ 0
  state : v.view.state = .running
  pending : v.view.pending = program.drop v.view.executed
  /-- The last step calls for the pause, and the block that it comes from is marked. -/
  last : ∃ k step block, v.view.executed = k + 1 ∧ program[k]? = some step ∧ step.Pauses ∧
    v.delay = step.wait (sliderBefore k r.speed visits).delay ∧
    ws.actions[k / 3]? = some block ∧ block.steps[k % 3]? = some step ∧
    v.view.highlighted = some block.id
  sketch : v.view.board.sketch =
    .ofSteps r.board.rows r.board.cols r.board.start (program.take v.view.executed)
  sameGrid : v.view.board.SameGrid r.board

/-- What the pauses in a number of steps of the program of a workspace show. -/
structure Watched (r : Machine) (ws : Workspace) (program : List Step) (executed : ℕ)
    (visits : List Visit) : Prop where
  shows : ∀ v ∈ visits, r.Shows ws program visits v
  executed_le : ∀ v ∈ visits, v.view.executed ≤ executed
  once : ∀ k step, k < executed → program[k]? = some step → step.Pauses →
    (sliderBefore k r.speed visits).delay ≠ 0 →
    visits.countP (fun v => v.view.executed = k + 1) = 1

variable {ws : Workspace} {c : Compilation}

/-- The block that the step with index `k` comes from is marked, if the step calls for a pause. -/
theorem foldl_mark_of_pauses (compiled : ws.compile? = some c) {k : ℕ} {step : Step}
    (next : c.steps.toList[k]? = some step) (pauses : step.Pauses) :
    ∃ block, ws.actions[k / 3]? = some block ∧ block.steps[k % 3]? = some step ∧
      (c.steps.toList.take (k + 1)).foldl Step.mark none = some block.id := by
  obtain ⟨block, found, part⟩ := ws.exists_block_of_compile compiled next
  obtain ⟨action, -, steps⟩ := ws.acts_of_mem_actions (List.mem_of_getElem? found)
  have marking : k % 3 ≠ 2 := by
    intro removal
    rw [steps, removal] at part
    obtain rfl : .unhighlight block.id = step := Option.some.inj part
    exact pauses
  have le : k + 1 ≤ maxSteps := by
    have lt := (List.getElem?_eq_some_iff.1 next).1
    rw [ws.length_steps_of_compile compiled] at lt
    omega
  have same : (k + 1) / 3 = k / 3 := by omega
  refine ⟨block, found, part, ?_⟩
  rw [ws.foldl_mark_of_compile compiled le, if_neg (by omega), same, found, Option.map_some]

theorem Visits.shows (h : Visits (r.load c.steps.toList) n speed visits)
    (reachable : r.board.Reachable) (compiled : ws.compile? = some c) {v : Visit}
    (hv : v ∈ visits) : r.Shows ws c.steps.toList visits v := by
  obtain ⟨k, step, speed', -, next, slider, wait, delay, view⟩ := h.exists_step hv
  obtain ⟨pauses, -⟩ := (step.wait_ne_zero_iff speed').1 wait
  obtain ⟨block, found, part, marked⟩ := foldl_mark_of_pauses compiled next pauses
  have executed : v.view.executed = k + 1 := by
    rw [view]
    exact Nat.zero_add (k + 1)
  have slider : sliderBefore k r.speed visits = speed' := by
    rw [← slider]
    exact congrArg (sliderBefore · r.speed visits) (Nat.zero_add k).symm
  have board : v.view.board =
      (c.steps.toList.take (k + 1)).foldl Board.act (r.board.applyStart true) := by
    rw [view]
    rfl
  constructor
  case delay_ne_zero => exact delay ▸ wait
  case state => rw [view]; rfl
  case pending =>
    rw [executed, view]
    rfl
  case last =>
    refine ⟨k, step, block, executed, next, pauses, by rw [slider, delay], found, part, ?_⟩
    rw [view]
    exact marked
  case sketch =>
    rw [board, executed, (reachable.applyStart true).sketch_acts]
    rfl
  case sameGrid =>
    rw [board]
    exact (Board.sameGrid_acts _ _).trans (Board.sameGrid_applyStart _ _)

theorem Visits.watched (h : Visits (r.load c.steps.toList) n speed visits)
    (reachable : r.board.Reachable) (compiled : ws.compile? = some c) :
    r.Watched ws c.steps.toList n visits := by
  have fresh (k : ℕ) : (r.load c.steps.toList).executed + k = k := Nat.zero_add k
  refine ⟨fun v hv => h.shows reachable compiled hv, fun v hv => ?_,
    fun k step lt next pauses delay => ?_⟩
  · have le := h.executed_le hv
    rwa [fresh] at le
  · have wait := (step.wait_ne_zero_iff _).2 ⟨pauses, delay⟩
    obtain ⟨v, hv, executed⟩ := h.exists_visit lt next (by rw [fresh]; exact wait)
    rw [fresh] at executed
    rw [← executed]
    exact h.countP_eq_one hv

/-- What the host of a run, or of a series of single steps that loads the program, sees in its
pauses. -/
theorem Reachable.pauses_show_program (h : r.Reachable) {start : Block}
    (hs : ws.start? = some start) (p : Host σ) (s : σ) :
    ∃ c, ws.compile? = some c ∧
      (∃ visits, (r.run p.visited ws (s, [])).host = ((r.run p ws s).host, visits) ∧
        r.Watched ws c.steps.toList (r.run p ws s).machine.executed visits) ∧
      (r.queue = [] → ∀ more, ∃ visits,
        (r.singleSteps p.visited ws (s, []) more).host =
          ((r.singleSteps p ws s more).host, visits) ∧
        r.Watched ws c.steps.toList (r.singleSteps p ws s more).machine.executed visits) := by
  obtain ⟨idle, board⟩ := h.settled
  obtain ⟨c, compiled⟩ := Workspace.exists_compile hs
  refine ⟨c, compiled, ?_, fun empty more => ?_⟩
  · obtain ⟨n, speed, visits, host, kept, executed⟩ :=
      (progress_run idle compiled p s).exists_visits (progress_run idle compiled p.visited (s, []))
    rw [show (r.load c.steps.toList).executed + n = n from Nat.zero_add n] at executed
    exact ⟨visits, host, executed ▸ kept.watched board compiled⟩
  · have ready := ready_of_queue_eq_nil empty compiled
    obtain ⟨n, speed, visits, host, kept, executed⟩ :=
      (progress_singleSteps idle ready p s more).exists_visits
        (progress_singleSteps idle ready p.visited (s, []) more)
    rw [show (r.load c.steps.toList).executed + n = n from Nat.zero_add n] at executed
    exact ⟨visits, host, executed ▸ kept.watched board compiled⟩

/-- No pause is before the first step. -/
theorem Watched.sliderBefore_zero {program : List Step} (h : r.Watched ws program n visits) :
    sliderBefore 0 r.speed visits = r.speed := by
  have late : visits.filter (fun v => v.view.executed ≤ 0) = [] := by
    refine List.filter_eq_nil_iff.2 fun v hv => ?_
    obtain ⟨k, _, _, executed, -⟩ := (h.shows v hv).last
    simp [executed]
  rw [sliderBefore, late]
  rfl

/-- The first pause of a program that paints is behind its first mark. -/
theorem Reachable.pauses_show_program_painter :
    standard.Reachable ∧ standard.queue = [] ∧
      ∃ v ∈ (standard.singleSteps Host.waiting.visited Workspace.painter ({}, []) 599).host.2,
        v.view.executed = 1 ∧ v.delay = 50 ∧ v.view.highlighted = some "paint" := by
  obtain ⟨c, compiled, -, series⟩ := reachable_standard.pauses_show_program
    Workspace.start?_painter Host.waiting {}
  obtain ⟨visits, host, watched⟩ := series rfl 599
  obtain ⟨c', compiled', steps⟩ := Workspace.exists_compile_painter
  obtain rfl : c = c' := Option.some.inj (compiled.symm.trans compiled')
  have first : c.steps.toList[0]? = some (.highlight "paint") := by
    rw [steps]
    rfl
  have executed :
      0 < (standard.singleSteps Host.waiting Workspace.painter {} 599).machine.executed := by
    have length : c.steps.toList.length = 599 + 1 := by
      rw [steps, List.length_flatten, List.map_replicate, List.sum_replicate]
      rfl
    have idle := reachable_standard.settled.idle
    have single := progress_singleSteps idle (ready_of_queue_eq_nil rfl compiled) .waiting {} 599
    have agrees := single.agrees (length ▸ progress_run idle compiled .waiting {})
    rw [agrees.machine, (reachable_standard.settled.drew compiled Host.resumes_waiting {}).executed,
      length]
    exact Nat.succ_pos _
  have once := watched.once 0 _ executed first trivial (by rw [watched.sliderBefore_zero]; decide)
  obtain ⟨v, hv, behind⟩ := List.countP_pos_iff.1 (once ▸ Nat.one_pos)
  obtain ⟨k, step, block, behind', next, -, delay, found, part, marked⟩ := (watched.shows v hv).last
  obtain rfl : k = 0 := Nat.succ.inj (behind'.symm.trans (of_decide_eq_true behind))
  obtain rfl : .highlight "paint" = step := Option.some.inj (first.symm.trans next)
  rw [watched.sliderBefore_zero] at delay
  obtain ⟨action, -, steps⟩ := Workspace.acts_of_mem_actions (List.mem_of_getElem? found)
  rw [steps] at part
  have named : block.id = "paint" := Step.highlight.inj (Option.some.inj part)
  exact ⟨reachable_standard, rfl, v, host ▸ hv, of_decide_eq_true behind, delay, named ▸ marked⟩

end Machine

end BlockBoard
