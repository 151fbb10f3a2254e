import Mathlib.Algebra.Order.Ring.Int
import BlockBoard.Proofs.Program.Actions
import BlockBoard.Proofs.Project.Build
import BlockBoard.Proofs.Run.Meaning

/-!
# The program in a machine and its mark

A machine `Follows` a program while it is on its way through it: the steps not executed yet are
queued, and the mark is the one that the executed steps have set. A machine follows the program that
it loaded until it is stopped, when nothing is queued or marked any more (`executes_run`,
`InStep.executes_singleStep`, `Executes.inStep`).

Blocks are marked and their marks removed in turn, so after `n` steps a block is marked exactly if
3 does not divide `n` (`foldl_mark_steps`). As 3 does not divide `maxSteps`, the last block of a
truncated program stays marked after its end, and no other (`Reachable.highlighted_of_completed`).
-/

namespace BlockBoard

/-! ### Marks -/

/-- After `n` steps of acting blocks the block of the last step is marked, unless that step removed
the mark. -/
theorem foldl_mark_steps {bs : List Block} (acts : ∀ b ∈ bs, b.Acts) (n : ℕ) :
    ((bs.flatMap Block.steps).take n).foldl Step.mark none =
      if n % 3 = 0 then none else bs[n / 3]?.map Block.id := by
  induction bs generalizing n with
  | nil => simp
  | cons b bs ih =>
    obtain ⟨⟨action, isAction, steps⟩, others⟩ := List.forall_mem_cons.1 acts
    rw [List.flatMap_cons, steps]
    have marks (marked : Option BlockId) : action.mark marked = marked := by
      cases action <;> trivial
    match n with
    | 0 => rfl
    | 1 => rfl
    | 2 => exact marks (some b.id)
    | n + 3 =>
      have third : (([.highlight b.id, action, .unhighlight b.id] ++
          bs.flatMap Block.steps).take (n + 3)).foldl Step.mark none =
            ((bs.flatMap Block.steps).take n).foldl Step.mark none := rfl
      rw [third, ih others, Nat.add_mod_right, Nat.add_div_right n (by decide),
        List.getElem?_cons_succ]

/-- The block that is marked after `n` steps of a program. -/
theorem Workspace.foldl_mark_of_compile {ws : Workspace} {c : Compilation}
    (compiled : ws.compile? = some c) {n : ℕ} (le : n ≤ maxSteps) :
    (c.steps.toList.take n).foldl Step.mark none =
      if n % 3 = 0 then none else ws.actions[n / 3]?.map Block.id := by
  rw [toList_steps_of_compile compiled, List.take_take, Nat.min_eq_left le,
    foldl_mark_steps fun _ => acts_of_mem_actions]

namespace Machine

/-! ### Following a program -/

/-- The machine is on its way through a program. -/
structure Follows (r : Machine) (program : List Step) : Prop where
  queue : r.queue = program.drop r.executed
  highlighted : r.highlighted = (program.take r.executed).foldl Step.mark none
  executed_le : r.executed ≤ program.length

/-- Nothing is queued and nothing is marked. -/
structure Halted (r : Machine) : Prop where
  queue : r.queue = []
  highlighted : r.highlighted = none

/-- The machine follows the program of a workspace, or no program. -/
def InStep (r : Machine) (ws : Workspace) : Prop :=
  r.Halted ∨ ∃ c, ws.compile? = some c ∧ r.Follows c.steps.toList

variable {σ : Type} {p : Host σ} {r r' m : Machine} {s : σ} {program : List Step} {ws : Workspace}
  {c : Compilation}

/-- It does not matter where the board and the slider are. -/
theorem InStep.congr (h : r.InStep ws) (queue : r'.queue = r.queue)
    (highlighted : r'.highlighted = r.highlighted) (executed : r'.executed = r.executed) :
    r'.InStep ws := by
  obtain halted | ⟨c, compiled, follows⟩ := h
  · exact .inl ⟨queue.trans halted.queue, highlighted.trans halted.highlighted⟩
  · refine .inr ⟨c, compiled, ?_, ?_, ?_⟩
    · rw [queue, executed, follows.queue]
    · rw [highlighted, executed, follows.highlighted]
    · exact executed ▸ follows.executed_le

theorem halted_stop (r : Machine) : r.stop.Halted :=
  ⟨rfl, rfl⟩

theorem follows_load (r : Machine) (steps : List Step) : (r.load steps).Follows steps :=
  ⟨rfl, rfl, Nat.zero_le _⟩

theorem Follows.after (h : m.Follows program) {n : ℕ} (le : n ≤ m.queue.length) (state : RunState)
    (speed : Slider) : (m.after n state speed).Follows program where
  queue := by
    show m.queue.drop n = program.drop (m.executed + n)
    rw [h.queue, List.drop_drop]
  highlighted := by
    show (m.queue.take n).foldl Step.mark m.highlighted =
      (program.take (m.executed + n)).foldl Step.mark none
    rw [List.take_add, List.foldl_append, ← h.highlighted, ← h.queue]
  executed_le := by
    show m.executed + n ≤ program.length
    rw [h.queue, List.length_drop] at le
    have := h.executed_le
    omega

theorem Follows.length_le (h : m.Follows program) (empty : m.queue = []) :
    program.length ≤ m.executed := by
  rw [h.queue] at empty
  exact List.drop_eq_nil_iff.1 empty

/-- The machine goes on to follow its program, unless the host stops it. -/
theorem Progress.follows {asked : ℕ} {a : RunResult σ} (h : Progress p m s asked a)
    (follows : m.Follows program) : a.machine.Halted ∨ a.machine.Follows program := by
  cases h with
  | stepped _ left => exact .inr (follows.after (Nat.le_of_lt left) .idle _)
  | @ended answer _ _ _ full =>
    cases answer with
    | stop => exact .inl (halted_stop _)
    | resume => exact .inr (follows.after full.course.le_length .idle _)

/-- A result is due to the steps of a program, from some point of it on. -/
def Executes (program : List Step) (p : Host σ) (s : σ) (result : RunResult σ) : Prop :=
  ∃ m asked, m.Follows program ∧ Progress p m s asked result

theorem Executes.outcome_ne_error {a : RunResult σ} (h : Executes program p s a) (e : RunError) :
    a.outcome ≠ .error e := by
  obtain ⟨m, asked, -, progress⟩ := h
  cases progress <;> nofun

theorem Executes.inStep {a : RunResult σ} (h : Executes c.steps.toList p s a)
    (compiled : ws.compile? = some c) : a.machine.InStep ws := by
  obtain ⟨m, asked, follows, progress⟩ := h
  exact (progress.follows follows).imp_right fun follows => ⟨c, compiled, follows⟩

theorem executes_run (idle : r.state ≠ .running) (compiled : ws.compile? = some c) (p : Host σ)
    (s : σ) : Executes c.steps.toList p s (r.run p ws s) :=
  ⟨_, _, follows_load r _, progress_run idle compiled p s⟩

theorem executes_singleStep_of_queue_eq_nil (idle : r.state ≠ .running) (empty : r.queue = [])
    (compiled : ws.compile? = some c) (p : Host σ) (s : σ) :
    Executes c.steps.toList p s (r.singleStep p ws s) :=
  ⟨_, _, follows_load r _, progress_singleSteps idle (ready_of_queue_eq_nil empty compiled) p s 0⟩

/-- A step takes the program that is in the machine, whatever the workspace is by now. -/
theorem Follows.executes_singleStep (h : r.Follows program) (idle : r.state ≠ .running)
    (queued : r.queue ≠ []) (p : Host σ) (ws : Workspace) (s : σ) :
    Executes program p s (r.singleStep p ws s) :=
  ⟨r, _, h, progress_singleSteps idle (ready_of_queue_ne_nil queued ws) p s 0⟩

/-- A machine with steps in its queue is on its way through the program. -/
theorem InStep.follows (h : r.InStep ws) (compiled : ws.compile? = some c) (queued : r.queue ≠ []) :
    r.Follows c.steps.toList := by
  obtain halted | ⟨c', compiled', follows⟩ := h
  · exact absurd halted.queue queued
  · obtain rfl := Option.some.inj (compiled.symm.trans compiled')
    exact follows

theorem InStep.executes_singleStep (h : r.InStep ws) (idle : r.state ≠ .running)
    (compiled : ws.compile? = some c) (p : Host σ) (s : σ) :
    Executes c.steps.toList p s (r.singleStep p ws s) := by
  by_cases queued : r.queue = []
  · exact executes_singleStep_of_queue_eq_nil idle queued compiled p s
  · exact (h.follows compiled queued).executes_singleStep idle queued p ws s

/-- A workspace without a start block leaves the machine as it is. -/
theorem machine_run_of_compile_eq_none (none : ws.compile? = none) (p : Host σ) (s : σ) :
    (r.run p ws s).machine = r := by
  unfold run
  split_ifs
  · rfl
  · simp only [none]

theorem machine_singleStep_of_compile_eq_none (none : ws.compile? = none) (empty : r.queue = [])
    (p : Host σ) (s : σ) : (r.singleStep p ws s).machine = r := by
  unfold Machine.singleStep
  split_ifs
  · rfl
  · simp only [ready, empty, none, List.isEmpty_nil, if_pos]

/-- What a program left in a machine is what some workspace had it do. -/
theorem Reachable.exists_inStep (h : r.Reachable) : ∃ ws, r.InStep ws := by
  induction h with
  | new => exact ⟨.empty, .inl ⟨rfl, rfl⟩⟩
  | setBoard _ _ _ ih => exact ih.imp fun _ ih => ih.congr rfl rfl rfl
  | setSpeed _ _ ih => exact ih.imp fun _ ih => ih.congr rfl rfl rfl
  | run p ws s h ih =>
    cases compiled : ws.compile? with
    | none => rwa [machine_run_of_compile_eq_none compiled]
    | some c => exact ⟨ws, (executes_run h.settled.idle compiled p s).inStep compiled⟩
  | @singleStep _ r p ws s h ih =>
    have idle := h.settled.idle
    by_cases empty : r.queue = []
    · cases compiled : ws.compile? with
      | none => rwa [machine_singleStep_of_compile_eq_none compiled empty]
      | some c =>
        exact ⟨ws, (executes_singleStep_of_queue_eq_nil idle empty compiled p s).inStep compiled⟩
    · obtain ⟨ws', halted | ⟨c, compiled, follows⟩⟩ := ih
      · exact absurd halted.queue empty
      · exact ⟨ws', (follows.executes_singleStep idle empty p ws s).inStep compiled⟩
  | stop => exact ⟨.empty, .inl (halted_stop _)⟩
  | reset => exact ⟨.empty, .inl ⟨rfl, rfl⟩⟩

/-! ### The mark of a followed program -/

theorem Follows.highlighted_eq (h : r.Follows c.steps.toList) (compiled : ws.compile? = some c) :
    r.highlighted =
      if r.executed % 3 = 0 then none else ws.actions[r.executed / 3]?.map Block.id := by
  have le : r.executed ≤ maxSteps := by
    have := h.executed_le
    rw [ws.length_steps_of_compile compiled] at this
    omega
  rw [h.highlighted, ws.foldl_mark_of_compile compiled le]

/-- A marked block is one that the program acts with. -/
theorem InStep.exists_of_highlighted (h : r.InStep ws) {id : BlockId}
    (marked : r.highlighted = some id) : ∃ block ∈ ws.actions, block.id = id := by
  obtain halted | ⟨c, compiled, follows⟩ := h
  · rw [halted.highlighted] at marked
    cases marked
  · rw [follows.highlighted_eq compiled, Option.ite_none_left_eq_some] at marked
    obtain ⟨block, found, rfl⟩ := Option.map_eq_some_iff.1 marked.2
    exact ⟨block, List.mem_of_getElem? found, rfl⟩

/-- What is left of a program at its end: its last block is marked exactly if it was truncated. -/
structure Ended (r : Machine) (c : Compilation) : Prop where
  queue : r.queue = []
  executed : r.executed = c.steps.size
  highlighted_iff : r.highlighted = none ↔ c.truncated = false
  truncated_iff : c.truncated = true ↔ r.executed = maxSteps

theorem Follows.ended (h : r.Follows c.steps.toList) (compiled : ws.compile? = some c)
    (empty : r.queue = []) : r.Ended c := by
  have executed : r.executed = c.steps.toList.length :=
    Nat.le_antisymm h.executed_le (h.length_le empty)
  have truncated := ws.truncated_of_compile compiled
  have marked := h.highlighted_eq compiled
  have size := ws.length_steps_of_compile compiled
  rw [← executed] at size
  -- A program that fits is made of whole blocks, and `maxSteps` is not a multiple of 3.
  rcases Nat.lt_or_ge maxSteps (3 * ws.actions.length) with cut | fits
  · rw [decide_eq_true cut] at truncated
    rw [Nat.min_eq_left (Nat.le_of_lt cut)] at size
    have inside : maxSteps / 3 < ws.actions.length := by
      unfold maxSteps at cut ⊢
      omega
    have last : r.highlighted = some (ws.actions[maxSteps / 3]).id := by
      rw [marked, size, if_neg (by decide), List.getElem?_eq_getElem inside, Option.map_some]
    exact ⟨empty, executed, by simp [last, truncated], by simp [truncated, size]⟩
  · rw [decide_eq_false (Nat.not_lt.2 fits)] at truncated
    rw [Nat.min_eq_right fits] at size
    have whole : r.highlighted = none := by
      rw [marked, size, Nat.mul_mod_right, if_pos rfl]
    have below : r.executed ≠ maxSteps := by
      unfold maxSteps
      omega
    exact ⟨empty, executed, by simp [whole, truncated], by simp [truncated, below]⟩

theorem Executes.ended_of_completed {a : RunResult σ} (h : Executes c.steps.toList p s a)
    (compiled : ws.compile? = some c) (completed : a.outcome = .ok .completed) :
    a.machine.Ended c := by
  obtain ⟨m, asked, follows, progress⟩ := h
  cases progress with
  | stepped => cases completed
  | @ended answer _ _ _ full =>
    cases answer with
    | stop => cases completed
    | resume =>
      have empty := List.drop_eq_nil_of_le (full.full rfl)
      exact (follows.after full.course.le_length .idle _).ended compiled empty

/-- When a program has ended nothing is queued, and nothing is marked unless the program was
truncated. A single step ends the program that the machine follows, or if nothing is queued that of
the workspace. -/
theorem Reachable.highlighted_of_completed (h : r.Reachable) {start : Block}
    (hs : ws.start? = some start) (p : Host σ) (s : σ) :
    ∃ c, ws.compile? = some c ∧
      ((r.run p ws s).outcome = .ok .completed → (r.run p ws s).machine.Ended c) ∧
      ((r.singleStep p ws s).outcome = .ok .completed →
        ∃ (ws' : Workspace) (c' : Compilation), ws'.compile? = some c' ∧
          (if r.queue = [] then c' = c else r.Follows c'.steps.toList) ∧
          (r.singleStep p ws s).machine.Ended c') := by
  have idle := h.settled.idle
  obtain ⟨c, compiled⟩ := Workspace.exists_compile hs
  refine ⟨c, compiled, (executes_run idle compiled p s).ended_of_completed compiled,
    fun completed => ?_⟩
  split_ifs with empty
  · have executes := executes_singleStep_of_queue_eq_nil idle empty compiled p s
    exact ⟨ws, c, compiled, rfl, executes.ended_of_completed compiled completed⟩
  · obtain ⟨ws', halted | ⟨c', compiled', follows⟩⟩ := h.exists_inStep
    · exact absurd halted.queue empty
    · have executes := follows.executes_singleStep idle empty p ws s
      exact ⟨ws', c', compiled', follows, executes.ended_of_completed compiled' completed⟩

theorem Reachable.highlighted_of_completed_painter :
    standard.Reachable ∧
      (standard.run .silent Workspace.painter ()).outcome = .ok .completed ∧
      (standard.run .silent Workspace.painter ()).machine.highlighted = none := by
  obtain ⟨c, compiled, run, -⟩ :=
    reachable_standard.highlighted_of_completed Workspace.start?_painter .silent ()
  have drew := reachable_standard.settled.drew compiled Host.resumes_silent ()
  have ended := run drew.outcome
  obtain ⟨c', compiled', steps⟩ := Workspace.exists_compile_painter
  obtain rfl : c = c' := Option.some.inj (compiled.symm.trans compiled')
  have fits : c.truncated = false := by
    rw [← Bool.not_eq_true, ended.truncated_iff, drew.executed, steps, List.length_flatten,
      List.map_replicate, List.sum_replicate]
    decide
  exact ⟨reachable_standard, drew.outcome, ended.highlighted_iff.2 fits⟩

end Machine

/-! ### A program that ends with a mark -/

theorem listActions_repetition (id : BlockId) (times : ℤ) (body : List Node) (levels : ℕ) :
    listActions ((listTrees [.repetition id times body]).map (Tree.prune (levels + 1))) =
      (List.replicate (repeatCount times)
        (listActions ((listTrees body).map (Tree.prune levels)))).flatten := by
  rw [listTrees_cons, listTrees, List.map_singleton, listActions, listActions, List.append_nil]
  rfl

namespace Workspace

/-- A fill block that is repeated 360000 times. -/
def marathon : List Node :=
  [.repetition "outer" 200 [.repetition "middle" 200 [.repetition "inner" 9 [.fill "paint" "red"]]]]

theorem exists_build_marathon :
    ∃ ws start, Document.build { blocks := [[.start "start" marathon]] } = .ok ws ∧
      ws.Reachable ∧ ws.start? = some start ∧
      ws.actions = List.replicate 360000 { id := "paint", kind := .fill "red" } := by
  have nodup : ("start" :: listIds (listTrees marathon)).Nodup := by decide
  obtain ⟨ws, start, built, stacked, found, unfolds⟩ :=
    Document.exists_build_program nodup (by decide)
  have innermost : listActions ((listTrees [.fill "paint" "red"]).map (Tree.prune 61)) =
      List.replicate 1 { id := "paint", kind := .fill "red" } := rfl
  refine ⟨ws, start, built, reachable_of_build built, found, ?_⟩
  rw [actions, found]
  dsimp only
  rw [unfolds.forest_eq stacked.coherent, marathon, maxDepth, listActions_repetition,
    listActions_repetition, listActions_repetition, innermost, List.flatten_replicate_replicate,
    List.flatten_replicate_replicate, List.flatten_replicate_replicate]
  congr 1

end Workspace

/-- A run of 360000 fill blocks is cut behind the mark of a block, and completes with the mark. -/
theorem Machine.highlighted_marathon :
    ∃ ws, Document.build { blocks := [[.start "start" Workspace.marathon]] } = .ok ws ∧
      ws.Reachable ∧ ws.start?.isSome ∧ standard.Reachable ∧
      (standard.run .silent ws ()).outcome = .ok .completed ∧
      (standard.run .silent ws ()).machine.highlighted = some "paint" := by
  obtain ⟨ws, start, built, reachable, found, actions⟩ := Workspace.exists_build_marathon
  obtain ⟨c, compiled⟩ := Workspace.exists_compile found
  have idle := reachable_standard.settled.idle
  have completed := (reachable_standard.settled.drew compiled Host.resumes_silent ()).outcome
  have executes := executes_run idle compiled .silent ()
  have ended := executes.ended_of_completed compiled completed
  have truncated : c.truncated = true := by
    rw [ws.truncated_of_compile compiled, actions, List.length_replicate]
    decide
  have marked : (standard.run .silent ws ()).machine.highlighted ≠ none := by
    rw [Ne, ended.highlighted_iff, truncated]
    nofun
  obtain ⟨id, marked⟩ := Option.ne_none_iff_exists'.1 marked
  obtain ⟨block, mem, rfl⟩ := (executes.inStep compiled).exists_of_highlighted marked
  rw [actions] at mem
  rw [List.eq_of_mem_replicate mem] at marked
  exact ⟨ws, built, reachable, by rw [found]; rfl, reachable_standard, completed, marked⟩

end BlockBoard
