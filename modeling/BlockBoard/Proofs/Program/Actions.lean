import BlockBoard.Proofs.Program.Flatten

/-!
# Where steps come from

Only move and fill blocks act, and each gives three steps: its mark, its action and the removal of
the mark. `Workspace.actions` lists the blocks that a program acts with, each as often as it does.
The compiled program is what the first `maxSteps` steps of these blocks are
(`toList_steps_of_compile`), so the step with index `k` comes from the block with index `k / 3`.
-/

namespace BlockBoard

/-! ### Blocks that act -/

/-- A step that does something to the board, or would if its field named a direction. -/
def Step.IsAction : Step → Prop
  | .move _ | .fill _ => True
  | .highlight _ | .unhighlight _ => False

namespace Block

/-- The steps of a block without those of its body. -/
def steps (b : Block) : List Step :=
  b.expand []

/-- The block gives an action between its mark and the removal of the mark. -/
def Acts (b : Block) : Prop :=
  ∃ action : Step, action.IsAction ∧ b.steps = [.highlight b.id, action, .unhighlight b.id]

theorem acts_of_move {b : Block} {direction : String} (h : b.kind = .move direction) : b.Acts :=
  ⟨.move (Direction.ofText? direction), trivial, by rw [steps, expand, h]⟩

theorem acts_of_fill {b : Block} {color : String} (h : b.kind = .fill color) : b.Acts :=
  ⟨.fill (fillColor color), trivial, by rw [steps, expand, h]⟩

theorem Acts.length_steps {b : Block} (h : b.Acts) : b.steps.length = 3 := by
  obtain ⟨action, -, eq⟩ := h
  rw [eq]
  rfl

end Block

/-! ### Steps of acting blocks -/

variable {bs : List Block}

theorem length_flatMap_steps (acts : ∀ b ∈ bs, b.Acts) :
    (bs.flatMap Block.steps).length = 3 * bs.length := by
  induction bs with
  | nil => rfl
  | cons b bs ih =>
    obtain ⟨first, others⟩ := List.forall_mem_cons.1 acts
    rw [List.flatMap_cons, List.length_append, first.length_steps, ih others, List.length_cons]
    omega

/-- Three steps come from each block. -/
theorem getElem?_flatMap_steps (acts : ∀ b ∈ bs, b.Acts) (k : ℕ) :
    (bs.flatMap Block.steps)[k]? = bs[k / 3]?.bind fun b => b.steps[k % 3]? := by
  induction bs generalizing k with
  | nil => rfl
  | cons b bs ih =>
    obtain ⟨first, others⟩ := List.forall_mem_cons.1 acts
    rw [List.flatMap_cons]
    rcases Nat.lt_or_ge k 3 with lt | ge
    · rw [List.getElem?_append_left (by rwa [first.length_steps]), Nat.div_eq_of_lt lt,
        Nat.mod_eq_of_lt lt]
      rfl
    · obtain ⟨k, rfl⟩ := Nat.exists_eq_add_of_le' ge
      rw [List.getElem?_append_right (by rw [first.length_steps]; omega), first.length_steps,
        Nat.add_sub_cancel, ih others, Nat.add_div_right k (by decide), Nat.add_mod_right]
      rfl

/-! ### The blocks that a program acts with -/

mutual

/-- The blocks that a tree acts with, in order and each as often as it does. -/
def Tree.actions : Tree → List Block
  | .node block _ body =>
    match block.kind with
    | .start => listActions body
    | .move _ | .fill _ => [block]
    | .repetition times => (List.replicate (repeatCount times) (listActions body)).flatten

/-- The blocks that trees act with. -/
def listActions : List Tree → List Block
  | [] => []
  | tree :: trees => tree.actions ++ listActions trees

end

/-- The steps of a tree are those of the blocks that it acts with. -/
theorem flatMap_steps_actions (b : Block) (cut : Bool) (body : List Tree) :
    (Tree.node b cut body).actions.flatMap Block.steps =
      b.expand ((listActions body).flatMap Block.steps) := by
  unfold Tree.actions Block.expand
  cases kind : b.kind with
  | start => rfl
  | move direction | fill color =>
    dsimp only
    rw [List.flatMap_singleton, Block.steps, Block.expand, kind]
  | repetition times =>
    dsimp only
    rw [repeatCount_eq, List.flatMap_def, List.map_flatten, List.map_replicate,
      List.flatten_flatten, List.map_replicate, ← List.flatMap_def]

mutual

theorem Tree.mem_actions {b : Block} (tree : Tree) (h : b ∈ tree.actions) :
    b ∈ tree.blocks ∧ b.Acts := by
  cases tree with
  | node block cut body =>
    unfold Tree.actions at h
    rw [Tree.blocks, List.mem_cons]
    cases kind : block.kind with
    | start =>
      rw [kind] at h
      exact (mem_listActions body h).imp_left Or.inr
    | move direction =>
      rw [kind] at h
      obtain rfl := List.mem_singleton.1 h
      exact ⟨Or.inl rfl, Block.acts_of_move kind⟩
    | fill color =>
      rw [kind] at h
      obtain rfl := List.mem_singleton.1 h
      exact ⟨Or.inl rfl, Block.acts_of_fill kind⟩
    | repetition times =>
      rw [kind] at h
      obtain ⟨copy, hcopy, h⟩ := List.mem_flatten.1 h
      obtain rfl := List.eq_of_mem_replicate hcopy
      exact (mem_listActions body h).imp_left Or.inr

theorem mem_listActions {b : Block} (trees : List Tree) (h : b ∈ listActions trees) :
    b ∈ listBlocks trees ∧ b.Acts := by
  cases trees with
  | nil => exact absurd h List.not_mem_nil
  | cons tree trees =>
    rw [listBlocks, List.mem_append]
    rcases List.mem_append.1 h with h | h
    · exact (tree.mem_actions h).imp_left Or.inl
    · exact (mem_listActions trees h).imp_left Or.inr

end

/-! ### Compiling -/

namespace Compilation

variable {budget : ℕ} {c : Compilation}

mutual

/-- Compiling a tree adds the steps of the blocks that it acts with, as far as the budget goes. -/
theorem holds_actions (budget : ℕ) {c : Compilation} (tree : Tree) (clean : c.truncated = false)
    (fits : c.steps.size ≤ budget) :
    Holds budget c (tree.actions.flatMap Block.steps) (tree.compile budget c) := by
  cases tree with
  | node block cut body =>
    rw [flatMap_steps_actions]
    exact holds_node clean fits fun budget _ clean fits =>
      holds_listActions budget body clean fits

theorem holds_listActions (budget : ℕ) {c : Compilation} (trees : List Tree)
    (clean : c.truncated = false) (fits : c.steps.size ≤ budget) :
    Holds budget c ((listActions trees).flatMap Block.steps) (compileAll budget c trees) := by
  cases trees with
  | nil => exact Holds.nil fits
  | cons tree trees =>
    have first := holds_actions budget tree clean fits
    rw [compileAll, clean, if_neg Bool.false_ne_true, listActions, List.flatMap_append]
    cases full : (tree.compile budget c).truncated with
    | false => exact first.trans (holds_listActions budget trees full first.size_le)
    | true =>
      rw [compileAll_of_truncated trees full]
      exact first.skip _ clean full

end

end Compilation

namespace Workspace

variable {ws : Workspace} {c : Compilation}

/-- The blocks that the program acts with, in order and each as often as it does. -/
def actions (ws : Workspace) : List Block :=
  match ws.start? with
  | some start => listActions (ws.forest maxDepth start.body)
  | none => []

theorem acts_of_mem_actions {b : Block} (h : b ∈ ws.actions) : b.Acts := by
  unfold actions at h
  split at h
  · exact (mem_listActions _ h).2
  · exact absurd h List.not_mem_nil

/-- A program acts with stored blocks. -/
theorem Coherent.get?_of_mem_actions (coherent : ws.Coherent) {b : Block} (h : b ∈ ws.actions) :
    ws.get? b.id = some b := by
  unfold actions at h
  split at h
  · next start found =>
    obtain ⟨trees, unfolds⟩ := coherent.exists_start_body found
    rw [unfolds.forest_eq coherent] at h
    have kept := (listBlocks_prune_sublist maxDepth trees).mem (mem_listActions _ h).1
    exact unfolds.get?_of_mem coherent kept
  · exact absurd h List.not_mem_nil

theorem length_steps_actions (ws : Workspace) :
    (ws.actions.flatMap Block.steps).length = 3 * ws.actions.length :=
  length_flatMap_steps fun _ => acts_of_mem_actions

theorem holds_of_compile (compiled : ws.compile? = some c) :
    Compilation.Holds maxSteps {} (ws.actions.flatMap Block.steps) c := by
  obtain ⟨start, found, rfl⟩ := Option.map_eq_some_iff.1 compiled
  rw [actions, found]
  exact Compilation.holds_listActions maxSteps _ rfl (Nat.zero_le maxSteps)

/-- A program is what the first `maxSteps` steps of the blocks that it acts with are. -/
theorem toList_steps_of_compile (compiled : ws.compile? = some c) :
    c.steps.toList = (ws.actions.flatMap Block.steps).take maxSteps := by
  rw [(holds_of_compile compiled).toList_steps, List.nil_append]

theorem length_steps_of_compile (compiled : ws.compile? = some c) :
    c.steps.toList.length = min maxSteps (3 * ws.actions.length) := by
  rw [toList_steps_of_compile compiled, List.length_take, length_steps_actions]

theorem truncated_of_compile (compiled : ws.compile? = some c) :
    c.truncated = decide (maxSteps < 3 * ws.actions.length) := by
  rw [(holds_of_compile compiled).truncated, length_steps_actions, Array.size_empty, Nat.zero_add,
    Bool.false_or]

/-- The step with index `k` comes from the block with index `k / 3`. -/
theorem exists_block_of_compile (compiled : ws.compile? = some c) {k : ℕ} {step : Step}
    (h : c.steps.toList[k]? = some step) :
    ∃ block, ws.actions[k / 3]? = some block ∧ block.steps[k % 3]? = some step := by
  rw [toList_steps_of_compile compiled, List.getElem?_take, Option.ite_none_right_eq_some,
    getElem?_flatMap_steps fun _ => acts_of_mem_actions] at h
  exact Option.bind_eq_some_iff.1 h.2

end Workspace

end BlockBoard
