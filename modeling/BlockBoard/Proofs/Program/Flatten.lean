import BlockBoard.Program.Compile
import BlockBoard.Proofs.Workspace.Trees

/-!
# What compiling gives

Compiling writes each body once and copies it, within budgets that are nested like the bodies. The
plain meaning of a program is `Tree.flatten`, which writes every copy out. A compilation holds the
steps of the flattening as far as the budget goes, and is truncated exactly if it goes no further
(`Compilation.Holds`). No budget is ever overdrawn, so compiling with checked subtractions comes to
the same (`compileAllChecked_eq`).
-/

namespace BlockBoard

/-- The steps of a block whose body has the given steps. -/
def Block.expand (b : Block) (body : List Step) : List Step :=
  match b.kind with
  | .start => body
  | .move direction => [.highlight b.id, .move (Direction.ofText? direction), .unhighlight b.id]
  | .fill color => [.highlight b.id, .fill (fillColor color), .unhighlight b.id]
  | .repetition times => (List.replicate (min (max times 0) 200).toNat body).flatten

/-- The steps of a tree with every copy of a body written out. Bodies below the given number of
levels give nothing. -/
def Tree.flatten : (levels : ℕ) → Tree → List Step
  | 0, tree => tree.block.expand []
  | levels + 1, tree => tree.block.expand (tree.body.flatMap (flatten levels))

theorem repeatCount_eq (times : ℤ) : repeatCount times = (min (max times 0) 200).toNat := by
  unfold repeatCount maxRepeat
  omega

namespace Compilation

/-! ### Steps within a budget -/

/-- Some steps were added to a compilation, as far as the budget goes. -/
structure Holds (budget : ℕ) (c : Compilation) (steps : List Step) (c' : Compilation) : Prop where
  toList_steps : c'.steps.toList = (c.steps.toList ++ steps).take budget
  truncated : c'.truncated = (c.truncated || decide (budget < c.steps.size + steps.length))

variable {budget : ℕ} {c c' c'' : Compilation}

namespace Holds

theorem size_le {steps : List Step} (h : Holds budget c steps c') : c'.steps.size ≤ budget := by
  rw [← Array.length_toList, h.toList_steps]
  exact List.length_take_le _ _

theorem size_eq {steps : List Step} (h : Holds budget c steps c') :
    c'.steps.size = min budget (c.steps.size + steps.length) := by
  rw [← Array.length_toList, h.toList_steps, List.length_take, List.length_append,
    Array.length_toList]

theorem nil (fits : c.steps.size ≤ budget) : Holds budget c [] c where
  toList_steps := by
    rw [List.append_nil, List.take_of_length_le (by rwa [Array.length_toList])]
  truncated := by
    have : ¬ budget < c.steps.size := by omega
    simp [this]

/-- Only the steps and the mark of truncation count. -/
theorem of_eq {steps : List Step} (h : Holds budget c steps c'') (hs : c.steps = c'.steps)
    (ht : c.truncated = c'.truncated) : Holds budget c' steps c'' :=
  ⟨hs ▸ h.toList_steps, hs ▸ ht ▸ h.truncated⟩

theorem trans {xs ys : List Step} (h : Holds budget c xs c') (h' : Holds budget c' ys c'') :
    Holds budget c (xs ++ ys) c'' where
  toList_steps := by
    rw [h'.toList_steps, h.toList_steps, ← List.append_assoc]
    rcases Nat.le_total (c.steps.toList ++ xs).length budget with le | le
    · rw [List.take_of_length_le le]
    · rw [List.take_append_of_le_length (by rw [List.length_take]; omega), List.take_take,
        List.take_append_of_le_length le, Nat.min_self]
  truncated := by
    rw [h'.truncated, h.truncated, h.size_eq, List.length_append, Bool.or_assoc,
      ← Bool.decide_or]
    congr 2
    exact propext (by omega)

/-- Once the budget is used up, nothing is added any more. -/
theorem skip {xs : List Step} (ys : List Step) (h : Holds budget c xs c')
    (clean : c.truncated = false) (full : c'.truncated = true) : Holds budget c (xs ++ ys) c' := by
  have beyond : budget < c.steps.size + xs.length := by
    simpa [h.truncated, clean] using full
  constructor
  · rw [h.toList_steps, ← List.append_assoc]
    symm
    apply List.take_append_of_le_length
    rw [List.length_append, Array.length_toList]
    omega
  · rw [full, List.length_append, eq_comm, Bool.or_eq_true, decide_eq_true_iff]
    exact Or.inr (by omega)

end Holds

theorem holds_emit (fits : c.steps.size ≤ budget) (step : Step) :
    Holds budget c [step] (c.emit budget step) := by
  unfold emit
  split_ifs with room
  · constructor
    · rw [Array.toList_push, List.take_of_length_le]
      rw [List.length_append, Array.length_toList]
      exact room
    · have : ¬ budget < c.steps.size + 1 := by omega
      simp [this]
  · constructor
    · rw [List.take_append_of_le_length (by rw [Array.length_toList]; omega),
        List.take_of_length_le (by rwa [Array.length_toList])]
    · have : budget < c.steps.size + 1 := by omega
      simp [this]

theorem holds_bracketed (fits : c.steps.size ≤ budget) (id : BlockId) (action : Step) :
    Holds budget c [.highlight id, action, .unhighlight id] (c.bracketed budget id action) := by
  have first := holds_emit fits (.highlight id)
  have second := holds_emit first.size_le action
  have third := holds_emit second.size_le (.unhighlight id)
  exact (first.trans second).trans third

/-- Copying writes the body out, the last copy as far as there is room for it. -/
theorem holds_copies (fits : c.steps.size ≤ budget) (body : Array Step) (times : ℕ) :
    Holds budget c (List.replicate times body.toList).flatten (c.copies budget body times) := by
  induction times generalizing c with
  | zero => exact Holds.nil fits
  | succ times ih =>
    rw [copies, List.replicate_succ, List.flatten_cons]
    split_ifs with short
    · have beyond : budget ≤ (c.steps.toList ++ body.toList).length := by
        rw [List.length_append, Array.length_toList, Array.length_toList]
        omega
      constructor
      · rw [← List.append_assoc, List.take_append_of_le_length beyond, Array.toList_append,
          Array.toList_extract, List.take_append, Array.length_toList,
          List.take_of_length_le (by rwa [Array.length_toList])]
        simp
      · rw [List.length_append, Array.length_toList, eq_comm, Bool.or_eq_true, decide_eq_true_iff]
        exact Or.inr (by omega)
    · have whole : Holds budget c body.toList { c with steps := c.steps ++ body } := by
        constructor
        · rw [Array.toList_append, List.take_of_length_le]
          rw [List.length_append, Array.length_toList, Array.length_toList]
          omega
        · have : ¬ budget < c.steps.size + body.size := by omega
          simp [this]
      exact whole.trans (ih whole.size_le)

/-- Steps that fit are kept, the others cut where the room ends. -/
theorem take_append_steps (fits : c.steps.size ≤ budget) (xs : List Step) :
    (c.steps.toList ++ xs).take budget = c.steps.toList ++ xs.take (budget - c.steps.size) := by
  rw [List.take_append, Array.length_toList,
    List.take_of_length_le (by rwa [Array.length_toList])]

/-- A body is compiled into the room that is left, and then copied. If it was cut there, so is its
first copy, and no other copy has any room. -/
theorem Holds.repeated {inner body : Compilation} {xs : List Step} {times : ℕ}
    (h : Holds (budget - c.steps.size) inner xs body) (fresh : inner.steps = #[])
    (innerClean : inner.truncated = false) (clean : c.truncated = false)
    (fits : c.steps.size ≤ budget) (pos : times ≠ 0) :
    Holds budget c (List.replicate times xs).flatten (c.repeated budget body times) := by
  have hbody : body.steps.toList = xs.take (budget - c.steps.size) := by
    rw [h.toList_steps, fresh, List.nil_append]
  have hcut : body.truncated = decide (budget - c.steps.size < xs.length) := by
    rw [h.truncated, innerClean, fresh, Array.size_empty, Nat.zero_add, Bool.false_or]
  obtain ⟨times, rfl⟩ := Nat.exists_eq_succ_of_ne_zero pos
  have copied : Holds budget { body with steps := c.steps }
      (List.replicate (times + 1) body.steps.toList).flatten
      (c.repeated budget body (times + 1)) := by
    unfold Compilation.repeated
    dsimp only
    split_ifs with none
    · rw [Array.isEmpty_iff.1 none, Array.toList_empty, List.flatten_replicate_nil]
      exact Holds.nil fits
    · exact holds_copies (c := { body with steps := c.steps }) fits body.steps (times + 1)
  by_cases cut : budget - c.steps.size < xs.length
  · -- The first copy fills the room, so it does not matter that the others are copies of less.
    constructor
    · rw [copied.toList_steps, take_append_steps fits, take_append_steps fits, hbody,
        List.replicate_succ, List.replicate_succ, List.flatten_cons, List.flatten_cons,
        List.take_append_of_le_length (by rw [List.length_take]; omega), List.take_take,
        Nat.min_self, List.take_append_of_le_length (by omega)]
    · rw [copied.truncated, hcut, decide_eq_true cut, Bool.true_or, clean, Bool.false_or,
        List.replicate_succ, List.flatten_cons, List.length_append, eq_comm, decide_eq_true_iff]
      omega
  · rw [List.take_of_length_le (by omega)] at hbody
    rw [hbody] at copied
    refine copied.of_eq rfl ?_
    rw [clean, hcut, decide_eq_false cut]

/-- A tree adds the steps of its root, if its body adds its own. -/
theorem holds_node {block : Block} {cut : Bool} {trees : List Tree} {xs : List Step}
    (clean : c.truncated = false) (fits : c.steps.size ≤ budget)
    (body : ∀ budget (c : Compilation), c.truncated = false → c.steps.size ≤ budget →
      Holds budget c xs (compileAll budget c trees)) :
    Holds budget c (block.expand xs) ((Tree.node block cut trees).compile budget c) := by
  unfold Block.expand Tree.compile
  cases block.kind with
  | start =>
    have marked := body budget { c with tooDeep := c.tooDeep || cut } clean fits
    exact marked.of_eq rfl rfl
  | move direction =>
    dsimp only
    split_ifs
    · have marked := holds_bracketed (c := { c with unknown := block.id :: c.unknown }) fits
      exact (marked block.id (.move _)).of_eq rfl rfl
    · exact holds_bracketed fits _ _
  | fill color => exact holds_bracketed fits _ _
  | repetition times =>
    simp only [← repeatCount_eq]
    split_ifs with zero
    · rw [zero, List.replicate_zero, List.flatten_nil]
      exact Holds.nil fits
    · have marked := body (budget - c.steps.size)
        { c with steps := #[], tooDeep := c.tooDeep || cut } clean (Nat.zero_le _)
      exact marked.repeated rfl clean clean fits zero

theorem compileAll_of_truncated (trees : List Tree) (full : c.truncated = true) :
    compileAll budget c trees = c := by
  cases trees <;> simp [compileAll, full]

theorem holds_list {levels : ℕ} {trees : List Tree}
    (tree : ∀ budget (c : Compilation) (tree : Tree), c.truncated = false → c.steps.size ≤ budget →
      Holds budget c (tree.flatten levels) ((tree.prune levels).compile budget c))
    (clean : c.truncated = false) (fits : c.steps.size ≤ budget) :
    Holds budget c (trees.flatMap (Tree.flatten levels))
      (compileAll budget c (trees.map (Tree.prune levels))) := by
  induction trees generalizing c with
  | nil => exact Holds.nil fits
  | cons t trees ih =>
    have first := tree budget c t clean fits
    rw [List.map_cons, compileAll, clean, if_neg Bool.false_ne_true, List.flatMap_cons]
    cases full : ((t.prune levels).compile budget c).truncated with
    | false => exact first.trans (ih full first.size_le)
    | true =>
      rw [compileAll_of_truncated _ full]
      exact first.skip _ clean full

/-- Compiling a tree gives its flattening, as far as the budget goes. -/
theorem holds_tree (levels budget : ℕ) (c : Compilation) (tree : Tree)
    (clean : c.truncated = false) (fits : c.steps.size ≤ budget) :
    Holds budget c (tree.flatten levels) ((tree.prune levels).compile budget c) := by
  induction levels generalizing budget c tree with
  | zero => exact holds_node clean fits fun _ _ _ fits => Holds.nil fits
  | succ levels ih => exact holds_node clean fits fun _ _ clean fits => holds_list ih clean fits

/-- Compiling a list of trees gives their flattenings, as far as the budget goes. -/
theorem holds_forest (levels : ℕ) (trees : List Tree) (clean : c.truncated = false)
    (fits : c.steps.size ≤ budget) :
    Holds budget c (trees.flatMap (Tree.flatten levels))
      (compileAll budget c (trees.map (Tree.prune levels))) :=
  holds_list (holds_tree levels) clean fits

/-! ### Checked subtractions -/

/-- The room that is left, if the budget is not overdrawn. -/
def room? (c : Compilation) (budget : ℕ) : Option ℕ :=
  if c.steps.size ≤ budget then some (budget - c.steps.size) else none

/-- `copies`, failing where a subtraction would fall below zero. -/
def copiesChecked (c : Compilation) (budget : ℕ) (body : Array Step) :
    (times : ℕ) → Option Compilation
  | 0 => some c
  | times + 1 => do
    let room ← c.room? budget
    if room < body.size then
      return { c with steps := c.steps ++ body.extract 0 room, truncated := true }
    else
      copiesChecked { c with steps := c.steps ++ body } budget body times

/-- `repeated`, failing where a subtraction would fall below zero. -/
def repeatedChecked (c : Compilation) (budget : ℕ) (body : Compilation) (times : ℕ) :
    Option Compilation :=
  let c := { body with steps := c.steps }
  if body.steps.isEmpty then some c else c.copiesChecked budget body.steps times

theorem room?_eq (fits : c.steps.size ≤ budget) : c.room? budget = some (budget - c.steps.size) :=
  if_pos fits

theorem copiesChecked_eq (fits : c.steps.size ≤ budget) (body : Array Step) (times : ℕ) :
    c.copiesChecked budget body times = some (c.copies budget body times) := by
  induction times generalizing c with
  | zero => rfl
  | succ times ih =>
    rw [copiesChecked, room?_eq fits, Option.bind_eq_bind, Option.bind_some, copies]
    split_ifs with short
    · rfl
    · refine ih ?_
      rw [Array.size_append]
      omega

theorem repeatedChecked_eq (fits : c.steps.size ≤ budget) (body : Compilation) (times : ℕ) :
    c.repeatedChecked budget body times = some (c.repeated budget body times) := by
  unfold repeatedChecked repeated
  dsimp only
  split_ifs
  · rfl
  · exact copiesChecked_eq (c := { body with steps := c.steps }) fits body.steps times

theorem size_repeated_le (fits : c.steps.size ≤ budget) (body : Compilation) (times : ℕ) :
    (c.repeated budget body times).steps.size ≤ budget := by
  unfold repeated
  dsimp only
  split_ifs
  · exact fits
  · exact (holds_copies (c := { body with steps := c.steps }) fits body.steps times).size_le

end Compilation

mutual

/-- `Tree.compile`, failing where a subtraction would fall below zero. -/
def Tree.compileChecked (budget : ℕ) (c : Compilation) : Tree → Option Compilation
  | .node block cut body =>
    match block.kind with
    | .repetition times =>
      if repeatCount times = 0 then some c
      else do
        let inner := { c with steps := #[], tooDeep := c.tooDeep || cut }
        let compiled ← compileAllChecked (← c.room? budget) inner body
        c.repeatedChecked budget compiled (repeatCount times)
    | .start => compileAllChecked budget { c with tooDeep := c.tooDeep || cut } body
    | .move _ | .fill _ => some ((Tree.node block cut body).compile budget c)

/-- `compileAll`, failing where a subtraction would fall below zero. -/
def compileAllChecked (budget : ℕ) (c : Compilation) : List Tree → Option Compilation
  | [] => some c
  | tree :: trees =>
    if c.truncated then some c
    else (tree.compileChecked budget c).bind fun c => compileAllChecked budget c trees

end

mutual

theorem Tree.compileChecked_eq (budget : ℕ) {c : Compilation} (tree : Tree)
    (fits : c.steps.size ≤ budget) :
    tree.compileChecked budget c = some (tree.compile budget c) ∧
      (tree.compile budget c).steps.size ≤ budget := by
  cases tree with
  | node block cut body =>
    unfold Tree.compileChecked Tree.compile
    cases block.kind with
    | start =>
      exact compileAllChecked_eq budget (c := { c with tooDeep := c.tooDeep || cut }) body fits
    | move direction =>
      dsimp only
      split_ifs
      · have bracketed := Compilation.holds_bracketed
          (c := { c with unknown := block.id :: c.unknown }) fits
        exact ⟨rfl, (bracketed block.id (.move _)).size_le⟩
      · exact ⟨rfl, (Compilation.holds_bracketed fits _ _).size_le⟩
    | fill color => exact ⟨rfl, (Compilation.holds_bracketed fits _ _).size_le⟩
    | repetition times =>
      dsimp only
      split_ifs
      · exact ⟨rfl, fits⟩
      · have inner := (compileAllChecked_eq (budget - c.steps.size)
          (c := { c with steps := #[], tooDeep := c.tooDeep || cut }) body (Nat.zero_le _)).1
        rw [Compilation.room?_eq fits, Option.bind_eq_bind, Option.bind_some, inner]
        exact ⟨Compilation.repeatedChecked_eq fits _ _, Compilation.size_repeated_le fits _ _⟩

theorem compileAllChecked_eq (budget : ℕ) {c : Compilation} (trees : List Tree)
    (fits : c.steps.size ≤ budget) :
    compileAllChecked budget c trees = some (compileAll budget c trees) ∧
      (compileAll budget c trees).steps.size ≤ budget := by
  cases trees with
  | nil => exact ⟨rfl, fits⟩
  | cons tree trees =>
    rw [compileAllChecked, compileAll]
    split_ifs
    · exact ⟨rfl, fits⟩
    · obtain ⟨eq, fits⟩ := tree.compileChecked_eq budget fits
      rw [eq, Option.bind_some]
      exact compileAllChecked_eq budget trees fits

end

/-! ### The reports -/

namespace Compilation

theorem truncated_text_ne_unknown (id : BlockId) :
    s!"program truncated at {maxSteps} steps" ≠
      s!"move block '{id}' has an unknown direction" := by
  intro eq
  have first := congrArg (fun text => text.toList.head?) eq
  simp [toString] at first

theorem truncated_text_ne_tooDeep :
    s!"program truncated at {maxSteps} steps" ≠
      s!"blocks nested deeper than {maxDepth} levels were skipped" := by
  decide

/-- The report of a truncation is about nothing else. -/
theorem truncated_mem_records_iff (c : Compilation) :
    ⟨.warn, .compiler, s!"program truncated at {maxSteps} steps"⟩ ∈ c.records ↔
      c.truncated = true := by
  simp only [records, List.mem_append, List.mem_map]
  constructor
  · rintro ((⟨id, -, eq⟩ | cut) | deep)
    · exact absurd (congrArg Record.text eq).symm (truncated_text_ne_unknown id)
    · by_contra clean
      rw [if_neg clean] at cut
      exact List.not_mem_nil cut
    · split_ifs at deep
      · have eq := congrArg Record.text (List.mem_singleton.1 deep)
        exact absurd eq truncated_text_ne_tooDeep
      · cases deep
  · intro cut
    rw [if_pos cut]
    exact Or.inl (Or.inr (List.mem_singleton_self _))

end Compilation

namespace Workspace

variable {ws : Workspace}

/-- `compile?`, failing where a subtraction would fall below zero. -/
def compileChecked? (ws : Workspace) : Option (Option Compilation) :=
  ws.start?.map fun start => compileAllChecked maxSteps {} (ws.forest maxDepth start.body)

theorem exists_compile {start : Block} (hs : ws.start? = some start) :
    ∃ c, ws.compile? = some c :=
  ⟨_, by rw [compile?, hs, Option.map_some]⟩

/-- Compiling holds the flattening of the start block's body. -/
theorem Coherent.compile_holds (c : ws.Coherent) {start : Block} {trees : List Tree}
    (hs : ws.start? = some start) (unfolds : ws.Unfolds start.body trees) :
    ∃ compiled, ws.compile? = some compiled ∧
      Compilation.Holds maxSteps {} (trees.flatMap (Tree.flatten maxDepth)) compiled := by
  refine ⟨_, by rw [compile?, hs, Option.map_some], ?_⟩
  rw [unfolds.forest_eq c]
  exact Compilation.holds_forest maxDepth trees rfl (Nat.zero_le maxSteps)

/-- Compiling gives the first `maxSteps` steps of the flattening of the start block's body. That the
program was truncated is reported exactly if there are more, and no subtraction falls below zero on
the way. -/
theorem Reachable.compile_eq_take (h : ws.Reachable) {start : Block}
    (hs : ws.start? = some start) :
    ∃ trees c, ws.Unfolds start.body trees ∧ ws.compile? = some c ∧
      c.steps.toList = (trees.flatMap (Tree.flatten maxDepth)).take maxSteps ∧
      (⟨.warn, .compiler, s!"program truncated at {maxSteps} steps"⟩ ∈ c.records ↔
        maxSteps < (trees.flatMap (Tree.flatten maxDepth)).length) ∧
      ws.compileChecked? = some (some c) := by
  have coherent := h.coherent
  obtain ⟨trees, unfolds⟩ := coherent.exists_start_body hs
  obtain ⟨c, compiled, holds⟩ := coherent.compile_holds hs unfolds
  refine ⟨trees, c, unfolds, compiled, ?_, ?_, ?_⟩
  · rw [holds.toList_steps, List.nil_append]
  · rw [Compilation.truncated_mem_records_iff, holds.truncated, Bool.false_or,
      decide_eq_true_iff, Array.size_empty, Nat.zero_add]
  · have checked := compileAllChecked_eq maxSteps (c := {}) (ws.forest maxDepth start.body)
      (Nat.zero_le _)
    rw [compile?, hs, Option.map_some, Option.some.injEq] at compiled
    rw [compileChecked?, hs, Option.map_some, checked.1, compiled]

/-- A program that paints its cell red, more often than a repeat block allows. -/
def painter : Workspace :=
  new.run [.insert "loop" (.repetition 300), .insert "paint" (.fill "red"),
    .append "loop" "paint", .append "blk0" "loop"]

theorem painter_eq :
    painter = (((new.place { id := "loop", kind := .repetition 300 }).place
      { id := "paint", kind := .fill "red" }).attach "loop" .body "paint").attach
        "blk0" .body "loop" := by
  simp only [painter, run, List.foldl_cons, List.foldl_nil]
  rw [apply_insert "loop" _ (by simp [new_eq, get?_place]),
    apply_insert "paint" _ (by simp [new_eq, get?_place])]
  rw [apply_append (b := { id := "loop", kind := .repetition 300 }) (by simp [get?_place]) rfl rfl
    rfl (by simp [Attachable, get?_place])]
  rw [apply_append (b := { id := "blk0", kind := .start })
    (by simp [new_eq, get?_attach, get?_place]) rfl rfl rfl
    (by simp [Attachable, get?_attach, get?_place, mem_top_attach, Block.retarget])]

theorem top_painter : painter.top = ["blk0"] := by
  simp [painter_eq, new_eq, top_attach]

theorem get?_painter_start :
    painter.get? "blk0" = some { id := "blk0", kind := .start, body := some "loop" } := by
  simp [painter_eq, new_eq, get?_attach, get?_place, Block.retarget]

theorem get?_painter_loop : painter.get? "loop" =
    some { id := "loop", kind := .repetition 300, body := some "paint" } := by
  simp [painter_eq, get?_attach, get?_place, Block.retarget]

theorem get?_painter_paint :
    painter.get? "paint" = some { id := "paint", kind := .fill "red" } := by
  simp [painter_eq, get?_attach, get?_place]

theorem start?_painter :
    painter.start? = some { id := "blk0", kind := .start, body := some "loop" } := by
  simp [start?, topBlocks, top_painter, get?_painter_start]

/-- The tree of the repeat block. -/
def painterTree : Tree :=
  .node { id := "loop", kind := .repetition 300, body := some "paint" } false
    [.node { id := "paint", kind := .fill "red" } false []]

theorem unfolds_painter : painter.Unfolds (some "loop") [painterTree] :=
  .cons get?_painter_loop (.cons get?_painter_paint .nil .nil) .nil

theorem flatten_painterTree (levels : ℕ) :
    painterTree.flatten (levels + 1) = (List.replicate 200
      [.highlight "paint", .fill "red", .unhighlight "paint"]).flatten := by
  cases levels <;> rfl

theorem exists_compile_painter : ∃ c, painter.compile? = some c ∧
    c.steps.toList =
      (List.replicate 200 [.highlight "paint", .fill "red", .unhighlight "paint"]).flatten := by
  have coherent : painter.Coherent := Reachable.coherent ⟨_, Or.inr rfl⟩
  obtain ⟨c, compiled, holds⟩ := coherent.compile_holds start?_painter unfolds_painter
  have steps := holds.toList_steps
  rw [List.nil_append, List.flatMap_singleton, maxDepth, flatten_painterTree 63] at steps
  refine ⟨c, compiled, steps.trans (List.take_of_length_le ?_)⟩
  rw [List.length_flatten, List.map_replicate, List.sum_replicate]
  decide

theorem Reachable.compile_eq_take_painter :
    painter.Reachable ∧ ∃ c, painter.compile? = some c ∧
      c.steps.toList = (List.replicate 200
        [.highlight "paint", .fill "red", .unhighlight "paint"]).flatten := by
  have reachable : painter.Reachable := ⟨_, Or.inr rfl⟩
  obtain ⟨trees, c, unfolds, compiled, steps, -⟩ := reachable.compile_eq_take start?_painter
  rw [unfolds.unique unfolds_painter, List.flatMap_singleton, maxDepth,
    flatten_painterTree 63] at steps
  refine ⟨reachable, c, compiled, steps.trans (List.take_of_length_le ?_)⟩
  rw [List.length_flatten, List.map_replicate, List.sum_replicate]
  decide

end Workspace

end BlockBoard
