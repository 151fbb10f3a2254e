import BlockBoard.Proofs.Pane.Outline
import BlockBoard.Proofs.Program.Elsewhere

/-!
# What the outline lists

A stack is drawn block by block, each block before its body and the body one level further in
(`Draws`). The outline draws the stack of the first start block, and below one separator all other
stacks in their order. So it has one row for each block that is reached from the top level and does
not lie too deep, and these are the blocks that a save writes (`Reachable.outline_lists`).
-/

namespace BlockBoard

open Workspace

namespace Workspace

variable {ws : Workspace}

/-- The rows of the blocks from a given one on, which lie a number of bodies below their stack: a
block, then its body one level further in, and then the blocks that follow it. What lies too deep is
not drawn. -/
inductive Draws (ws : Workspace) (detached : Bool) :
    ℕ → Option BlockId → List OutlineRow → Prop
  | nil {depth : ℕ} : ws.Draws detached depth none []
  | deep {depth : ℕ} {first : Option BlockId} : maxDepth < depth → ws.Draws detached depth first []
  | cons {depth : ℕ} {k : BlockId} {b : Block} {inside behind : List OutlineRow} :
      depth ≤ maxDepth → ws.get? k = some b → ws.Draws detached (depth + 1) b.body inside →
      ws.Draws detached depth b.next behind →
      ws.Draws detached depth (some k) (.block depth detached b :: (inside ++ behind))

variable {detached : Bool} {depth : ℕ} {first : Option BlockId}

/-- There is one way only to draw a list of blocks. -/
theorem Draws.unique {rows rows' : List OutlineRow} (h : ws.Draws detached depth first rows)
    (h' : ws.Draws detached depth first rows') : rows = rows' := by
  induction h generalizing rows' with
  | nil => cases h' <;> rfl
  | deep deep =>
    cases h' with
    | nil | deep => rfl
    | cons le => exact absurd deep (Nat.not_lt.2 le)
  | cons le hk _ _ ihInside ihBehind =>
    cases h' with
    | deep deep => exact absurd deep (Nat.not_lt.2 le)
    | cons _ hk' inside behind =>
      obtain rfl := Option.some.inj (hk.symm.trans hk')
      rw [ihInside inside, ihBehind behind]

/-- Trees that are pruned to the levels that are left give the rows that are drawn. -/
theorem Unfolds.draws {trees : List Tree} (h : ws.Unfolds first trees) (detached : Bool)
    {n levels : ℕ} (left : n + levels = maxDepth) :
    ws.Draws detached n first (listOutline detached n (trees.map (Tree.prune levels))) := by
  induction h generalizing n levels with
  | nil => exact .nil
  | @cons k b body rest hk _ _ ihBody ihRest =>
    rw [List.map_cons, listOutline]
    cases levels with
    | zero =>
      have inside : ws.Draws detached (n + 1) b.body [] := .deep (by omega)
      exact .cons (by omega) hk inside (ihRest left)
    | succ levels => exact .cons (by omega) hk (ihBody (by omega)) (ihRest left)

end Workspace

/-! ### What is saved -/

/-- What a save says of a row, if it is that of a block: how many bodies the block lies below its
stack, its new name, and its type. -/
def OutlineRow.saved? (ρ : BlockId → BlockId) : OutlineRow → Option (ℕ × BlockId × Kind)
  | .separator => none
  | .block depth _ b => some (depth, ρ b.id, b.kind)

/-- The same of an entry of a document. -/
def Entry.saved (u : Entry) : ℕ × BlockId × Kind :=
  (u.depth, u.id, u.kind)

/-- Nodes that stand for trees say what the rows of the trees do. -/
theorem Saves.map_saved {ρ : BlockId → BlockId} {nodes : List Node} {trees : List Tree}
    (h : Saves ρ nodes trees) (detached first : Bool) (depth : ℕ) :
    (listEntries depth first nodes).map Entry.saved =
      (listOutline detached depth trees).filterMap (OutlineRow.saved? ρ) := by
  induction h generalizing depth first with
  | nil => rfl
  | @cons node nodes b cut body trees id kind _ _ ihBody ihRest =>
    rw [listEntries_cons, List.map_cons, List.map_append, ihBody, ihRest, listOutline, Tree.outline,
      List.cons_append, List.filterMap_cons, List.filterMap_append, Entry.saved, id, kind]
    rfl

/-! ### Lines -/

/-- The line is that above the stacks that never run. -/
def Line.isSeparator (l : Line) : Bool :=
  l.spans.map Span.text = ["── not connected ──"]

/-- The number of blanks between the arrow of a line, or the place for it, and its text. -/
def Line.indent (l : Line) : ℕ :=
  (l.spans[1]?.map fun span => span.text.length).getD 0

theorem OutlineRow.isSeparator_line (row : OutlineRow) (highlighted : Option BlockId) :
    (row.line highlighted).isSeparator = row.id?.isNone := by
  cases row <;> simp [line, Line.isSeparator, id?]

theorem OutlineRow.indent_line (depth : ℕ) (detached : Bool) (b : Block)
    (highlighted : Option BlockId) :
    ((block depth detached b).line highlighted).indent = 2 * depth := by
  simp [line, Line.indent]

namespace Workspace

variable {ws : Workspace}

namespace Coherent

variable (c : ws.Coherent)
include c

theorem draws_stackOutline {t : BlockId} (ht : t ∈ ws.top) (detached : Bool) :
    ws.Draws detached 0 (some t) (ws.stackOutline detached t) := by
  obtain ⟨trees, unfolds⟩ := c.exists_unfolds ht
  rw [stackOutline, unfolds.forest_eq c]
  exact unfolds.draws detached (Nat.zero_add _)

/-- A save keeps what is reached and does not lie too deep. -/
theorem mem_keptIds_iff {k : BlockId} : k ∈ ws.keptIds ↔ ∃ n, ws.Lies n k ∧ n ≤ maxDepth := by
  obtain ⟨trees, unfolds, -⟩ := c.exists_stacks
  rw [keptIds, c.stackTrees_eq unfolds, List.flatMap_map, List.mem_flatMap]
  constructor
  · rintro ⟨t, ht, hk⟩
    obtain ⟨n, lies, -, high⟩ := (unfolds t ht).exists_lies_of_mem_prune c (lies_of_mem_top ht) hk
    exact ⟨n, lies, by omega⟩
  · rintro ⟨n, lies, le⟩
    obtain ⟨t, ht, reach⟩ := exists_lies_iff.1 ⟨n, lies⟩
    have hk := ((unfolds t ht).mem_ids_iff_reach c).2 reach
    exact ⟨t, ht, (unfolds t ht).mem_prune_of_lies c (lies_of_mem_top ht) hk lies (by omega)⟩

theorem mem_keptIds_iff_of_lies {n : ℕ} {k : BlockId} (lies : ws.Lies n k) :
    k ∈ ws.keptIds ↔ n ≤ maxDepth := by
  rw [c.mem_keptIds_iff]
  constructor
  · rintro ⟨m, lies', le⟩
    rwa [c.lies_unique lies lies']
  · exact fun le => ⟨n, lies, le⟩

/-- The rows of each stack say what the nodes do that a save writes for it. -/
theorem forall₂_saved (stamp : String) (board : Board) (detached : BlockId → Bool) :
    List.Forall₂ (fun t nodes => (listEntries 0 true nodes).map Entry.saved =
        (ws.stackOutline (detached t) t).filterMap
          (OutlineRow.saved? (savedNames stamp ws.keptIds)))
      ws.top (Document.ofWorkspace stamp ws board).blocks := by
  have saves := (c.saves stamp board).flip
  have trees : ws.stackTrees = ws.top.map fun t => ws.forest maxDepth (some t) := by
    rw [stackTrees, ← c.map_id_topBlocks, List.map_map]
    rfl
  rw [trees, List.forall₂_map_left_iff] at saves
  exact saves.imp fun t nodes saves => saves.map_saved (detached t) true 0

/-- In the outline, the names of the stacks are those of the top level. -/
theorem outline_eq_of_rows {rows : BlockId → List OutlineRow}
    (attached : ∀ start, ws.start? = some start → rows start.id = ws.stackOutline false start.id)
    (others : ∀ t ∈ ws.top.filter fun t => some t ≠ ws.start?.map Block.id,
      rows t = ws.stackOutline true t) :
    ws.outline = (ws.start?.map Block.id).toList.flatMap rows ++
      if (ws.top.filter fun t => some t ≠ ws.start?.map Block.id) = [] then []
      else .separator :: (ws.top.filter fun t => some t ≠ ws.start?.map Block.id).flatMap rows := by
  have front : (ws.start?.toList.flatMap fun b => ws.stackOutline false b.id) =
      (ws.start?.map Block.id).toList.flatMap rows := by
    cases hs : ws.start? with
    | none => rfl
    | some start => simp [attached start hs]
  rw [outline_eq, front, List.flatMap_congr others, ← c.map_id_others, List.flatMap_map]
  simp only [List.map_eq_nil_iff]

end Coherent

theorem countP_isNone_stackOutline (ws : Workspace) (detached : Bool) (t : BlockId) :
    (ws.stackOutline detached t).countP (fun row => row.id?.isNone) = 0 := by
  refine List.countP_eq_zero.2 fun row hr none => ?_
  have shown := List.mem_map_of_mem (f := OutlineRow.id?) hr
  rw [stackOutline, map_listOutline, Option.isNone_iff_eq_none.1 none] at shown
  obtain ⟨k, -, some⟩ := List.mem_map.1 shown
  cases some

/-- There is one separator, or none if there are no other stacks. -/
theorem countP_isSeparator (ws : Workspace) (highlighted : Option BlockId) :
    (ws.outlineLines highlighted).countP Line.isSeparator = if ws.others = [] then 0 else 1 := by
  have none (detached : Bool) (blocks : List Block) :
      (blocks.flatMap fun b => ws.stackOutline detached b.id).countP (fun row => row.id?.isNone) =
        0 := by
    rw [List.countP_flatMap]
    simp [Function.comp_def, countP_isNone_stackOutline]
  simp only [outlineLines, List.countP_map, Function.comp_def, OutlineRow.isSeparator_line]
  rw [outline_eq, List.countP_append, none, Nat.zero_add]
  split_ifs
  · rfl
  · rw [List.countP_cons, none]
    rfl

/-- The line of a block is that of its row, since it has no other. -/
theorem Coherent.currentLine?_eq_some_iff (c : ws.Coherent) {highlighted : Option BlockId} {i : ℕ} :
    ws.currentLine? highlighted = some i ↔
      ∃ row k, highlighted = some k ∧ ws.outline[i]? = some row ∧ row.id? = some k := by
  constructor
  · intro current
    obtain ⟨lt, found, -⟩ := List.findIdx?_eq_some_iff_getElem.1 current
    cases highlighted with
    | none => cases hr : ws.outline[i] <;> simp [hr, OutlineRow.isBlock] at found
    | some k =>
      exact ⟨_, k, rfl, List.getElem?_eq_getElem lt, OutlineRow.isBlock_iff.1 found⟩
  · rintro ⟨row, k, rfl, hi, shows⟩
    exact OutlineRow.findIdx?_of_row c.nodup_rows hi shows

/-- A block that a save keeps has one row, and no other block has one. -/
theorem Coherent.count_rows (c : ws.Coherent) (k : BlockId) :
    (ws.outline.filterMap OutlineRow.id?).count k = if k ∈ ws.keptIds then 1 else 0 := by
  simp only [c.nodup_rows.count, c.perm_outline.mem_iff]

/-- The line of a row is indented by its depth, and then shows the kind of the block. -/
theorem exists_line_of_row {i depth : ℕ} {detached : Bool} {b : Block}
    (hi : ws.outline[i]? = some (.block depth detached b)) (highlighted : Option BlockId) :
    ∃ l : Line, (ws.outlineLines highlighted)[i]? = some l ∧ l.indent = 2 * depth ∧
      l.spans.drop 2 = b.kind.spans := by
  refine ⟨(OutlineRow.block depth detached b).line highlighted, ?_,
    OutlineRow.indent_line depth detached b highlighted, rfl⟩
  rw [outlineLines, List.getElem?_map, hi]
  rfl

/-- The outline draws the stack of the first start block, and then all other stacks in order, below
one separator if there are any. A block that lies at most `maxDepth` bodies below the top level has
one row, and no other block has one. Each row has a line, which is indented by two blanks for each
body that its block lies in; the line of the running block is the one that is found. The blocks that
are drawn of a stack are those that a save writes for it, in the same order and at the same depth,
under new names. -/
theorem Reachable.outline_lists (h : ws.Reachable) (highlighted : Option BlockId) (stamp : String)
    (board : Board) :
    ∃ (rows : BlockId → List OutlineRow) (ρ : BlockId → BlockId),
      let first := ws.start?.map Block.id
      let others := ws.top.filter fun t => some t ≠ first
      (∀ t ∈ ws.top, ws.Draws (some t ≠ first) 0 (some t) (rows t)) ∧
      ws.outline = first.toList.flatMap rows ++
        (if others = [] then [] else .separator :: others.flatMap rows) ∧
      (ws.outlineLines highlighted).countP Line.isSeparator = (if others = [] then 0 else 1) ∧
      (∀ n k, ws.Lies n k →
        (ws.outline.filterMap OutlineRow.id?).count k = if n ≤ maxDepth then 1 else 0) ∧
      (∀ k, (∀ n, ¬ ws.Lies n k) → (ws.outline.filterMap OutlineRow.id?).count k = 0) ∧
      (ws.outlineLines highlighted).length = ws.outline.length ∧
      (∀ (i depth : ℕ) detached b, ws.outline[i]? = some (.block depth detached b) →
        ∃ l : Line, (ws.outlineLines highlighted)[i]? = some l ∧ l.indent = 2 * depth ∧
          l.spans.drop 2 = b.kind.spans) ∧
      (∀ i, ws.currentLine? highlighted = some i ↔
        ∃ row k, highlighted = some k ∧ ws.outline[i]? = some row ∧ row.id? = some k) ∧
      Set.InjOn ρ {k | k ∈ ws.outline.filterMap OutlineRow.id?} ∧
      List.Forall₂ (fun t nodes => (listEntries 0 true nodes).map Entry.saved =
          (rows t).filterMap (OutlineRow.saved? ρ))
        ws.top (Document.ofWorkspace stamp ws board).blocks := by
  have c := h.coherent
  let detached (t : BlockId) : Bool := some t ≠ ws.start?.map Block.id
  refine ⟨fun t => ws.stackOutline (detached t) t, savedNames stamp ws.keptIds,
    fun t ht => c.draws_stackOutline ht _, ?_, ?_, fun n k lies => ?_, fun k unreached => ?_,
    List.length_map _, fun i depth detached b hi => exists_line_of_row hi highlighted,
    fun i => c.currentLine?_eq_some_iff, fun k hk _ _ same => ?_,
    c.forall₂_saved stamp board detached⟩
  · refine c.outline_eq_of_rows (fun start hs => ?_) fun t ht => ?_
    · simp [detached, hs]
    · simp only [detached, (List.mem_filter.1 ht).2]
  · simp only [ws.countP_isSeparator, ← c.map_id_others, List.map_eq_nil_iff]
  · simp only [c.count_rows, c.mem_keptIds_iff_of_lies lies]
  · rw [c.count_rows, if_neg fun hk => ?_]
    obtain ⟨n, lies, -⟩ := c.mem_keptIds_iff.1 hk
    exact unreached n lies
  · exact savedNames_inj (c.perm_outline.mem_iff.1 hk) same

/-- The program of `repainter`, and below it the block that is not connected. -/
theorem Reachable.outline_lists_repainter :
    repainter.Reachable ∧
      repainter.outline =
        [.block 0 false { id := "begin", kind := .start, body := some "loop" },
          .block 1 false { id := "loop", kind := .repetition 300, body := some "paint" },
          .block 2 false { id := "paint", kind := .fill "red" },
          .separator,
          .block 0 true { id := "stray", kind := .fill "blue" }] ∧
      (repainter.outlineLines (some "paint")).countP Line.isSeparator = 1 ∧
      repainter.currentLine? (some "paint") = some 2 := by
  have reachable : repainter.Reachable := ⟨_, Or.inl rfl⟩
  have loop := (get?_repainter "loop" (by decide)).trans get?_painter_loop
  have paint := (get?_repainter "paint" (by decide)).trans get?_painter_paint
  obtain ⟨rows, -, draws, outline, separators, -, -, -, -, current, -⟩ :=
    reachable.outline_lists (some "paint") "" Board.standard
  simp only [start?_repainter, top_repainter, Option.map_some] at draws outline separators
  have begin : rows "begin" = _ := (draws "begin" (by simp)).unique <|
    .cons (Nat.zero_le _) get?_repainter_begin
      (.cons (by decide) loop (.cons (by decide) paint .nil .nil) .nil) .nil
  have stray : rows "stray" = _ := (draws "stray" (by simp)).unique <|
    .cons (Nat.zero_le _) get?_repainter_stray .nil .nil
  have drawn : repainter.outline = _ := outline
  have others : (["stray", "begin"].filter fun t => some t ≠ some "begin") = ["stray"] := by decide
  rw [Option.toList_some, List.flatMap_singleton, begin, others, if_neg (by decide),
    List.flatMap_singleton, stray] at drawn
  have shown : repainter.outline[2]? =
      some (.block 2 false { id := "paint", kind := .fill "red" }) := by
    rw [drawn]
    rfl
  exact ⟨reachable, drawn, separators, (current 2).2 ⟨_, "paint", rfl, shown, rfl⟩⟩

end Workspace

end BlockBoard
