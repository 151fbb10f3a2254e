import BlockBoard.Pane.Outline
import BlockBoard.Proofs.Project.Rebuild

/-!
# What the outline shows of a program

The outline has one row for each block that a save keeps (`Coherent.perm_outline`), and these lie at
most `maxDepth` bodies below the top level. A program has `maxDepth` levels below the body of the
start block, and that body is a level of its own below the top level. So a block that runs has its
row, and the marks of the running block are on that row only, unless it lies at the last level of
the program: then no row is marked (`Reachable.outline_follows_program`).
-/

namespace BlockBoard

open Workspace

/-! ### Rows of blocks -/

namespace OutlineRow

/-- The name of the block that a row shows. -/
def id? : OutlineRow → Option BlockId
  | separator => none
  | block _ _ b => some b.id

theorem isBlock_iff {row : OutlineRow} {id : BlockId} :
    row.isBlock (some id) ↔ row.id? = some id := by
  cases row <;> simp [isBlock, id?]

/-- If no block has two rows, a row is found by the name of its block. -/
theorem index_unique {rows : List OutlineRow} (nodup : (rows.filterMap id?).Nodup) {i j : ℕ}
    {row row' : OutlineRow} (hi : rows[i]? = some row) (hj : rows[j]? = some row') {id : BlockId}
    (shows : row.id? = some id) (shows' : row'.id? = some id) : i = j := by
  rw [List.Nodup, List.pairwise_filterMap, List.pairwise_iff_getElem] at nodup
  obtain ⟨lti, rfl⟩ := List.getElem?_eq_some_iff.1 hi
  obtain ⟨ltj, rfl⟩ := List.getElem?_eq_some_iff.1 hj
  rcases Nat.lt_trichotomy i j with lt | rfl | lt
  · exact absurd rfl (nodup i j lti ltj lt id shows id shows')
  · rfl
  · exact absurd rfl (nodup j i ltj lti lt id shows' id shows)

end OutlineRow

mutual

theorem Tree.map_outline (detached : Bool) (depth : ℕ) (tree : Tree) :
    (tree.outline detached depth).map OutlineRow.id? = (tree.blocks.map Block.id).map some := by
  cases tree with
  | node block cut body =>
    rw [Tree.outline, List.map_cons, map_listOutline, Tree.blocks]
    rfl

/-- The rows of trees show their blocks. -/
theorem map_listOutline (detached : Bool) (depth : ℕ) (trees : List Tree) :
    (listOutline detached depth trees).map OutlineRow.id? = (listIds trees).map some := by
  cases trees with
  | nil => rfl
  | cons tree trees =>
    rw [listOutline, List.map_append, Tree.map_outline, map_listOutline, listIds, listIds,
      listBlocks, List.map_append, List.map_append]

end

theorem filterMap_listOutline (detached : Bool) (depth : ℕ) (trees : List Tree) :
    (listOutline detached depth trees).filterMap OutlineRow.id? = listIds trees := by
  have shown := congrArg (List.filterMap id) (map_listOutline detached depth trees)
  rwa [List.filterMap_map, List.filterMap_map, Function.id_comp, Function.id_comp,
    List.filterMap_some] at shown

theorem mem_listIds_map_prune_cons {levels : ℕ} {tree : Tree} {trees : List Tree} {k : BlockId} :
    k ∈ listIds ((tree :: trees).map (Tree.prune levels)) ↔
      k = tree.block.id ∨
        (∃ n, levels = n + 1 ∧ k ∈ listIds (tree.body.map (Tree.prune n))) ∨
        k ∈ listIds (trees.map (Tree.prune levels)) := by
  cases levels <;> simp [Tree.prune, listIds_cons]

/-! ### The marks of the running block -/

namespace Line

/-- The line begins with the arrow. -/
def HasArrow (l : Line) : Prop :=
  l.spans.head?.map Span.text = some "▸ "

/-- The line has the background of the running block. -/
def IsLit (l : Line) : Prop :=
  l.style.bg = some Theme.currentLine

end Line

theorem OutlineRow.hasArrow_line_iff {row : OutlineRow} {id : BlockId} :
    (row.line (some id)).HasArrow ↔ row.id? = some id := by
  cases row with
  | separator => simp [line, Line.HasArrow, id?]
  | block depth detached b => by_cases same : b.id = id <;> simp [line, Line.HasArrow, id?, same]

theorem OutlineRow.isLit_line_iff {row : OutlineRow} {id : BlockId} :
    (row.line (some id)).IsLit ↔ row.id? = some id := by
  cases row with
  | separator => simp [line, Line.IsLit, id?]
  | block depth detached b =>
    by_cases same : b.id = id <;> cases detached <;> simp [line, Line.IsLit, id?, same]

namespace OutlineRow

variable {rows : List OutlineRow} (nodup : (rows.filterMap id?).Nodup) {i : ℕ} {row : OutlineRow}
  (hi : rows[i]? = some row) {id : BlockId} (shows : row.id? = some id)
include nodup hi shows

theorem findIdx?_of_row : rows.findIdx? (isBlock (some id)) = some i := by
  obtain ⟨lt, rfl⟩ := List.getElem?_eq_some_iff.1 hi
  refine List.findIdx?_eq_some_iff_getElem.2 ⟨lt, isBlock_iff.2 shows, ?_⟩
  intro j before isBlock
  have hj := List.getElem?_eq_getElem (before.trans lt)
  have same := index_unique nodup hi hj shows (isBlock_iff.1 isBlock)
  omega

theorem marks_of_row {j : ℕ} {l : Line} (hj : (rows.map (line (some id)))[j]? = some l) :
    (l.HasArrow ↔ j = i) ∧ (l.IsLit ↔ j = i) := by
  rw [List.getElem?_map, Option.map_eq_some_iff] at hj
  obtain ⟨row', hj, rfl⟩ := hj
  rw [hasArrow_line_iff, isLit_line_iff, and_self]
  constructor
  · exact fun shows' => (index_unique nodup hi hj shows shows').symm
  · rintro rfl
    obtain rfl := Option.some.inj (hi.symm.trans hj)
    exact shows

end OutlineRow

namespace Workspace

variable {ws : Workspace}

theorem mem_outlineLines {highlighted : Option BlockId} {l : Line} :
    l ∈ ws.outlineLines highlighted ↔ ∃ row ∈ ws.outline, row.line highlighted = l :=
  List.mem_map

/-! ### How deep blocks lie -/

/-- A block lies at one depth only, since one link at most leads to it. -/
theorem Coherent.lies_unique (c : ws.Coherent) {m n : ℕ} {k : BlockId} (hm : ws.Lies m k)
    (hn : ws.Lies n k) : m = n := by
  induction hm generalizing n with
  | top isTop =>
    cases hn with
    | top => rfl
    | after _ leads | inside _ leads => exact absurd isTop (c.not_mem_top leads)
  | after _ leads ih =>
    cases hn with
    | top isTop => exact absurd isTop (c.not_mem_top leads)
    | after lies leads' =>
      obtain ⟨rfl, -⟩ := c.parent_unique leads leads'
      exact ih lies
    | inside _ leads' => exact Link.noConfusion (c.parent_unique leads leads').2
  | inside _ leads ih =>
    cases hn with
    | top isTop => exact absurd isTop (c.not_mem_top leads)
    | after _ leads' => exact Link.noConfusion (c.parent_unique leads leads').2
    | inside lies leads' =>
      obtain ⟨rfl, -⟩ := c.parent_unique leads leads'
      rw [ih lies]

namespace Unfolds

variable {first : Option BlockId} {trees : List Tree} {levels n : ℕ}

/-- A row is indented by the depth at which its block lies. -/
theorem exists_of_mem_outline (c : ws.Coherent) (h : ws.Unfolds first trees)
    (lies : ∀ k ∈ first, ws.Lies n k) {detached : Bool} {row : OutlineRow}
    (hr : row ∈ listOutline detached n (trees.map (Tree.prune levels))) :
    ∃ m b, row = .block m detached b ∧ ws.get? b.id = some b ∧ ws.Lies m b.id ∧
      n ≤ m ∧ m ≤ n + levels := by
  induction h generalizing levels n with
  | nil => cases hr
  | @cons k b body rest hk _ _ ihBody ihRest =>
    have here := lies k rfl
    have root : ws.get? b.id = some b ∧ ws.Lies n b.id := by
      rw [c.id_eq hk]
      exact ⟨hk, here⟩
    rw [List.map_cons, listOutline, List.mem_append] at hr
    rcases hr with hr | hr
    · cases levels with
      | zero =>
        rw [Tree.prune, Tree.outline, listOutline, List.mem_singleton] at hr
        exact ⟨n, b, hr, root.1, root.2, le_rfl, le_rfl⟩
      | succ levels =>
        rw [Tree.prune, Tree.outline, List.mem_cons] at hr
        rcases hr with hr | hr
        · exact ⟨n, b, hr, root.1, root.2, le_rfl, Nat.le_add_right _ _⟩
        · obtain ⟨m, b', rfl, stored, lies, low, high⟩ :=
            ihBody (fun _ => here.of_body hk) hr
          exact ⟨m, b', rfl, stored, lies, by omega, by omega⟩
    · exact ihRest (fun _ => here.of_next hk) hr

theorem exists_lies_of_mem_prune (c : ws.Coherent) (h : ws.Unfolds first trees)
    (lies : ∀ k ∈ first, ws.Lies n k) {k : BlockId}
    (hk : k ∈ listIds (trees.map (Tree.prune levels))) :
    ∃ m, ws.Lies m k ∧ n ≤ m ∧ m ≤ n + levels := by
  rw [← filterMap_listOutline false n] at hk
  obtain ⟨row, hr, shows⟩ := List.mem_filterMap.1 hk
  obtain ⟨m, b, rfl, -, lies, low, high⟩ := h.exists_of_mem_outline c lies hr
  obtain rfl := Option.some.inj shows
  exact ⟨m, lies, low, high⟩

theorem exists_lies_of_mem (c : ws.Coherent) (h : ws.Unfolds first trees)
    (lies : ∀ k ∈ first, ws.Lies n k) {k : BlockId} (hk : k ∈ listIds trees) :
    ∃ m, ws.Lies m k ∧ n ≤ m := by
  induction h generalizing n with
  | nil => cases hk
  | @cons k' b body rest hk' _ _ ihBody ihRest =>
    have here := lies k' rfl
    rw [listIds_cons, List.mem_cons, List.mem_append, c.id_eq hk'] at hk
    rcases hk with rfl | hk | hk
    · exact ⟨n, here, le_rfl⟩
    · obtain ⟨m, lies, low⟩ := ihBody (fun _ => here.of_body hk') hk
      exact ⟨m, lies, by omega⟩
    · exact ihRest (fun _ => here.of_next hk') hk

/-- What lies within some levels is left by pruning to these levels. -/
theorem mem_prune_of_lies (c : ws.Coherent) (h : ws.Unfolds first trees)
    (lies : ∀ k ∈ first, ws.Lies n k) {k : BlockId} {m : ℕ} (hk : k ∈ listIds trees)
    (hm : ws.Lies m k) (le : m ≤ n + levels) : k ∈ listIds (trees.map (Tree.prune levels)) := by
  induction h generalizing levels n with
  | nil => exact hk
  | @cons k' b body rest hk' hbody _ ihBody ihRest =>
    have here := lies k' rfl
    have inside : ∀ c ∈ b.body, ws.Lies (n + 1) c := fun _ => here.of_body hk'
    rw [listIds_cons, List.mem_cons, List.mem_append] at hk
    rw [mem_listIds_map_prune_cons]
    rcases hk with root | hk | hk
    · exact Or.inl root
    · obtain ⟨m', lies', low⟩ := hbody.exists_lies_of_mem c inside hk
      obtain rfl := c.lies_unique hm lies'
      obtain ⟨levels, rfl⟩ : ∃ l, levels = l + 1 := Nat.exists_eq_add_of_le' (by omega)
      exact Or.inr (Or.inl ⟨levels, rfl, ihBody inside hk (by omega)⟩)
    · exact Or.inr (Or.inr (ihRest (fun _ => here.of_next hk') hk le))

end Unfolds

/-! ### The rows of a workspace -/

/-- First comes the stack of the start block. Below a separator come the others, if there are
any. -/
theorem outline_eq (ws : Workspace) :
    ws.outline = (ws.start?.toList.flatMap fun b => ws.stackOutline false b.id) ++
      if ws.others = [] then []
      else .separator :: ws.others.flatMap fun b => ws.stackOutline true b.id := by
  unfold outline
  cases ws.start? <;> cases ws.others <;> simp

theorem filterMap_outline (ws : Workspace) :
    ws.outline.filterMap OutlineRow.id? =
      (ws.start?.toList ++ ws.others).flatMap fun b =>
        listIds (ws.forest maxDepth (some b.id)) := by
  have shown (detached : Bool) (blocks : List Block) :
      (blocks.flatMap fun b => ws.stackOutline detached b.id).filterMap OutlineRow.id? =
        blocks.flatMap fun b => listIds (ws.forest maxDepth (some b.id)) := by
    rw [List.filterMap_flatMap]
    simp only [stackOutline, filterMap_listOutline]
  rw [outline_eq, List.filterMap_append, shown, List.flatMap_append]
  congr 1
  split_ifs with alone
  · rw [alone]
    rfl
  · exact shown true ws.others

namespace Coherent

variable (c : ws.Coherent)
include c

theorem map_id_topBlocks : ws.topBlocks.map Block.id = ws.top := by
  rw [topBlocks, List.map_filterMap]
  refine (List.filterMap_congr fun k hk => ?_).trans List.filterMap_some
  obtain ⟨b, hb⟩ := Option.isSome_iff_exists.1 (c.top_stored hk)
  rw [hb, Option.map_some, c.id_eq hb]

theorem map_id_others :
    ws.others.map Block.id = ws.top.filter fun k => some k ≠ ws.start?.map Block.id := by
  rw [others, ← c.map_id_topBlocks, List.filter_map]
  rfl

/-- The start block and the others are the top level. -/
theorem perm_top : ((ws.start?.toList ++ ws.others).map Block.id).Perm ws.top := by
  rw [List.map_append, c.map_id_others]
  cases hs : ws.start? with
  | none => simp
  | some start =>
    have others : (ws.top.filter fun k => some k ≠ some start.id) = ws.top.erase start.id := by
      rw [c.top_nodup.erase_eq_filter]
      exact List.filter_congr fun k _ => by simp [bne, beq_eq_decide]
    rw [Option.map_some, others]
    exact (List.perm_cons_erase (c.id_mem_top_of_start? hs).1).symm

/-- The outline shows the blocks that a save keeps, with the stack of the start block in front. -/
theorem perm_outline : (ws.outline.filterMap OutlineRow.id?).Perm ws.keptIds := by
  let stackIds := fun k => listIds (ws.forest maxDepth (some k))
  have shown : ws.outline.filterMap OutlineRow.id? =
      ((ws.start?.toList ++ ws.others).map Block.id).flatMap stackIds := by
    rw [filterMap_outline, List.flatMap_map]
  have kept : ws.keptIds = ws.top.flatMap stackIds := by
    rw [keptIds, stackTrees, List.flatMap_map, ← c.map_id_topBlocks, List.flatMap_map]
  rw [shown, kept]
  exact c.perm_top.flatMap_right _

/-- No block has two rows. -/
theorem nodup_rows : (ws.outline.filterMap OutlineRow.id?).Nodup :=
  c.perm_outline.nodup_iff.2 c.nodup_keptIds

/-- A row is a separator, or it is one of a stack. -/
theorem exists_stack_of_mem_outline {row : OutlineRow} (hr : row ∈ ws.outline) :
    row = .separator ∨ ∃ detached, ∃ t ∈ ws.top, row ∈ ws.stackOutline detached t := by
  have isTop {b : Block} (hb : b ∈ ws.start?.toList ++ ws.others) : b.id ∈ ws.top :=
    c.perm_top.mem_iff.1 (List.mem_map_of_mem hb)
  rw [outline_eq, List.mem_append, List.mem_flatMap] at hr
  rcases hr with ⟨b, hb, hr⟩ | hr
  · exact Or.inr ⟨false, b.id, isTop (List.mem_append_left _ hb), hr⟩
  · split_ifs at hr
    · cases hr
    · refine (List.mem_cons.1 hr).imp_right fun hr => ?_
      obtain ⟨b, hb, hr⟩ := List.mem_flatMap.1 hr
      exact ⟨true, b.id, isTop (List.mem_append_right _ hb), hr⟩

/-- A row shows a stored block, indented by the depth at which it lies. -/
theorem exists_of_mem_outline {row : OutlineRow} (hr : row ∈ ws.outline) {k : BlockId}
    (shows : row.id? = some k) :
    ∃ m detached b, row = .block m detached b ∧ ws.get? k = some b ∧ ws.Lies m k ∧
      m ≤ maxDepth := by
  rcases c.exists_stack_of_mem_outline hr with rfl | ⟨detached, t, ht, hr⟩
  · cases shows
  · obtain ⟨trees, unfolds⟩ := c.exists_unfolds ht
    rw [stackOutline, unfolds.forest_eq c] at hr
    obtain ⟨m, b, rfl, stored, lies, -, high⟩ :=
      unfolds.exists_of_mem_outline c (lies_of_mem_top ht) hr
    obtain rfl := Option.some.inj shows
    exact ⟨m, detached, b, rfl, stored, lies, by omega⟩

section Start

variable {start : Block} (hs : ws.start? = some start)
include hs

/-- If the stack of the start block is the only one, the outline shows nothing else. -/
theorem outline_of_top_eq (top : ws.top = [start.id]) {trees : List Tree}
    (unfolds : ws.Unfolds (some start.id) trees) :
    ws.outline = listOutline false 0 (trees.map (Tree.prune maxDepth)) := by
  have others : ws.others = [] := by
    rw [← List.map_eq_nil_iff, c.map_id_others, hs, top]
    simp
  rw [outline, hs, others, ← unfolds.forest_eq c]
  rfl

/-- A block of the program has a row, unless it lies at the last level of the program. -/
theorem exists_row {trees : List Tree} (unfolds : ws.Unfolds start.body trees) {k : BlockId}
    (hk : k ∈ listIds (trees.map (Tree.prune maxDepth))) {m : ℕ} (lies : ws.Lies m k)
    (le : m ≤ maxDepth) : ∃ b, ws.get? k = some b ∧ .block m false b ∈ ws.outline := by
  obtain ⟨isTop, stored⟩ := c.id_mem_top_of_start? hs
  have body : ∀ k ∈ start.body, ws.Lies 1 k := fun _ => (Lies.top isTop).of_body stored
  -- The start block takes the first level of its stack.
  have levels : maxDepth = maxDepth - 1 + 1 := rfl
  have reached : k ∈ listIds trees := ((listBlocks_prune_sublist _ trees).map Block.id).mem hk
  have kept : k ∈ listIds (trees.map (Tree.prune (maxDepth - 1))) :=
    unfolds.mem_prune_of_lies c body reached lies (by omega)
  obtain ⟨stack, whole⟩ := c.exists_unfolds isTop
  have inStack : k ∈ listIds (stack.map (Tree.prune maxDepth)) := by
    cases whole with
    | cons hroot hbody _ =>
      obtain rfl := Option.some.inj (stored.symm.trans hroot)
      obtain rfl := hbody.unique unfolds
      exact mem_listIds_map_prune_cons.2 (Or.inr (Or.inl ⟨_, levels, kept⟩))
  rw [← filterMap_listOutline false 0] at inStack
  obtain ⟨row, hr, shows⟩ := List.mem_filterMap.1 inStack
  obtain ⟨m', b, rfl, stored', lies', -⟩ := whole.exists_of_mem_outline c (lies_of_mem_top isTop) hr
  obtain rfl := Option.some.inj shows
  obtain rfl := c.lies_unique lies lies'
  refine ⟨b, stored', ?_⟩
  rw [outline_eq, hs, Option.toList_some, List.flatMap_singleton, stackOutline, whole.forest_eq c]
  exact List.mem_append_left _ hr

end Start

/-! ### The row of the running block -/

/-- A row that shows a block is found, and has the marks if the block runs. -/
theorem currentLine?_of_row {i : ℕ} {row : OutlineRow} (hi : ws.outline[i]? = some row)
    {k : BlockId} (shows : row.id? = some k) :
    ws.currentLine? (some k) = some i ∧
      ∀ j l, (ws.outlineLines (some k))[j]? = some l →
        (l.HasArrow ↔ j = i) ∧ (l.IsLit ↔ j = i) :=
  have nodup := c.nodup_rows
  ⟨OutlineRow.findIdx?_of_row nodup hi shows, fun _ _ => OutlineRow.marks_of_row nodup hi shows⟩

/-- A block that lies too deep has no row. -/
theorem id?_ne_of_deep {n : ℕ} {k : BlockId} (lies : ws.Lies n k) (deep : maxDepth < n) :
    ∀ row ∈ ws.outline, row.id? ≠ some k := by
  intro row hr shows
  obtain ⟨m, -, -, -, -, lies', le⟩ := c.exists_of_mem_outline hr shows
  have := c.lies_unique lies lies'
  omega

/-- No row is marked if a block runs that lies too deep. -/
theorem currentLine?_of_deep {n : ℕ} {k : BlockId} (lies : ws.Lies n k) (deep : maxDepth < n) :
    ws.currentLine? (some k) = none ∧
      ∀ l ∈ ws.outlineLines (some k), ¬ l.HasArrow ∧ ¬ l.IsLit := by
  have hidden := c.id?_ne_of_deep lies deep
  constructor
  · refine List.findIdx?_eq_none_iff.2 fun row hr => ?_
    rw [Bool.eq_false_iff, ne_eq, OutlineRow.isBlock_iff]
    exact hidden row hr
  · intro l hl
    obtain ⟨row, hr, rfl⟩ := mem_outlineLines.1 hl
    rw [OutlineRow.hasArrow_line_iff, OutlineRow.isLit_line_iff, and_self]
    exact hidden row hr

end Coherent

/-- A block that a program marks is left by pruning to the levels of the program. -/
theorem Coherent.mem_prune_of_highlight (c : ws.Coherent) {start : Block}
    (hs : ws.start? = some start) {trees : List Tree} (unfolds : ws.Unfolds start.body trees)
    {compiled : Compilation} (hc : ws.compile? = some compiled) {k : BlockId}
    (runs : .highlight k ∈ compiled.steps.toList) :
    k ∈ listIds (trees.map (Tree.prune maxDepth)) := by
  obtain ⟨compiled', hc', holds⟩ := c.compile_holds hs unfolds
  obtain rfl := Option.some.inj (hc.symm.trans hc')
  rw [holds.toList_steps, List.nil_append, ← flatMap_flatten_prune le_rfl] at runs
  exact markedIds_flatten_subset maxDepth _
    (List.mem_filterMap.2 ⟨.highlight k, List.mem_of_mem_take runs, rfl⟩)

/-- A block that a program marks lies within the levels of the program, and has a row if it does not
lie too deep. -/
theorem Coherent.exists_row_of_highlight (c : ws.Coherent) {compiled : Compilation}
    (hc : ws.compile? = some compiled) {id : BlockId}
    (runs : .highlight id ∈ compiled.steps.toList) :
    ∃ n b, ws.Lies n id ∧ ws.get? id = some b ∧ 1 ≤ n ∧ n ≤ maxDepth + 1 ∧
      (n ≤ maxDepth → ∃ i : ℕ, ws.outline[i]? = some (.block n false b)) := by
  obtain ⟨start, hs, -⟩ := Option.map_eq_some_iff.1 hc
  obtain ⟨trees, unfolds⟩ := c.exists_start_body hs
  obtain ⟨isTop, stored⟩ := c.id_mem_top_of_start? hs
  have kept := c.mem_prune_of_highlight hs unfolds hc runs
  obtain ⟨n, lies, low, high⟩ :=
    unfolds.exists_lies_of_mem_prune c (fun _ => (Lies.top isTop).of_body stored) kept
  obtain ⟨b, hb⟩ := c.exists_stored_of_lies lies
  refine ⟨n, b, lies, hb, low, by omega, fun le => ?_⟩
  obtain ⟨b', hb', hr⟩ := c.exists_row hs unfolds kept lies le
  obtain rfl := Option.some.inj (hb.symm.trans hb')
  exact List.mem_iff_getElem?.1 hr

/-- A block that runs lies below the start block, within the levels of the program. If it is not at
the last of these levels, it has a row of its own, which is found, and which alone has the marks of
the running block. If it is, no row is found and none has a mark. -/
theorem Reachable.outline_follows_program (h : ws.Reachable) {compiled : Compilation}
    (hc : ws.compile? = some compiled) {id : BlockId}
    (runs : .highlight id ∈ compiled.steps.toList) :
    ∃ n b, ws.Lies n id ∧ ws.get? id = some b ∧ 1 ≤ n ∧ n ≤ maxDepth + 1 ∧
      (n ≤ maxDepth → ∃ i, ws.outline[i]? = some (.block n false b) ∧
        ws.currentLine? (some id) = some i ∧
        ∀ j l, (ws.outlineLines (some id))[j]? = some l →
          (l.HasArrow ↔ j = i) ∧ (l.IsLit ↔ j = i)) ∧
      (n = maxDepth + 1 → ws.currentLine? (some id) = none ∧
        ∀ l ∈ ws.outlineLines (some id), ¬ l.HasArrow ∧ ¬ l.IsLit) := by
  have c := h.coherent
  obtain ⟨n, b, lies, hb, low, high, row⟩ := c.exists_row_of_highlight hc runs
  refine ⟨n, b, lies, hb, low, high, fun le => ?_, fun last => ?_⟩
  · obtain ⟨i, hi⟩ := row le
    exact ⟨i, hi, c.currentLine?_of_row hi (congrArg some (c.id_eq hb))⟩
  · exact c.currentLine?_of_deep lies (by omega)

/-- The fill block of `painter` lies two bodies below the top level. -/
theorem Reachable.outline_follows_program_painter :
    painter.Reachable ∧ ∃ compiled i, painter.compile? = some compiled ∧
      .highlight "paint" ∈ compiled.steps.toList ∧
      painter.outline[i]? = some (.block 2 false { id := "paint", kind := .fill "red" }) ∧
      painter.currentLine? (some "paint") = some i := by
  have reachable : painter.Reachable := ⟨_, Or.inr rfl⟩
  obtain ⟨compiled, hc, steps⟩ := exists_compile_painter
  have runs : .highlight "paint" ∈ compiled.steps.toList := by
    rw [steps]
    exact List.mem_flatten.2 ⟨_, List.mem_replicate.2 ⟨by decide, rfl⟩, List.mem_cons_self⟩
  obtain ⟨n, b, lies, hb, -, -, row, -⟩ := reachable.outline_follows_program hc runs
  obtain rfl : n = 2 := by simpa using lies_painter lies
  obtain rfl := Option.some.inj (get?_painter_paint.symm.trans hb)
  obtain ⟨i, hi, current, -⟩ := row (by decide)
  exact ⟨reachable, compiled, i, hc, runs, hi, current⟩

/-! ### A running block without a row -/

theorem Unfolds.lies_nested (c : ws.Coherent) {first : Option BlockId} {n m : ℕ}
    (h : ws.Unfolds first (listTrees [nested n])) (lies : ∀ k ∈ first, ws.Lies m k) :
    ws.Lies (m + n) (generated 0) := by
  induction n generalizing m first with
  | zero =>
    rw [listTrees_cons] at h
    cases h with
    | cons hk _ _ =>
      have here := lies _ rfl
      rwa [← c.id_eq hk] at here
  | succ n ih =>
    rw [listTrees_cons] at h
    cases h with
    | cons hk body _ =>
      have inner := ih body fun _ => (lies _ rfl).of_body hk
      rwa [Nat.add_right_comm] at inner

/-- The fill block of the deep program runs, but no row is found for it. -/
theorem currentLine?_deep :
    ∃ ws compiled, deep.build = .ok ws ∧ ws.Reachable ∧ ws.start?.isSome ∧
      ws.compile? = some compiled ∧ .highlight "blk0" ∈ compiled.steps.toList ∧
      ws.currentLine? (some "blk0") = none := by
  obtain ⟨ws, start, built, hs, unfolds⟩ := exists_build_deep
  have reachable := reachable_of_build built
  have c := reachable.coherent
  obtain ⟨isTop, stored⟩ := c.id_mem_top_of_start? hs
  obtain ⟨compiled, hc, holds⟩ := c.compile_holds hs unfolds
  have name : generated 0 = "blk0" := by decide
  have runs : .highlight "blk0" ∈ compiled.steps.toList := by
    rw [holds.toList_steps, flatten_nested, if_pos le_rfl, name]
    exact List.mem_cons_self
  have lies := unfolds.lies_nested c fun _ => (Lies.top isTop).of_body stored
  rw [name] at lies
  have hidden := c.currentLine?_of_deep lies (by decide)
  exact ⟨ws, compiled, built, reachable, by rw [hs]; rfl, hc, runs, hidden.1⟩

end Workspace

end BlockBoard
