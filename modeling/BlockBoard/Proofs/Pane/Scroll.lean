import BlockBoard.Pane.Program
import BlockBoard.Proofs.Pane.Outline

/-!
# What the program pane shows of a running program

The pane is scrolled to the line of the running block and not beyond its last page; neither of the
two undoes the other (`ProgramPane.scrollOffset_spec`). The offset is drawn as a 16-bit number,
though. So the line of the running block is among the lines that are drawn only as long as the
offset is such a number (`Workspace.Reachable.pane_follows`), and in an outline of more than 65536
lines it need not be.
-/

namespace BlockBoard

open Workspace

theorem Style.onto_default (s : Style) : s.onto {} = s := by
  cases s
  simp [Style.onto]

namespace ProgramPane

variable {ws : Workspace} {highlighted : Option BlockId} {height line : ℕ}

/-! ### The offset -/

/-- The offset is at most that of the last page, and the current line is on the page that begins
there. -/
theorem scrollOffset_spec (tall : 3 ≤ height) (current : ws.currentLine? highlighted = some line)
    (scroll : ℕ) :
    scrollOffset ws highlighted height scroll ≤ line ∧
      line < scrollOffset ws highlighted height scroll + (height - 2) ∧
      scrollOffset ws highlighted height scroll ≤ ws.outline.length - (height - 2) := by
  obtain ⟨lt, -⟩ := List.findIdx?_eq_some_iff_getElem.1 current
  unfold scrollOffset visibleLines follow
  rw [current]
  dsimp only
  split_ifs <;> omega

theorem scrollOffset_lt_iff (tall : 3 ≤ height) (current : ws.currentLine? highlighted = some line)
    (scroll : ℕ) :
    scrollOffset ws highlighted height scroll < 0x10000 ↔
      ws.outline.length < 0x10000 + (height - 2) ∨ line < 0x10000 ∨
        scroll < 0x10000 ∧ line + 1 < 0x10000 + (height - 2) := by
  obtain ⟨lt, -⟩ := List.findIdx?_eq_some_iff_getElem.1 current
  unfold scrollOffset visibleLines follow
  rw [current]
  dsimp only
  split_ifs <;> omega

theorem firstLine_eq_iff (offset : ℕ) : firstLine offset = offset ↔ offset < 0x10000 :=
  Nat.mod_eq_iff_lt (by decide)

/-! ### The lines that are drawn -/

/-- The lines that a pane of the given height shows at a scroll offset. -/
def shownLines (ws : Workspace) (highlighted : Option BlockId) (height offset : ℕ) : List Line :=
  ((ws.outlineLines highlighted).drop (firstLine offset)).take (height - 2)

theorem mem_shownLines_iff {offset : ℕ} {l : Line} : l ∈ shownLines ws highlighted height offset ↔
    ∃ i, firstLine offset ≤ i ∧ i < firstLine offset + (height - 2) ∧
      (ws.outlineLines highlighted)[i]? = some l := by
  rw [shownLines, List.mem_iff_getElem?]
  constructor
  · rintro ⟨j, hj⟩
    have low : j < height - 2 := by
      obtain ⟨lt, -⟩ := List.getElem?_eq_some_iff.1 hj
      exact lt.trans_le (List.length_take_le _ _)
    rw [List.getElem?_take_of_lt low, List.getElem?_drop] at hj
    exact ⟨firstLine offset + j, by omega, by omega, hj⟩
  · rintro ⟨i, low, high, hi⟩
    refine ⟨i - firstLine offset, ?_⟩
    rw [List.getElem?_take_of_lt (by omega), List.getElem?_drop, Nat.add_sub_cancel' low, hi]

/-- The frame of the pane, with nothing in it. -/
def framed (c : Canvas) (a : Area) (ws : Workspace) (running : Bool) : Canvas :=
  (c.frame a (frameStyle running) (.plain s!" Program ({ws.size} blocks) ") ⟨[], {}⟩).paint
    a.inner {}

/-- Inside its frame the pane draws the lines that it shows, from the top. -/
theorem draw_eq (ne : ws.outline ≠ []) (c : Canvas) (a : Area) (running : Bool) (offset : ℕ) :
    draw c a ws highlighted running offset =
      (framed c a ws running).putLines a.inner .left 0
        (shownLines ws highlighted a.height offset) := by
  have lines : ws.outlineLines highlighted ≠ [] := by
    rwa [outlineLines, Ne, List.map_eq_nil_iff]
  unfold draw
  dsimp only
  split
  · contradiction
  · rw [Canvas.paragraph]
    simp only [Style.onto_default, List.map_id']
    rfl

/-- The line of the running block is shown exactly if it is on the page that is drawn. -/
theorem exists_arrow_iff {i : ℕ} {row : OutlineRow} {id : BlockId}
    (nodup : (ws.outline.filterMap OutlineRow.id?).Nodup) (hi : ws.outline[i]? = some row)
    (shows : row.id? = some id) (offset : ℕ) :
    (∃ l ∈ shownLines ws (some id) height offset, l.HasArrow) ↔
      firstLine offset ≤ i ∧ i < firstLine offset + (height - 2) := by
  constructor
  · rintro ⟨l, hl, arrow⟩
    obtain ⟨j, low, high, hj⟩ := mem_shownLines_iff.1 hl
    obtain rfl := (OutlineRow.marks_of_row nodup hi shows hj).1.1 arrow
    exact ⟨low, high⟩
  · rintro ⟨low, high⟩
    have hl : (ws.outlineLines (some id))[i]? = some (row.line (some id)) := by
      rw [outlineLines, List.getElem?_map, hi, Option.map_some]
    exact ⟨_, mem_shownLines_iff.2 ⟨i, low, high, hl⟩, OutlineRow.hasArrow_line_iff.2 shows⟩

end ProgramPane

namespace Workspace

open ProgramPane

variable {ws : Workspace}

/-- If the running block has a row, the pane is scrolled to a page with this row, and not beyond the
last page. The page that is drawn is that one exactly if the offset is less than 65536, and if not,
the running block is not on it. The offset is less than 65536 exactly if that of the last page is,
or the row is one of the first 65536, or the pane was scrolled to less and does not have to follow
the row further than that. -/
theorem Reachable.pane_follows (h : ws.Reachable) {i : ℕ} {row : OutlineRow}
    (hi : ws.outline[i]? = some row) {id : BlockId} (shows : row.id? = some id) {height : ℕ}
    (tall : 3 ≤ height) (fits : height < 0x10000) (scroll : ℕ) :
    ∃ offset, scrollOffset ws (some id) height scroll = offset ∧
      offset ≤ i ∧ i < offset + (height - 2) ∧ offset ≤ ws.outline.length - (height - 2) ∧
      (∀ c a running, a.height = height → draw c a ws (some id) running offset =
        (framed c a ws running).putLines a.inner .left 0
          (shownLines ws (some id) height offset)) ∧
      (firstLine offset = offset ↔ offset < 0x10000) ∧
      ((∃ l ∈ shownLines ws (some id) height offset, l.HasArrow) ↔ offset < 0x10000) ∧
      (offset < 0x10000 ↔ ws.outline.length < 0x10000 + (height - 2) ∨ i < 0x10000 ∨
        scroll < 0x10000 ∧ i + 1 < 0x10000 + (height - 2)) := by
  have nodup := h.coherent.nodup_rows
  have current : ws.currentLine? (some id) = some i := OutlineRow.findIdx?_of_row nodup hi shows
  have ne : ws.outline ≠ [] := by
    intro empty
    rw [empty] at hi
    cases hi
  obtain ⟨low, high, last⟩ := scrollOffset_spec tall current scroll
  refine ⟨_, rfl, low, high, last, ?_, firstLine_eq_iff _, ?_,
    scrollOffset_lt_iff tall current scroll⟩
  · rintro c a running rfl
    exact draw_eq ne c a running _
  · rw [exists_arrow_iff nodup hi shows, firstLine]
    -- A page holds less than 65536 lines, so one that is drawn too early ends too early.
    omega

/-- Three lines high, the pane shows the fill block of `painter` alone when it runs. -/
theorem Reachable.pane_follows_painter :
    painter.Reachable ∧ painter.outline[2]? =
        some (.block 2 false { id := "paint", kind := .fill "red" }) ∧
      scrollOffset painter (some "paint") 3 0 = 2 ∧
      ∃ l ∈ shownLines painter (some "paint") 3 2, l.HasArrow := by
  have reachable : painter.Reachable := ⟨_, Or.inr rfl⟩
  have unfolds : painter.Unfolds (some "blk0") _ :=
    .cons get?_painter_start unfolds_painter .nil
  have row : painter.outline[2]? =
      some (.block 2 false { id := "paint", kind := .fill "red" }) := by
    rw [reachable.coherent.outline_of_top_eq start?_painter top_painter unfolds]
    rfl
  obtain ⟨offset, eq, low, high, -, -, -, shown, small⟩ :=
    reachable.pane_follows row rfl (le_refl 3) (by decide) 0
  obtain rfl : offset = 2 := by omega
  exact ⟨reachable, row, eq, shown.2 (small.2 (Or.inr (Or.inl (by decide))))⟩

/-! ### A running block that is not shown -/

/-- Fill blocks with the given names. -/
def fills (ids : List BlockId) : List Node :=
  ids.map fun id => .fill id "red"

theorem ids_fills (ids : List BlockId) : listIds (listTrees (fills ids)) = ids := by
  induction ids with
  | nil => rfl
  | cons id ids ih =>
    rw [fills, List.map_cons, ids_cons, ← fills, ih]
    rfl

theorem kinds_fills (ids : List BlockId) :
    ∀ b ∈ listBlocks (listTrees (fills ids)), b.kind = .fill "red" := by
  induction ids with
  | nil => nofun
  | cons id ids ih =>
    rw [fills, List.map_cons, blocks_cons, ← fills, List.forall_mem_cons]
    exact ⟨rfl, ih⟩

theorem map_prune_fills (levels : ℕ) (ids : List BlockId) :
    (listTrees (fills ids)).map (Tree.prune levels) = listTrees (fills ids) := by
  induction ids with
  | nil => rfl
  | cons id ids ih =>
    rw [fills, List.map_cons, listTrees_cons, ← fills, List.map_cons, ih]
    cases levels <;> rfl

/-- A start block around fill blocks is shown by a row for each of them below its own. -/
theorem exists_build_fills {start : BlockId} {ids : List BlockId} (nodup : (start :: ids).Nodup) :
    ∃ ws, Document.build { blocks := [[.start start (fills ids)]] } = .ok ws ∧
      ws.outline.map OutlineRow.id? = (start :: ids).map some := by
  rw [← ids_fills ids] at nodup
  obtain ⟨ws, b, built, stacked, found, -⟩ := Document.exists_build_program nodup
    fun b hb isStart => Kind.noConfusion ((kinds_fills ids b hb).symm.trans isStart)
  have c := stacked.coherent
  have top : ws.top = [start] := stacked.top_eq
  obtain rfl : b.id = start := List.mem_singleton.1 (top ▸ (c.id_mem_top_of_start? found).1)
  have whole : (listTrees [.start b.id (fills ids)]).map (Tree.prune maxDepth) =
      listTrees [.start b.id (fills ids)] := by
    rw [listTrees_cons]
    exact congrArg (fun body => [Tree.node _ false body]) (map_prune_fills (maxDepth - 1) ids)
  refine ⟨ws, built, ?_⟩
  rw [c.outline_of_top_eq found top (stacked.unfolds (List.mem_singleton_self _)), whole,
    map_listOutline, ids_cons, Node.body, ids_fills]
  simp [Node.id, listTrees]

/-- A document with a start block around the given number of fill blocks. -/
def long (n : ℕ) : Document where
  blocks := [[.start (generated n) (fills ((List.range n).map generated))]]

theorem exists_build_long (n : ℕ) :
    ∃ ws row, (long (n + 1)).build = .ok ws ∧ ws.outline[n + 1]? = some row ∧
      row.id? = some (generated n) := by
  have fresh : generated (n + 1) ∉ (List.range (n + 1)).map generated := by
    rw [List.mem_map_of_injective generated_injective, List.mem_range]
    omega
  have nodup := List.nodup_cons.2 ⟨fresh, List.nodup_range.map generated_injective⟩
  obtain ⟨ws, built, rows⟩ := exists_build_fills nodup
  have last : (ws.outline.map OutlineRow.id?)[n + 1]? = some (some (generated n)) := by
    rw [rows]
    simp
  rw [List.getElem?_map, Option.map_eq_some_iff] at last
  obtain ⟨row, hrow, shows⟩ := last
  exact ⟨ws, row, built, hrow, shows⟩

/-- The last of 65536 fill blocks has the line with number 65536, and if it runs, a pane of three
lines is scrolled to that line. But drawn is the first line, without an arrow. -/
theorem not_pane_follows_long :
    ∃ ws row id, (long 65536).build = .ok ws ∧ ws.Reachable ∧ ws.outline[65536]? = some row ∧
      row.id? = some id ∧ scrollOffset ws (some id) 3 0 = 65536 ∧ firstLine 65536 = 0 ∧
      ∀ l ∈ shownLines ws (some id) 3 65536, ¬ l.HasArrow := by
  obtain ⟨ws, row, built, hrow, shows⟩ := exists_build_long 65535
  have reachable := reachable_of_build built
  have nodup := reachable.coherent.nodup_rows
  obtain ⟨low, high, -⟩ :=
    scrollOffset_spec (le_refl 3) (OutlineRow.findIdx?_of_row nodup hrow shows) 0
  refine ⟨ws, row, _, built, reachable, hrow, shows, by omega, rfl, fun l hl arrow => ?_⟩
  obtain ⟨-, before⟩ := (exists_arrow_iff nodup hrow shows 65536).1 ⟨l, hl, arrow⟩
  exact absurd before (by decide)

end Workspace

end BlockBoard
