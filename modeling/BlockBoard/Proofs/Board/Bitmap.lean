import Mathlib.Data.Set.Card
import BlockBoard.Proofs.Board.Colors
import BlockBoard.Proofs.Board.Raster

/-!
# What a bitmap shows

The bitmap of a reachable board is the raster of the colors that its cells show, in the smallest
format that shows them exactly (`Board.Reachable.bitmap_exact`). It depends on nothing else of the
board, such as the order in which the cells were painted, or whether a white one was painted at all
(`Board.Alike`).
-/

namespace BlockBoard

/-! ### Numbers for colors -/

theorem grayLevel?_eq_some_iff {color : String} {level : ℕ} :
    grayLevel? color = some level ↔ (color, level) ∈ grayLevels := by
  have found : ∀ entry ∈ grayLevels, grayLevel? entry.1 = some entry.2 := by decide
  refine ⟨fun h => ?_, fun h => found _ h⟩
  obtain ⟨before, after, parts, -⟩ := List.lookup_eq_some_iff.1 h
  rw [parts]
  simp

/-- Different grays have different levels. -/
theorem color_eq_of_level {color color' : String} {level : ℕ} (h : (color, level) ∈ grayLevels)
    (h' : (color', level) ∈ grayLevels) : color' = color := by
  have apart : ∀ entry ∈ grayLevels, ∀ entry' ∈ grayLevels,
      entry'.2 = entry.2 → entry'.1 = entry.1 := by decide
  exact apart _ h _ h' rfl

namespace BitmapFormat

/-- Numbers stand for a color in a bitmap of this format. -/
def Shows (color : String) (numbers : List ℕ) : BitmapFormat → Prop
  | bits => numbers = [if color = Color.white then 0 else 1]
  | grays => ∃ level, numbers = [level] ∧ ∀ color', (color', level) ∈ grayLevels ↔ color' = color
  | colors => numbers = match Color.toRgb? color with
    | some rgb => [rgb.red, rgb.green, rgb.blue]
    | none => [0, 0, 0]

/-- The numbers for a color. -/
def numbers (color : String) : BitmapFormat → List ℕ
  | bits => [if color = Color.white then 0 else 1]
  | grays => [(grayLevel? color).getD grayMax]
  | colors =>
    let rgb := (Color.toRgb? color).getD ⟨0, 0, 0⟩
    [rgb.red, rgb.green, rgb.blue]

theorem length_numbers (format : BitmapFormat) (color : String) :
    (format.numbers color).length = format.samples := by
  cases format <;> rfl

theorem numbers_le_maximum (format : BitmapFormat) (color : String) :
    ∀ n ∈ format.numbers color, n ≤ format.maximum := by
  cases format with
  | bits =>
    rw [numbers, List.forall_mem_singleton]
    split_ifs <;> decide
  | grays =>
    rw [numbers, List.forall_mem_singleton]
    have small : ∀ entry ∈ grayLevels, entry.2 ≤ grayMax := by decide
    cases gray : grayLevel? color with
    | none => exact Nat.le_refl _
    | some level => exact small _ (grayLevel?_eq_some_iff.1 gray)
  | colors =>
    cases decoded : Color.toRgb? color with
    | none => simp [numbers, decoded, maximum]
    | some rgb => simpa [numbers, decoded, maximum] using Color.toRgb?_le decoded

/-- The numbers show the color; in a gray bitmap, if it is a gray. -/
theorem shows_numbers {format : BitmapFormat} {color : String}
    (gray : format = .grays → (grayLevel? color).isSome) :
    format.Shows color (format.numbers color) := by
  cases format with
  | bits => rfl
  | grays =>
    obtain ⟨level, found⟩ := Option.isSome_iff_exists.1 (gray rfl)
    have entry := grayLevel?_eq_some_iff.1 found
    refine ⟨level, by rw [numbers, found]; rfl, fun color' => ⟨color_eq_of_level entry, ?_⟩⟩
    rintro rfl
    exact entry
  | colors =>
    unfold Shows numbers
    cases Color.toRgb? color <;> rfl

end BitmapFormat

/-! ### What is painted -/

namespace Scene

theorem mem_values_fills_iff (s : Scene) {color : String} :
    color ∈ s.fills.values ↔ ∃ cell, s.colorAt? cell = some color := by
  have values : s.fills.values = s.fills.toList.map Prod.snd := by
    show s.fills.foldr (fun _ color colors => color :: colors) [] = _
    rw [Std.TreeMap.foldr_eq_foldr_toList, List.map_eq_foldr]
  rw [values, List.mem_map]
  constructor
  · rintro ⟨⟨cell, _⟩, painted, rfl⟩
    exact ⟨cell, Std.TreeMap.mem_toList_iff_getElem?_eq_some.1 painted⟩
  · rintro ⟨cell, painted⟩
    exact ⟨(cell, color), Std.TreeMap.mem_toList_iff_getElem?_eq_some.2 painted, rfl⟩

/-- The reports on a bitmap of all colors are on the painted cells whose color cannot be decoded. -/
theorem mem_bitmapRecords_iff {s : Scene} (format : s.bitmap.format = .colors) {r : Record} :
    r ∈ s.bitmapRecords ↔ ∃ cell color, s.colorAt? cell = some color ∧
      Color.toRgb? (Color.normalize color) = none ∧
        r = Bitmap.undecodedRecord (Color.normalize color) := by
  have colors : s.palette.format = .colors := format
  unfold bitmapRecords
  rw [colors]
  simp only [List.mem_map, List.mem_filter, Option.isNone_iff_eq_none, mem_values_fills_iff]
  constructor
  · rintro ⟨_, ⟨⟨color, ⟨cell, painted⟩, rfl⟩, undecoded⟩, rfl⟩
    exact ⟨cell, color, painted, undecoded, rfl⟩
  · rintro ⟨cell, color, painted, undecoded, rfl⟩
    exact ⟨_, ⟨⟨color, ⟨cell, painted⟩, rfl⟩, undecoded⟩, rfl⟩

end Scene

namespace Board

/-! ### Colors in use -/

/-- The color a cell shows: the one it was painted in, or white. -/
def shown (b : Board) (cell : Cell) : String :=
  (b.colorAt? cell).getD Color.white

/-- White, and what the cells of the grid show. -/
def colorsInUse (b : Board) : Set String :=
  insert Color.white {color | ∃ cell : Cell, cell.Inside b.rows b.cols ∧ b.shown cell = color}

variable {b b' : Board} {color : String} {cell : Cell}

theorem shown_mem_colorsInUse (inside : cell.Inside b.rows b.cols) : b.shown cell ∈ b.colorsInUse :=
  .inr ⟨cell, inside, rfl⟩

namespace Tidy

theorem exportColor_eq (h : b.Tidy) (cell : Cell) : b.exportColor cell = b.shown cell := by
  unfold Scene.exportColor shown
  cases painted : b.colorAt? cell with
  | none => rfl
  | some color => exact (h cell color painted).2

theorem mem_palette (h : b.Tidy) : color ∈ b.palette ↔ color ∈ b.colorsInUse := by
  have mem : ∀ (stored : List String) (colors : Palette),
      color ∈ stored.foldl (fun colors color => colors.insert (Color.normalize color)) colors ↔
        color ∈ colors ∨ ∃ color' ∈ stored, Color.normalize color' = color := by
    intro stored
    induction stored with
    | nil => simp
    | cons first stored ih =>
      intro colors
      rw [List.foldl_cons, ih, Std.TreeSet.mem_insert, Std.compare_eq_iff_eq,
        List.exists_mem_cons_iff, or_comm (a := Color.normalize first = color), or_assoc]
  have white : color ∈ Std.TreeSet.ofList [Color.white] ↔ color = Color.white := by
    rw [Std.TreeSet.mem_ofList, List.contains_iff_mem, List.mem_singleton]
  rw [Scene.palette, mem, white, colorsInUse, Set.mem_insert_iff]
  simp only [Scene.mem_values_fills_iff]
  constructor
  · rintro (rfl | ⟨stored, ⟨cell, painted⟩, rfl⟩)
    · exact .inl rfl
    · obtain ⟨inside, same⟩ := h cell _ painted
      exact .inr ⟨cell, inside, by rw [shown, painted, same]; rfl⟩
  · rintro (rfl | ⟨cell, inside, rfl⟩)
    · exact .inl rfl
    · rw [shown]
      cases painted : b.colorAt? cell with
      | none => exact .inl rfl
      | some color => exact .inr ⟨color, ⟨cell, painted⟩, (h cell color painted).2⟩

theorem size_palette (h : b.Tidy) : b.palette.size = b.colorsInUse.ncard := by
  have nodup : b.palette.toList.Nodup :=
    Std.TreeSet.distinct_toList.imp fun apart same => apart (Std.compare_eq_iff_eq.2 same)
  have all : b.colorsInUse = {color | color ∈ b.palette.toList} :=
    Set.ext fun color => by rw [Set.mem_ofPred_eq, Std.TreeSet.mem_toList, h.mem_palette]
  rw [all, ← List.coe_toFinset, Set.ncard_coe_finset, List.toFinset_card_of_nodup nodup,
    Std.TreeSet.length_toList]

/-! ### The format -/

open scoped Classical in
theorem format_bitmap (h : b.Tidy) : b.bitmap.format =
    if b.colorsInUse.ncard = 2 then .bits
    else if ∀ color ∈ b.colorsInUse, ∃ level, (color, level) ∈ grayLevels then .grays
    else .colors := by
  have white : b.palette.contains Color.white :=
    Std.TreeSet.contains_iff_mem.2 (h.mem_palette.2 (.inl rfl))
  have grays : (b.palette.toList.all fun color => (grayLevel? color).isSome) = true ↔
      ∀ color ∈ b.colorsInUse, ∃ level, (color, level) ∈ grayLevels := by
    rw [List.all_eq_true]
    refine forall_congr' fun color => ?_
    rw [Std.TreeSet.mem_toList, h.mem_palette, Option.isSome_iff_exists]
    simp only [grayLevel?_eq_some_iff]
  show b.palette.format = _
  rw [Palette.format, h.size_palette, white]
  simp only [and_true, grays]

theorem isSome_grayLevel? (h : b.Tidy) (gray : b.bitmap.format = .grays)
    (inside : cell.Inside b.rows b.cols) : (grayLevel? (b.shown cell)).isSome := by
  rw [h.format_bitmap] at gray
  split_ifs at gray with two all
  obtain ⟨level, entry⟩ := all _ (shown_mem_colorsInUse inside)
  rw [grayLevel?_eq_some_iff.2 entry]
  rfl

/-- Of two colors of which one is white, the ink is the other. -/
theorem exists_ink (h : b.Tidy) (bits : b.bitmap.format = .bits) :
    ∃ ink, b.palette.toList.find? (· ≠ Color.white) = some ink ∧
      ∀ color ∈ b.colorsInUse, color = ink ↔ color ≠ Color.white := by
  have two : b.colorsInUse.ncard = 2 := by
    rw [h.format_bitmap] at bits
    split_ifs at bits with two
    exact two
  obtain ⟨x, y, apart, pair⟩ := Set.ncard_eq_two.1 two
  have mem : ∀ {color}, color ∈ b.palette.toList ↔ color = x ∨ color = y := fun {color} => by
    rw [Std.TreeSet.mem_toList, h.mem_palette, pair, Set.mem_insert_iff, Set.mem_singleton_iff]
  have white : Color.white = x ∨ Color.white = y :=
    mem.1 (Std.TreeSet.mem_toList.2 (h.mem_palette.2 (.inl rfl)))
  have other : ∃ color ∈ b.palette.toList, decide (color ≠ Color.white) = true := by
    rcases white with rfl | rfl
    · exact ⟨y, mem.2 (.inr rfl), decide_eq_true apart.symm⟩
    · exact ⟨x, mem.2 (.inl rfl), decide_eq_true apart⟩
  obtain ⟨ink, found⟩ := Option.isSome_iff_exists.1 (List.find?_isSome.2 other)
  have dark : ink ≠ Color.white :=
    of_decide_eq_true (List.find?_some (p := (· ≠ Color.white)) found)
  have inkMem := mem.1 (List.mem_of_find?_eq_some found)
  refine ⟨ink, found, fun color hc => ?_⟩
  rw [pair, Set.mem_insert_iff, Set.mem_singleton_iff] at hc
  grind

/-! ### The text -/

theorem bitmapEntry_eq (h : b.Tidy) (inside : cell.Inside b.rows b.cols) :
    b.bitmapEntry b.bitmap.format b.palette.ink cell =
      Raster.line (b.bitmap.format.numbers (b.shown cell)) := by
  cases format : b.bitmap.format with
  | bits =>
    obtain ⟨ink, found, other⟩ := h.exists_ink format
    have dark := other _ (shown_mem_colorsInUse inside)
    rw [Scene.bitmapEntry, h.exportColor_eq, Palette.ink, found, Option.getD_some,
      BitmapFormat.numbers, Raster.line_singleton]
    by_cases white : b.shown cell = Color.white
    · rw [if_neg (mt dark.1 (not_not_intro white)), if_pos white]
      rfl
    · rw [if_pos (dark.2 white), if_neg white]
      rfl
  | grays =>
    rw [Scene.bitmapEntry, h.exportColor_eq, BitmapFormat.numbers, Raster.line_singleton]
  | colors =>
    rw [Scene.bitmapEntry, h.exportColor_eq, BitmapFormat.numbers]
    rfl

end Tidy

/-- The raster of the colors that a board shows. -/
def raster (b : Board) : Raster where
  format := b.bitmap.format
  cols := b.cols
  rows := b.rows
  table := (List.range b.rows).map fun row =>
    (List.range b.cols).flatMap fun col => b.bitmap.format.numbers (b.shown ⟨row, col⟩)

theorem sound_raster (h : b.Sound) : b.raster.Sound := by
  refine ⟨h.cols_pos, by simp [raster], fun numbers hn => ?_⟩
  obtain ⟨row, -, rfl⟩ := List.mem_map.1 hn
  constructor
  · simp [raster, List.length_flatMap, BitmapFormat.length_numbers]
  · intro n hn
    obtain ⟨col, -, hn⟩ := List.mem_flatMap.1 hn
    exact b.bitmap.format.numbers_le_maximum _ n hn

theorem Tidy.bitmapRow_eq (h : b.Tidy) {row : ℕ} (lt : row < b.rows) :
    b.bitmapRow b.bitmap.format b.palette.ink row =
      Raster.line ((List.range b.cols).flatMap fun col =>
        b.bitmap.format.numbers (b.shown ⟨row, col⟩)) ++ "\n" := by
  have entries : (List.range b.cols).map
        (fun col => b.bitmapEntry b.bitmap.format b.palette.ink ⟨row, col⟩) =
      ((List.range b.cols).map fun col => b.bitmap.format.numbers (b.shown ⟨row, col⟩)).map
        Raster.line := by
    rw [List.map_map]
    exact List.map_congr_left fun col hc => h.bitmapEntry_eq ⟨lt, List.mem_range.1 hc⟩
  have complete : ∀ numbers ∈ (List.range b.cols).map fun col =>
      b.bitmap.format.numbers (b.shown ⟨row, col⟩), numbers ≠ [] := by
    intro numbers hn
    obtain ⟨col, -, rfl⟩ := List.mem_map.1 hn
    refine List.ne_nil_of_length_pos ?_
    rw [BitmapFormat.length_numbers]
    cases b.bitmap.format <;> decide
  rw [Scene.bitmapRow, entries, Raster.intercalate_line complete, List.flatMap_def]

theorem bitmapHead_eq (s : Scene) (format : BitmapFormat) : s.bitmapHead format =
    String.join ((format.magic :: Raster.line [s.cols, s.rows] :: format.maximumLines).map
      (· ++ "\n")) := by
  rw [Raster.line_cons _ (by simp), Raster.line_singleton]
  unfold Scene.bitmapHead
  have most : toString 255 = "255" := by decide
  cases format <;>
    simp only [BitmapFormat.maximumLines, BitmapFormat.maximum, most, List.map_cons, List.map_nil,
      String.join_cons, String.join_nil, String.append_assoc, String.append_empty]
  rfl

theorem Tidy.text_bitmap (h : b.Tidy) : b.bitmap.text = b.raster.text := by
  have body : (List.range b.rows).map (b.bitmapRow b.bitmap.format b.palette.ink) =
      (b.raster.table.map Raster.line).map (· ++ "\n") := by
    rw [raster, List.map_map, List.map_map]
    exact List.map_congr_left fun row hr => h.bitmapRow_eq (List.mem_range.1 hr)
  have parts : b.bitmap.text = b.bitmapHead b.bitmap.format ++
      String.join ((List.range b.rows).map (b.bitmapRow b.bitmap.format b.palette.ink)) := rfl
  rw [parts, body, bitmapHead_eq, ← String.join_append, ← List.map_append]
  rfl

/-! ### Boards that show the same -/

/-- Two boards of the same dimensions that show the same colors. -/
structure Alike (b b' : Board) : Prop where
  rows : b'.rows = b.rows
  cols : b'.cols = b.cols
  shown : ∀ cell : Cell, cell.Inside b.rows b.cols → b'.shown cell = b.shown cell

namespace Alike

theorem refl (b : Board) : b.Alike b :=
  ⟨rfl, rfl, fun _ _ => rfl⟩

theorem trans {b'' : Board} (h : b.Alike b') (h' : b'.Alike b'') : b.Alike b'' where
  rows := h'.rows.trans h.rows
  cols := h'.cols.trans h.cols
  shown cell inside :=
    (h'.shown cell (by rwa [h.rows, h.cols])).trans (h.shown cell inside)

theorem colorsInUse_eq (h : b.Alike b') : b'.colorsInUse = b.colorsInUse := by
  have shows : ∀ color, (∃ cell : Cell, cell.Inside b'.rows b'.cols ∧ b'.shown cell = color) ↔
      ∃ cell : Cell, cell.Inside b.rows b.cols ∧ b.shown cell = color := by
    intro color
    rw [h.rows, h.cols]
    exact exists_congr fun cell => and_congr_right fun inside => by rw [h.shown cell inside]
  simp only [colorsInUse, shows]

/-- Boards that show the same have the same bitmap. -/
theorem bitmap_eq (h : b.Alike b') (tidy : b.Tidy) (tidy' : b'.Tidy) : b'.bitmap = b.bitmap := by
  have format : b'.bitmap.format = b.bitmap.format := by
    rw [tidy'.format_bitmap, tidy.format_bitmap, h.colorsInUse_eq]
  have raster : b'.raster = b.raster := by
    unfold Board.raster
    rw [format, h.rows, h.cols]
    congr 1
    refine List.map_congr_left fun row hr => List.flatMap_congr fun col hc => ?_
    rw [h.shown _ ⟨List.mem_range.1 hr, List.mem_range.1 hc⟩]
  calc b'.bitmap = ⟨b'.bitmap.format, b'.bitmap.text⟩ := rfl
    _ = ⟨b.bitmap.format, b.bitmap.text⟩ := by
      rw [format, tidy'.text_bitmap, tidy.text_bitmap, raster]

end Alike

/-! ### Painting -/

/-- Painting a cell of the grid changes what this cell shows. -/
theorem shown_fill (place : Cell) (color : String) (inside : cell.Inside b.rows b.cols) :
    (b.fill place.row place.col color).shown cell =
      if cell = place then Color.normalize color else b.shown cell := by
  by_cases inGrid : b.Contains place.row place.col
  · rw [fill_of_contains b inGrid]
    show (b.fills.insert place (Color.normalize color))[cell]?.getD Color.white = _
    rw [Std.TreeMap.getElem?_insert]
    by_cases here : cell = place
    · rw [if_pos (Std.compare_eq_iff_eq.2 here.symm), if_pos here, Option.getD_some]
    · rw [if_neg (mt Std.compare_eq_iff_eq.1 (Ne.symm here)), if_neg here]
      rfl
  · rw [fill_of_not_contains b inGrid]
    refine (if_neg ?_).symm
    rintro rfl
    refine inGrid ⟨?_, ?_, ?_, ?_⟩
    · exact Int.natCast_nonneg _
    · exact Int.natCast_nonneg _
    · exact Int.ofNat_lt.2 inside.1
    · exact Int.ofNat_lt.2 inside.2

/-- Painting cells one after the other. -/
def paint (b : Board) (fills : List (Cell × String)) : Board :=
  fills.foldl (fun b fill => b.fill fill.1.row fill.1.col fill.2) b

theorem Reachable.paint (h : b.Reachable) (fills : List (Cell × String)) :
    (b.paint fills).Reachable := by
  induction fills generalizing b with
  | nil => exact h
  | cons fill fills ih => exact ih (h.change (c := .fill _ _ _) trivial)

namespace Alike

theorem fill (h : b.Alike b') (place : Cell) (color : String) :
    (b.fill place.row place.col color).Alike (b'.fill place.row place.col color) where
  rows := by rw [rows_fill, rows_fill, h.rows]
  cols := by rw [cols_fill, cols_fill, h.cols]
  shown cell inside := by
    rw [rows_fill, cols_fill] at inside
    have inside' : cell.Inside b'.rows b'.cols := by rwa [h.rows, h.cols]
    rw [shown_fill place color inside', shown_fill place color inside, h.shown cell inside]

theorem paint (h : b.Alike b') (fills : List (Cell × String)) :
    (b.paint fills).Alike (b'.paint fills) := by
  induction fills generalizing b b' with
  | nil => exact h
  | cons fill fills ih => exact ih (h.fill fill.1 fill.2)

/-- Painting a cell in the color that it shows changes nothing that is shown. -/
theorem fill_shown {place : Cell} (same : Color.normalize color = b.shown place) :
    b.Alike (b.fill place.row place.col color) where
  rows := rows_fill b _ _ _
  cols := cols_fill b _ _ _
  shown cell inside := by
    rw [shown_fill place color inside]
    split_ifs with here
    · rw [here, same]
    · rfl

/-- Two different cells can be painted in any order. -/
theorem fill_comm {place place' : Cell} (apart : place ≠ place') (color color' : String) :
    ((b.fill place.row place.col color).fill place'.row place'.col color').Alike
      ((b.fill place'.row place'.col color').fill place.row place.col color) where
  rows := by simp only [rows_fill]
  cols := by simp only [cols_fill]
  shown cell inside := by
    simp only [rows_fill, cols_fill] at inside
    rw [shown_fill place color (by rwa [rows_fill, cols_fill]), shown_fill place' color' inside,
      shown_fill place' color' (by rwa [rows_fill, cols_fill]), shown_fill place color inside]
    split_ifs with here here'
    · exact absurd (here.symm.trans here') apart
    · rfl
    · rfl
    · rfl

theorem paint_of_perm {fills fills' : List (Cell × String)} (perm : fills.Perm fills')
    (nodup : (fills.map Prod.fst).Nodup) (h : b.Alike b') :
    (b.paint fills).Alike (b'.paint fills') := by
  induction perm generalizing b b' with
  | nil => exact h
  | cons fill _ ih => exact ih nodup.of_cons (h.fill fill.1 fill.2)
  | swap fill fill' fills =>
    have apart : fill'.1 ≠ fill.1 := fun same =>
      (List.nodup_cons.1 nodup).1 (same ▸ List.mem_cons_self)
    exact ((fill_comm apart _ _).trans ((h.fill _ _).fill _ _)).paint fills
  | trans first _ ih ih' =>
    exact (ih nodup h).trans (ih' ((first.map Prod.fst).nodup_iff.1 nodup) (refl b'))

end Alike

/-- The bitmap of a reachable board is the raster of the colors that its cells show: a line for the
format, one for the dimensions, one for the greatest number unless the format is that of two colors,
and one for each row of cells. It is read back as this raster. The format is that of two colors if
two are in use, otherwise that of grays if all colors are in the table of grays, and otherwise that
of all colors. The ink of two colors and the level of a gray are always found. Boards that show the
same have the same bitmap, so a white cell may have been painted white or not, and different cells
may have been painted in any order. -/
theorem Reachable.bitmap_exact (h : b.Reachable) :
    (∃ values : Cell → List ℕ,
      let raster : Raster := ⟨b.bitmap.format, b.cols, b.rows, (List.range b.rows).map fun row =>
        (List.range b.cols).flatMap fun col => values ⟨row, col⟩⟩
      b.bitmap.text = raster.text ∧ Raster.read? b.bitmap.text = some raster ∧
      ∀ cell : Cell, cell.Inside b.rows b.cols →
        b.bitmap.format.Shows (b.shown cell) (values cell)) ∧
    (b.bitmap.format = .bits ↔ b.colorsInUse.ncard = 2) ∧
    (b.bitmap.format = .grays ↔ b.colorsInUse.ncard ≠ 2 ∧
      ∀ color ∈ b.colorsInUse, ∃ level, (color, level) ∈ grayLevels) ∧
    (b.bitmap.format = .colors ↔ b.colorsInUse.ncard ≠ 2 ∧
      ¬ ∀ color ∈ b.colorsInUse, ∃ level, (color, level) ∈ grayLevels) ∧
    (b.bitmap.format = .bits → (b.palette.toList.find? (· ≠ Color.white)).isSome) ∧
    (b.bitmap.format = .grays → ∀ cell : Cell, cell.Inside b.rows b.cols →
      (grayLevel? (b.exportColor cell)).isSome) ∧
    (∀ b' : Board, b'.Reachable → b.Alike b' → b'.bitmap = b.bitmap) ∧
    (∀ (cell : Cell) color, Color.normalize color = b.shown cell →
      (b.fill cell.row cell.col color).bitmap = b.bitmap) ∧
    ∀ fills fills' : List (Cell × String), fills.Perm fills' → (fills.map Prod.fst).Nodup →
      (b.paint fills').bitmap = (b.paint fills).bitmap := by
  have tidy := h.tidy
  have format := tidy.format_bitmap
  refine ⟨⟨fun cell => b.bitmap.format.numbers (b.shown cell), tidy.text_bitmap, ?_, ?_⟩,
    ?_, ?_, ?_, ?_, ?_, ?_, ?_, ?_⟩
  · rw [tidy.text_bitmap]
    exact Raster.read?_text (sound_raster h.sound)
  · exact fun cell inside =>
      BitmapFormat.shows_numbers fun gray => tidy.isSome_grayLevel? gray inside
  · rw [format]
    split_ifs with two <;> simp [two]
  · rw [format]
    split_ifs with two gray
    · simp [two]
    · exact iff_of_true rfl ⟨two, gray⟩
    · exact iff_of_false nofun fun other => gray other.2
  · rw [format]
    split_ifs with two gray
    · simp [two]
    · exact iff_of_false nofun fun other => other.2 gray
    · exact iff_of_true rfl ⟨two, gray⟩
  · intro bits
    obtain ⟨ink, found, -⟩ := tidy.exists_ink bits
    rw [found]
    rfl
  · intro gray cell inside
    rw [tidy.exportColor_eq]
    exact tidy.isSome_grayLevel? gray inside
  · exact fun b' h' alike => alike.bitmap_eq tidy h'.tidy
  · exact fun cell color same => (Alike.fill_shown same).bitmap_eq tidy (tidy.fill _ _ _)
  · exact fun fills fills' perm nodup =>
      ((Alike.refl b).paint_of_perm perm nodup).bitmap_eq (h.paint fills).tidy (h.paint fills').tidy

/-- A board with one red cell. -/
def spotted : Board :=
  (ofSize 2 3).paint [(⟨0, 1⟩, "#F00")]

theorem Reachable.bitmap_exact_spotted :
    spotted.Reachable ∧ spotted.bitmap = ⟨.bits, "P1\n3 2\n0 1 0\n0 0 0\n"⟩ ∧
      spotted.colorsInUse.ncard = 2 ∧ (spotted.fill 1 2 "White").bitmap = spotted.bitmap := by
  have reachable : spotted.Reachable := (ofSize (by decide) (by decide)).paint _
  have bitmap : spotted.bitmap = ⟨.bits, "P1\n3 2\n0 1 0\n0 0 0\n"⟩ := by decide +kernel
  obtain ⟨-, bits, -, -, -, -, -, white, -⟩ := bitmap_exact reachable
  exact ⟨reachable, bitmap, bits.1 (by rw [bitmap]), white ⟨1, 2⟩ "White" (by decide +kernel)⟩

/-- A color that cannot be decoded is shown as black. -/
example : (((ofSize 1 3).fill 0 0 "#12").fill 0 1 "#123").bitmap.text =
    "P3\n3 1\n255\n0 0 0 17 34 51 255 255 255\n" := by decide +kernel

end Board

end BlockBoard
