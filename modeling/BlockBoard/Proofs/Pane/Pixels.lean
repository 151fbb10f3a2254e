import BlockBoard.Pane.Board
import BlockBoard.Proofs.Board.Bitmap

/-!
# The colors on the screen and in a bitmap

A bitmap of all colors writes the color of a cell with three numbers, and the board pane shows it
behind the two characters of the cell. Both decode what the board stores, each in its own way, and
come to the same (`Board.Reachable.pixel_eq_background`), unless the color cannot be decoded: the
bitmap has black for it then, with a report, and the pane the white of an empty cell.
-/

namespace BlockBoard

/-! ### In a bitmap -/

namespace Raster

/-- The colors that the numbers of a line stand for, three for each. -/
def colors : List ℕ → List Rgb
  | red :: green :: blue :: numbers => ⟨red, green, blue⟩ :: colors numbers
  | _ => []

theorem colors_flatMap {α : Type} (color : α → Rgb) (l : List α) :
    colors (l.flatMap fun a => [(color a).red, (color a).green, (color a).blue]) = l.map color := by
  induction l with
  | nil => rfl
  | cons a l ih =>
    rw [List.flatMap_cons, List.map_cons, ← ih]
    rfl

/-- The color of a cell in a bitmap of all colors. -/
def pixel? (r : Raster) (cell : Cell) : Option Rgb :=
  r.table[cell.row]?.bind fun numbers => (colors numbers)[cell.col]?

end Raster

/-! ### On the screen -/

namespace BoardPane

/-- The background that lines of a board give a cell. -/
def background? (lines : List Line) (cell : Cell) : Option Tint :=
  (lines[cell.row]?.bind fun l => l.spans[cell.col]?).bind fun span => span.style.bg

theorem bg_cellSpan (s : Scene) (cell : Cell) :
    (cellSpan s cell).style.bg = some (cellTint s cell) := by
  unfold cellSpan
  split_ifs <;> rfl

/-- Each cell of the grid has a span, on the background of its color. -/
theorem background?_lines (s : Scene) {cell : Cell} (inside : cell.Inside s.rows s.cols) :
    background? (lines s) cell = some (cellTint s cell) := by
  have line : (lines s)[cell.row]? = some (rowLine s s.cols cell.row) := by
    rw [lines, List.getElem?_map, List.getElem?_range inside.1]
    rfl
  have span : (rowLine s s.cols cell.row).spans[cell.col]? = some (cellSpan s cell) := by
    rw [rowLine, Nat.min_self, List.getElem?_map, List.getElem?_range inside.2]
    rfl
  rw [background?, line, Option.bind_some, span, Option.bind_some, bg_cellSpan]

/-- A cell that was not painted in a color that can be decoded is white. -/
theorem cellTint_eq (s : Scene) (cell : Cell) :
    cellTint s cell = .rgb (((s.colorAt? cell).bind Color.toRgb?).getD ⟨255, 255, 255⟩) := by
  unfold cellTint
  cases (s.colorAt? cell).bind Color.toRgb? <;> rfl

end BoardPane

/-! ### Both -/

namespace Board

variable {b : Board}

theorem pixel?_raster (format : b.bitmap.format = .colors) {cell : Cell}
    (inside : cell.Inside b.rows b.cols) :
    b.raster.pixel? cell = some ((Color.toRgb? (b.shown cell)).getD ⟨0, 0, 0⟩) := by
  have numbers : b.raster.table[cell.row]? = some ((List.range b.cols).flatMap fun col =>
      BitmapFormat.colors.numbers (b.shown ⟨cell.row, col⟩)) := by
    rw [raster, List.getElem?_map, List.getElem?_range inside.1, format]
    rfl
  rw [Raster.pixel?, numbers, Option.bind_some]
  unfold BitmapFormat.numbers
  rw [Raster.colors_flatMap, List.getElem?_map, List.getElem?_range inside.2]
  rfl

/-- A bitmap of all colors says a color for each cell of the grid, and the pane gives the cell a
background. They are the same if the cell was not painted, or if it was painted in a color that can
be decoded. Otherwise the bitmap says black, which is reported, and the background is white. -/
theorem Reachable.pixel_eq_background (h : b.Reachable) (format : b.bitmap.format = .colors) :
    ∃ raster : Raster, Raster.read? b.bitmap.text = some raster ∧ raster.format = .colors ∧
      raster.rows = b.rows ∧ raster.cols = b.cols ∧
      (BoardPane.lines b.toScene).length = b.rows ∧
      ∀ cell : Cell, cell.Inside b.rows b.cols → ∃ pixel, raster.pixel? cell = some pixel ∧
        ((∀ color, b.colorAt? cell = some color → (Color.toRgb? color).isSome) →
          BoardPane.background? (BoardPane.lines b.toScene) cell = some (.rgb pixel)) ∧
        ∀ color, b.colorAt? cell = some color → Color.toRgb? color = none →
          pixel = ⟨0, 0, 0⟩ ∧ Bitmap.undecodedRecord (Color.normalize color) ∈ b.bitmapRecords ∧
            BoardPane.background? (BoardPane.lines b.toScene) cell =
              some (.rgb ⟨255, 255, 255⟩) := by
  have read : Raster.read? b.bitmap.text = some b.raster := by
    rw [h.tidy.text_bitmap]
    exact Raster.read?_text (sound_raster h.sound)
  have white : Color.toRgb? Color.white = some ⟨255, 255, 255⟩ := by decide +kernel
  refine ⟨b.raster, read, format, rfl, rfl, by simp [BoardPane.lines], fun cell inside => ?_⟩
  rw [pixel?_raster format inside, BoardPane.background?_lines _ inside, BoardPane.cellTint_eq,
    shown]
  refine ⟨_, rfl, fun decoded => ?_, fun color painted undecoded => ?_⟩
  · cases painted : b.colorAt? cell with
    | none =>
      rw [Option.bind_none, Option.getD_none, Option.getD_none, white]
      rfl
    | some color =>
      obtain ⟨rgb, found⟩ := Option.isSome_iff_exists.1 (decoded color painted)
      rw [Option.bind_some, Option.getD_some, found]
      rfl
  · have spelled : Color.normalize color = color := (h.tidy cell color painted).2
    have reported : Bitmap.undecodedRecord (Color.normalize color) ∈ b.bitmapRecords :=
      (Scene.mem_bitmapRecords_iff format).2
        ⟨cell, color, painted, by rw [spelled, undecoded], rfl⟩
    rw [painted, Option.bind_some, Option.getD_some, undecoded]
    exact ⟨rfl, reported, rfl⟩

/-- A board with three cells: one in a color that cannot be decoded, one in a color that can, and
one that is not painted. -/
def faded : Board :=
  ((ofSize 1 3).fill 0 0 "#12").fill 0 1 "#123"

theorem reachable_faded : faded.Reachable :=
  ((Reachable.ofSize (by decide) (by decide)).change (c := .fill 0 0 "#12") trivial).change
    (c := .fill 0 1 "#123") trivial

theorem Reachable.pixel_eq_background_faded :
    faded.Reachable ∧ faded.bitmap.format = .colors ∧
      Bitmap.undecodedRecord (Color.normalize "#12") ∈ faded.bitmapRecords ∧
      ∃ raster, Raster.read? faded.bitmap.text = some raster ∧
        ∃ pixel, raster.pixel? ⟨0, 1⟩ = some pixel ∧
          BoardPane.background? (BoardPane.lines faded.toScene) ⟨0, 1⟩ = some (.rgb pixel) := by
  have format : faded.bitmap.format = .colors := by decide +kernel
  obtain ⟨raster, read, -, -, -, -, cells⟩ := reachable_faded.pixel_eq_background format
  obtain ⟨_, -, -, undecoded⟩ := cells ⟨0, 0⟩ ⟨by decide, by decide⟩
  obtain ⟨-, reported, -⟩ := undecoded "#12" (by decide +kernel) (by decide +kernel)
  obtain ⟨pixel, hp, same, -⟩ := cells ⟨0, 1⟩ ⟨by decide, by decide⟩
  refine ⟨reachable_faded, format, reported, raster, read, pixel, hp, same fun color painted => ?_⟩
  have stored : faded.colorAt? ⟨0, 1⟩ = some "#112233" := by decide +kernel
  obtain rfl := Option.some.inj (stored.symm.trans painted)
  decide +kernel

/-- The first cell of `faded` is black in the bitmap, and white on the screen. -/
theorem pixel_ne_background_faded :
    faded.Reachable ∧ faded.bitmap = ⟨.colors, "P3\n3 1\n255\n0 0 0 17 34 51 255 255 255\n"⟩ ∧
      ∃ raster, Raster.read? faded.bitmap.text = some raster ∧
        raster.pixel? ⟨0, 0⟩ = some ⟨0, 0, 0⟩ ∧
        BoardPane.background? (BoardPane.lines faded.toScene) ⟨0, 0⟩ =
          some (.rgb ⟨255, 255, 255⟩) := by
  have read : Raster.read? faded.bitmap.text = some faded.raster := by
    rw [reachable_faded.tidy.text_bitmap]
    exact Raster.read?_text (sound_raster reachable_faded.sound)
  exact ⟨reachable_faded, by decide +kernel, faded.raster, read, by decide +kernel,
    by decide +kernel⟩

end Board

end BlockBoard
