import Mathlib.Algebra.Order.Ring.Int
import BlockBoard.Settings
import BlockBoard.Word

/-!
# What can be made of a board

However a board is set up, moved on and painted, its dimensions are positive words and its piece and
its start stand inside the grid (`Reachable.sound`). Drawing counts and shows a scene, and changes
nothing else of it.
-/

namespace BlockBoard

/-- A cell lies in a grid of the given dimensions. -/
def Cell.Inside (c : Cell) (rows cols : ℕ) : Prop :=
  c.row < rows ∧ c.col < cols

namespace Board

/-! ### Frames -/

section Frames

variable (b : Board) (clearFills : Bool) (d : Direction)

@[simp] theorem rows_draw : b.draw.rows = b.rows := rfl
@[simp] theorem cols_draw : b.draw.cols = b.cols := rfl
@[simp] theorem piece_draw : b.draw.piece = b.piece := rfl
@[simp] theorem start_draw : b.draw.start = b.start := rfl
@[simp] theorem fills_draw : b.draw.fills = b.fills := rfl

@[simp] theorem rows_applyStart : (b.applyStart clearFills).rows = b.rows := rfl
@[simp] theorem cols_applyStart : (b.applyStart clearFills).cols = b.cols := rfl
@[simp] theorem piece_applyStart : (b.applyStart clearFills).piece = b.start := rfl
@[simp] theorem start_applyStart : (b.applyStart clearFills).start = b.start := rfl
@[simp] theorem fills_applyStart_true : (b.applyStart true).fills = ∅ := rfl

@[simp] theorem rows_advance : (b.advance d).rows = b.rows := rfl
@[simp] theorem cols_advance : (b.advance d).cols = b.cols := rfl
@[simp] theorem start_advance : (b.advance d).start = b.start := rfl
@[simp] theorem fills_advance : (b.advance d).fills = b.fills := rfl

theorem fill_of_contains {row col : ℤ} (h : b.Contains row col) (color : String) :
    b.fill row col color =
      draw { b with fills := b.fills.insert ⟨row.toNat, col.toNat⟩ (Color.normalize color) } :=
  if_pos h

theorem fill_of_not_contains {row col : ℤ} (h : ¬ b.Contains row col) (color : String) :
    b.fill row col color = b :=
  if_neg h

@[simp] theorem rows_fill (row col : ℤ) (color : String) :
    (b.fill row col color).rows = b.rows := by
  by_cases inGrid : b.Contains row col
  · rw [fill_of_contains b inGrid, rows_draw]
  · rw [fill_of_not_contains b inGrid]

@[simp] theorem cols_fill (row col : ℤ) (color : String) :
    (b.fill row col color).cols = b.cols := by
  by_cases inGrid : b.Contains row col
  · rw [fill_of_contains b inGrid, cols_draw]
  · rw [fill_of_not_contains b inGrid]

end Frames

/-! ### Indices -/

theorem dimension_pos (n : ℤ) : 0 < dimension n := by
  unfold dimension
  omega

theorem fits_dimension {n : ℤ} (h : Word.Fits n) : Word.Fits (dimension n) := by
  simp only [Word.Fits, dimension] at h ⊢
  omega

theorem clampIndex_lt (n : ℤ) {length : ℕ} (pos : 0 < length) : clampIndex n length < length := by
  unfold clampIndex
  omega

theorem wrap_lt (index : ℕ) (delta : ℤ) {length : ℕ} (pos : 0 < length) :
    wrap index delta length < length := by
  have low := Int.emod_nonneg ((index : ℤ) + delta) (b := length) (by omega)
  have high := Int.emod_lt_of_pos ((index : ℤ) + delta) (b := length) (by omega)
  unfold wrap
  omega

/-! ### Sound boards -/

/-- The dimensions are positive words, and the piece and the start are inside the grid. -/
structure Sound (b : Board) : Prop where
  rows_pos : 0 < b.rows
  cols_pos : 0 < b.cols
  rows_fits : Word.Fits b.rows
  cols_fits : Word.Fits b.cols
  piece_inside : b.piece.Inside b.rows b.cols
  start_inside : b.start.Inside b.rows b.cols

namespace Sound

variable {b b' : Board}

theorem ofSize {rows cols : ℤ} (hr : Word.Fits rows) (hc : Word.Fits cols) :
    (Board.ofSize rows cols).Sound where
  rows_pos := dimension_pos rows
  cols_pos := dimension_pos cols
  rows_fits := fits_dimension hr
  cols_fits := fits_dimension hc
  piece_inside := ⟨dimension_pos rows, dimension_pos cols⟩
  start_inside := ⟨dimension_pos rows, dimension_pos cols⟩

/-- Only the piece moved, to a cell of the grid. -/
theorem movePiece (h : b.Sound) (rows : b'.rows = b.rows) (cols : b'.cols = b.cols)
    (start : b'.start = b.start) (inside : b'.piece.Inside b.rows b.cols) : b'.Sound := by
  constructor <;> simp only [rows, cols, start]
  exacts [h.rows_pos, h.cols_pos, h.rows_fits, h.cols_fits, inside, h.start_inside]

theorem applyStart (h : b.Sound) (clearFills : Bool) : (b.applyStart clearFills).Sound :=
  h.movePiece rfl rfl rfl h.start_inside

theorem setGrid (b : Board) {rows cols : ℤ} (hr : Word.Fits rows) (hc : Word.Fits cols) :
    (b.setGrid rows cols).Sound := by
  have posR := dimension_pos rows
  have posC := dimension_pos cols
  have inside : Cell.Inside ⟨min b.start.row (dimension rows - 1),
      min b.start.col (dimension cols - 1)⟩ (dimension rows) (dimension cols) := by
    constructor <;> simp only <;> omega
  exact ⟨posR, posC, fits_dimension hr, fits_dimension hc, inside, inside⟩

theorem setStart (h : b.Sound) (row col : ℤ) : (b.setStart row col).Sound := by
  have inside : Cell.Inside ⟨clampIndex row b.rows, clampIndex col b.cols⟩ b.rows b.cols :=
    ⟨clampIndex_lt row h.rows_pos, clampIndex_lt col h.cols_pos⟩
  exact ⟨h.rows_pos, h.cols_pos, h.rows_fits, h.cols_fits, inside, inside⟩

theorem advance (h : b.Sound) (d : Direction) : (b.advance d).Sound :=
  h.movePiece rfl rfl rfl ⟨wrap_lt _ _ h.rows_pos, wrap_lt _ _ h.cols_pos⟩

theorem advances (h : b.Sound) (d : Direction) (n : ℕ) : (b.advances d n).Sound := by
  induction n generalizing b with
  | zero => exact h
  | succ n ih => exact ih (h.advance d)

theorem fill (h : b.Sound) (row col : ℤ) (color : String) : (b.fill row col color).Sound := by
  by_cases inGrid : b.Contains row col
  · rw [fill_of_contains b inGrid]
    exact h.movePiece rfl rfl rfl h.piece_inside
  · rwa [fill_of_not_contains b inGrid]

end Sound

/-! ### Changes -/

/-- A change of a board. -/
inductive Change where
  | setGrid (rows cols : ℤ)
  | setStart (row col : ℤ)
  | applyStart (clearFills : Bool)
  | reset
  | go (direction : Option Direction) (steps delay : ℕ)
  | fill (row col : ℤ) (color : String)
  | fillPiece (color : String)
  | settings (s : Settings)
  | corner (c : Corner)
  | observe
  | unobserve

/-- The numbers of a change that set up a grid are words. -/
def Change.Fits : Change → Prop
  | .setGrid rows cols => Word.Fits rows ∧ Word.Fits cols
  | .settings s => Word.Fits s.rows ∧ Word.Fits s.cols
  | _ => True

/-- The board after a change. -/
def change (b : Board) : Change → Board
  | .setGrid rows cols => b.setGrid rows cols
  | .setStart row col => b.setStart row col
  | .applyStart clearFills => b.applyStart clearFills
  | .reset => b.reset
  | .go direction steps delay => (b.go direction steps delay).1
  | .fill row col color => b.fill row col color
  | .fillPiece color => b.fillPiece color
  | .settings s => s.apply b
  | .corner c => c.apply b
  | .observe => b.observe
  | .unobserve => b.unobserve

/-- What a program can make of a board that it creates. -/
inductive Reachable : Board → Prop
  | ofSize {rows cols : ℤ} : Word.Fits rows → Word.Fits cols → Reachable (ofSize rows cols)
  | change {b : Board} {c : Change} : Reachable b → c.Fits → Reachable (b.change c)

variable {b : Board}

theorem Sound.change (h : b.Sound) {c : Change} (fits : c.Fits) : (b.change c).Sound := by
  cases c with
  | setGrid rows cols => exact .setGrid b fits.1 fits.2
  | setStart row col => exact h.setStart row col
  | applyStart clearFills => exact h.applyStart clearFills
  | reset => exact h.applyStart true
  | go direction steps delay =>
    cases direction with
    | none => exact h
    | some d => exact h.advances d steps
  | fill row col color => exact h.fill row col color
  | fillPiece color => exact h.fill _ _ color
  | settings s => exact ((Sound.setGrid b fits.1 fits.2).setStart _ _).applyStart true
  | corner c => exact h.setStart _ _
  | observe | unobserve => exact ⟨h.rows_pos, h.cols_pos, h.rows_fits, h.cols_fits, h.piece_inside,
      h.start_inside⟩

theorem Reachable.sound (h : b.Reachable) : b.Sound := by
  induction h with
  | ofSize hr hc => exact Sound.ofSize hr hc
  | change _ fits ih => exact ih.change fits

theorem Reachable.advance (h : b.Reachable) (d : Direction) : (b.advance d).Reachable :=
  h.change (c := .go (some d) 1 0) trivial

theorem Reachable.fillPiece (h : b.Reachable) (color : String) : (b.fillPiece color).Reachable :=
  h.change (c := .fillPiece color) trivial

theorem Reachable.applyStart (h : b.Reachable) (clearFills : Bool) :
    (b.applyStart clearFills).Reachable :=
  h.change (c := .applyStart clearFills) trivial

theorem reachable_standard : standard.Reachable :=
  .ofSize (by decide) (by decide)

/-! ### One cell further -/

end Board

/-- The cell next to a cell, around the edges of a grid. -/
def Cell.neighbor (rows cols : ℕ) (c : Cell) : Direction → Cell
  | .up => { c with row := if c.row = 0 then rows - 1 else c.row - 1 }
  | .down => { c with row := if c.row + 1 = rows then 0 else c.row + 1 }
  | .left => { c with col := if c.col = 0 then cols - 1 else c.col - 1 }
  | .right => { c with col := if c.col + 1 = cols then 0 else c.col + 1 }

namespace Board

theorem wrap_zero {index length : ℕ} (h : index < length) : wrap index 0 length = index := by
  rw [wrap, Int.add_zero, Int.emod_eq_of_lt (by omega) (by omega), Int.toNat_natCast]

theorem wrap_one {index length : ℕ} (h : index < length) :
    wrap index 1 length = if index + 1 = length then 0 else index + 1 := by
  unfold wrap
  split_ifs with last
  · rw [← last, Nat.cast_succ, Int.emod_self]
    rfl
  · rw [Int.emod_eq_of_lt (by omega) (by omega)]
    omega

theorem wrap_neg_one {index length : ℕ} (h : index < length) :
    wrap index (-1) length = if index = 0 then length - 1 else index - 1 := by
  unfold wrap
  split_ifs with first
  · subst first
    have around : ((0 : ℕ) : ℤ) + -1 = ((length - 1 : ℕ) : ℤ) + length * (-1) := by omega
    rw [around, Int.add_mul_emod_self_left, Int.emod_eq_of_lt (by omega) (by omega)]
    omega
  · rw [Int.emod_eq_of_lt (by omega) (by omega)]
    omega

theorem piece_advance {b : Board} (inside : b.piece.Inside b.rows b.cols) (d : Direction) :
    (b.advance d).piece = b.piece.neighbor b.rows b.cols d := by
  have wrapped : (b.advance d).piece =
      ⟨wrap b.piece.row d.delta.1 b.rows, wrap b.piece.col d.delta.2 b.cols⟩ := rfl
  rw [wrapped]
  cases d <;> simp only [Direction.delta, Cell.neighbor, wrap_zero inside.1, wrap_zero inside.2,
    wrap_one inside.1, wrap_one inside.2, wrap_neg_one inside.1, wrap_neg_one inside.2]

end Board

end BlockBoard
