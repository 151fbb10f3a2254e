import BlockBoard.Proofs.Project.Words

/-!
# Settings on a board

Settings need not make sense. A board takes the nearest ones that do (`Settings.clamped`), whatever
it was before, and keeps these when they are read from it and applied to any board again
(`Board.Reachable.settings_settle`).

The preset of settings is inferred before they are moved into range, with the dimensions raised as a
board raises them but with the start as it is stored. It is the preset of the board unless the start
lies outside of the grid and is moved to a corner (`Settings.corner_eq_inferOn_iff`).
-/

namespace BlockBoard

/-! ### Numbers moved into range -/

namespace Board

theorem dimension_natCast {n : ℕ} (pos : 0 < n) : dimension n = n := by
  unfold dimension
  omega

theorem natCast_dimension (n : ℤ) : (dimension n : ℤ) = max n 1 := by
  unfold dimension
  omega

theorem natCast_clampIndex (n : ℤ) {length : ℕ} (pos : 0 < length) :
    (clampIndex n length : ℤ) = min (max n 0) (length - 1) := by
  unfold clampIndex
  omega

end Board

namespace Corner

variable (c : Corner) (rows cols : ℤ)

/-- A preset raises dimensions as a board does. -/
theorem position_dimension :
    c.position (Board.dimension rows) (Board.dimension cols) = c.position rows cols := by
  have raised (n : ℤ) : max (Board.dimension n : ℤ) 1 = max n 1 := by
    unfold Board.dimension
    omega
  unfold position
  rw [raised, raised]

/-- A preset lies inside the grid. -/
theorem position_inside :
    (0 ≤ (c.position rows cols).1 ∧ (c.position rows cols).1 < max rows 1) ∧
      0 ≤ (c.position rows cols).2 ∧ (c.position rows cols).2 < max cols 1 := by
  cases c <;> simp only [position] <;> omega

/-- So a board does not have to move it there. -/
theorem clampIndex_position :
    ((Board.clampIndex (c.position rows cols).1 (Board.dimension rows) : ℤ),
      (Board.clampIndex (c.position rows cols).2 (Board.dimension cols) : ℤ)) =
        c.position rows cols := by
  have kept {n length : ℤ} (inside : 0 ≤ n ∧ n < max length 1) :
      (Board.clampIndex n (Board.dimension length) : ℤ) = n := by
    rw [Board.natCast_clampIndex n (Board.dimension_pos length), Board.natCast_dimension]
    omega
  obtain ⟨row, col⟩ := c.position_inside rows cols
  exact Prod.ext (kept row) (kept col)

variable {rows cols} {row col : ℤ}

/-- A corner is inferred where it lies, and the center where there is no corner. -/
theorem infer_cases :
    infer rows cols row col ≠ center ∧
        (infer rows cols row col).position rows cols = (row, col) ∨
      infer rows cols row col = center ∧ ¬ ∃ c ≠ center, c.position rows cols = (row, col) := by
  unfold infer
  dsimp only
  cases found : [topLeft, topRight, bottomLeft, bottomRight].find? fun c =>
      decide (c.position rows cols = (row, col)) with
  | none =>
    refine .inr ⟨rfl, ?_⟩
    rintro ⟨c, ne, there⟩
    have listed : c ∈ [topLeft, topRight, bottomLeft, bottomRight] := by
      cases c <;> simp at ne ⊢
    exact List.find?_eq_none.1 found c listed (decide_eq_true there)
  | some c =>
    have there := List.find?_some (p := fun c : Corner =>
      decide (c.position rows cols = (row, col))) found
    refine .inl ⟨?_, of_decide_eq_true there⟩
    rintro rfl
    exact absurd (List.mem_of_find?_eq_some found) (by decide)

theorem position_infer (ne : infer rows cols row col ≠ .center) :
    (infer rows cols row col).position rows cols = (row, col) :=
  infer_cases.elim And.right fun h => absurd h.1 ne

theorem infer_eq_center_iff :
    infer rows cols row col = .center ↔ ¬ ∃ c ≠ center, c.position rows cols = (row, col) := by
  constructor
  · intro isCenter
    exact infer_cases.elim (fun h => absurd isCenter h.1) And.right
  · intro nowhere
    by_contra ne
    exact nowhere ⟨_, ne, position_infer ne⟩

/-- The corners are where the first or the last row meets the first or the last column. -/
theorem exists_position_eq_iff :
    (∃ c ≠ center, c.position rows cols = (row, col)) ↔
      (row = 0 ∨ row = max rows 1 - 1) ∧ (col = 0 ∨ col = max cols 1 - 1) := by
  constructor
  · rintro ⟨c, ne, there⟩
    cases c with
    | center => exact absurd rfl ne
    | _ =>
      obtain ⟨rfl, rfl⟩ := Prod.mk.inj there
      simp
  · rintro ⟨rfl | rfl, rfl | rfl⟩
    · exact ⟨topLeft, by decide, rfl⟩
    · exact ⟨topRight, by decide, rfl⟩
    · exact ⟨bottomLeft, by decide, rfl⟩
    · exact ⟨bottomRight, by decide, rfl⟩

/-- The preset that stands for the start of a board. -/
def inferOn (b : Board) : Corner :=
  infer b.rows b.cols b.start.row b.start.col

end Corner

namespace Settings

variable (s : Settings) (b : Board)

/-- The nearest settings that a board can have. -/
def clamped : Settings where
  rows := max s.rows 1
  cols := max s.cols 1
  startRow := min (max s.startRow 0) (max s.rows 1 - 1)
  startCol := min (max s.startCol 0) (max s.cols 1 - 1)

theorem ofBoard_apply : ofBoard (s.apply b) = s.clamped := by
  have rows := Board.natCast_clampIndex s.startRow (Board.dimension_pos s.rows)
  have cols := Board.natCast_clampIndex s.startCol (Board.dimension_pos s.cols)
  rw [Board.natCast_dimension] at rows cols
  have placed : ofBoard (s.apply b) = ⟨Board.dimension s.rows, Board.dimension s.cols,
      Board.clampIndex s.startRow (Board.dimension s.rows),
      Board.clampIndex s.startCol (Board.dimension s.cols)⟩ := rfl
  rw [placed, Board.natCast_dimension, Board.natCast_dimension, rows, cols]
  rfl

theorem clamped_clamped : s.clamped.clamped = s.clamped := by
  simp only [clamped, mk.injEq]
  omega

theorem clamped_ofBoard {b : Board} (sound : b.Sound) : (ofBoard b).clamped = ofBoard b := by
  have rows := sound.rows_pos
  have cols := sound.cols_pos
  have inside := sound.start_inside
  simp only [Cell.Inside] at inside
  simp only [clamped, ofBoard, mk.injEq]
  omega

variable {s}

theorem Fits.clamped (fits : s.Fits) : s.clamped.Fits := by
  obtain ⟨rows, cols, startRow, startCol⟩ := fits
  simp only [Word.Fits] at rows cols startRow startCol
  constructor <;> simp only [Settings.clamped, Word.Fits] <;> omega

end Settings

/-! ### Boards that are laid out -/

namespace Board

variable {b b' : Board} {s : Settings}

/-- The dimensions and the start are those of the settings, and the piece stands at the start of an
unpainted grid. -/
structure LaidOut (b : Board) (s : Settings) : Prop where
  settings : Settings.ofBoard b = s
  piece : b.piece = b.start
  fills : b.fills = ∅

/-- Settings leave nothing open but the number of redraws. -/
theorem LaidOut.toScene_eq (h : b.LaidOut s) (h' : b'.LaidOut s) :
    { b.toScene with redraws := b'.redraws } = b'.toScene := by
  have same := h.settings.trans h'.settings.symm
  simp only [Settings.ofBoard, Settings.mk.injEq, Nat.cast_inj] at same
  obtain ⟨rows, cols, row, col⟩ := same
  have start : b.start = b'.start := by
    show Cell.mk b.start.row b.start.col = ⟨b'.start.row, b'.start.col⟩
    rw [row, col]
  show Scene.mk b.rows b.cols b.piece b.start b.fills b'.redraws =
    ⟨b'.rows, b'.cols, b'.piece, b'.start, b'.fills, b'.redraws⟩
  rw [rows, cols, h.piece, h'.piece, h.fills, h'.fills, start]

theorem laidOut_apply (s : Settings) (b : Board) : (s.apply b).LaidOut s.clamped :=
  ⟨s.ofBoard_apply b, rfl, rfl⟩

/-- What settings make of a board depends on the settings alone, but for the number of redraws: the
nearest settings that a board can have. These are words, they are read from the board afterwards,
and they make the same of any other board. So do the settings of any board at all. -/
theorem Reachable.settings_settle (h : b.Reachable) (fits : s.Fits) (b' : Board) :
    (s.apply b).LaidOut s.clamped ∧ s.clamped.Fits ∧
      { (s.apply b).toScene with redraws := (s.apply b').redraws } = (s.apply b').toScene ∧
      ((Settings.ofBoard (s.apply b)).apply b').LaidOut s.clamped ∧
      ((Settings.ofBoard b).apply b').LaidOut (Settings.ofBoard b) := by
  have laidOut := laidOut_apply s b
  refine ⟨laidOut, fits.clamped, laidOut.toScene_eq (laidOut_apply s b'), ?_, ?_⟩
  · have again := laidOut_apply s.clamped b'
    rw [s.ofBoard_apply]
    rwa [s.clamped_clamped] at again
  · have copied := laidOut_apply (Settings.ofBoard b) b'
    rwa [Settings.clamped_ofBoard h.sound] at copied

/-- Settings at both ends of the range of words. -/
def farSettings : Settings :=
  ⟨0x7fffffffffffffff, -0x8000000000000000, 0x7fffffffffffffff, -0x8000000000000000⟩

/-- A board of one very long column starts at its end; the settings of another board are copied. -/
theorem Reachable.settings_settle_far :
    standard.Reachable ∧ farSettings.Fits ∧
      (farSettings.apply standard).LaidOut ⟨0x7fffffffffffffff, 1, 0x7ffffffffffffffe, 0⟩ ∧
      ((Settings.ofBoard standard).apply (Board.ofSize 2 3)).LaidOut {} := by
  have fits : farSettings.Fits := by constructor <;> decide
  obtain ⟨laidOut, -, -, -, copied⟩ := reachable_standard.settings_settle fits (Board.ofSize 2 3)
  exact ⟨reachable_standard, fits, laidOut, copied⟩

end Board

/-! ### Presets of settings -/

namespace Settings

variable {s : Settings}

/-- The start is a cell of the grid. -/
def StartsInside (s : Settings) : Prop :=
  (0 ≤ s.startRow ∧ s.startRow < max s.rows 1) ∧ 0 ≤ s.startCol ∧ s.startCol < max s.cols 1

/-- The cell of the grid that is nearest to the start is a corner. -/
def NearsCorner (s : Settings) : Prop :=
  (s.startRow ≤ 0 ∨ max s.rows 1 - 1 ≤ s.startRow) ∧
    (s.startCol ≤ 0 ∨ max s.cols 1 - 1 ≤ s.startCol)

theorem corner_clamped (inside : s.StartsInside) : s.clamped.corner = s.corner := by
  unfold StartsInside at inside
  have row : s.clamped.startRow = s.startRow := by
    show min (max s.startRow 0) (max s.rows 1 - 1) = _
    omega
  have col : s.clamped.startCol = s.startCol := by
    show min (max s.startCol 0) (max s.cols 1 - 1) = _
    omega
  have raised (c : Corner) :
      c.position s.clamped.rows s.clamped.cols = c.position s.rows s.cols := by
    rw [← c.position_dimension s.rows, Board.natCast_dimension, Board.natCast_dimension]
    rfl
  simp only [corner, Corner.infer, row, col, raised]

theorem corner_of_not_inside (outside : ¬ s.StartsInside) : s.corner = .center := by
  by_contra ne
  have inside := s.corner.position_inside s.rows s.cols
  rw [corner, Corner.position_infer ne] at inside
  exact outside inside

theorem corner_clamped_eq_center_iff : s.clamped.corner = .center ↔ ¬ s.NearsCorner := by
  rw [corner, Corner.infer_eq_center_iff, Corner.exists_position_eq_iff, not_iff_not]
  simp only [clamped, NearsCorner]
  omega

/-- The preset of settings is the preset of the board that they are applied to, unless the start is
not in the grid and is moved to a corner of it. Then it is the center, and that of the board is the
corner. -/
theorem corner_eq_inferOn_iff (s : Settings) (b : Board) :
    (s.corner = Corner.inferOn (s.apply b) ↔ s.StartsInside ∨ ¬ s.NearsCorner) ∧
      (s.corner = Corner.inferOn (s.apply b) ∨
        s.corner = .center ∧ Corner.inferOn (s.apply b) ≠ .center) := by
  have placed : Corner.inferOn (s.apply b) = s.clamped.corner :=
    congrArg corner (s.ofBoard_apply b)
  rw [placed]
  by_cases inside : s.StartsInside
  · have same := (corner_clamped inside).symm
    exact ⟨iff_of_true same (.inl inside), .inl same⟩
  · rw [corner_of_not_inside inside, ← corner_clamped_eq_center_iff]
    by_cases center : s.clamped.corner = .center
    · exact ⟨iff_of_true center.symm (.inr center), .inl center.symm⟩
    · exact ⟨iff_of_false (Ne.symm center) (not_or.2 ⟨inside, center⟩), .inr ⟨rfl, center⟩⟩

/-- Far below and to the right of a small grid, the center is inferred for a start that is put into
the last corner. -/
theorem corner_ne_inferOn_far :
    ∃ s : Settings, s = ⟨3, 3, 9, 9⟩ ∧ s.Fits ∧ Board.standard.Reachable ∧ s.corner = .center ∧
      Corner.inferOn (s.apply .standard) = .bottomRight :=
  ⟨_, rfl, by constructor <;> decide, Board.reachable_standard, rfl, rfl⟩

end Settings

end BlockBoard
