import BlockBoard.Proofs.Board.Colors

/-!
# What an observer of a board sees

Each operation on a board is made of steps that end in a redraw, and each of these leaves a board
that could have been reached in another way too. So not only the board that an operation leaves is
proper, but also each scene that an observer is shown on the way and each board at which a run of
steps pauses (`Board.Reachable.proper_always`). The observer misses none of the redraws.
-/

namespace BlockBoard

/-- The grid has cells, the piece, the start and all colors are on cells of it, and each color is
spelled the one way. -/
structure Scene.Proper (s : Scene) : Prop where
  rows_pos : 1 ≤ s.rows
  cols_pos : 1 ≤ s.cols
  piece_inside : s.piece.Inside s.rows s.cols
  start_inside : s.start.Inside s.rows s.cols
  fill_inside : ∀ (cell : Cell) color, s.fills[cell]? = some color → cell.Inside s.rows s.cols
  fill_spelled : ∀ (cell : Cell) color, s.fills[cell]? = some color →
    Color.normalize color = color

namespace Board

variable {b b' : Board}

theorem Reachable.proper (h : b.Reachable) : b.toScene.Proper where
  rows_pos := h.sound.rows_pos
  cols_pos := h.sound.cols_pos
  piece_inside := h.sound.piece_inside
  start_inside := h.sound.start_inside
  fill_inside cell color hc := (h.tidy cell color hc).1
  fill_spelled cell color hc := (h.tidy cell color hc).2

/-! ### The scenes that are shown -/

/-- The observer was shown the scenes of the last redraws, and all of them are proper. -/
def Watched (b : Board) : Prop :=
  ∀ scenes ∈ b.seen, ∀ (i : ℕ) (s : Scene), scenes[i]? = some s →
    s.redraws + i = b.redraws ∧ s.Proper

/-- A proper scene is drawn on top of the others. -/
theorem Watched.drawn (h : b.Watched) (redraws : b'.redraws = b.redraws + 1)
    (seen : b'.seen = b.seen.map (b'.toScene :: ·)) (reachable : b'.Reachable) : b'.Watched := by
  intro scenes hs i s hi
  rw [seen] at hs
  obtain ⟨before, hb, rfl⟩ := Option.map_eq_some_iff.1 hs
  cases i with
  | zero =>
    obtain rfl := Option.some.inj hi
    exact ⟨rfl, reachable.proper⟩
  | succ i =>
    obtain ⟨count, proper⟩ := h before hb i s hi
    exact ⟨by omega, proper⟩

namespace Watched

theorem setGrid (h : b.Watched) (reachable : b.Reachable) {rows cols : ℤ} (hr : Word.Fits rows)
    (hc : Word.Fits cols) : (b.setGrid rows cols).Watched :=
  h.drawn rfl rfl (reachable.change (c := .setGrid rows cols) ⟨hr, hc⟩)

theorem setStart (h : b.Watched) (reachable : b.Reachable) (row col : ℤ) :
    (b.setStart row col).Watched :=
  h.drawn rfl rfl (reachable.change (c := .setStart row col) trivial)

theorem applyStart (h : b.Watched) (reachable : b.Reachable) (clearFills : Bool) :
    (b.applyStart clearFills).Watched :=
  h.drawn rfl rfl (reachable.applyStart clearFills)

theorem advances (h : b.Watched) (reachable : b.Reachable) (d : Direction) (n : ℕ) :
    (b.advances d n).Watched := by
  induction n generalizing b with
  | zero => exact h
  | succ n ih =>
    have next := reachable.advance d
    exact ih (h.drawn rfl rfl next) next

theorem fill (h : b.Watched) (reachable : b.Reachable) (row col : ℤ) (color : String) :
    (b.fill row col color).Watched := by
  have filled : (b.fill row col color).Reachable :=
    reachable.change (c := .fill row col color) trivial
  by_cases inGrid : b.Contains row col
  · rw [fill_of_contains b inGrid] at filled ⊢
    exact h.drawn rfl rfl filled
  · rwa [fill_of_not_contains b inGrid]

theorem change (h : b.Watched) (reachable : b.Reachable) {c : Change} (fits : c.Fits) :
    (b.change c).Watched := by
  cases c with
  | setGrid rows cols => exact h.setGrid reachable fits.1 fits.2
  | setStart row col => exact h.setStart reachable row col
  | applyStart clearFills => exact h.applyStart reachable clearFills
  | reset => exact h.applyStart reachable true
  | go direction steps delay =>
    cases direction with
    | none => exact h
    | some d => exact h.advances reachable d steps
  | fill row col color => exact h.fill reachable row col color
  | fillPiece color => exact h.fill reachable _ _ color
  | settings s =>
    -- Settings are drawn three times.
    have resized := reachable.change (c := .setGrid s.rows s.cols) fits
    have placed := resized.change (c := .setStart s.startRow s.startCol) trivial
    exact ((h.setGrid reachable fits.1 fits.2).setStart resized _ _).applyStart placed true
  | corner c => exact h.setStart reachable _ _
  | observe =>
    rintro _ ⟨⟩ i s hi
    cases hi
  | unobserve => exact nofun

end Watched

theorem Reachable.watched (h : b.Reachable) : b.Watched := by
  induction h with
  | ofSize => exact nofun
  | change reachable fits ih => exact ih.change reachable fits

/-! ### The boards of a pause -/

theorem Reachable.of_mem_trail {d : Direction} {n : ℕ} (h : b.Reachable) (hp : b' ∈ b.trail d n) :
    b'.Reachable := by
  induction n generalizing b with
  | zero => cases hp
  | succ n ih =>
    rcases List.mem_cons.1 hp with rfl | hp
    · exact h.advance d
    · exact ih (h.advance d) hp

theorem Reachable.of_mem_pauses (h : b.Reachable) {direction : Option Direction} {steps delay : ℕ}
    (hp : b' ∈ (b.go direction steps delay).2) : b'.Reachable := by
  cases direction with
  | none => cases hp
  | some d =>
    rw [go] at hp
    split_ifs at hp
    · cases hp
    · exact h.of_mem_trail hp

/-- Whatever is made of a board, it is proper; so are the scenes that an observer was shown, which
are those of the last redraws, and the boards at which a run of steps pauses. A color that is
spelled the one way stays as it is. -/
theorem Reachable.proper_always (h : b.Reachable) :
    b.toScene.Proper ∧
      (∀ scenes ∈ b.seen, ∀ (i : ℕ) (s : Scene), scenes[i]? = some s →
        s.redraws + i = b.redraws ∧ s.Proper) ∧
      (∀ direction steps delay, ∀ paused ∈ (b.go direction steps delay).2,
        paused.toScene.Proper) ∧
      ∀ color, Color.normalize (Color.normalize color) = Color.normalize color :=
  ⟨h.proper, h.watched, fun _ _ _ _ hp => (h.of_mem_pauses hp).proper, Color.normalize_normalize⟩

/-- A board that is painted in its last cell and then made small, under observation. -/
def shrunk : Board :=
  ((standard.observe.fill 14 14 " RED ").setStart 20 (-1)).setGrid 3 (-5)

theorem reachable_shrunk : shrunk.Reachable :=
  ((((reachable_standard.change (c := .observe) trivial).change (c := .fill 14 14 " RED ")
    trivial).change (c := .setStart 20 (-1)) trivial).change (c := .setGrid 3 (-5))
      ⟨by decide, by decide⟩)

theorem Reachable.proper_always_shrunk :
    shrunk.Reachable ∧ ∃ last middle first, shrunk.seen = some [last, middle, first] ∧
      last.Proper ∧ middle.Proper ∧ first.Proper ∧ last.start = ⟨2, 0⟩ ∧
      first.colorAt? ⟨14, 14⟩ = some "#ff0000" := by
  obtain ⟨-, shown, -⟩ := reachable_shrunk.proper_always
  refine ⟨reachable_shrunk, _, _, _, rfl, (shown _ rfl 0 _ rfl).2, (shown _ rfl 1 _ rfl).2,
    (shown _ rfl 2 _ rfl).2, rfl, ?_⟩
  decide +kernel

end Board

end BlockBoard
