import BlockBoard.Proofs.Board.Changes

/-!
# Moves add up

A step moves the piece by an offset around the edges, and such offsets add up (`wrap_wrap`). So
after any list of walks the piece is where the totals of the steps in the four directions put it
(`Board.Sound.toScene_walks`): the order of the walks does not matter, and opposite ones cancel.

Indices and lengths are words, and so is every number on the way from one index to the next
(`Board.wrapChecked_eq`), also on the longest axis that there can be.
-/

namespace BlockBoard

/-! ### Numbers on the way -/

namespace Word

/-- The remainder that is not negative, as a processor finds it, failing where a number on the way
is no word: the division rounds towards zero, and a negative remainder is raised by the divisor. -/
def remainderChecked (a n : ℤ) : Option ℤ :=
  if n = 0 then none
  else do
    let _ ← checked (a.tdiv n)
    let r ← checked (a.tmod n)
    if r < 0 then checked (r + |n|) else return r

theorem tmod_of_pos {a n : ℤ} (pos : 0 < n) :
    a.tmod n = if 0 ≤ a ∨ n ∣ a then a % n else a % n - n := by
  rw [Int.tmod_eq_emod]
  split_ifs
  · exact sub_zero _
  · rw [Int.natAbs_of_nonneg pos.le]

theorem remainderChecked_eq {a n : ℤ} (small : a.natAbs < 0x8000000000000000) (pos : 0 < n)
    (fits : Fits n) : remainderChecked a n = some (a % n) := by
  have nonneg := Int.emod_nonneg a pos.ne'
  have below := Int.emod_lt_of_pos a pos
  have quotient : Fits (a.tdiv n) := by
    have le := Int.natAbs_tdiv_le_natAbs a n
    unfold Fits
    omega
  unfold Fits at fits
  unfold remainderChecked
  rw [if_neg pos.ne', checked_eq quotient, Option.bind_eq_bind, Option.bind_some, tmod_of_pos pos]
  -- The remainder is negative just where rounding towards zero went up.
  split_ifs
  · rw [checked_eq (by unfold Fits; omega), Option.bind_some,
      if_neg nonneg.not_gt]
    rfl
  · rw [checked_eq (by unfold Fits; omega), Option.bind_some,
      if_pos (by omega), abs_of_pos pos, sub_add_cancel, checked_eq (by unfold Fits; omega)]

end Word

namespace Board

/-- `wrap`, failing where a number on the way is no word. -/
def wrapChecked (index : ℕ) (delta : ℤ) (length : ℕ) : Option ℕ := do
  let index ← Word.checked index
  let length ← Word.checked length
  let sum ← Word.checked (index + delta)
  let r ← Word.remainderChecked sum length
  return r.toNat

/-- `advance`, failing where a number on the way is no word. -/
def advanceChecked (b : Board) (d : Direction) : Option Board := do
  let row ← wrapChecked b.piece.row d.delta.1 b.rows
  let col ← wrapChecked b.piece.col d.delta.2 b.cols
  return draw { b with piece := ⟨row, col⟩ }

theorem wrapChecked_eq {index length : ℕ} {delta : ℤ} (inside : index < length)
    (fits : Word.Fits length) (near : -1 ≤ delta ∧ delta ≤ 1) :
    wrapChecked index delta length = some (wrap index delta length) := by
  have bound := fits.2
  have start : Word.Fits index := by
    unfold Word.Fits
    omega
  have sum : Word.Fits (index + delta) := by
    unfold Word.Fits
    omega
  unfold wrapChecked
  simp only [Word.checked_eq start, Word.checked_eq fits, Word.checked_eq sum,
    Option.bind_eq_bind, Option.bind_some]
  rw [Word.remainderChecked_eq (by omega) (by omega) fits]
  rfl

theorem Sound.advanceChecked_eq {b : Board} (h : b.Sound) (d : Direction) :
    b.advanceChecked d = some (b.advance d) := by
  have near : (-1 ≤ d.delta.1 ∧ d.delta.1 ≤ 1) ∧ -1 ≤ d.delta.2 ∧ d.delta.2 ≤ 1 := by
    cases d <;> decide
  unfold advanceChecked
  rw [wrapChecked_eq h.piece_inside.1 h.rows_fits near.1, Option.bind_eq_bind, Option.bind_some,
    wrapChecked_eq h.piece_inside.2 h.cols_fits near.2]
  rfl

end Board

/-! ### Offsets add up -/

/-- The scene after the piece was moved by an offset around the edges, with so many more redraws. -/
def Scene.moved (s : Scene) (down right : ℤ) (redraws : ℕ) : Scene :=
  { s with
    piece := ⟨Board.wrap s.piece.row down s.rows, Board.wrap s.piece.col right s.cols⟩
    redraws := s.redraws + redraws }

namespace Board

theorem natCast_wrap (index : ℕ) (delta : ℤ) {length : ℕ} (pos : 0 < length) :
    (wrap index delta length : ℤ) = (index + delta) % length :=
  Int.toNat_of_nonneg (Int.emod_nonneg _ (by omega))

theorem wrap_wrap (index : ℕ) (d e : ℤ) {length : ℕ} (pos : 0 < length) :
    wrap (wrap index d length) e length = wrap index (d + e) length := by
  rw [← Int.natCast_inj, natCast_wrap _ _ pos, natCast_wrap _ _ pos, natCast_wrap _ _ pos,
    Int.emod_add_emod, add_assoc]

end Board

namespace Scene

variable {s : Scene}

theorem moved_zero (inside : s.piece.Inside s.rows s.cols) : s.moved 0 0 0 = s := by
  unfold moved
  rw [Board.wrap_zero inside.1, Board.wrap_zero inside.2]
  rfl

theorem moved_moved (rows : 0 < s.rows) (cols : 0 < s.cols) (d e r t : ℤ) (m n : ℕ) :
    (s.moved d r m).moved e t n = s.moved (d + e) (r + t) (m + n) := by
  unfold moved
  simp only [Board.wrap_wrap _ _ _ rows, Board.wrap_wrap _ _ _ cols, add_assoc]

end Scene

/-! ### Walks -/

/-- Steps in one direction, with a delay after each of them. -/
structure Walk where
  direction : Direction
  steps : ℕ
  delay : ℕ

/-- The steps of some walks that go in a direction. -/
def stepsIn (ws : List Walk) (d : Direction) : ℕ :=
  ((ws.filter (·.direction = d)).map Walk.steps).sum

theorem stepsIn_cons (w : Walk) (ws : List Walk) (d : Direction) :
    stepsIn (w :: ws) d = (if w.direction = d then w.steps else 0) + stepsIn ws d := by
  unfold stepsIn
  rw [List.filter_cons]
  split_ifs with same <;> simp_all

theorem stepsIn_perm {ws ws' : List Walk} (h : ws.Perm ws') (d : Direction) :
    stepsIn ws d = stepsIn ws' d :=
  ((h.filter _).map _).sum_nat

/-- A walk leads as far along an axis as it adds to the steps forth and takes from those back. -/
theorem mul_offset_add {offset : Direction → ℤ} {forth back : Direction}
    (axis : ∀ d, offset d = (if d = forth then 1 else 0) - (if d = back then 1 else 0)) (w : Walk)
    (ws : List Walk) :
    (w.steps : ℤ) * offset w.direction + (stepsIn ws forth - stepsIn ws back) =
      stepsIn (w :: ws) forth - stepsIn (w :: ws) back := by
  rw [stepsIn_cons, stepsIn_cons, axis]
  split_ifs <;> push_cast <;> omega

/-- The walks that have been made at each pause: after each step that has a delay, all walks before
and the steps of the current one up to it. -/
def madeAtPauses : List Walk → List (List Walk)
  | [] => []
  | w :: ws =>
    (if w.delay = 0 then [] else (List.range w.steps).map fun i => [{ w with steps := i + 1 }]) ++
      (madeAtPauses ws).map (w :: ·)

namespace Board

variable {b : Board}

/-- The board after some walks, and the boards at which to pause. -/
def walks (b : Board) : List Walk → Board × List Board
  | [] => (b, [])
  | w :: ws =>
    let (moved, pauses) := b.go (some w.direction) w.steps w.delay
    let (last, later) := moved.walks ws
    (last, pauses ++ later)

theorem walks_cons_fst (w : Walk) (ws : List Walk) :
    (b.walks (w :: ws)).1 = ((b.advances w.direction w.steps).walks ws).1 := rfl

theorem walks_cons_snd (w : Walk) (ws : List Walk) :
    (b.walks (w :: ws)).2 = (if w.delay = 0 then [] else b.trail w.direction w.steps) ++
      ((b.advances w.direction w.steps).walks ws).2 := rfl

/-! ### Where walks lead -/

theorem Sound.toScene_advances (h : b.Sound) (d : Direction) (n : ℕ) :
    (b.advances d n).toScene = b.toScene.moved (n * d.delta.1) (n * d.delta.2) n := by
  induction n generalizing b with
  | zero => simp [Board.advances, Scene.moved_zero h.piece_inside]
  | succ n ih =>
    have step : (b.advance d).toScene = b.toScene.moved d.delta.1 d.delta.2 1 := rfl
    rw [Board.advances, ih (h.advance d), step, Scene.moved_moved h.rows_pos h.cols_pos]
    rw [Nat.cast_succ, add_mul, add_mul, one_mul, one_mul, add_comm d.delta.1, add_comm d.delta.2,
      add_comm 1 n]

theorem Sound.toScene_walks (h : b.Sound) (ws : List Walk) :
    (b.walks ws).1.toScene =
      b.toScene.moved (stepsIn ws .down - stepsIn ws .up) (stepsIn ws .right - stepsIn ws .left)
        (ws.map Walk.steps).sum := by
  -- Each direction changes one of the two axes by one.
  have vertical (d : Direction) :
      d.delta.1 = (if d = .down then 1 else 0) - (if d = .up then 1 else 0) := by
    cases d <;> rfl
  have horizontal (d : Direction) :
      d.delta.2 = (if d = .right then 1 else 0) - (if d = .left then 1 else 0) := by
    cases d <;> rfl
  induction ws generalizing b with
  | nil => exact (Scene.moved_zero h.piece_inside).symm
  | cons w ws ih =>
    rw [walks_cons_fst, ih (h.advances _ _), h.toScene_advances,
      Scene.moved_moved h.rows_pos h.cols_pos, mul_offset_add vertical, mul_offset_add horizontal,
      List.map_cons, List.sum_cons]

/-! ### Pauses -/

theorem trail_eq_map (d : Direction) (n : ℕ) :
    b.trail d n = (List.range n).map fun i => b.advances d (i + 1) := by
  induction n generalizing b with
  | zero => rfl
  | succ n ih =>
    rw [trail, ih, List.range_succ_eq_map, List.map_cons, List.map_map]
    rfl

theorem walks_snd (ws : List Walk) :
    (b.walks ws).2 = (madeAtPauses ws).map fun made => (b.walks made).1 := by
  induction ws generalizing b with
  | nil => rfl
  | cons w ws ih =>
    rw [walks_cons_snd, ih, madeAtPauses, List.map_append, List.map_map]
    congr 1
    split_ifs
    · rfl
    · rw [trail_eq_map, List.map_map]
      rfl

theorem length_walks_snd (ws : List Walk) :
    (b.walks ws).2.length = ((ws.filter (·.delay ≠ 0)).map Walk.steps).sum := by
  induction ws generalizing b with
  | nil => rfl
  | cons w ws ih =>
    rw [walks_cons_snd, List.length_append, ih, List.filter_cons]
    by_cases delay : w.delay = 0 <;> simp [delay, trail_eq_map]

/-! ### No overflow -/

theorem Sound.replicate_checked (h : b.Sound) (d : Direction) (n : ℕ) :
    (List.replicate n d).foldlM advanceChecked b = some (b.advances d n) := by
  induction n generalizing b with
  | zero => rfl
  | succ n ih =>
    rw [List.replicate_succ, List.foldlM_cons, h.advanceChecked_eq, Option.bind_eq_bind,
      Option.bind_some, ih (h.advance d), Board.advances]

theorem Sound.walks_checked (h : b.Sound) (ws : List Walk) :
    (ws.flatMap fun w => List.replicate w.steps w.direction).foldlM advanceChecked b =
      some (b.walks ws).1 := by
  induction ws generalizing b with
  | nil => rfl
  | cons w ws ih =>
    rw [List.flatMap_cons, List.foldlM_append, h.replicate_checked, Option.bind_eq_bind,
      Option.bind_some, ih (h.advances _ _), walks_cons_fst]

/-- Walks lead where their totals say, and change nothing else than the number of redraws, which
grows by the number of steps. So their order does not matter, and opposite ones cancel. Each step
with a delay is followed by one pause, at the board to which the walks up to this step lead. No
number on the way from one index to the next is out of the range of words. -/
theorem Reachable.walks_add_up (h : b.Reachable) :
    (∀ ws, ((b.walks ws).1.piece.row : ℤ) =
        (b.piece.row + stepsIn ws .down - stepsIn ws .up) % b.rows ∧
      ((b.walks ws).1.piece.col : ℤ) =
        (b.piece.col + stepsIn ws .right - stepsIn ws .left) % b.cols ∧
      (b.walks ws).1.toScene = { b.toScene with
        piece := (b.walks ws).1.piece
        redraws := b.redraws + (ws.map Walk.steps).sum }) ∧
    (∀ ws ws', ws.Perm ws' → (b.walks ws).1.toScene = (b.walks ws').1.toScene) ∧
    (∀ ws, stepsIn ws .up = stepsIn ws .down → stepsIn ws .left = stepsIn ws .right →
      (b.walks ws).1.piece = b.piece) ∧
    (∀ ws, (b.walks ws).2 = (madeAtPauses ws).map fun made => (b.walks made).1) ∧
    (∀ ws, (b.walks ws).2.length = ((ws.filter (·.delay ≠ 0)).map Walk.steps).sum) ∧
    ∀ ws, (ws.flatMap fun w => List.replicate w.steps w.direction).foldlM advanceChecked b =
      some (b.walks ws).1 := by
  have sound := h.sound
  refine ⟨fun ws => ?_, fun ws ws' perm => ?_, fun ws vertical horizontal => ?_, walks_snd,
    length_walks_snd, sound.walks_checked⟩
  · rw [sound.toScene_walks ws]
    refine ⟨?_, ?_, rfl⟩
    · rw [add_sub_assoc]
      exact natCast_wrap _ _ sound.rows_pos
    · rw [add_sub_assoc]
      exact natCast_wrap _ _ sound.cols_pos
  · rw [sound.toScene_walks, sound.toScene_walks, stepsIn_perm perm, stepsIn_perm perm,
      stepsIn_perm perm, stepsIn_perm perm, (perm.map _).sum_nat]
  · rw [sound.toScene_walks, vertical, horizontal, sub_self, sub_self]
    unfold Scene.moved
    rw [wrap_zero sound.piece_inside.1, wrap_zero sound.piece_inside.2]

/-- The board with the most rows that there can be. -/
def tallest : Board :=
  ofSize 0x7fffffffffffffff 3

/-- Over the upper edge and back down by one row, and around to the right with pauses. -/
def tour : List Walk :=
  [⟨.up, 2, 0⟩, ⟨.right, 4, 100⟩, ⟨.down, 1, 0⟩]

theorem Reachable.walks_add_up_tallest :
    tallest.Reachable ∧ (tallest.walks tour).1.piece.row = 0x7ffffffffffffffe ∧
      (tallest.walks tour).1.piece.col = 1 ∧ (tallest.walks tour).1.redraws = 7 ∧
      (tallest.walks tour).2.length = 4 ∧
      (tallest.walks tour.reverse).1.toScene = (tallest.walks tour).1.toScene ∧
      (tallest.walks (⟨.down, 2, 0⟩ :: tour.take 1)).1.piece = ⟨0, 0⟩ := by
  have reachable : tallest.Reachable := .ofSize (by decide) (by decide)
  obtain ⟨leads, order, cancel, -, pauses, -⟩ := reachable.walks_add_up
  obtain ⟨row, col, scene⟩ := leads tour
  refine ⟨reachable, Int.natCast_inj.1 row, Int.natCast_inj.1 col, ?_, pauses tour,
    order _ _ (List.reverse_perm tour), cancel _ rfl rfl⟩
  rw [scene]
  rfl

end Board

end BlockBoard
