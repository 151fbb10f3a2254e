import Mathlib.Algebra.Order.Ring.Int
import BlockBoard.App.Request
import BlockBoard.Run.Speed

/-!
# Sliders with several handles

The slider of a run is moved by others while the run goes on: each of them holds a handle on it. A
desk holds sliders and handles (`Desk`). Every handle on a slider reads what the last move through
any of them left, and moves through the handles on other sliders do not matter (`Desk.read?_put`).

A position is always from 5 to 100. A list of moves leads every handle to the position that exact
integers give, unless the program fails at one of them: it fails at the first amount whose sum with
the exact position is no word (`Desk.Reachable.moves_exact_iff`). Among words these are the amounts
close to the greatest, and no key asks for such an amount.
-/

namespace BlockBoard

namespace Speed

/-- The number from 5 to 100 that is nearest to a number. -/
def clamp (n : ℤ) : ℤ :=
  if n < 5 then 5 else if 100 < n then 100 else n

theorem natCast_position (n : ℤ) : (position n : ℤ) = clamp n := by
  unfold position clamp slowest fastest
  split_ifs <;> omega

theorem clamp_mono {m n : ℤ} (le : m ≤ n) : clamp m ≤ clamp n := by
  unfold clamp
  split_ifs <;> omega

end Speed

/-- Keys move the slider by one notch. -/
theorem Key.amount_of_request? {key : Key} {n : ℤ} (asked : key.request? = some (.pace n)) :
    n = 5 ∨ n = -5 := by
  cases key with
  | char c =>
    change charRequest? c = _ at asked
    unfold charRequest? at asked
    split at asked <;>
      simp only [Option.some.injEq, Request.pace.injEq, reduceCtorEq, notch] at asked <;> omega
  | _ => nomatch asked

namespace Slider

/-! ### Moves of one slider -/

/-- A way to move a slider. -/
inductive Move where
  /-- To the position nearest to a number. -/
  | set (n : ℤ)
  /-- By an amount. -/
  | adjust (n : ℤ)
deriving DecidableEq, Repr

/-- The slider after a move, unless the program fails at it. -/
def move? (s : Slider) : Move → Option Slider
  | .set n => some (ofInt n)
  | .adjust n => s.adjust? n

namespace Move

/-- The position after a move from a position, in exact integers. -/
def exact (position : ℤ) : Move → ℤ
  | .set n => Speed.clamp n
  | .adjust n => Speed.clamp (position + n)

/-- A move from a position forms no sum that is not a word. -/
def Sums (position : ℤ) : Move → Prop
  | .set _ => True
  | .adjust n => Word.Fits (position + n)

end Move

/-- The slider stands between its ends. -/
def InRange (s : Slider) : Prop :=
  5 ≤ s.position ∧ s.position ≤ 100

variable {s s' : Slider} {m : Move} {n : ℤ}

theorem inRange_ofInt (n : ℤ) : (ofInt n).InRange := by
  have position : ((ofInt n).position : ℤ) = Speed.clamp n := Speed.natCast_position n
  unfold Speed.clamp at position
  unfold InRange
  split_ifs at position <;> omega

theorem isSome_adjust?_iff : (s.adjust? n).isSome ↔ Word.Fits (s.position + n) := by
  rw [adjust?, Option.isSome_map, Word.checked, Option.isSome_ite]

theorem isSome_move?_iff : (s.move? m).isSome ↔ m.Sums s.position := by
  cases m with
  | set n => exact iff_of_true rfl trivial
  | adjust n => exact isSome_adjust?_iff

/-- A move that does not fail puts the slider at a number that is moved into range as exact integers
have it. -/
theorem exists_eq_ofInt_of_move? (moved : s.move? m = some s') :
    ∃ n, s' = ofInt n ∧ Speed.clamp n = m.exact s.position := by
  cases m with
  | set n => exact ⟨n, (Option.some.inj moved).symm, rfl⟩
  | adjust n =>
    have sums := isSome_adjust?_iff.1 (Option.isSome_of_eq_some moved)
    exact ⟨s.position + n, Option.some.inj (moved.symm.trans (adjust?_eq_some sums)), rfl⟩

theorem position_of_move? (moved : s.move? m = some s') :
    (s'.position : ℤ) = m.exact s.position := by
  obtain ⟨n, rfl, exact⟩ := exists_eq_ofInt_of_move? moved
  exact (Speed.natCast_position n).trans exact

theorem inRange_of_move? (moved : s.move? m = some s') : s'.InRange := by
  obtain ⟨n, rfl, -⟩ := exists_eq_ofInt_of_move? moved
  exact inRange_ofInt n

/-- A greater amount leads to no lower position. -/
theorem position_le_of_adjust? {m : ℤ} {s₁ s₂ : Slider} (le : m ≤ n)
    (lower : s.adjust? m = some s₁) (higher : s.adjust? n = some s₂) :
    s₁.position ≤ s₂.position := by
  have low : (s₁.position : ℤ) = Speed.clamp (s.position + m) :=
    position_of_move? (m := .adjust m) lower
  have high : (s₂.position : ℤ) = Speed.clamp (s.position + n) :=
    position_of_move? (m := .adjust n) higher
  have mono := Speed.clamp_mono (Int.add_le_add_left le s.position)
  omega

/-- The sum of a position and a word is no word only if it is too great. -/
theorem adjust?_eq_none_iff (fits : Word.Fits n) :
    s.adjust? n = none ↔ 0x8000000000000000 ≤ s.position + n := by
  have low := fits.1
  rw [← Option.not_isSome_iff_eq_none, isSome_adjust?_iff, Word.Fits]
  omega

namespace InRange

theorem delay_eq (h : s.InRange) : s.delay = 2 * (100 - s.position) := by
  have stays : Speed.position s.position = s.position := by
    have position := Speed.natCast_position s.position
    unfold Speed.clamp at position
    unfold InRange at h
    split_ifs at position <;> omega
  unfold delay Speed.delayAt
  rw [stays]
  rfl

theorem adjust?_of_request? (h : s.InRange) {key : Key} (asked : key.request? = some (.pace n)) :
    s.adjust? n = some (s.shift n) := by
  refine adjust?_eq_some ?_
  have amount := Key.amount_of_request? asked
  unfold InRange at h
  unfold Word.Fits
  omega

end InRange

end Slider

/-! ### Handles -/

/-- Sliders, and handles by which they are read and moved. -/
structure Desk where
  sliders : List Slider := []
  /-- For each handle the number of the slider that it is on. -/
  handles : List ℕ := []

namespace Desk

/-- The desk with one more slider, at the position nearest to a number, and a handle on it. -/
def create (d : Desk) (n : ℤ) : Desk :=
  ⟨d.sliders ++ [.ofInt n], d.handles ++ [d.sliders.length]⟩

/-- The desk with another handle on the slider of a handle. -/
def share (d : Desk) (h : ℕ) : Desk :=
  { d with handles := d.handles ++ d.handles[h]?.toList }

/-- The slider of a handle. -/
def read? (d : Desk) (h : ℕ) : Option Slider :=
  d.handles[h]?.bind fun i => d.sliders[i]?

/-- The desk with another slider in the place of that of a handle. -/
def put (d : Desk) (h : ℕ) (s : Slider) : Desk :=
  { d with sliders := d.handles[h]?.elim d.sliders fun i => d.sliders.set i s }

/-- The desk after a move of the slider of a handle, unless the program fails at it. A move through
a handle that there is not does nothing. -/
def move? (d : Desk) (h : ℕ) (m : Slider.Move) : Option Desk :=
  match d.read? h with
  | none => some d
  | some s => (s.move? m).map (d.put h)

/-- The desk after some moves, each through a handle, unless the program fails at one of them. -/
def moveAll? (d : Desk) (moves : List (ℕ × Slider.Move)) : Option Desk :=
  moves.foldlM (fun d c => d.move? c.1 c.2) d

/-- A desk that was empty before sliders and handles were made and sliders were moved. -/
inductive Reachable : Desk → Prop
  | empty : Reachable {}
  | create {d : Desk} (n : ℤ) : Reachable d → Reachable (d.create n)
  | share {d : Desk} (h : ℕ) : Reachable d → Reachable (d.share h)
  | move {d d' : Desk} {h : ℕ} {m : Slider.Move} :
      Reachable d → d.move? h m = some d' → Reachable d'

/-- The position of the slider of a handle. -/
def position? (d : Desk) (h : ℕ) : Option ℤ :=
  (d.read? h).map fun s => s.position

/-- Two handles are on one slider. -/
def Clones (d : Desk) (h k : ℕ) : Prop :=
  ∃ i, d.handles[h]? = some i ∧ d.handles[k]? = some i

/-- The moves that are made through the handles on the slider of a handle. -/
def movesOn (d : Desk) (h : ℕ) (moves : List (ℕ × Slider.Move)) : List Slider.Move :=
  (moves.filter fun c => d.handles[c.1]? = d.handles[h]?).map Prod.snd

/-- The position that the slider of a handle should have after some moves, in exact integers. -/
def expected? (d : Desk) (h : ℕ) (moves : List (ℕ × Slider.Move)) : Option ℤ :=
  (d.position? h).map fun p => (d.movesOn h moves).foldl Slider.Move.exact p

/-- Every handle is on a slider, and every slider stands between its ends. -/
structure Sound (d : Desk) : Prop where
  handles_lt : ∀ i ∈ d.handles, i < d.sliders.length
  inRange : ∀ s ∈ d.sliders, s.InRange

variable {d d' : Desk} {h k : ℕ} {s : Slider} {m : Slider.Move}

theorem Clones.handles_eq (clones : d.Clones h k) : d.handles[h]? = d.handles[k]? := by
  obtain ⟨i, hi, hk⟩ := clones
  rw [hi, hk]

theorem read?_congr (same : d.handles[h]? = d.handles[k]?) : d.read? h = d.read? k := by
  rw [read?, read?, same]

/-! ### New sliders and handles -/

/-- A new handle reads the number that its slider was made with. -/
theorem read?_create (d : Desk) (n : ℤ) :
    (d.create n).read? d.handles.length = some (.ofInt n) := by
  simp [create, read?]

/-- The handles that there are read what they read before. -/
theorem Sound.read?_append (sound : d.Sound) (hs : d.read? h = some s) (sliders : List Slider)
    (handles : List ℕ) : read? ⟨d.sliders ++ sliders, d.handles ++ handles⟩ h = some s := by
  obtain ⟨i, hi, hs⟩ := Option.bind_eq_some_iff.1 hs
  have bound := sound.handles_lt i (List.mem_of_getElem? hi)
  have handle := (List.getElem?_eq_some_iff.1 hi).1
  show ((d.handles ++ handles)[h]?.bind fun i => (d.sliders ++ sliders)[i]?) = some s
  rw [List.getElem?_append_left handle, hi, Option.bind_some, List.getElem?_append_left bound, hs]

theorem Sound.read?_share_of_some (sound : d.Sound) (k : ℕ) (hs : d.read? h = some s) :
    (d.share k).read? h = some s := by
  have read := sound.read?_append hs [] d.handles[k]?.toList
  rwa [List.append_nil] at read

theorem clones_share (hs : d.read? h = some s) : (d.share h).Clones h d.handles.length := by
  obtain ⟨i, hi, -⟩ := Option.bind_eq_some_iff.1 hs
  have handle := (List.getElem?_eq_some_iff.1 hi).1
  refine ⟨i, ?_, ?_⟩
  · exact (List.getElem?_append_left handle).trans hi
  · simp [share, hi]

/-! ### One move -/

/-- A slider that is put in the place of another is read by all handles on it, and by no other. -/
theorem read?_put (d : Desk) (h k : ℕ) (s : Slider) :
    (d.put h s).read? k =
      if d.handles[h]? = d.handles[k]? then (d.read? k).map fun _ => s else d.read? k := by
  unfold put read?
  cases d.handles[h]? with
  | none =>
    cases d.handles[k]? <;> rfl
  | some i =>
    cases d.handles[k]? with
    | none => rfl
    | some j =>
      simp only [Option.elim_some, Option.bind_some, Option.some.injEq]
      split_ifs with same
      · subst same
        exact List.getElem?_set_self'
      · exact List.getElem?_set_ne same

theorem move?_of_read?_eq_none (free : d.read? h = none) : d.move? h m = some d := by
  rw [move?, free]

theorem move?_of_read? (hs : d.read? h = some s) : d.move? h m = (s.move? m).map (d.put h) := by
  rw [move?, hs]

/-- What a move through a handle does, if the program does not fail at it. -/
theorem move?_cases (moved : d.move? h m = some d') :
    d.read? h = none ∧ d' = d ∨
      ∃ s s', d.read? h = some s ∧ s.move? m = some s' ∧ d' = d.put h s' := by
  cases hs : d.read? h with
  | none =>
    rw [move?_of_read?_eq_none hs] at moved
    exact .inl ⟨rfl, (Option.some.inj moved).symm⟩
  | some s =>
    rw [move?_of_read? hs] at moved
    obtain ⟨s', hs', put⟩ := Option.map_eq_some_iff.1 moved
    exact .inr ⟨s, s', rfl, hs', put.symm⟩

theorem handles_of_move? (moved : d.move? h m = some d') : d'.handles = d.handles := by
  obtain ⟨-, rfl⟩ | ⟨s, s', -, -, rfl⟩ := move?_cases moved <;> rfl

/-- The handles on the slider that is moved read the exact position, and the others what they read
before. -/
theorem position?_of_move? (moved : d.move? h m = some d') (k : ℕ) :
    d'.position? k =
      if d.handles[h]? = d.handles[k]? then (d.position? k).map fun p => m.exact p
      else d.position? k := by
  obtain ⟨free, rfl⟩ | ⟨s, s', hs, hs', rfl⟩ := move?_cases moved
  · split_ifs with same
    · rw [position?, ← read?_congr same, free]
      rfl
    · rfl
  · rw [position?, position?, read?_put]
    split_ifs with same
    · rw [← read?_congr same, hs]
      exact congrArg some (Slider.position_of_move? hs')
    · rfl

theorem isSome_move?_iff : (d.move? h m).isSome ↔ ∀ p, d.position? h = some p → m.Sums p := by
  rw [position?]
  cases hs : d.read? h with
  | none =>
    rw [move?_of_read?_eq_none hs]
    exact iff_of_true rfl nofun
  | some s =>
    rw [move?_of_read? hs, Option.isSome_map, Slider.isSome_move?_iff, Option.map_some]
    simp only [Option.some.injEq, forall_eq']

/-! ### Soundness -/

namespace Sound

theorem create (sound : d.Sound) (n : ℤ) : (d.create n).Sound := by
  refine ⟨fun i hi => ?_, fun s hs => ?_⟩
  · show i < (d.sliders ++ [_]).length
    rw [List.length_append, List.length_singleton]
    rcases List.mem_append.1 hi with old | new
    · exact Nat.lt_succ_of_lt (sound.handles_lt i old)
    · rw [List.mem_singleton.1 new]
      exact Nat.lt_succ_self _
  · rcases List.mem_append.1 hs with old | new
    · exact sound.inRange s old
    · rw [List.mem_singleton.1 new]
      exact Slider.inRange_ofInt n

theorem share (sound : d.Sound) (h : ℕ) : (d.share h).Sound := by
  refine ⟨fun i hi => ?_, sound.inRange⟩
  rcases List.mem_append.1 hi with old | new
  · exact sound.handles_lt i old
  · exact sound.handles_lt i (List.mem_of_getElem? (Option.mem_toList.1 new))

theorem put (sound : d.Sound) (h : ℕ) (inRange : s.InRange) : (d.put h s).Sound := by
  unfold Desk.put
  cases d.handles[h]? with
  | none => exact sound
  | some i =>
    refine ⟨fun j hj => ?_, fun s' hs' => ?_⟩
    · show j < (d.sliders.set i s).length
      rw [List.length_set]
      exact sound.handles_lt j hj
    · rcases List.mem_or_eq_of_mem_set hs' with old | rfl
      · exact sound.inRange s' old
      · exact inRange

theorem move (sound : d.Sound) (moved : d.move? h m = some d') : d'.Sound := by
  obtain ⟨-, rfl⟩ | ⟨s, s', -, hs', rfl⟩ := move?_cases moved
  · exact sound
  · exact sound.put h (Slider.inRange_of_move? hs')

theorem inRange_of_read? (sound : d.Sound) (hs : d.read? h = some s) : s.InRange := by
  obtain ⟨i, -, hi⟩ := Option.bind_eq_some_iff.1 hs
  exact sound.inRange s (List.mem_of_getElem? hi)

end Sound

theorem Reachable.sound (r : d.Reachable) : d.Sound := by
  induction r with
  | empty => exact ⟨nofun, nofun⟩
  | create n _ ih => exact ih.create n
  | share h _ ih => exact ih.share h
  | move _ moved ih => exact ih.move moved

/-! ### Lists of moves -/

theorem moveAll?_cons (d : Desk) (c : ℕ × Slider.Move) (moves : List (ℕ × Slider.Move)) :
    d.moveAll? (c :: moves) = (d.move? c.1 c.2).bind fun d' => d'.moveAll? moves := rfl

/-- The exact positions may be counted from after the first move. -/
theorem expected?_of_move? {c : ℕ × Slider.Move} (moved : d.move? c.1 c.2 = some d') (k : ℕ)
    (moves : List (ℕ × Slider.Move)) : d'.expected? k moves = d.expected? k (c :: moves) := by
  have rest : d'.movesOn k moves = d.movesOn k moves := by
    unfold movesOn
    rw [handles_of_move? moved]
  rw [expected?, expected?, rest, position?_of_move? moved]
  split_ifs with same
  · simp [movesOn, same, Function.comp_def]
  · simp [movesOn, same]

theorem position?_of_moveAll? {moves : List (ℕ × Slider.Move)} (done : d.moveAll? moves = some d')
    (k : ℕ) : d'.position? k = d.expected? k moves := by
  induction moves generalizing d with
  | nil =>
    obtain rfl := Option.some.inj done
    exact Option.map_id'.symm
  | cons c moves ih =>
    obtain ⟨d₁, moved, done⟩ := Option.bind_eq_some_iff.1 done
    rw [ih done, expected?_of_move? moved]

theorem Reachable.moveAll? {moves : List (ℕ × Slider.Move)} (r : d.Reachable)
    (done : d.moveAll? moves = some d') : d'.Reachable := by
  induction moves generalizing d with
  | nil =>
    obtain rfl := Option.some.inj done
    exact r
  | cons c moves ih =>
    obtain ⟨d₁, moved, done⟩ := Option.bind_eq_some_iff.1 done
    exact ih (r.move moved) done

theorem isSome_moveAll?_iff (d : Desk) (moves : List (ℕ × Slider.Move)) :
    (d.moveAll? moves).isSome ↔ ∀ i c, moves[i]? = some c →
      ∀ p, d.expected? c.1 (moves.take i) = some p → c.2.Sums p := by
  induction moves generalizing d with
  | nil => exact iff_of_true rfl nofun
  | cons c moves ih =>
    have first : (∀ c', (c :: moves)[0]? = some c' →
        ∀ p, d.expected? c'.1 ((c :: moves).take 0) = some p → c'.2.Sums p) ↔
          (d.move? c.1 c.2).isSome := by
      rw [isSome_move?_iff]
      simp [expected?, movesOn]
    rw [← Nat.and_forall_add_one, first, moveAll?_cons]
    cases moved : d.move? c.1 c.2 with
    | none => exact iff_of_false nofun fun both => nomatch both.1
    | some d' =>
      simp only [Option.bind_some, ih, expected?_of_move? moved, List.getElem?_cons_succ,
        List.take_succ_cons, Option.isSome_some, true_and]

/-- A new slider stands at the number it was made with, moved into range, and making sliders and
handles changes no reading. A slider stands from 5 to 100, with a delay of two milliseconds for each
position below 100. After a move through one of its handles all of them read the number that it was
set to, or the sum of its position and the amount, moved into range; so a greater amount leads to
no lower position. The program fails only where that sum is no word, and no key asks for such an
amount.

After a list of moves through any handles each handle reads the exact position of its slider, unless
the program fails at one of them. It does so if and only if the sum of the exact position and the
amount of one of them is no word. -/
theorem Reachable.moves_exact_iff (r : d.Reachable) :
    (∀ n, (d.create n).position? d.handles.length = some (Speed.clamp n)) ∧
    (∀ h s, d.read? h = some s →
      (d.share h).Clones h d.handles.length ∧
      (∀ n, (d.create n).read? h = some s) ∧
      (∀ k, (d.share k).read? h = some s) ∧
      (5 ≤ s.position ∧ s.position ≤ 100) ∧
      (s.delay = 2 * (100 - s.position) ∧ 2 ∣ s.delay ∧ s.delay ≤ 190) ∧
      (∀ n, ∃ d', d.move? h (.set n) = some d' ∧
        ∀ k, d.Clones h k → d'.position? k = some (Speed.clamp n)) ∧
      (∀ n, Word.Fits (s.position + n) → ∃ d', d.move? h (.adjust n) = some d' ∧
        ∀ k, d.Clones h k → d'.position? k = some (Speed.clamp (s.position + n))) ∧
      (∀ n, Word.Fits n →
        (d.move? h (.adjust n) = none ↔ 0x8000000000000000 ≤ s.position + n)) ∧
      (∀ m n s₁ s₂, m ≤ n → s.adjust? m = some s₁ → s.adjust? n = some s₂ →
        s₁.position ≤ s₂.position) ∧
      ∀ key n, Key.request? key = some (.pace n) → s.adjust? n = some (s.shift n)) ∧
    ∀ moves : List (ℕ × Slider.Move),
      ((d.moveAll? moves).isSome ↔ ∀ i c, moves[i]? = some c →
        ∀ p, d.expected? c.1 (moves.take i) = some p → c.2.Sums p) ∧
      ∀ d', d.moveAll? moves = some d' →
        d'.Reachable ∧ ∀ k, d'.position? k = d.expected? k moves := by
  refine ⟨fun n => ?_, fun h s hs => ?_, fun moves => ⟨d.isSome_moveAll?_iff moves,
    fun d' done => ⟨r.moveAll? done, position?_of_moveAll? done⟩⟩⟩
  · rw [position?, read?_create, Option.map_some]
    exact congrArg some (Speed.natCast_position n)
  · have inRange := r.sound.inRange_of_read? hs
    have delay := inRange.delay_eq
    have position : d.position? h = some (s.position : ℤ) := by rw [position?, hs]; rfl
    -- A move that forms no sum that is not a word is made, and read by all handles on the slider.
    have made (m : Slider.Move) (sums : m.Sums s.position) :
        ∃ d', d.move? h m = some d' ∧
          ∀ k, d.Clones h k → d'.position? k = some (m.exact s.position) := by
      have success : (d.move? h m).isSome := by
        rw [isSome_move?_iff, position]
        rintro p ⟨⟩
        exact sums
      obtain ⟨d', moved⟩ := Option.isSome_iff_exists.1 success
      refine ⟨d', moved, fun k clones => ?_⟩
      rw [position?_of_move? moved, if_pos clones.handles_eq, position?,
        ← read?_congr clones.handles_eq, ← position?, position]
      rfl
    refine ⟨clones_share hs, fun n => r.sound.read?_append hs _ _,
      fun k => r.sound.read?_share_of_some k hs, inRange, ⟨delay, ⟨_, delay⟩, ?_⟩,
      fun n => made (.set n) trivial, fun n sums => made (.adjust n) sums, fun n fits => ?_,
      fun m n s₁ s₂ le lower higher => Slider.position_le_of_adjust? le lower higher,
      fun key n asked => inRange.adjust?_of_request? asked⟩
    · rw [delay]
      have low := inRange.1
      omega
    · rw [move?_of_read? hs, Option.map_eq_none_iff]
      exact Slider.adjust?_eq_none_iff fits

/-- A desk with a slider at 50 that has two handles. -/
def shared : Desk :=
  (create {} 50).share 0

theorem reachable_shared : shared.Reachable :=
  (Reachable.empty.create 50).share 0

theorem Reachable.moves_exact_iff_shared :
    shared.Reachable ∧ shared.read? 0 = some ⟨50⟩ ∧ shared.Clones 0 1 ∧
      Slider.delay ⟨50⟩ = 100 ∧
      (∃ d', shared.move? 0 (.adjust 95) = some d' ∧ d'.position? 1 = some 100) ∧
      ∃ d', shared.moveAll? [(0, .adjust 60), (1, .adjust (-500))] = some d' ∧
        d'.position? 0 = some 5 := by
  have clones : shared.Clones 0 1 := ⟨0, rfl, rfl⟩
  obtain ⟨-, slider, moves⟩ := reachable_shared.moves_exact_iff
  obtain ⟨-, -, -, -, delay, -, adjusted, -⟩ := slider 0 ⟨50⟩ rfl
  obtain ⟨d₁, moved, read⟩ := adjusted 95 (by decide)
  obtain ⟨success, exact⟩ := moves [(0, .adjust 60), (1, .adjust (-500))]
  -- The slider stands at 50 before the first move and at 100 before the second.
  obtain ⟨d₂, done⟩ := Option.isSome_iff_exists.1 <| success.2 fun i c hc p hp => by
    match i with
    | 0 =>
      obtain rfl := Option.some.inj hc
      obtain rfl := Option.some.inj hp
      show Word.Fits (50 + 60)
      decide
    | 1 =>
      obtain rfl := Option.some.inj hc
      obtain rfl := Option.some.inj hp
      show Word.Fits (100 + -500)
      decide
  exact ⟨reachable_shared, rfl, clones, delay.1, ⟨d₁, moved, read 1 clones⟩, d₂, done,
    (exact d₂ done).2 0⟩

/-- The program fails when the slider is moved from 50 by the greatest word, so no handle reads the
position to which it goes in exact integers. -/
theorem not_exact_shared :
    shared.Reachable ∧ shared.position? 0 = some 50 ∧ shared.Clones 0 1 ∧
      Word.Fits 0x7fffffffffffffff ∧
      shared.move? 0 (.adjust 0x7fffffffffffffff) = none ∧
      shared.expected? 0 [(0, .adjust 0x7fffffffffffffff)] = some 100 ∧
      shared.expected? 1 [(0, .adjust 0x7fffffffffffffff)] = some 100 :=
  ⟨reachable_shared, rfl, ⟨0, rfl, rfl⟩, by decide, by decide, by decide, by decide⟩

end Desk

end BlockBoard
