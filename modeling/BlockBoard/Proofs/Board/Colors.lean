import Mathlib.Data.List.DropRight
import BlockBoard.Proofs.Board.Changes

/-!
# Colors that are stored

A color that is spelled twice is spelled as if once (`Color.normalize_normalize`). What a reachable
board stores is spelled already, and belongs to a cell of the grid (`Board.Reachable.tidy`).
-/

namespace BlockBoard

/-! ### Trimmed texts -/

namespace Text

variable {cs : List Char}

/-- Neither end of the characters is blank. -/
def Trimmed (cs : List Char) : Prop :=
  (∀ c ∈ cs.head?, isBlank c = false) ∧ ∀ c ∈ cs.getLast?, isBlank c = false

theorem trimmed_trimList (cs : List Char) : Trimmed (trimList cs) := by
  have trim : trimList cs = (cs.dropWhile isBlank).rdropWhile isBlank := rfl
  rw [trim]
  constructor
  · intro c hc
    obtain ⟨kept, parts⟩ := List.head?_eq_some_iff.1 hc
    obtain ⟨behind, whole⟩ := List.rdropWhile_prefix isBlank (cs.dropWhile isBlank)
    have first := List.head?_dropWhile_not isBlank cs
    rw [← whole, parts] at first
    exact first
  · intro c hc
    obtain ⟨ne, rfl⟩ := List.mem_getLast?_eq_getLast hc
    exact Bool.eq_false_iff.2 (List.rdropWhile_last_not isBlank _ ne)

theorem Trimmed.trimList_eq_self (h : Trimmed cs) : trimList cs = cs := by
  have left : cs.dropWhile isBlank = cs := by
    cases cs with
    | nil => rfl
    | cons c cs => exact List.dropWhile_cons_of_neg (Bool.eq_false_iff.1 (h.1 c rfl))
  have right : cs.rdropWhile isBlank = cs :=
    List.rdropWhile_eq_self_iff.2 fun ne =>
      Bool.eq_false_iff.1 (h.2 _ (List.getLast?_eq_some_getLast ne))
  show (cs.dropWhile isBlank).rdropWhile isBlank = cs
  rw [left, right]

theorem forall_ascii {P : Char → Prop} (h : ∀ n < 128, P (Char.ofNat n)) {c : Char}
    (hc : c.toNat < 128) : P c := by
  have := h c.toNat hc
  rwa [Char.ofNat_toNat] at this

theorem toLower_eq_self {c : Char} (hc : 128 ≤ c.toNat) : c.toLower = c := by
  refine dif_neg ?_
  rintro ⟨-, upper⟩
  exact absurd (UInt32.le_iff_toNat_le.1 upper) (Nat.not_le.2 (Nat.lt_of_lt_of_le (by decide) hc))

theorem toList_toLower (text : String) : text.toLower.toList = text.toList.map Char.toLower :=
  String.toList_map

theorem toLower_toLower (c : Char) : c.toLower.toLower = c.toLower := by
  rcases Nat.lt_or_ge c.toNat 128 with ascii | other
  · exact forall_ascii (P := fun c => c.toLower.toLower = c.toLower) (by decide) ascii
  · rw [toLower_eq_self other, toLower_eq_self other]

/-- Letters are not blank in either case. -/
theorem isBlank_toLower (c : Char) : isBlank c.toLower = isBlank c := by
  rcases Nat.lt_or_ge c.toNat 128 with ascii | other
  · exact forall_ascii (P := fun c => isBlank c.toLower = isBlank c) (by decide) ascii
  · rw [toLower_eq_self other]

theorem lt_of_isHexDigit {c : Char} (h : isHexDigit c) : c.toNat < 128 := by
  unfold isHexDigit hexValue? at h
  split_ifs at h with number lower upper
  · exact Nat.lt_of_le_of_lt number.2 (by decide)
  · exact Nat.lt_of_le_of_lt lower.2 (by decide)
  · exact Nat.lt_of_le_of_lt upper.2 (by decide)
  · cases h

/-- Blank characters are no digits. -/
theorem isBlank_of_isHexDigit {c : Char} (h : isHexDigit c) : isBlank c = false :=
  forall_ascii (P := fun c => isHexDigit c → isBlank c = false) (by decide) (lt_of_isHexDigit h) h

theorem Trimmed.map_toLower (h : Trimmed cs) : Trimmed (cs.map Char.toLower) := by
  constructor
  · intro c hc
    rw [List.head?_map] at hc
    obtain ⟨c', hc', rfl⟩ := Option.mem_map.1 hc
    rw [isBlank_toLower, h.1 c' hc']
  · intro c hc
    rw [List.getLast?_map] at hc
    obtain ⟨c', hc', rfl⟩ := Option.mem_map.1 hc
    rw [isBlank_toLower, h.2 c' hc']

/-! ### Hexadecimal numbers -/

theorem hexValue?_lt {c : Char} {d : ℕ} (h : hexValue? c = some d) : d < 16 := by
  unfold hexValue? at h
  split_ifs at h with number lower upper <;> cases h
  · have : c.toNat ≤ 57 := number.2
    change c.toNat - 48 < 16
    omega
  · have : c.toNat ≤ 102 := lower.2
    change c.toNat - 97 + 10 < 16
    omega
  · have : c.toNat ≤ 70 := upper.2
    change c.toNat - 65 + 10 < 16
    omega

theorem ofHex?_lt {n : ℕ} (h : ofHex? cs = some n) : n < 16 ^ cs.length := by
  -- a value that was read before is moved on by as many digits as are left
  have read : ∀ m, cs.foldlM (fun n c => (hexValue? c).map (16 * n + ·)) m = some n →
      n < (m + 1) * 16 ^ cs.length := by
    clear h
    induction cs with
    | nil =>
      intro m h
      cases h
      simp
    | cons c cs ih =>
      intro m h
      rw [List.foldlM_cons] at h
      obtain ⟨m', hm', h⟩ := Option.bind_eq_some_iff.1 h
      obtain ⟨d, hd, rfl⟩ := Option.map_eq_some_iff.1 hm'
      have digit := hexValue?_lt hd
      calc n < (16 * m + d + 1) * 16 ^ cs.length := ih _ h
        _ ≤ (m + 1) * 16 * 16 ^ cs.length := Nat.mul_le_mul_right _ (by omega)
        _ = (m + 1) * 16 ^ (c :: cs).length := by
          rw [List.length_cons, Nat.pow_succ', Nat.mul_assoc]
  simpa using read 0 h

theorem length_le_utf8ByteSize (cs : List Char) : cs.length ≤ (String.ofList cs).utf8ByteSize := by
  induction cs with
  | nil => exact Nat.zero_le _
  | cons c cs ih =>
    have pos := c.utf8Size_pos
    rw [String.ofList_cons, String.utf8ByteSize_append, String.utf8ByteSize_singleton,
      List.length_cons]
    omega

end Text

/-! ### Spelling a color -/

namespace Color

variable {text : String}

/-- Trimmed text in lower case, but not the empty one. -/
structure Clean (text : String) : Prop where
  ne_empty : text ≠ ""
  trimmed : Text.Trimmed text.toList
  lower : ∀ c ∈ text.toList, c.toLower = c

theorem clean_toLower_trim {color : String} (ne : (Text.trim color).toLower ≠ "") :
    Clean (Text.trim color).toLower := by
  have chars : (Text.trim color).toLower.toList =
      (Text.trimList color.toList).map Char.toLower := by
    rw [Text.toList_toLower, Text.trim, String.toList_ofList]
  refine ⟨ne, ?_, ?_⟩ <;> rw [chars]
  · exact (Text.trimmed_trimList _).map_toLower
  · rintro _ hc
    obtain ⟨c, -, rfl⟩ := List.mem_map.1 hc
    exact Text.toLower_toLower c

theorem Clean.toLower_trim (h : Clean text) : (Text.trim text).toLower = text := by
  rw [Text.trim, h.trimmed.trimList_eq_self, String.ofList_toList, ← String.toList_inj,
    Text.toList_toLower, List.map_congr_left h.lower, List.map_id']

/-- A `#` and six hexadecimal digits, in lower case. -/
def Spelled (text : String) : Prop :=
  text.toList.head? = some '#' ∧ text.toList.tail.length = 6 ∧
    text.toList.tail.all fun c => Text.isHexDigit c ∧ c.toLower = c

instance : Decidable (Spelled text) :=
  inferInstanceAs (Decidable (_ ∧ _ ∧ _))

theorem spelled_ofList {cs : List Char} (length : cs.length = 6)
    (digit : ∀ c ∈ cs, Text.isHexDigit c ∧ c.toLower = c) :
    Spelled (String.ofList ('#' :: cs)) := by
  rw [Spelled, String.toList_ofList]
  exact ⟨rfl, length, List.all_eq_true.2 fun c hc => decide_eq_true (digit c hc)⟩

theorem Spelled.exists_digits (h : Spelled text) :
    ∃ cs, text.toList = '#' :: cs ∧ cs.length = 6 ∧
      ∀ c ∈ cs, Text.isHexDigit c ∧ c.toLower = c := by
  obtain ⟨first, length, digit⟩ := h
  obtain ⟨cs, hcs⟩ := List.head?_eq_some_iff.1 first
  rw [hcs] at length digit
  exact ⟨cs, hcs, length, fun c hc => of_decide_eq_true (List.all_eq_true.1 digit c hc)⟩

theorem spelled_white : Spelled white := by decide

theorem spelled_of_mem_named : ∀ entry ∈ named, Spelled entry.2 := by decide

theorem Spelled.clean (h : Spelled text) : Clean text := by
  obtain ⟨cs, chars, length, digit⟩ := h.exists_digits
  refine ⟨?_, ⟨?_, ?_⟩, ?_⟩
  · rintro rfl
    cases chars
  · rw [chars]
    rintro c ⟨⟩
    decide
  · intro c hc
    have ne : cs ≠ [] := List.ne_nil_of_length_pos (by omega)
    rw [chars, List.getLast?_cons_of_ne_nil ne] at hc
    exact Text.isBlank_of_isHexDigit (digit c (List.mem_of_mem_getLast? hc)).1
  · rw [chars, List.forall_mem_cons]
    exact ⟨by decide, fun c hc => (digit c hc).2⟩

/-- No color name begins with a `#`. -/
theorem Spelled.lookup_named (h : Spelled text) : named.lookup text = none := by
  have names : ∀ entry ∈ named, entry.1.toList.head? ≠ some '#' := by decide
  refine List.lookup_eq_none_iff.2 fun entry hentry => bne_iff_ne.2 ?_
  rintro rfl
  exact names entry hentry h.1

theorem Spelled.spell?_digits (h : Spelled text) : spell? (digits text.toList) = some text := by
  obtain ⟨cs, chars, length, digit⟩ := h.exists_digits
  have all : cs.all Text.isHexDigit := List.all_eq_true.2 fun c hc => (digit c hc).1
  have spell : spell? cs = some (String.ofList ('#' :: cs)) := by
    unfold spell?
    rw [if_pos all]
    match cs, length with
    | [_, _, _, _, _, _], _ => rfl
  rw [chars, digits, spell, ← chars, String.ofList_toList]

/-- Three or six digits in lower case are spelled out. -/
theorem spelled_of_spell? {cs : List Char} {hex : String} (lower : ∀ c ∈ cs, c.toLower = c)
    (h : spell? cs = some hex) : Spelled hex := by
  unfold spell? at h
  split_ifs at h with all
  have digit : ∀ c ∈ cs, Text.isHexDigit c ∧ c.toLower = c := fun c hc =>
    ⟨List.all_eq_true.1 all c hc, lower c hc⟩
  split at h
  · cases h
    refine spelled_ofList rfl fun c hc => digit c ?_
    simp only [List.mem_cons, List.not_mem_nil, or_false] at hc ⊢
    tauto
  · cases h
    exact spelled_ofList rfl digit
  · cases h

theorem normalize_of_clean (h : Clean text) : normalize text =
    (named.lookup text).getD ((spell? (digits text.toList)).getD text) := by
  rw [normalize, h.toLower_trim, if_neg h.ne_empty]
  cases named.lookup text <;> rfl

theorem normalize_eq (color : String) : normalize color =
    if (Text.trim color).toLower = "" then white else normalize (Text.trim color).toLower := by
  split_ifs with empty
  · rw [normalize, if_pos empty]
  · rw [normalize_of_clean (clean_toLower_trim empty), normalize, if_neg empty]
    cases named.lookup (Text.trim color).toLower <;> rfl

theorem Spelled.normalize_eq_self (h : Spelled text) : normalize text = text := by
  rw [normalize_of_clean h.clean, h.lookup_named, h.spell?_digits]
  rfl

theorem mem_of_mem_digits {c : Char} {cs : List Char} (h : c ∈ digits cs) : c ∈ cs := by
  unfold digits at h
  split at h
  · exact List.mem_cons_of_mem _ h
  · exact h

/-- A color is spelled out, unless it is kept as it is. -/
theorem Clean.spelled_or_eq (h : Clean text) :
    Spelled (normalize text) ∨ normalize text = text := by
  rw [normalize_of_clean h]
  cases name : named.lookup text with
  | some hex =>
    obtain ⟨before, after, parts, -⟩ := List.lookup_eq_some_iff.1 name
    exact .inl (spelled_of_mem_named (text, hex) (by rw [parts]; simp))
  | none =>
    cases spelling : spell? (digits text.toList) with
    | some hex =>
      refine .inl (spelled_of_spell? (fun c hc => ?_) spelling)
      exact h.lower c (mem_of_mem_digits hc)
    | none => exact .inr rfl

theorem normalize_normalize (color : String) : normalize (normalize color) = normalize color := by
  rw [normalize_eq color]
  split_ifs with empty
  · exact spelled_white.normalize_eq_self
  · rcases (clean_toLower_trim empty).spelled_or_eq with spelled | same
    · exact spelled.normalize_eq_self
    · rw [same, same]

/-! ### Decoding a color -/

theorem readHex?_lt {n : ℕ} {cs : List Char} (h : readHex? cs = some n) : n < 16 ^ cs.length := by
  unfold readHex? at h
  split at h
  · cases h
  · cases h
  · exact Nat.lt_of_lt_of_le (Text.ofHex?_lt h) (Nat.pow_le_pow_right (by decide) (Nat.le_succ _))
  · exact Text.ofHex?_lt h

/-- The parts of a color are bytes. -/
theorem toRgb?_le {color : String} {rgb : Rgb} (h : toRgb? color = some rgb) :
    rgb.red ≤ 255 ∧ rgb.green ≤ 255 ∧ rgb.blue ≤ 255 := by
  unfold toRgb? at h
  split at h
  · next cs _ =>
    split_ifs at h with six
    obtain ⟨n, hn, rfl⟩ := Option.map_eq_some_iff.1 h
    have short : cs.length ≤ 6 := six ▸ Text.length_le_utf8ByteSize cs
    have small : n < 16 ^ 6 :=
      Nat.lt_of_lt_of_le (readHex?_lt hn) (Nat.pow_le_pow_right (by decide) short)
    refine ⟨?_, ?_, ?_⟩ <;> dsimp only <;> omega
  · cases h

end Color

/-! ### Colors of a board -/

namespace Board

/-- Each color belongs to a cell of the grid, and is spelled the one way. -/
def Tidy (b : Board) : Prop :=
  ∀ (cell : Cell) color, b.fills[cell]? = some color →
    cell.Inside b.rows b.cols ∧ Color.normalize color = color

variable {b : Board}

theorem tidy_of_fills_eq_empty (h : b.fills = ∅) : b.Tidy := by
  intro cell color hc
  rw [h, Std.TreeMap.getElem?_emptyc] at hc
  cases hc

theorem Tidy.advances (h : b.Tidy) (d : Direction) (n : ℕ) : (b.advances d n).Tidy := by
  induction n generalizing b with
  | zero => exact h
  | succ n ih => exact ih (b := b.advance d) h

theorem Tidy.fill (h : b.Tidy) (row col : ℤ) (color : String) : (b.fill row col color).Tidy := by
  by_cases inGrid : b.Contains row col
  · rw [fill_of_contains b inGrid]
    intro cell stored hc
    rw [fills_draw, Std.TreeMap.getElem?_insert] at hc
    split_ifs at hc with here
    · cases hc
      obtain rfl := Std.LawfulEqOrd.eq_of_compare here
      obtain ⟨row_nonneg, col_nonneg, row_lt, col_lt⟩ := inGrid
      refine ⟨⟨?_, ?_⟩, Color.normalize_normalize color⟩ <;>
        simp only [rows_draw, cols_draw] <;> omega
    · exact h cell stored hc
  · rwa [fill_of_not_contains b inGrid]

theorem Tidy.change (h : b.Tidy) (c : Change) : (b.change c).Tidy := by
  cases c with
  | setGrid | setStart | reset | settings | corner => exact tidy_of_fills_eq_empty rfl
  | applyStart clearFills =>
    cases clearFills with
    | true => exact tidy_of_fills_eq_empty rfl
    | false => exact h
  | go direction steps delay =>
    cases direction with
    | none => exact h
    | some d => exact h.advances d steps
  | fill row col color => exact h.fill row col color
  | fillPiece color => exact h.fill _ _ color
  | observe | unobserve => exact h

theorem Reachable.tidy (h : b.Reachable) : b.Tidy := by
  induction h with
  | ofSize => exact tidy_of_fills_eq_empty rfl
  | change _ _ ih => exact ih.change _

end Board

end BlockBoard
