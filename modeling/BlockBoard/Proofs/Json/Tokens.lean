import Mathlib.Algebra.Order.Ring.Int
import BlockBoard.Json.Read
import BlockBoard.Json.Write
import BlockBoard.Proofs.Workspace.View

/-!
# Reading written tokens

What is written for a string, a number or a break of the line is read back, whatever follows it; for
a number, what follows must not go on with it (`EndsNumber`).
-/

namespace BlockBoard

namespace Json

/-! ### Blanks -/

theorem skipBlanks_of_not_blank {c : Char} (h : isBlank c = false) (cs : List Char) :
    skipBlanks (c :: cs) = c :: cs := by
  simp [skipBlanks, h]

theorem skipBlanks_append {blanks : List Char} (h : ∀ c ∈ blanks, isBlank c) (cs : List Char) :
    skipBlanks (blanks ++ cs) = skipBlanks cs := by
  unfold skipBlanks
  rw [List.dropWhile_append_of_pos h]

theorem toList_pushn (s : String) (c : Char) (n : ℕ) :
    (s.pushn c n).toList = s.toList ++ List.replicate n c := by
  rw [String.pushn_eq_repeat_push]
  induction n with
  | zero => simp [Nat.repeat]
  | succ n ih => simp [Nat.repeat, ih, List.replicate_succ']

@[simp] theorem skipBlanks_lineStart (layout : Layout) (level : ℕ) (cs : List Char) :
    skipBlanks ((layout.lineStart level).toList ++ cs) = skipBlanks cs := by
  apply skipBlanks_append
  intro c hc
  cases layout with
  | compact => simp [Layout.lineStart] at hc
  | indented =>
    have : c = '\n' ∨ c = ' ' := by
      simp only [Layout.lineStart, String.toList_append, toList_pushn, List.mem_append,
        List.mem_replicate] at hc
      simp at hc
      tauto
    rcases this with rfl | rfl <;> rfl

/-! ### Strings -/

theorem toList_quote (s : String) :
    (quote s).toList = '"' :: (s.toList.flatMap escape ++ ['"']) := by
  simp [quote]

/-- The digits behind `\u00` are those of the character. -/
theorem codeUnit_control {n : ℕ} (h : n < 0x20) (cs : List Char) :
    codeUnit ('0' :: '0' :: twoDigits n ++ cs) = .ok (n, cs) := by
  have digits : ∀ n < 0x20, (twoDigits n).length = 2 ∧
      holdsFourBytes ('0' :: '0' :: twoDigits n) = true ∧
      Text.ofHex? ('0' :: '0' :: twoDigits n) = some n := by decide
  obtain ⟨length, four, value⟩ := digits n h
  obtain ⟨a, b, ab⟩ := List.length_eq_two.1 length
  rw [ab] at four value ⊢
  have bytes : holdsFourBytes ('0' :: '0' :: a :: b :: cs) = true := four
  simp [codeUnit, bytes, value]

theorem stringPiece_escape (c : Char) (cs : List Char) :
    stringPiece .strict (escape c ++ cs) = .ok (some c, cs) := by
  unfold escape
  split_ifs with special back tab line form carriage control
  · rcases special with rfl | rfl <;> rfl
  · subst back; rfl
  · subst tab; rfl
  · subst line; rfl
  · subst form; rfl
  · subst carriage; rfl
  · have unit := codeUnit_control control cs
    have high : isHighSurrogate c.toNat = false := by simp [isHighSurrogate]; omega
    have low : isLowSurrogate c.toNat = false := by simp [isLowSurrogate]; omega
    have read : unicodeEscape .strict ('0' :: '0' :: twoDigits c.toNat ++ cs) = .ok (c, cs) := by
      unfold unicodeEscape
      rw [unit, ok_bind]
      simp [high, low]
    simp only [List.cons_append, List.nil_append, stringPiece, escaped] at read ⊢
    rw [read, ok_bind]
  · rw [not_or] at special
    have plain : stringPiece .strict (c :: cs) =
        if c.toNat < 0x20 then .error .malformed else .ok (some c, cs) := by
      unfold stringPiece
      split <;> simp_all
    rw [List.singleton_append, plain, if_neg control]

theorem stringRest_escape {chars : List Char} {limit : ℕ} (h : chars.length < limit)
    (before cs : List Char) :
    stringRest .strict limit before (chars.flatMap escape ++ '"' :: cs) =
      .ok (String.ofList (before.reverse ++ chars), cs) := by
  induction chars generalizing limit before with
  | nil =>
    obtain ⟨limit, rfl⟩ := Nat.exists_eq_succ_of_ne_zero (Nat.ne_of_gt h)
    simp [stringRest, stringPiece, ok_bind]
  | cons c chars ih =>
    obtain ⟨limit, rfl⟩ := Nat.exists_eq_succ_of_ne_zero (Nat.ne_of_gt (Nat.zero_lt_of_lt h))
    rw [List.flatMap_cons, List.append_assoc, stringRest, stringPiece_escape, ok_bind]
    have fewer : chars.length < limit := Nat.lt_of_succ_lt_succ h
    have rest := ih fewer (c :: before)
    simpa using rest

theorem stringRest_quote (s : String) {limit : ℕ} (h : s.toList.length < limit) (cs : List Char) :
    stringRest .strict limit [] (s.toList.flatMap escape ++ '"' :: cs) = .ok (s, cs) := by
  simpa using stringRest_escape h [] cs

/-! ### Numbers -/

/-- The characters do not go on with a number in front of them. -/
def EndsNumber (cs : List Char) : Prop :=
  ∀ c ∈ cs.head?, c.isDigit = false ∧ c ≠ '.' ∧ c ≠ 'e' ∧ c ≠ 'E'

theorem digitValue_digitChar {d : ℕ} (h : d < 10) : digitValue d.digitChar = d :=
  Nat.toNat_digitChar_sub_48_of_lt_ten h

theorem isDigit_of_mem_toDigits {n : ℕ} : ∀ c ∈ Nat.toDigits 10 n, c.isDigit = true :=
  fun _ hc => Nat.isDigit_of_mem_toDigits (by decide) (by decide) hc

theorem head?_toDigits_ne_zero {n : ℕ} (pos : 0 < n) : (Nat.toDigits 10 n).head? ≠ some '0' := by
  induction n using Nat.strong_induction_on with
  | _ n ih =>
    rw [Nat.toDigits_eq_if (by decide)]
    split_ifs with small
    · rw [List.head?_cons, Ne, Option.some.injEq, Nat.digitChar_eq_zero]
      omega
    · rw [List.head?_append_of_ne_nil _ Nat.toDigits_ne_nil]
      exact ih (n / 10) (by omega) (by omega)

theorem EndsNumber.takeWhile_isDigit {cs : List Char} (h : EndsNumber cs) :
    cs.takeWhile Char.isDigit = [] ∧ cs.dropWhile Char.isDigit = cs := by
  cases cs with
  | nil => exact ⟨rfl, rfl⟩
  | cons c cs =>
    have := (h c rfl).1
    simp [this]

theorem wholeDigits_toDigits (n : ℕ) {cs : List Char} (h : EndsNumber cs) :
    wholeDigits .strict (Nat.toDigits 10 n ++ cs) = .ok (Nat.toDigits 10 n, cs) := by
  obtain ⟨none, all⟩ := h.takeWhile_isDigit
  have digits : someDigits .strict (Nat.toDigits 10 n ++ cs) = .ok (Nat.toDigits 10 n, cs) := by
    unfold someDigits
    rw [List.takeWhile_append_of_pos isDigit_of_mem_toDigits,
      List.dropWhile_append_of_pos isDigit_of_mem_toDigits, none, all, List.append_nil]
    split
    · next empty => exact absurd empty Nat.toDigits_ne_nil
    · rfl
  have canonical : ¬ ((Nat.toDigits 10 n).head? = some '0' ∧ (Nat.toDigits 10 n).length ≠ 1) := by
    rcases Nat.eq_zero_or_pos n with rfl | pos
    · simp
    · exact fun both => head?_toDigits_ne_zero pos both.1
  unfold wholeDigits
  rw [digits, ok_bind]
  exact if_neg canonical

theorem scaledWhole_toDigits {n : ℕ} (small : n ≤ significandMax) :
    (Nat.toDigits 10 n).foldl (fun s c => s.wholeDigit (digitValue c)) {} =
      ({ significand := n } : Scaled) := by
  induction n using Nat.strong_induction_on with
  | _ n ih =>
    rw [Nat.toDigits_eq_if (by decide)]
    split_ifs with one
    · simp only [List.foldl_cons, List.foldl_nil, Scaled.wholeDigit, digitValue_digitChar one]
      simp [Nat.not_lt.2 small]
    · rw [List.foldl_append, ih (n / 10) (by omega) (by omega)]
      have whole : 10 * (n / 10) + n % 10 = n := by omega
      simp only [List.foldl_cons, List.foldl_nil, Scaled.wholeDigit,
        digitValue_digitChar (Nat.mod_lt n (by decide)), whole]
      simp [Nat.not_lt.2 small]

theorem round53_le (n : ℕ) : round53 n ≤ 2 * n := by
  unfold round53
  split_ifs with exact
  · omega
  · have pos : n ≠ 0 := by omega
    have unit_le : 2 ^ (Nat.log2 n - 52) ≤ n :=
      (Nat.pow_le_pow_right (by decide) (Nat.sub_le _ _)).trans (Nat.log2_self_le pos)
    have down := Nat.div_mul_le_self n (2 ^ (Nat.log2 n - 52))
    dsimp only
    split_ifs
    · exact down.trans (by omega)
    · rw [Nat.add_mul, Nat.one_mul]
      exact (Nat.add_le_add down unit_le).trans (by omega)

theorem isInfinite_eq_false {n : ℕ} (small : n ≤ significandMax) : isInfinite n 0 = false := by
  have bound : 2 * significandMax < infinityBound := by decide +kernel
  have rounded := round53_le n
  have one : round53 (Nat.pow 10 (0 : ℤ).toNat) = 1 := by decide
  have finite : ¬ infinityBound ≤ round53 n * 1 := by omega
  unfold isInfinite
  rw [one]
  split_ifs with zero large
  · rfl
  · exact absurd large (by decide)
  · exact decide_eq_false finite

/-- An integer that fits a word, but zero is not negative. -/
theorem number_toDigits {n : ℕ} (small : n ≤ significandMax) (negative : Bool)
    (sign : negative = true → 0 < n ∧ n ≤ 0x8000000000000000) {cs : List Char}
    (h : EndsNumber cs) :
    number .strict negative (Nat.toDigits 10 n ++ cs) =
      .ok (.int (if negative then -n else n), cs) := by
  have fraction : fractionDigits .strict cs = .ok (none, cs) := by
    unfold fractionDigits
    split
    · exact absurd rfl (h '.' rfl).2.1
    · rfl
  have exponent : exponentPart .strict cs = .ok (none, cs) := by
    unfold exponentPart
    split
    · exact absurd rfl (h 'e' rfl).2.2.1
    · exact absurd rfl (h 'E' rfl).2.2.2
    · rfl
  have value : Numeral.value? ⟨negative, Nat.toDigits 10 n, none, none⟩ =
      some (.int (if negative then -n else n)) := by
    have whole : Numeral.scaledWhole ⟨negative, Nat.toDigits 10 n, none, none⟩ =
      { significand := n } := scaledWhole_toDigits small
    have finite := isInfinite_eq_false small
    cases negative with
    | false => simp [Numeral.value?, Numeral.scaled, whole, finite]
    | true =>
      obtain ⟨pos, le⟩ := sign rfl
      have real : ¬ (n = 0 ∨ 0x8000000000000000 < n) := by omega
      simp [Numeral.value?, Numeral.scaled, whole, finite, real]
  unfold number numeral
  rw [wholeDigits_toDigits n h, ok_bind]
  simp only [fraction, exponent, ok_bind, value]

theorem scalar_of_isDigit {c : Char} (h : c.isDigit = true) (limit : ℕ) (cs : List Char) :
    scalar .strict limit (c :: cs) = number .strict false (c :: cs) := by
  unfold scalar
  split <;> simp_all

theorem toList_toString (n : ℤ) : (toString n).toList =
    if 0 ≤ n then Nat.toDigits 10 n.toNat else '-' :: Nat.toDigits 10 (-n).toNat := by
  rw [Int.toString_eq_repr, Int.repr_eq_if]
  split_ifs <;> simp [Nat.repr_eq_ofList_toDigits]

theorem scalar_toString {n : ℤ} (fits : Word.Fits n) (limit : ℕ) {cs : List Char}
    (h : EndsNumber cs) : scalar .strict limit ((toString n).toList ++ cs) = .ok (.int n, cs) := by
  obtain ⟨low, high⟩ := fits
  have max : significandMax = 0xFFFFFFFFFFFFFFFF := rfl
  rw [toList_toString]
  split_ifs with sign
  · have read := number_toDigits (n := n.toNat) (by omega) false nofun h
    obtain ⟨d, ds, digits⟩ :=
      List.exists_cons_of_ne_nil (Nat.toDigits_ne_nil (n := n.toNat) (b := 10))
    have first : d.isDigit = true := isDigit_of_mem_toDigits d (by rw [digits]; simp)
    rw [digits, List.cons_append] at read ⊢
    rw [scalar_of_isDigit first, read]
    simp [sign]
  · have read := number_toDigits (n := (-n).toNat) (by omega) true (by omega) h
    have value : -((-n).toNat : ℤ) = n := by omega
    rw [List.cons_append, scalar, read]
    rw [if_pos rfl, value]

end Json

end BlockBoard
