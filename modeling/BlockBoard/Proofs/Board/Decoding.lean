import Mathlib.Tactic.Ring
import BlockBoard.Proofs.Board.Colors

/-!
# Colors that are decoded

A color that is spelled the one way decodes to the values of its three pairs of digits, and two
colors that are spelled the one way decode to the same only if they are the same.

The number behind the `#` may begin with a sign, though, which takes the place of the first digit.
So a `#+` and five digits decode as well, to the parts of the color with a zero in that place, and
such a color has two spellings. Nothing else decodes (`Color.decodes_iff_spelled`).
-/

namespace BlockBoard

/-! ### Hexadecimal numbers -/

namespace Text

variable {cs ds : List Char} {c : Char} {n : ℕ}

theorem ofHex?_append (cs ds : List Char) :
    ofHex? (cs ++ ds) = (ofHex? cs).bind fun m => (ofHex? ds).map (m * 16 ^ ds.length + ·) := by
  -- a value that was read before is moved on by as many digits as are left
  have read : ∀ m, ds.foldlM (fun n c => (hexValue? c).map (16 * n + ·)) m =
      (ofHex? ds).map (m * 16 ^ ds.length + ·) := by
    induction ds with
    | nil => simp [ofHex?]
    | cons c ds ih =>
      intro m
      rw [ofHex?, List.foldlM_cons, List.foldlM_cons]
      cases hexValue? c with
      | none => rfl
      | some d =>
        simp only [Option.map_some, Option.bind_eq_bind, Option.bind_some, ih, Option.map_map,
          List.length_cons]
        congr 1
        funext n
        simp only [Function.comp_apply]
        ring
  rw [ofHex?, List.foldlM_append]
  exact congrArg _ (funext read)

/-- A number is cut in two by division. -/
theorem ofHex?_append_eq_some_iff : ofHex? (cs ++ ds) = some n ↔
    ofHex? cs = some (n / 16 ^ ds.length) ∧ ofHex? ds = some (n % 16 ^ ds.length) := by
  rw [ofHex?_append]
  constructor
  · intro h
    obtain ⟨m, high, h⟩ := Option.bind_eq_some_iff.1 h
    obtain ⟨k, low, rfl⟩ := Option.map_eq_some_iff.1 h
    have lt := ofHex?_lt low
    rw [Nat.mul_comm m, Nat.mul_add_div (Nat.zero_lt_of_lt lt), Nat.div_eq_of_lt lt,
      Nat.mul_add_mod, Nat.mod_eq_of_lt lt]
    exact ⟨high, low⟩
  · rintro ⟨high, low⟩
    rw [high, low, Option.bind_some, Option.map_some, Nat.div_add_mod']

theorem isSome_ofHex?_iff : (ofHex? cs).isSome ↔ ∀ c ∈ cs, isHexDigit c := by
  induction cs with
  | nil => simp [ofHex?]
  | cons c cs ih =>
    rw [← List.singleton_append, ofHex?_append, List.singleton_append, List.forall_mem_cons, ← ih,
      isHexDigit]
    cases value : hexValue? c <;> simp [ofHex?, value]

theorem utf8ByteSize_ofList (ascii : ∀ c ∈ cs, c.toNat < 128) :
    (String.ofList cs).utf8ByteSize = cs.length := by
  induction cs with
  | nil => rfl
  | cons c cs ih =>
    rw [List.forall_mem_cons] at ascii
    have one : c.utf8Size = 1 :=
      forall_ascii (P := fun c => c.utf8Size = 1) (by decide) ascii.1
    rw [String.ofList_cons, String.utf8ByteSize_append, String.utf8ByteSize_singleton, one,
      ih ascii.2, List.length_cons, Nat.add_comm]

/-- A lower case digit is told from the others by its value. -/
theorem eq_digitChar (lower : c.toLower = c) (h : ofHex? [c] = some n) : c = n.digitChar := by
  have ascii : c.toNat < 128 :=
    lt_of_isHexDigit (isSome_ofHex?_iff.1 (Option.isSome_of_mem h) c List.mem_cons_self)
  have every : c.toLower = c → ∀ n ∈ ofHex? [c], c = n.digitChar :=
    forall_ascii (P := fun c => c.toLower = c → ∀ n ∈ ofHex? [c], c = n.digitChar)
      (by decide) ascii
  exact every lower n h

/-- So are the lower case numbers of one length. -/
theorem ofHex?_inj (lower : ∀ c ∈ cs, c.toLower = c) (lower' : ∀ c ∈ ds, c.toLower = c)
    (length : cs.length = ds.length) (h : ofHex? cs = some n) (h' : ofHex? ds = some n) :
    cs = ds := by
  induction cs generalizing ds n with
  | nil => exact (List.eq_nil_of_length_eq_zero length.symm).symm
  | cons c cs ih =>
    cases ds with
    | nil => cases length
    | cons c' ds =>
      rw [List.forall_mem_cons] at lower lower'
      rw [← List.singleton_append, ofHex?_append_eq_some_iff] at h h'
      have same := Nat.succ.inj length
      rw [← same] at h'
      rw [eq_digitChar lower.1 h.1, eq_digitChar lower'.1 h'.1, ih lower.2 lower'.2 same h.2 h'.2]

end Text

/-! ### The parts of a color -/

/-- The parts of a color are the values of the pairs of digits, in order. -/
def Rgb.WrittenBy (rgb : Rgb) (cs : List Char) : Prop :=
  ∃ r r' g g' b b', cs = [r, r', g, g', b, b'] ∧ Text.ofHex? [r, r'] = some rgb.red ∧
    Text.ofHex? [g, g'] = some rgb.green ∧ Text.ofHex? [b, b'] = some rgb.blue

/-- The parts are read off the number that all digits write together. -/
theorem Rgb.writtenBy_iff {rgb : Rgb} {cs : List Char} :
    rgb.WrittenBy cs ↔ cs.length = 6 ∧
      ∃ n, Text.ofHex? cs = some n ∧ rgb = ⟨n / 65536, n / 256 % 256, n % 256⟩ := by
  have cut {r r' g g' b b' : Char} {n : ℕ} : Text.ofHex? [r, r', g, g', b, b'] = some n ↔
      Text.ofHex? [r, r'] = some (n / 65536) ∧ Text.ofHex? [g, g'] = some (n / 256 % 256) ∧
        Text.ofHex? [b, b'] = some (n % 256) := by
    have four : 16 ^ ([g, g'] ++ [b, b']).length = 65536 := by simp
    have two : 16 ^ [b, b'].length = 256 := by simp
    have green : n % 65536 / 256 = n / 256 % 256 := by omega
    have blue : n % 65536 % 256 = n % 256 := by omega
    rw [show [r, r', g, g', b, b'] = [r, r'] ++ ([g, g'] ++ [b, b']) from rfl,
      Text.ofHex?_append_eq_some_iff, Text.ofHex?_append_eq_some_iff, four, two, green, blue]
  constructor
  · rintro ⟨r, r', g, g', b, b', rfl, red, green, blue⟩
    obtain ⟨x, y, z⟩ := rgb
    have small : y < 256 := Text.ofHex?_lt green
    have small' : z < 256 := Text.ofHex?_lt blue
    have parts : Rgb.mk x y z = ⟨(x * 65536 + y * 256 + z) / 65536,
        (x * 65536 + y * 256 + z) / 256 % 256, (x * 65536 + y * 256 + z) % 256⟩ := by
      rw [mk.injEq]
      omega
    rw [parts] at red green blue
    exact ⟨rfl, _, cut.2 ⟨red, green, blue⟩, parts⟩
  · rintro ⟨six, n, read, rfl⟩
    match cs, six with
    | [r, r', g, g', b, b'], _ => exact ⟨r, r', g, g', b, b', rfl, cut.1 read⟩

/-- Digits in lower case are told by the parts that they write. -/
theorem Rgb.WrittenBy.inj {rgb : Rgb} {cs ds : List Char} (h : rgb.WrittenBy cs)
    (h' : rgb.WrittenBy ds) (lower : ∀ c ∈ cs, c.toLower = c)
    (lower' : ∀ c ∈ ds, c.toLower = c) : cs = ds := by
  obtain ⟨length, n, read, rfl⟩ := writtenBy_iff.1 h
  obtain ⟨length', n', read', same⟩ := writtenBy_iff.1 h'
  obtain rfl : n = n' := by
    rw [mk.injEq] at same
    omega
  exact Text.ofHex?_inj lower lower' (length.trans length'.symm) read read'

/-! ### Decoding -/

namespace Color

variable {color other : String} {rgb : Rgb} {cs : List Char} {n : ℕ}

/-- A `#+` and five hexadecimal digits, in lower case. -/
def Signed (text : String) : Prop :=
  ∃ cs, text.toList = '#' :: '+' :: cs ∧ cs.length = 5 ∧
    ∀ c ∈ cs, Text.isHexDigit c ∧ c.toLower = c

theorem Spelled.toList_eq {text : String} (h : Spelled text) :
    text.toList = '#' :: text.toList.tail := by
  obtain ⟨cs, chars, -⟩ := h.exists_digits
  rw [chars, List.tail_cons]

theorem Signed.toList_eq {text : String} (h : Signed text) :
    text.toList = '#' :: '+' :: text.toList.drop 2 := by
  obtain ⟨cs, chars, -⟩ := h
  rw [chars]
  rfl

theorem Spelled.not_signed {text : String} (h : Spelled text) : ¬ Signed text := by
  rintro ⟨cs, chars, -⟩
  obtain ⟨ds, chars', -, digit⟩ := h.exists_digits
  obtain rfl := (List.cons.inj (chars'.symm.trans chars)).2
  exact absurd (digit '+' List.mem_cons_self).1 (by decide)

/-- The digits of a number, with a zero in the place of a sign. -/
def unsigned : List Char → List Char
  | '+' :: cs => '0' :: cs
  | cs => cs

theorem length_unsigned (cs : List Char) : (unsigned cs).length = cs.length := by
  unfold unsigned
  split <;> rfl

theorem unsigned_eq_self (digit : ∀ c ∈ cs, Text.isHexDigit c) : unsigned cs = cs := by
  unfold unsigned
  split
  · exact absurd (digit '+' List.mem_cons_self) (by decide)
  · rfl

/-- If all is a number but for a sign, there is a sign or none. -/
theorem unsigned_cases (digit : ∀ c ∈ unsigned cs, Text.isHexDigit c) :
    (∀ c ∈ cs, Text.isHexDigit c) ∨ ∃ ds, cs = '+' :: ds ∧ ∀ c ∈ ds, Text.isHexDigit c := by
  unfold unsigned at digit
  split at digit
  · exact .inr ⟨_, rfl, fun c hc => digit c (List.mem_cons_of_mem _ hc)⟩
  · exact .inl digit

theorem readHex?_eq (ne : cs ≠ []) (ne' : cs ≠ ['+']) :
    readHex? cs = Text.ofHex? (unsigned cs) := by
  fun_cases readHex? cs with
  | case1 => exact absurd rfl ne
  | case2 => exact absurd rfl ne'
  | case3 cs _ =>
    show Text.ofHex? cs = Text.ofHex? (['0'] ++ cs)
    rw [Text.ofHex?_append]
    simp [Text.ofHex?, Text.hexValue?]
  | case4 _ _ _ bare =>
    have same : unsigned cs = cs := by
      unfold unsigned
      split
      · exact absurd rfl (bare _)
      · rfl
    rw [same]

/-- Six bytes that are read as a number are a number with a zero in the place of the sign. -/
theorem six_bytes_iff : (String.ofList cs).utf8ByteSize = 6 ∧ readHex? cs = some n ↔
    cs.length = 6 ∧ Text.ofHex? (unsigned cs) = some n := by
  have bytes (read : Text.ofHex? (unsigned cs) = some n) :
      (String.ofList cs).utf8ByteSize = cs.length := by
    refine Text.utf8ByteSize_ofList fun c hc => ?_
    rcases unsigned_cases (Text.isSome_ofHex?_iff.1 (Option.isSome_of_mem read)) with
      digit | ⟨ds, rfl, digit⟩
    · exact Text.lt_of_isHexDigit (digit c hc)
    · rcases List.mem_cons.1 hc with rfl | hc
      · decide
      · exact Text.lt_of_isHexDigit (digit c hc)
  constructor
  · rintro ⟨six, read⟩
    rw [readHex?_eq] at read
    · exact ⟨bytes read ▸ six, read⟩
    · rintro rfl
      cases six
    · rintro rfl
      cases six
  · rintro ⟨six, read⟩
    rw [readHex?_eq]
    · exact ⟨(bytes read).trans six, read⟩
    · rintro rfl
      cases six
    · rintro rfl
      cases six

theorem toRgb?_eq_some_iff : toRgb? color = some rgb ↔
    ∃ cs, (normalize color).toList = '#' :: cs ∧ rgb.WrittenBy (unsigned cs) := by
  simp only [Rgb.writtenBy_iff, length_unsigned]
  unfold toRgb?
  split
  · next cs chars =>
    simp only [chars, List.cons.injEq, true_and, exists_eq_left']
    split_ifs with six
    · have same (n : ℕ) : readHex? cs = some n ↔
          cs.length = 6 ∧ Text.ofHex? (unsigned cs) = some n := by
        rw [← six_bytes_iff, and_iff_right six]
      rw [Option.map_eq_some_iff]
      simp only [same, and_assoc, exists_and_left, eq_comm]
    · refine iff_of_false nofun ?_
      rintro ⟨length, n, read, -⟩
      exact six (six_bytes_iff.2 ⟨length, read⟩).1
  · next other =>
    refine iff_of_false nofun ?_
    rintro ⟨cs, chars, -⟩
    exact other cs chars

/-- Spelling puts a color in lower case. -/
theorem toLower_of_mem_normalize (color : String) :
    ∀ c ∈ (normalize color).toList, c.toLower = c := by
  rw [normalize_eq]
  split_ifs with empty
  · exact spelled_white.clean.lower
  · have clean := clean_toLower_trim empty
    rcases clean.spelled_or_eq with spelled | same
    · exact spelled.clean.lower
    · rw [same]
      exact clean.lower

theorem exists_of_spelled (h : Spelled (normalize color)) :
    ∃ rgb, toRgb? color = some rgb ∧ rgb.WrittenBy (normalize color).toList.tail := by
  obtain ⟨cs, chars, length, digit⟩ := h.exists_digits
  have hex : ∀ c ∈ cs, Text.isHexDigit c := fun c hc => (digit c hc).1
  obtain ⟨n, read⟩ := Option.isSome_iff_exists.1 (Text.isSome_ofHex?_iff.2 hex)
  have written := Rgb.writtenBy_iff.2 ⟨length, n, read, rfl⟩
  rw [chars]
  exact ⟨_, toRgb?_eq_some_iff.2 ⟨cs, chars, (unsigned_eq_self hex).symm ▸ written⟩, written⟩

theorem exists_of_signed (h : Signed (normalize color)) :
    ∃ rgb, toRgb? color = some rgb ∧ rgb.WrittenBy ('0' :: (normalize color).toList.drop 2) := by
  obtain ⟨cs, chars, length, digit⟩ := h
  have hex : ∀ c ∈ '0' :: cs, Text.isHexDigit c :=
    List.forall_mem_cons.2 ⟨by decide, fun c hc => (digit c hc).1⟩
  obtain ⟨n, read⟩ := Option.isSome_iff_exists.1 (Text.isSome_ofHex?_iff.2 hex)
  have six : ('0' :: cs).length = 6 := congrArg Nat.succ length
  have written := Rgb.writtenBy_iff.2 ⟨six, n, read, rfl⟩
  rw [chars]
  exact ⟨_, toRgb?_eq_some_iff.2 ⟨'+' :: cs, chars, written⟩, written⟩

/-- What decodes is spelled the one way, up to the sign. -/
theorem spelled_or_signed (h : toRgb? color = some rgb) :
    Spelled (normalize color) ∨ Signed (normalize color) := by
  obtain ⟨cs, chars, written⟩ := toRgb?_eq_some_iff.1 h
  obtain ⟨length, n, read, -⟩ := Rgb.writtenBy_iff.1 written
  rw [length_unsigned] at length
  have lower := toLower_of_mem_normalize color
  rw [chars, List.forall_mem_cons] at lower
  rcases unsigned_cases (Text.isSome_ofHex?_iff.1 (Option.isSome_of_mem read)) with
    digit | ⟨ds, rfl, digit⟩
  · left
    rw [← String.ofList_toList (s := normalize color), chars]
    exact spelled_ofList length fun c hc => ⟨digit c hc, lower.2 c hc⟩
  · right
    exact ⟨ds, chars, Nat.succ.inj length,
      fun c hc => ⟨digit c hc, lower.2 c (List.mem_cons_of_mem _ hc)⟩⟩

/-- Two colors that are both spelled the one way, or both with a sign, are told by their parts. -/
theorem normalize_inj (h : toRgb? color = some rgb) (h' : toRgb? other = some rgb)
    (signs : Signed (normalize color) ↔ Signed (normalize other)) :
    normalize color = normalize other := by
  have lower := toLower_of_mem_normalize color
  have lower' := toLower_of_mem_normalize other
  rw [← String.toList_inj]
  by_cases signed : Signed (normalize color)
  · have signed' := signs.1 signed
    obtain ⟨_, e, written⟩ := exists_of_signed signed
    obtain ⟨_, e', written'⟩ := exists_of_signed signed'
    obtain rfl := Option.some.inj (h.symm.trans e)
    obtain rfl := Option.some.inj (h'.symm.trans e')
    have same := written.inj written'
      (List.forall_mem_cons.2 ⟨by decide, fun c hc => lower c (List.mem_of_mem_drop hc)⟩)
      (List.forall_mem_cons.2 ⟨by decide, fun c hc => lower' c (List.mem_of_mem_drop hc)⟩)
    rw [signed.toList_eq, signed'.toList_eq, (List.cons.inj same).2]
  · have spelled := (spelled_or_signed h).resolve_right signed
    have spelled' := (spelled_or_signed h').resolve_right (mt signs.2 signed)
    obtain ⟨_, e, written⟩ := exists_of_spelled spelled
    obtain ⟨_, e', written'⟩ := exists_of_spelled spelled'
    obtain rfl := Option.some.inj (h.symm.trans e)
    obtain rfl := Option.some.inj (h'.symm.trans e')
    have same := written.inj written' (fun c hc => lower c (List.mem_of_mem_tail hc))
      (fun c hc => lower' c (List.mem_of_mem_tail hc))
    rw [spelled.toList_eq, spelled'.toList_eq, same]

/-- A color decodes if it is spelled the one way, and then to the values of its pairs of digits; and
it decodes if it is spelled with a sign in the place of a zero. Two colors that decode are spelled
alike just when their parts are the same and both have a sign or none has. -/
theorem decodes_iff_spelled (color other : String) :
    ((toRgb? color).isSome ↔ Spelled (normalize color) ∨ Signed (normalize color)) ∧
      ¬ (Spelled (normalize color) ∧ Signed (normalize color)) ∧
      (Spelled (normalize color) →
        ∃ rgb, toRgb? color = some rgb ∧ rgb.WrittenBy (normalize color).toList.tail) ∧
      (Signed (normalize color) →
        ∃ rgb, toRgb? color = some rgb ∧
          rgb.WrittenBy ('0' :: (normalize color).toList.drop 2)) ∧
      ∀ rgb rgb', toRgb? color = some rgb → toRgb? other = some rgb' →
        (normalize color = normalize other ↔
          rgb = rgb' ∧ (Signed (normalize color) ↔ Signed (normalize other))) := by
  refine ⟨⟨fun decodes => ?_, ?_⟩, fun h => h.1.not_signed h.2, exists_of_spelled,
    exists_of_signed, fun rgb rgb' h h' => ⟨fun same => ?_, ?_⟩⟩
  · obtain ⟨rgb, h⟩ := Option.isSome_iff_exists.1 decodes
    exact spelled_or_signed h
  · rintro (spelled | signed)
    · obtain ⟨rgb, h, -⟩ := exists_of_spelled spelled
      exact Option.isSome_of_mem h
    · obtain ⟨rgb, h, -⟩ := exists_of_signed signed
      exact Option.isSome_of_mem h
  · have decoded : toRgb? color = toRgb? other := by
      unfold toRgb?
      rw [same]
    exact ⟨Option.some.inj (h.symm.trans (decoded.trans h')), by rw [same]⟩
  · rintro ⟨rfl, signs⟩
    exact normalize_inj h h' signs

/-- The sign counts as a zero, so one color has two spellings. -/
theorem toRgb?_signed :
    toRgb? "#+12345" = some ⟨1, 35, 69⟩ ∧ normalize "#+12345" = "#+12345" ∧
      ¬ Spelled (normalize "#+12345") ∧ toRgb? "#012345" = some ⟨1, 35, 69⟩ ∧
      normalize "#012345" = "#012345" := by
  decide +kernel

/-- A shorthand with blanks around it and a name decode to the same, so they are spelled alike. -/
theorem decodes_iff_spelled_aqua :
    toRgb? " #0FF " = some ⟨0, 255, 255⟩ ∧ toRgb? "aqua" = some ⟨0, 255, 255⟩ ∧
      ¬ Signed (normalize " #0FF ") ∧ normalize " #0FF " = normalize "aqua" := by
  have short : toRgb? " #0FF " = some ⟨0, 255, 255⟩ := by decide +kernel
  have name : toRgb? "aqua" = some ⟨0, 255, 255⟩ := by decide +kernel
  have spelled : Spelled (normalize " #0FF ") := by decide +kernel
  have spelled' : Spelled (normalize "aqua") := by decide +kernel
  obtain ⟨-, -, -, -, alike⟩ := decodes_iff_spelled " #0FF " "aqua"
  have signs := iff_of_false spelled.not_signed spelled'.not_signed
  exact ⟨short, name, spelled.not_signed, (alike _ _ short name).2 ⟨rfl, signs⟩⟩

end Color

end BlockBoard
