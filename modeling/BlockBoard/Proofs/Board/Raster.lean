import Mathlib.Data.Nat.Notation
import Std.Data.String.ToNat
import BlockBoard.Board.Bitmap

/-!
# Plain text bitmaps, written and read

A `Raster` is what the text of a plain bitmap says: a format, the dimensions and a row of numbers
for each row of cells. `Raster.text` writes it with one line for each row, and `Raster.read?` reads
such a text strictly: a line break ends each line, one blank stands between two numbers, each row is
complete and no number is too large. What was written is read back (`Raster.read?_text`).
-/

namespace BlockBoard

namespace BitmapFormat

/-- How many numbers stand for a cell. -/
def samples : BitmapFormat → ℕ
  | bits | grays => 1
  | colors => 3

/-- The greatest number. -/
def maximum : BitmapFormat → ℕ
  | bits => 1
  | grays => grayMax
  | colors => 255

/-- The greatest number has a line of its own, unless there are only two. -/
def maximumLines : BitmapFormat → List String
  | bits => []
  | format => [toString format.maximum]

/-- The format with the given first line. -/
def ofMagic? (line : List Char) : Option BitmapFormat :=
  [bits, grays, colors].find? fun format => format.magic.toList = line

theorem ofMagic?_magic (format : BitmapFormat) : ofMagic? format.magic.toList = some format := by
  cases format <;> decide

end BitmapFormat

/-- What the text of a bitmap says. -/
structure Raster where
  format : BitmapFormat
  cols : ℕ
  rows : ℕ
  /-- The numbers of each row of cells, from left to right. -/
  table : List (List ℕ)
deriving DecidableEq, Repr

namespace Raster

/-- There are as many numbers as the dimensions ask for, and none is too large. -/
def Sound (r : Raster) : Prop :=
  0 < r.cols ∧ r.table.length = r.rows ∧ ∀ numbers ∈ r.table,
    numbers.length = r.cols * r.format.samples ∧ ∀ n ∈ numbers, n ≤ r.format.maximum

instance (r : Raster) : Decidable r.Sound :=
  inferInstanceAs (Decidable (_ ∧ _ ∧ _))

/-! ### Writing -/

/-- Numbers with a blank between each two. -/
def line (numbers : List ℕ) : String :=
  " ".intercalate (numbers.map toString)

/-- The lines of the text. -/
def lines (r : Raster) : List String :=
  r.format.magic :: line [r.cols, r.rows] :: (r.format.maximumLines ++ r.table.map line)

/-- The text, in which a line break ends each line. -/
def text (r : Raster) : String :=
  String.join (r.lines.map (· ++ "\n"))

/-! ### Reading -/

/-- The numbers of a line. -/
def numbers? (line : List Char) : Option (List ℕ) :=
  (line.splitOn ' ').mapM fun word => (String.ofList word).toNat?

/-- The lines of a text, if a line break ends the last one. -/
def lines? (text : String) : Option (List (List Char)) :=
  let parts := text.toList.splitOn '\n'
  if parts.getLast? = some [] then some parts.dropLast else none

/-- The bitmap that a text says. -/
def read? (text : String) : Option Raster := do
  let magic :: size :: rest ← lines? text | none
  let format ← BitmapFormat.ofMagic? magic
  let [cols, rows] ← numbers? size | none
  let top := format.maximumLines.map String.toList
  if rest.take top.length = top then
    let table ← (rest.drop top.length).mapM numbers?
    let raster : Raster := ⟨format, cols, rows, table⟩
    if raster.Sound then some raster else none
  else none

/-! ### Reading what was written -/

variable {numbers numbers' : List ℕ}

theorem line_singleton (n : ℕ) : line [n] = toString n :=
  String.intercalate_singleton

theorem line_cons (n : ℕ) (ne : numbers ≠ []) :
    line (n :: numbers) = toString n ++ " " ++ line numbers := by
  rw [line, List.map_cons, String.intercalate_cons_of_ne_nil (mt List.map_eq_nil_iff.1 ne), line]

theorem line_append (ne : numbers ≠ []) (ne' : numbers' ≠ []) :
    line (numbers ++ numbers') = line numbers ++ " " ++ line numbers' := by
  rw [line, List.map_append, String.intercalate_append_of_ne_nil (mt List.map_eq_nil_iff.1 ne)
    (mt List.map_eq_nil_iff.1 ne'), line, line]

/-- Lines with a blank between each two are one line. -/
theorem intercalate_line {rows : List (List ℕ)} (ne : ∀ numbers ∈ rows, numbers ≠ []) :
    " ".intercalate (rows.map line) = line rows.flatten := by
  induction rows with
  | nil => rfl
  | cons numbers rows ih =>
    rw [List.forall_mem_cons] at ne
    cases rows with
    | nil => simp
    | cons numbers' rows =>
      have more : (numbers' :: rows).flatten ≠ [] := by
        rw [List.flatten_cons]
        exact List.append_ne_nil_of_left_ne_nil (ne.2 numbers' List.mem_cons_self) _
      rw [List.map_cons, String.intercalate_cons_of_ne_nil (by simp), ih ne.2,
        ← line_append ne.1 more, ← List.flatten_cons]

theorem isDigit_of_mem_toString {n : ℕ} {c : Char} (h : c ∈ (toString n).toList) : c.isDigit := by
  rw [Nat.toString_eq_ofList_toDigits, String.toList_ofList] at h
  exact Nat.isDigit_of_mem_toDigits (by decide) (by decide) h

theorem lineBreak_not_mem_line (numbers : List ℕ) : '\n' ∉ (line numbers).toList := by
  induction numbers with
  | nil => decide
  | cons n numbers ih =>
    have digit : '\n' ∉ (toString n).toList := fun h =>
      absurd (isDigit_of_mem_toString h) (by decide)
    cases numbers with
    | nil => rwa [line_singleton]
    | cons m numbers =>
      rw [line_cons n (by simp), String.toList_append, String.toList_append, List.mem_append,
        List.mem_append]
      rintro ((h | h) | h)
      · exact digit h
      · exact absurd h (by decide)
      · exact ih h

theorem mapM_eq_some {α β : Type} {f : α → β} {g : β → Option α} {l : List α}
    (h : ∀ a ∈ l, g (f a) = some a) : (l.map f).mapM g = some l := by
  induction l with
  | nil => rfl
  | cons a l ih =>
    rw [List.forall_mem_cons] at h
    rw [List.map_cons, List.mapM_cons, h.1, ih h.2]
    rfl

theorem numbers?_line (ne : numbers ≠ []) : numbers? (line numbers).toList = some numbers := by
  have words : ((line numbers).toList).splitOn ' ' =
      numbers.map fun n => (toString n).toList := by
    rw [line, String.toList_intercalate, List.map_map]
    refine List.splitOn_intercalate ' ' (fun word hw => ?_) (mt List.map_eq_nil_iff.1 ne)
    obtain ⟨n, -, rfl⟩ := List.mem_map.1 hw
    exact fun h => absurd (isDigit_of_mem_toString h) (by decide)
  rw [numbers?, words]
  refine mapM_eq_some fun n _ => ?_
  rw [String.ofList_toList]
  exact Nat.toNat?_repr n

theorem lines?_join {texts : List String} (whole : ∀ text ∈ texts, '\n' ∉ text.toList) :
    lines? (String.join (texts.map (· ++ "\n"))) = some (texts.map String.toList) := by
  have chars : (String.join (texts.map (· ++ "\n"))).toList =
      ['\n'].intercalate (texts.map String.toList ++ [[]]) := by
    clear whole
    induction texts with
    | nil => rfl
    | cons text texts ih =>
      rw [List.map_cons, String.join_cons, String.toList_append, ih, List.map_cons,
        List.cons_append, List.intercalate_cons_of_ne_nil (by simp), String.toList_append]
      rfl
  have parts : (String.join (texts.map (· ++ "\n"))).toList.splitOn '\n' =
      texts.map String.toList ++ [[]] := by
    rw [chars]
    refine List.splitOn_intercalate '\n' (fun part hp => ?_) (by simp)
    rcases List.mem_append.1 hp with hp | hp
    · obtain ⟨text, ht, rfl⟩ := List.mem_map.1 hp
      exact whole text ht
    · obtain rfl := List.mem_singleton.1 hp
      exact List.not_mem_nil
  rw [lines?, parts, List.getLast?_concat, if_pos rfl, List.dropLast_concat]

theorem lineBreak_not_mem_lines (r : Raster) : ∀ text ∈ r.lines, '\n' ∉ text.toList := by
  have magic : '\n' ∉ r.format.magic.toList := by cases r.format <;> decide
  have top : ∀ text ∈ r.format.maximumLines, '\n' ∉ text.toList := by cases r.format <;> decide
  rw [lines, List.forall_mem_cons, List.forall_mem_cons, List.forall_mem_append]
  refine ⟨magic, lineBreak_not_mem_line _, top, fun text ht => ?_⟩
  obtain ⟨numbers, -, rfl⟩ := List.mem_map.1 ht
  exact lineBreak_not_mem_line numbers

theorem Sound.ne_nil {r : Raster} (h : r.Sound) : ∀ numbers ∈ r.table, numbers ≠ [] := by
  intro numbers hn
  have length := (h.2.2 numbers hn).1
  have pos : 0 < r.cols * r.format.samples :=
    Nat.mul_pos h.1 (by cases r.format <;> decide)
  exact List.ne_nil_of_length_pos (length ▸ pos)

/-- The text of a bitmap is read as the bitmap. -/
theorem read?_text {r : Raster} (h : r.Sound) : read? r.text = some r := by
  have table : ((r.table.map line).map String.toList).mapM numbers? = some r.table := by
    rw [List.map_map]
    exact mapM_eq_some fun numbers hn => numbers?_line (h.ne_nil numbers hn)
  have parts : lines? r.text = some (r.lines.map String.toList) :=
    lines?_join r.lineBreak_not_mem_lines
  have size : numbers? (line [r.cols, r.rows]).toList = some [r.cols, r.rows] :=
    numbers?_line (by simp)
  rw [read?, parts, lines, List.map_cons, List.map_cons, List.map_append]
  dsimp only [Option.bind_eq_bind, Option.bind_some]
  rw [BitmapFormat.ofMagic?_magic, size]
  dsimp only [Option.bind_some]
  rw [List.take_left, if_pos rfl, List.drop_left, table]
  exact if_pos h

end Raster

end BlockBoard
