/-!
# Signed 64-bit words

Numbers typed by a user and stored in files are signed 64-bit words. `Word.Fits` says which integers
are such words, and `Word.ofText?` reads one. A result that is no word makes the program fail where
overflow is checked (`Word.checked`), and wraps around where it is not (`Word.sum`).
-/

namespace BlockBoard

namespace Word

/-- The number of values of a signed 64-bit word. -/
def modulus : Nat := 0x10000000000000000

/-- The integers that a signed 64-bit word can hold. -/
def Fits (n : Int) : Prop :=
  -0x8000000000000000 ≤ n ∧ n < 0x8000000000000000

instance (n : Int) : Decidable (Fits n) := by
  unfold Fits; infer_instance

/-- The integer, if it is a word. -/
def checked (n : Int) : Option Int :=
  if Fits n then some n else none

/-- The word sum of two integers: it wraps around at both ends of the range. -/
def sum (a b : Int) : Int :=
  (a + b).bmod modulus

/-- The word that decimal digits write; there must be at least one. -/
def ofDigits? (negative : Bool) (digits : List Char) : Option Int :=
  let n := digits.foldl (fun n c => 10 * n + (c.toNat - '0'.toNat)) 0
  let n : Int := if negative then -n else n
  if !digits.isEmpty ∧ digits.all Char.isDigit ∧ Fits n then some n else none

/-- The word that a text writes in decimal digits, with an optional sign in front. -/
def ofText? (text : String) : Option Int :=
  match text.toList with
  | '-' :: digits => ofDigits? true digits
  | '+' :: digits => ofDigits? false digits
  | digits => ofDigits? false digits

theorem checked_eq {n : Int} (h : Fits n) : checked n = some n :=
  if_pos h

theorem fits_sum (a b : Int) : Fits (sum a b) := by
  have low := Int.le_bmod (x := a + b) (m := modulus) (by decide)
  have high := Int.bmod_lt (x := a + b) (m := modulus) (by decide)
  simp only [modulus] at low high
  simp only [Fits, sum, modulus]
  omega

end Word

end BlockBoard
