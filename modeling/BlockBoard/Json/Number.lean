import BlockBoard.Json.Value

/-!
# Numbers in JSON text

A number that is written as an integer and fits a word keeps its value. Of any other number only the
magnitude matters: it is refused if the nearest binary floating point number would be infinite. The
magnitude is computed from the leading digits that fit a 64-bit word and a power of ten, both of
which are first rounded to 53 bits.
-/

namespace BlockBoard

namespace Json

/-- A number rounded to its 53 leading bits, ties to the even neighbor. -/
def round53 (n : Nat) : Nat :=
  if n < 0x20000000000000 then n
  else
    let unit := Nat.pow 2 (Nat.log2 n - 52)
    let (q, r) := (n / unit, n % unit)
    if 2 * r < unit ∨ 2 * r = unit ∧ q % 2 = 0 then q * unit else (q + 1) * unit

/-- The least number that is rounded to infinity. -/
def infinityBound : Nat :=
  Nat.pow 2 1024 - Nat.pow 2 970

/-- Whether a significand times a power of ten is beyond the floating point numbers. -/
def isInfinite (significand : Nat) (exponent : Int) : Bool :=
  if exponent < 0 ∨ significand = 0 then false
  else if exponent > 308 then true
  else infinityBound ≤ round53 significand * round53 (Nat.pow 10 exponent.toNat)

/-- The greatest value of the significand. -/
def significandMax : Nat :=
  0xFFFFFFFFFFFFFFFF

/-- A number as it is read: the leading digits that fit the significand, and the power of ten that
they are multiplied by. -/
structure Scaled where
  significand : Nat := 0
  exponent : Int := 0
  /-- A digit did not fit, so that those after it do not count either. -/
  full : Bool := false

namespace Scaled

/-- Takes a digit in front of the point. One that does not count moves the point. -/
def wholeDigit (s : Scaled) (digit : Nat) : Scaled :=
  if s.full ∨ significandMax < 10 * s.significand + digit then
    { s with exponent := s.exponent + 1, full := true }
  else { s with significand := 10 * s.significand + digit }

/-- Takes a digit behind the point. One that does not count is dropped. -/
def fractionDigit (s : Scaled) (digit : Nat) : Scaled :=
  if s.full ∨ significandMax < 10 * s.significand + digit then { s with full := true }
  else { s with significand := 10 * s.significand + digit, exponent := s.exponent - 1 }

end Scaled

/-- The value of a decimal digit. -/
def digitValue (c : Char) : Nat :=
  c.toNat - '0'.toNat

/-- The number that decimal digits write. -/
def ofDigits (digits : List Char) : Nat :=
  digits.foldl (fun n c => 10 * n + digitValue c) 0

/-- A number in its parts: the sign, the digits in front of the point, those behind it, and the
exponent. -/
structure Numeral where
  negative : Bool
  whole : List Char
  fraction : Option (List Char)
  exponent : Option Int

namespace Numeral

/-- The number with the digits in front of the point taken. -/
def scaledWhole (n : Numeral) : Scaled :=
  n.whole.foldl (fun s c => s.wholeDigit (digitValue c)) {}

/-- The number with all digits taken. The digits behind the point count as long as they fit. -/
def scaled (n : Numeral) : Scaled :=
  (n.fraction.getD []).foldl (fun s c => s.fractionDigit (digitValue c))
    { n.scaledWhole with full := false }

/-- The value of a number, or none if it is beyond the floating point numbers. Negative zero and
negative numbers below the range of a word are not integers. -/
def value? (n : Numeral) : Option Json :=
  let s := n.scaled
  if isInfinite s.significand (s.exponent + n.exponent.getD 0) then none
  else if n.fraction.isSome ∨ n.exponent.isSome ∨ n.scaledWhole.full then some .real
  else if !n.negative then some (.int s.significand)
  else if s.significand = 0 ∨ 0x8000000000000000 < s.significand then some .real
  else some (.int (-s.significand))

end Numeral

end Json

end BlockBoard
