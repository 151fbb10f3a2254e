/-!
# Hexadecimal digits

Reading numbers from hexadecimal digits of either letter case, and writing them in lower case.
-/

namespace BlockBoard

namespace Text

/-- The value of a hexadecimal digit of either letter case. -/
def hexValue? (c : Char) : Option Nat :=
  if '0' ≤ c ∧ c ≤ '9' then some (c.toNat - '0'.toNat)
  else if 'a' ≤ c ∧ c ≤ 'f' then some (c.toNat - 'a'.toNat + 10)
  else if 'A' ≤ c ∧ c ≤ 'F' then some (c.toNat - 'A'.toNat + 10)
  else none

/-- Whether a character is a hexadecimal digit. -/
def isHexDigit (c : Char) : Bool :=
  (hexValue? c).isSome

/-- The number that hexadecimal digits write, most significant first; none if one is no digit. -/
def ofHex? (cs : List Char) : Option Nat :=
  cs.foldlM (fun n c => (hexValue? c).map (16 * n + ·)) 0

/-- A number in lower case hexadecimal, without leading zeros. -/
def hex (n : Nat) : List Char :=
  Nat.toDigits 16 n

end Text

end BlockBoard
