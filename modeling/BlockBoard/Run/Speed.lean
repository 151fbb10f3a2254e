import BlockBoard.Word

/-!
# The speed slider

A slider from 5 to 100 sets the pace of a run. The delay after a step is two milliseconds for every
notch below the top, so at the top a run does not wait at all.
-/

namespace BlockBoard

namespace Speed

/-- The lowest position of the slider. -/
def slowest : Nat := 5

/-- The highest position of the slider, at which steps follow each other without a delay. -/
def fastest : Nat := 100

/-- The position when nothing else is configured. -/
def standard : Nat := 50

/-- The delay for each notch below the highest position, in milliseconds. -/
def notchDelay : Nat := 2

/-- The position nearest to a number. -/
def position (n : Int) : Nat :=
  (max (slowest : Int) (min n fastest)).toNat

/-- The delay between steps in milliseconds for a number that is first moved into range. -/
def delayAt (n : Int) : Nat :=
  notchDelay * (fastest - position n)

end Speed

/-- The speed slider. -/
structure Slider where
  position : Nat := Speed.standard
deriving DecidableEq, Repr

namespace Slider

/-- The slider at the position nearest to a number. -/
def ofInt (n : Int) : Slider :=
  ⟨Speed.position n⟩

/-- The slider at the position nearest to the sum of its own and an amount, which is where `adjust?`
moves it by an amount as small as those of keys. -/
def shift (s : Slider) (amount : Int) : Slider :=
  ofInt (s.position + amount)

/-- The slider moved by an amount. The sum is formed before it is moved into range; if it is no
word, the program fails. -/
def adjust? (s : Slider) (amount : Int) : Option Slider :=
  (Word.checked (s.position + amount)).map ofInt

/-- The delay between steps in milliseconds. -/
def delay (s : Slider) : Nat :=
  Speed.delayAt s.position

theorem adjust?_eq_some {s : Slider} {amount : Int} (h : Word.Fits (s.position + amount)) :
    s.adjust? amount = some (s.shift amount) := by
  rw [adjust?, Word.checked_eq h]
  rfl

end Slider

end BlockBoard
