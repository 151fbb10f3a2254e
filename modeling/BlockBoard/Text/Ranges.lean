/-!
# Ranges of code points

A property of characters is given by the closed ranges of the code points that have it.
-/

namespace BlockBoard

namespace Text

/-- Whether a code point lies in one of the closed ranges. -/
def inRanges (ranges : List (Nat × Nat)) (point : Nat) : Bool :=
  ranges.any fun (low, high) => low ≤ point && point ≤ high

end Text

end BlockBoard
