/-!
# Keys

What each key asks the application for. Letters ask for the same thing in either case.
-/

namespace BlockBoard

/-- A key. -/
inductive Key where
  | char (c : Char)
  | escape
  | enter
  | left
  | right
  | up
  | down
deriving DecidableEq, Repr

/-- What the application can be asked for. -/
inductive Request where
  | quit
  /-- Run the program. -/
  | run
  /-- Execute one step of the program. -/
  | step
  | stop
  /-- Start over with an empty program. -/
  | reset
  /-- Move the speed slider. -/
  | pace (amount : Int)
  /-- Put the start at the next preset. -/
  | nextCorner
  /-- Add rows and columns to the grid. -/
  | resize (rows cols : Int)
  | save
  | load
  /-- Write the board as a bitmap. -/
  | exportBitmap
  | scrollUp
  | scrollDown
deriving DecidableEq, Repr

namespace Key

/-- How far a key moves the speed slider. -/
def notch : Int := 5

/-- What a character asks for. -/
def charRequest? : Char → Option Request
  | 'q' | 'Q' => some .quit
  | 'r' | 'R' => some .run
  | 's' | 'S' => some .step
  | 'x' | 'X' => some .stop
  | 'n' | 'N' => some .reset
  | '+' | '=' => some (.pace notch)
  | '-' => some (.pace (-notch))
  | 'c' | 'C' => some .nextCorner
  | '[' => some (.resize (-1) 0)
  | ']' => some (.resize 1 0)
  | '\x7b' => some (.resize 0 (-1))
  | '\x7d' => some (.resize 0 1)
  | 'w' | 'W' => some .save
  | 'l' | 'L' => some .load
  | 'e' | 'E' => some .exportBitmap
  | _ => none

/-- What a key asks for. -/
def request? : Key → Option Request
  | char c => charRequest? c
  | escape => some .stop
  | right => some .step
  | up => some .scrollUp
  | down => some .scrollDown
  | left | enter => none

/-- The keys that a terminal sends as the given characters. -/
def ofChars : List Char → List Key
  | [] => []
  | '\x1b' :: '[' :: 'A' :: cs => up :: ofChars cs
  | '\x1b' :: '[' :: 'B' :: cs => down :: ofChars cs
  | '\x1b' :: '[' :: 'C' :: cs => right :: ofChars cs
  | '\x1b' :: '[' :: 'D' :: cs => left :: ofChars cs
  | '\x1b' :: cs => escape :: ofChars cs
  | '\n' :: cs | '\r' :: cs => enter :: ofChars cs
  | c :: cs => char c :: ofChars cs

end Key

end BlockBoard
