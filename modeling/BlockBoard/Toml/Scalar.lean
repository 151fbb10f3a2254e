import BlockBoard.Text.Hex
import BlockBoard.Toml.Value
import BlockBoard.Word

/-!
# Strings, numbers and dates in TOML text

Readers take characters off the front of a text, in which every line ends in a single line feed.
Where a reader stops too early, what is left is refused by the reader that comes next.

Loops over pieces of strings run for at most as many rounds as they are given.
-/

namespace BlockBoard

namespace Toml

/-- A reader of a part of a text: it gives what it has read, and the characters that are left. -/
abbrev Reader (α : Type) := List Char → Option (α × List Char)

/-- Whether a character may stand in a comment or a string. -/
def isShown (c : Char) : Bool :=
  c = '\t' || 0x20 ≤ c.toNat && c.toNat ≠ 0x7F

/-- Whether a character is a space or a tab. -/
def isSpace (c : Char) : Bool :=
  c = ' ' || c = '\t'

/-- The characters behind spaces and tabs. -/
def skipSpace (cs : List Char) : List Char :=
  cs.dropWhile isSpace

/-- The characters behind spaces, tabs and line ends. -/
def skipLines (cs : List Char) : List Char :=
  cs.dropWhile fun c => isSpace c || c = '\n'

/-- Takes the given characters off the front. -/
def take? (expected : String) (cs : List Char) : Option (List Char) :=
  let expected := expected.toList
  if expected.isPrefixOf cs then some (cs.drop expected.length) else none

/-! ### Strings -/

/-- The character whose code point is written with a fixed number of hexadecimal digits. -/
def codePoint (digits : Nat) (cs : List Char) : Option (Char × List Char) := do
  let n ← Text.ofHex? (cs.take digits)
  if (cs.take digits).length = digits ∧ n.isValidChar then some (Char.ofNat n, cs.drop digits)
  else none

/-- The character of an escape, whose backslash was taken. -/
def escape : Reader Char
  | 'b' :: cs => some ('\x08', cs)
  | 't' :: cs => some ('\t', cs)
  | 'n' :: cs => some ('\n', cs)
  | 'f' :: cs => some ('\x0c', cs)
  | 'r' :: cs => some ('\r', cs)
  | '"' :: cs => some ('"', cs)
  | '\\' :: cs => some ('\\', cs)
  | 'u' :: cs => codePoint 4 cs
  | 'U' :: cs => codePoint 8 cs
  | _ => none

/-- The rest of a string between double quotes, behind the characters read before, the latest
first. -/
def basicRest : (rounds : Nat) → (before : List Char) → Reader String
  | 0, _, _ => none
  | _, _, [] => none
  | _, before, '"' :: cs => some (String.ofList before.reverse, cs)
  | rounds + 1, before, '\\' :: cs => do
    let (c, cs) ← escape cs
    basicRest rounds (c :: before) cs
  | rounds + 1, before, c :: cs => if isShown c then basicRest rounds (c :: before) cs else none

/-- The rest of a string between single quotes, which has no escapes. -/
def literalRest (cs : List Char) : Option (String × List Char) :=
  let isPart (c : Char) : Bool := isShown c && c ≠ '\''
  match cs.dropWhile isPart with
  | '\'' :: rest => some (String.ofList (cs.takeWhile isPart), rest)
  | _ => none

/-- Takes a piece of a string over several lines between double quotes. A backslash at the end of a
line stands for nothing, as do the blanks and line ends behind it. -/
def basicPiece : Reader (List Char)
  | [] => none
  | '\\' :: cs =>
    match skipSpace cs with
    | '\n' :: rest => some ([], skipLines rest)
    | _ => (escape cs).map fun (c, rest) => ([c], rest)
  | c :: cs => if isShown c || c = '\n' then some ([c], cs) else none

/-- Takes a piece of a string over several lines between single quotes. -/
def literalPiece : Reader (List Char)
  | [] => none
  | c :: cs => if isShown c || c = '\n' then some ([c], cs) else none

/-- The rest of a string over several lines, behind the characters read before, the latest first. Up
to two quotes are part of the string; three end it, and up to two more in front of those are part of
it too. -/
def linesRest (quote : Char) (piece : Reader (List Char)) :
    (rounds : Nat) → (before : List Char) → Reader String
  | 0, _, _ => none
  | rounds + 1, before, cs =>
    let run := (cs.takeWhile (· = quote)).length
    let quotes (n : Nat) := List.replicate n quote ++ before
    if run = 0 then do
      let (taken, rest) ← piece cs
      linesRest quote piece rounds (taken.reverse ++ before) rest
    else if run < 3 then linesRest quote piece rounds (quotes run) (cs.drop run)
    else if run ≤ 5 then some (String.ofList (quotes (run - 3)).reverse, cs.drop run)
    else none

/-- The characters of a string over several lines: a line end right behind the opening quotes is not
part of it. -/
def skipFirstLineEnd : List Char → List Char
  | '\n' :: cs => cs
  | cs => cs

/-- A string of any kind. -/
def string (rounds : Nat) : Reader String
  | '"' :: '"' :: '"' :: cs => linesRest '"' basicPiece rounds [] (skipFirstLineEnd cs)
  | '"' :: cs => basicRest rounds [] cs
  | '\'' :: '\'' :: '\'' :: cs => linesRest '\'' literalPiece rounds [] (skipFirstLineEnd cs)
  | '\'' :: cs => literalRest cs
  | _ => none

/-! ### Numbers -/

/-- Further digits behind those read before, the latest first. There may be a low line between two
digits. -/
def moreDigits (isDigit : Char → Bool) : (before : List Char) → Reader (List Char)
  | before, [] => some (before.reverse, [])
  | before, '_' :: c :: cs => if isDigit c then moreDigits isDigit (c :: before) cs else none
  | before, c :: cs =>
    if isDigit c then moreDigits isDigit (c :: before) cs else some (before.reverse, c :: cs)

/-- One or more digits. -/
def digits (isDigit : Char → Bool) : Reader (List Char)
  | [] => none
  | c :: cs => if isDigit c then moreDigits isDigit [c] cs else none

/-- The digits of a decimal integer: more than one only if the first is not zero. -/
def wholeDigits : Reader (List Char)
  | '0' :: cs => some (['0'], cs)
  | cs => digits Char.isDigit cs

/-- The digits behind a point, if there is one. -/
def fractionDigits : Reader (Option (List Char))
  | '.' :: cs => (digits Char.isDigit cs).map fun (ds, rest) => (some ds, rest)
  | cs => some (none, cs)

/-- The sign, if there is one, and what is left. -/
def signOf : List Char → Option Char × List Char
  | '+' :: cs => (some '+', cs)
  | '-' :: cs => (some '-', cs)
  | cs => (none, cs)

/-- The number that digits write in a base. -/
def ofDigits (base : Nat) (ds : List Char) : Nat :=
  ds.foldl (fun n c => base * n + (Text.hexValue? c).getD 0) 0

/-- The exponent, if there is one. -/
def exponentPart : Reader (Option Int)
  | 'e' :: cs | 'E' :: cs => do
    let (sign, cs) := signOf cs
    let (ds, rest) ← digits Char.isDigit cs
    let n : Int := ofDigits 10 ds
    return (some (if sign = some '-' then -n else n), rest)
  | cs => some (none, cs)

/-- The least number that no double precision floating point number is near to. -/
def floatBound : Nat :=
  Nat.pow 2 1024 - Nat.pow 2 970

/-- Whether a significand times a power of ten lies beyond the double precision floating point
numbers. -/
def overflows (significand : Nat) (exponent : Int) : Bool :=
  let length : Int := (Nat.toDigits 10 significand).length
  if significand = 0 ∨ length + exponent < 300 then false
  else if 310 < length + exponent then true
  else if 0 ≤ exponent then floatBound ≤ significand * Nat.pow 10 exponent.toNat
  else floatBound * Nat.pow 10 (-exponent).toNat ≤ significand

/-- An integer that fits a word. -/
def ofWord (n : Int) : Option Toml :=
  if Word.Fits n then some (.int n) else none

/-- A decimal number, whose sign was taken. A floating point number may be too large only if it is
negative. -/
def decimal (sign : Option Char) (cs : List Char) : Option (Toml × List Char) := do
  let negative : Bool := sign = some '-'
  let (whole, cs) ← wholeDigits cs
  let (fraction, cs) ← fractionDigits cs
  let (exponent, cs) ← exponentPart cs
  if fraction.isNone ∧ exponent.isNone then
    let n : Int := ofDigits 10 whole
    return (← ofWord (if negative then -n else n), cs)
  else
    let places := fraction.getD []
    let tooLarge := overflows (ofDigits 10 (whole ++ places)) (exponent.getD 0 - places.length)
    if tooLarge ∧ !negative then none else some (.scalar, cs)

/-- An integer in a base, whose first two characters were taken. -/
def based (base : Nat) (cs : List Char) : Option (Toml × List Char) := do
  let isDigit (c : Char) : Bool := (Text.hexValue? c).any (· < base)
  let (ds, rest) ← digits isDigit cs
  return (← ofWord (ofDigits base ds), rest)

/-- A number. A base can be given only where there is no sign. -/
def number : Reader Toml
  | '0' :: 'x' :: cs => based 16 cs
  | '0' :: 'o' :: cs => based 8 cs
  | '0' :: 'b' :: cs => based 2 cs
  | cs =>
    let (sign, cs) := signOf cs
    match take? "inf" cs, take? "nan" cs with
    | some rest, _ | none, some rest => some (.scalar, rest)
    | none, none => decimal sign cs

/-! ### Dates and times -/

/-- A number written with two digits, which lies in a range. -/
def twoDigits (low high : Nat) : Reader Nat
  | a :: b :: cs =>
    let n := ofDigits 10 [a, b]
    if a.isDigit ∧ b.isDigit ∧ low ≤ n ∧ n ≤ high then some (n, cs) else none
  | _ => none

/-- The number of days in a month. -/
def daysIn (year month : Nat) : Nat :=
  if month = 2 then
    if year % 4 = 0 ∧ (year % 100 ≠ 0 ∨ year % 400 = 0) then 29 else 28
  else if month ∈ [4, 6, 9, 11] then 30
  else 31

/-- The characters behind a date. -/
def date? (cs : List Char) : Option (List Char) := do
  let year := cs.take 4
  if year.length ≠ 4 ∨ !year.all Char.isDigit then none
  let cs ← take? "-" (cs.drop 4)
  let (month, cs) ← twoDigits 1 12 cs
  let cs ← take? "-" cs
  let (_, cs) ← twoDigits 1 (daysIn (ofDigits 10 year) month) cs
  return cs

/-- The characters behind the fraction of a second, if there is one. -/
def skipFraction : List Char → List Char
  | '.' :: c :: cs => if c.isDigit then cs.dropWhile Char.isDigit else '.' :: c :: cs
  | cs => cs

/-- The characters behind an hour and a minute. -/
def clock? (cs : List Char) : Option (List Char) := do
  let (_, cs) ← twoDigits 0 23 cs
  let cs ← take? ":" cs
  let (_, cs) ← twoDigits 0 59 cs
  return cs

/-- The characters behind a time. A minute may have a leap second. -/
def time? (cs : List Char) : Option (List Char) := do
  let cs ← take? ":" (← clock? cs)
  let (_, cs) ← twoDigits 0 60 cs
  return skipFraction cs

/-- The characters behind the offset of a time zone, if there is one. -/
def skipOffset : List Char → List Char
  | 'Z' :: cs | 'z' :: cs => cs
  | '+' :: cs => (clock? cs).getD ('+' :: cs)
  | '-' :: cs => (clock? cs).getD ('-' :: cs)
  | cs => cs

/-- The characters behind the time that may follow a date, with its offset. -/
def skipTime : List Char → List Char
  | c :: cs =>
    if c = 'T' ∨ c = 't' ∨ c = ' ' then ((time? cs).map skipOffset).getD (c :: cs) else c :: cs
  | [] => []

/-- The characters behind a date, a time, or both. -/
def dateTime? (cs : List Char) : Option (List Char) :=
  match date? cs with
  | some rest => some (skipTime rest)
  | none => time? cs

end Toml

end BlockBoard
