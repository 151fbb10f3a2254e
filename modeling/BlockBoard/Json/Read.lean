import BlockBoard.Json.Number
import BlockBoard.Text.Hex
import BlockBoard.Word

/-!
# Reading JSON

Readers take characters off the front of a text and stop at the first problem, which is one of three
kinds: the text ends too early, it is not JSON, or it is JSON of the wrong shape. A reader of values
opens arrays and objects up to a given depth.

Values whose content is of no interest are read loosely: a number may be of any magnitude, and a
string may hold the code points of surrogates.

Loops run for at most as many rounds as the text has characters, which is never too few, since each
round takes one.
-/

namespace BlockBoard

namespace Json

/-- What is wrong with a text. -/
inductive Fault where
  /-- It ends too early. -/
  | ended
  /-- It is not JSON. -/
  | malformed
  /-- It is JSON, but not of the shape that is asked for. -/
  | shape
deriving DecidableEq, Repr

/-- How strictly tokens are checked. -/
inductive Rigor where
  | strict
  /-- For values that are skipped. -/
  | loose
deriving DecidableEq, Repr

/-- Whether a character may stand between tokens. -/
def isBlank (c : Char) : Bool :=
  c = ' ' || c = '\n' || c = '\t' || c = '\r'

/-- The characters from the next token on. -/
def skipBlanks (cs : List Char) : List Char :=
  cs.dropWhile isBlank

/-- Takes expected characters off the front. -/
def expect : (expected : List Char) → List Char → Except Fault (List Char)
  | [], cs => .ok cs
  | _ :: _, [] => .error .ended
  | e :: es, c :: cs => if c = e then expect es cs else .error .malformed

/-- Whether the characters take at least four bytes. -/
def holdsFourBytes (cs : List Char) : Bool :=
  4 ≤ (String.ofList (cs.take 4)).utf8ByteSize

/-! ### Strings -/

/-- The code unit that four hexadecimal digits write. -/
def codeUnit (cs : List Char) : Except Fault (Nat × List Char) :=
  if holdsFourBytes cs then
    match Text.ofHex? (cs.take 4) with
    | some n => if (cs.take 4).length = 4 then .ok (n, cs.drop 4) else .error .malformed
    | none => .error .malformed
  else .error .ended

/-- Whether a code unit is the first of a surrogate pair. -/
def isHighSurrogate (n : Nat) : Bool :=
  0xD800 ≤ n && n ≤ 0xDBFF

/-- Whether a code unit is the second of a surrogate pair. -/
def isLowSurrogate (n : Nat) : Bool :=
  0xDC00 ≤ n && n ≤ 0xDFFF

/-- The character of a surrogate pair. -/
def ofSurrogates (high low : Nat) : Char :=
  Char.ofNat (0x10000 + (high - 0xD800) * 0x400 + (low - 0xDC00))

/-- The second half of a surrogate pair, with its escape. -/
def lowSurrogate (high : Nat) (cs : List Char) : Except Fault (Char × List Char) := do
  let (low, cs) ← codeUnit (← expect ['\\', 'u'] cs)
  if isLowSurrogate low then .ok (ofSurrogates high low, cs) else .error .malformed

/-- The character of a Unicode escape, whose `\u` was taken. -/
def unicodeEscape (rigor : Rigor) (cs : List Char) : Except Fault (Char × List Char) := do
  let (n, cs) ← codeUnit cs
  match rigor with
  | .loose => .ok (Char.ofNat n, cs)
  | .strict =>
    if isLowSurrogate n then .error .malformed
    else if isHighSurrogate n then lowSurrogate n cs
    else .ok (Char.ofNat n, cs)

/-- The character of an escape, whose backslash was taken. -/
def escaped (rigor : Rigor) : List Char → Except Fault (Char × List Char)
  | [] => .error .ended
  | '"' :: cs => .ok ('"', cs)
  | '\\' :: cs => .ok ('\\', cs)
  | '/' :: cs => .ok ('/', cs)
  | 'b' :: cs => .ok ('\x08', cs)
  | 'f' :: cs => .ok ('\x0c', cs)
  | 'n' :: cs => .ok ('\n', cs)
  | 'r' :: cs => .ok ('\r', cs)
  | 't' :: cs => .ok ('\t', cs)
  | 'u' :: cs => unicodeEscape rigor cs
  | _ :: _ => .error .malformed

/-- The next character of a string, or none at the closing quote. -/
def stringPiece (rigor : Rigor) : List Char → Except Fault (Option Char × List Char)
  | [] => .error .ended
  | '"' :: cs => .ok (none, cs)
  | '\\' :: cs => do
    let (c, cs) ← escaped rigor cs
    .ok (some c, cs)
  | c :: cs => if c.toNat < 0x20 then .error .malformed else .ok (some c, cs)

/-- The characters of a string, whose opening quote was taken, behind those read before, the latest
first. -/
def stringRest (rigor : Rigor) :
    (limit : Nat) → (before : List Char) → List Char → Except Fault (String × List Char)
  | 0, _, _ => .error .malformed
  | limit + 1, before, cs => do
    match ← stringPiece rigor cs with
    | (none, cs) => .ok (String.ofList before.reverse, cs)
    | (some c, cs) => stringRest rigor limit (c :: before) cs

/-! ### Numbers -/

/-- The fault of a number that lacks a digit before the given characters. -/
def digitFault (rigor : Rigor) (cs : List Char) : Fault :=
  if cs.isEmpty ∧ rigor = .strict then .ended else .malformed

/-- One or more digits. -/
def someDigits (rigor : Rigor) (cs : List Char) : Except Fault (List Char × List Char) :=
  match cs.takeWhile Char.isDigit with
  | [] => .error (digitFault rigor cs)
  | digits => .ok (digits, cs.dropWhile Char.isDigit)

/-- The digits of an integer: more than one only if the first is not zero. -/
def wholeDigits (rigor : Rigor) (cs : List Char) : Except Fault (List Char × List Char) := do
  let (digits, cs) ← someDigits rigor cs
  if digits.head? = some '0' ∧ digits.length ≠ 1 then .error .malformed else .ok (digits, cs)

/-- The digits behind a point, if there is one. -/
def fractionDigits (rigor : Rigor) : List Char → Except Fault (Option (List Char) × List Char)
  | '.' :: cs => do
    let (digits, cs) ← someDigits rigor cs
    .ok (some digits, cs)
  | cs => .ok (none, cs)

/-- A sign, which is positive if there is none. -/
def signOf : List Char → Bool × List Char
  | '-' :: cs => (true, cs)
  | '+' :: cs => (false, cs)
  | cs => (false, cs)

/-- The exponent, whose letter was taken. -/
def exponentDigits (rigor : Rigor) (cs : List Char) : Except Fault (Int × List Char) := do
  let (negative, cs) := signOf cs
  let (digits, cs) ← someDigits rigor cs
  let n : Int := ofDigits digits
  .ok (if negative then -n else n, cs)

/-- The exponent, if there is one. -/
def exponentPart (rigor : Rigor) : List Char → Except Fault (Option Int × List Char)
  | 'e' :: cs | 'E' :: cs => do
    let (n, cs) ← exponentDigits rigor cs
    .ok (some n, cs)
  | cs => .ok (none, cs)

/-- A number in its parts; a minus sign was taken if `negative` is true. -/
def numeral (rigor : Rigor) (negative : Bool) (cs : List Char) :
    Except Fault (Numeral × List Char) := do
  let (whole, cs) ← wholeDigits rigor cs
  let (fraction, cs) ← fractionDigits rigor cs
  let (exponent, cs) ← exponentPart rigor cs
  .ok (⟨negative, whole, fraction, exponent⟩, cs)

/-- A number; a minus sign was taken if `negative` is true. -/
def number (rigor : Rigor) (negative : Bool) (cs : List Char) :
    Except Fault (Json × List Char) := do
  let (n, cs) ← numeral rigor negative cs
  match rigor, n.value? with
  | _, some value => .ok (value, cs)
  | .loose, none => .ok (.real, cs)
  | .strict, none => .error .malformed

/-! ### Values -/

/-- A value that is no array or object. -/
def scalar (rigor : Rigor) (limit : Nat) : List Char → Except Fault (Json × List Char)
  | [] => .error .ended
  | 'n' :: cs => do .ok (.null, ← expect ['u', 'l', 'l'] cs)
  | 't' :: cs => do .ok (.bool true, ← expect ['r', 'u', 'e'] cs)
  | 'f' :: cs => do .ok (.bool false, ← expect ['a', 'l', 's', 'e'] cs)
  | '"' :: cs => do
    let (s, cs) ← stringRest rigor limit [] cs
    .ok (.text s, cs)
  | '-' :: cs => number rigor true cs
  | c :: cs => if c.isDigit then number rigor false (c :: cs) else .error .malformed

/-- What follows in an array or object. -/
inductive Turn (α : Type) where
  /-- An item, or a member with the given key. -/
  | more (key : α) (rest : List Char)
  /-- The end; its bracket was taken. -/
  | done (rest : List Char)

/-- What follows in an array. -/
def nextItem (first : Bool) (cs : List Char) : Except Fault (Turn Unit) :=
  match skipBlanks cs with
  | [] => .error .ended
  | ']' :: cs => .ok (.done cs)
  | c :: cs =>
    if first then .ok (.more () (c :: cs))
    else if c = ',' then
      match skipBlanks cs with
      | [] => .error .ended
      | ']' :: _ => .error .malformed
      | cs => .ok (.more () cs)
    else .error .malformed

/-- The key of a member, which must begin here. -/
def memberKey (rigor : Rigor) (limit : Nat) : List Char → Except Fault (Turn String)
  | [] => .error .ended
  | '"' :: cs => do
    let (key, cs) ← stringRest rigor limit [] cs
    .ok (.more key cs)
  | _ :: _ => .error .malformed

/-- What follows in an object. -/
def nextMember (rigor : Rigor) (limit : Nat) (first : Bool) (cs : List Char) :
    Except Fault (Turn String) :=
  match skipBlanks cs with
  | [] => .error .ended
  | '\x7d' :: cs => .ok (.done cs)
  | c :: cs =>
    if first then memberKey rigor limit (c :: cs)
    else if c = ',' then memberKey rigor limit (skipBlanks cs)
    else .error .malformed

/-- Takes the colon behind a key. -/
def colon (cs : List Char) : Except Fault (List Char) :=
  expect [':'] (skipBlanks cs)

/-- Reads the items of an array, whose opening bracket was taken, one after the other. -/
def foldItems {σ : Type} (item : σ → List Char → Except Fault (σ × List Char)) :
    (limit : Nat) → (first : Bool) → σ → List Char → Except Fault (σ × List Char)
  | 0, _, _, _ => .error .malformed
  | limit + 1, first, s, cs => do
    match ← nextItem first cs with
    | .done cs => .ok (s, cs)
    | .more _ cs =>
      let (s, cs) ← item s cs
      foldItems item limit false s cs

/-- Reads the members of an object, whose opening bracket was taken, one after the other. The reader
of a member is given its key and the characters from the colon on. -/
def foldMembers {σ : Type} (rigor : Rigor) (strings : Nat)
    (member : σ → String → List Char → Except Fault (σ × List Char)) :
    (limit : Nat) → (first : Bool) → σ → List Char → Except Fault (σ × List Char)
  | 0, _, _, _ => .error .malformed
  | limit + 1, first, s, cs => do
    match ← nextMember rigor strings first cs with
    | .done cs => .ok (s, cs)
    | .more key cs =>
      let (s, cs) ← member s key cs
      foldMembers rigor strings member limit false s cs

/-- Reads an array with a reader of its items; its opening bracket was taken. -/
def items {α : Type} (item : List Char → Except Fault (α × List Char)) (limit : Nat)
    (cs : List Char) : Except Fault (List α × List Char) := do
  let (before, cs) ← foldItems (fun before cs => do
    let (a, cs) ← item cs
    .ok (a :: before, cs)) limit true [] cs
  .ok (before.reverse, cs)

/-- Reads a member of an object with a reader of values, behind the members read before, the latest
first. -/
def member {α : Type} (value : List Char → Except Fault (α × List Char))
    (before : List (String × α)) (key : String) (cs : List Char) :
    Except Fault (List (String × α) × List Char) := do
  let (a, cs) ← value (← colon cs)
  .ok ((key, a) :: before, cs)

/-- Reads a value in which at most `depth` arrays and objects are open at a time. -/
def value (rigor : Rigor) (limit : Nat) :
    (depth : Nat) → List Char → Except Fault (Json × List Char)
  | 0, cs =>
    match skipBlanks cs with
    | '[' :: _ | '\x7b' :: _ => .error .malformed
    | cs => scalar rigor limit cs
  | depth + 1, cs =>
    match skipBlanks cs with
    | '[' :: cs => do
      let (list, cs) ← items (value rigor limit depth) limit cs
      .ok (.array list, cs)
    | '\x7b' :: cs => do
      let (before, cs) ←
        foldMembers rigor limit (member (value rigor limit depth)) limit true [] cs
      .ok (.object before.reverse, cs)
    | cs => scalar rigor limit cs

/-- Reads past a value whose content is of no interest. -/
def skip (limit : Nat) (cs : List Char) : Except Fault (List Char) := do
  let (_, cs) ← value .loose limit limit cs
  .ok cs

/-! ### Values of a given shape -/

/-- Reads a value that may not be an array or an object. -/
def flat (limit : Nat) (cs : List Char) : Except Fault (Json × List Char) :=
  match skipBlanks cs with
  | '[' :: _ | '\x7b' :: _ => .error .shape
  | cs => scalar .strict limit cs

/-- Reads a string. -/
def textValue (limit : Nat) (cs : List Char) : Except Fault (String × List Char) := do
  match ← flat limit cs with
  | (.text s, cs) => .ok (s, cs)
  | _ => .error .shape

/-- Reads an integer that fits a word. -/
def wordValue (limit : Nat) (cs : List Char) : Except Fault (Int × List Char) := do
  match ← flat limit cs with
  | (.int n, cs) => if Word.Fits n then .ok (n, cs) else .error .shape
  | _ => .error .shape

/-- Takes the given opening bracket. A value that begins otherwise has the wrong shape. -/
def openWith (bracket : Char) (limit : Nat) (cs : List Char) : Except Fault (List Char) :=
  match skipBlanks cs with
  | c :: cs =>
    if c = bracket then .ok cs
    else do
      let _ ← flat limit (c :: cs)
      .error .shape
  | [] => .error .ended

/-- Takes the bracket that closes an array in which no more items may follow. -/
def closeArray (cs : List Char) : Except Fault (List Char) :=
  expect [']'] (skipBlanks cs)

/-- Reads a whole text. -/
def whole {α : Type} (reader : (limit : Nat) → List Char → Except Fault (α × List Char))
    (text : String) : Except Fault α := do
  let cs := text.toList
  let (a, rest) ← reader (cs.length + 1) cs
  if (skipBlanks rest).isEmpty then .ok a else .error .malformed

end Json

end BlockBoard
