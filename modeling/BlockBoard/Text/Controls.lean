/-!
# Control sequences

A terminal takes some characters not as text but as commands: single control characters, and
sequences that begin with the escape character. `withoutControls` drops them from a text and keeps
its blanks and line ends.
-/

namespace BlockBoard

namespace Text

/-- Where a terminal is in a control sequence. -/
inductive ControlState where
  /-- In no sequence. -/
  | outside
  /-- Behind the escape character. -/
  | escaped
  /-- In a sequence that ends with a letter, a digit or a sign that is no blank. -/
  | short
  /-- In a sequence of numbers and signs that ends with a letter. -/
  | numbers
  /-- In a text for the system, which ends with a bell. -/
  | system
  /-- In a text for a device or an application. -/
  | device
deriving DecidableEq, Repr

/-- Whether a character is an ASCII control. -/
def isControl (c : Char) : Bool :=
  c.toNat < 0x20 || c.toNat = 0x7F

/-- Whether a control is kept in texts. -/
def isLayout (c : Char) : Bool :=
  c = '\t' || c = '\n' || c = '\x0c' || c = '\r'

/-- Whether a character is text outside of control sequences. -/
def isPlain (c : Char) : Bool :=
  !isControl c || isLayout c

/-- Whether the last bytes of a character hold the byte that ends a text for a device. -/
def holdsTerminator (c : Char) : Bool :=
  c.toString.toUTF8.toList.contains 0x9C

namespace ControlState

/-- The state behind the escape character and one more character. -/
def afterEscape (c : Char) : ControlState :=
  if c = '[' then numbers
  else if c = ']' then system
  else if c = 'P' ∨ c = 'X' ∨ c = '^' ∨ c = '_' then device
  else if c.toNat < 0x30 then short
  else outside

/-- The state behind a character. -/
def step (s : ControlState) (c : Char) : ControlState :=
  if c = '\x1b' then escaped
  else if c = '\x18' ∨ c = '\x1a' then outside
  else
    match s with
    | outside => outside
    | escaped => if isControl c || 0x80 ≤ c.toNat then escaped else afterEscape c
    | short => if 0x30 ≤ c.toNat ∧ c.toNat < 0x7F then outside else short
    | numbers => if 0x40 ≤ c.toNat ∧ c.toNat < 0x7F then outside else numbers
    | system => if c = '\x07' then outside else system
    | device => if holdsTerminator c then outside else device

/-- Whether a character is text in a state. Layout is kept in sequences that hold no text. -/
def shows (s : ControlState) (c : Char) : Bool :=
  match s with
  | outside => isPlain c
  | escaped | short | numbers => isLayout c
  | system | device => false

end ControlState

/-- The characters that are text, from a state on. Behind a character that is text inside a
sequence, all is text up to the next control, which goes on with the sequence. -/
def plainChars (s : ControlState) (shown : Bool) : List Char → List Char
  | [] => []
  | c :: cs =>
    if shown && isPlain c then c :: plainChars (if 0x80 ≤ c.toNat then .outside else s) true cs
    else if s.shows c then c :: plainChars (s.step c) true cs
    else plainChars (s.step c) false cs

/-- A text without control characters and control sequences. -/
def withoutControls (text : String) : String :=
  String.ofList (plainChars .outside true text.toList)

end Text

end BlockBoard
