import BlockBoard.Toml.Scalar

/-!
# Reading TOML

A document is read line by line: pairs of a key and a value, headers, and comments. A value opens
arrays and inline tables up to a given depth.

Loops run for at most as many rounds as the text has characters, which is never too few, since each
round takes one.
-/

namespace BlockBoard

namespace Toml

/-- One more than the number of arrays and inline tables that may be open at a time, and than the
number of parts that a key may have. -/
def depthLimit : Nat := 80

/-- The characters with a single line feed at the end of every line. A carriage return that stands
alone is kept. -/
def unifyLines : List Char → List Char
  | '\r' :: '\n' :: cs => '\n' :: unifyLines cs
  | c :: cs => c :: unifyLines cs
  | [] => []

/-- The characters behind a comment, if there is one. -/
def skipComment : List Char → List Char
  | '#' :: cs => cs.dropWhile isShown
  | cs => cs

/-- The characters of the next line, if nothing but blanks and a comment is left of this one. -/
def endLine? (cs : List Char) : Option (List Char) :=
  match skipComment (skipSpace cs) with
  | [] => some []
  | '\n' :: cs => some cs
  | _ => none

/-- The characters behind blanks, line ends and comments. -/
def skipGap : (inComment : Bool) → List Char → List Char
  | _, [] => []
  | true, c :: cs =>
    if isShown c then skipGap true cs
    else if c = '\n' then skipGap false cs
    else c :: cs
  | false, c :: cs =>
    if isSpace c || c = '\n' then skipGap false cs
    else if c = '#' then skipGap true cs
    else c :: cs

/-! ### Keys -/

/-- Whether a character may stand in a key without quotes. -/
def isBare (c : Char) : Bool :=
  c.isAlphanum || c = '-' || c = '_'

/-- A key without dots. -/
def simpleKey (rounds : Nat) : Reader String
  | '"' :: cs => basicRest rounds [] cs
  | '\'' :: cs => literalRest cs
  | cs =>
    match cs.takeWhile isBare with
    | [] => none
    | name => some (String.ofList name, cs.dropWhile isBare)

/-- The parts of a key. -/
def keyParts (strings : Nat) : (rounds : Nat) → Reader (List String)
  | 0, _ => none
  | rounds + 1, cs => do
    let (part, cs) ← simpleKey strings (skipSpace cs)
    match skipSpace cs with
    | '.' :: cs =>
      let (parts, cs) ← keyParts strings rounds cs
      return (part :: parts, cs)
    | cs => return ([part], cs)

/-- A key, which may have dots. -/
def key (rounds : Nat) (cs : List Char) : Option (List String × List Char) := do
  let (parts, cs) ← keyParts rounds rounds cs
  if parts.length < depthLimit then some (parts, cs) else none

/-! ### Values -/

/-- A value that is no array or inline table. -/
def flat (rounds : Nat) : Reader Toml
  | [] => none
  | c :: cs =>
    if c = '"' ∨ c = '\'' then (string rounds (c :: cs)).map fun (s, rest) => (.text s, rest)
    else if c = 't' then (take? "rue" cs).map (.scalar, ·)
    else if c = 'f' then (take? "alse" cs).map (.scalar, ·)
    else
      match dateTime? (c :: cs) with
      | some rest => some (.scalar, rest)
      | none => number (c :: cs)

/-- The items of an array, whose opening bracket was taken, behind those read before, the latest
first. A comma may follow the last one. -/
def items (item : Reader Toml) : (rounds : Nat) → (before : List Toml) → Reader (List Toml)
  | 0, _, _ => none
  | rounds + 1, before, cs =>
    match skipGap false cs with
    | ']' :: rest => some (before.reverse, rest)
    | cs => do
      let (value, cs) ← item cs
      match skipGap false cs with
      | ',' :: rest => items item rounds (value :: before) rest
      | ']' :: rest => some ((value :: before).reverse, rest)
      | _ => none

/-- A key and its value. -/
def pair (rounds : Nat) (value : Reader Toml) (cs : List Char) :
    Option ((List String × Toml) × List Char) := do
  let (path, cs) ← key rounds cs
  let cs ← take? "=" cs
  let (v, cs) ← value (skipSpace cs)
  return ((path, v), cs)

/-- The pairs of an inline table, of which there is at least one. -/
def pairs (one : Reader (List String × Toml)) : (rounds : Nat) → Reader (List (List String × Toml))
  | 0, _ => none
  | rounds + 1, cs => do
    let (p, cs) ← one cs
    match skipSpace cs with
    | ',' :: cs =>
      let (ps, cs) ← pairs one rounds cs
      return (p :: ps, cs)
    | '\x7d' :: cs => return ([p], cs)
    | _ => none

/-- An inline table, whose opening brace was taken. -/
def inlineTable (one : Reader (List String × Toml)) (rounds : Nat) (cs : List Char) :
    Option (Toml × List Char) :=
  match skipSpace cs with
  | '\x7d' :: cs => some (.table .inline [], cs)
  | cs => do
    let (ps, cs) ← pairs one rounds cs
    return (.table .inline (← Members.addPairs? [] ps), cs)

/-- A value in which at most `depth` arrays and inline tables are open at a time. -/
def value (rounds : Nat) : (depth : Nat) → Reader Toml
  | 0, cs => flat rounds cs
  | _ + 1, [] => none
  | depth + 1, c :: cs =>
    if c = '[' then
      (items (value rounds depth) rounds [] cs).map fun (list, rest) => (.array list, rest)
    else if c = '\x7b' then inlineTable (pair rounds (value rounds depth)) rounds cs
    else flat rounds (c :: cs)

/-! ### Documents -/

/-- The header of a section, whose first bracket was taken. -/
def header (rounds : Nat) : Reader (Header × List String)
  | '[' :: cs => do
    let (path, cs) ← key rounds cs
    return ((.element, path), ← take? "]]" cs)
  | cs => do
    let (path, cs) ← key rounds cs
    return ((.table, path), ← take? "]" cs)

/-- A line of a document. -/
inductive Entry where
  /-- Nothing, or a comment. -/
  | nothing
  | pair (path : List String) (value : Toml)
  | header (header : Header) (path : List String)
deriving Repr

/-- What a line holds in front of the blanks and the comment at its end. -/
def entry (rounds : Nat) : Reader Entry
  | [] => some (.nothing, [])
  | c :: cs =>
    if c = '\n' ∨ c = '#' then some (.nothing, c :: cs)
    else if c = '[' then (header rounds cs).map fun ((h, path), rest) => (.header h path, rest)
    else
      (pair rounds (value rounds (depthLimit - 1)) (c :: cs)).map fun ((path, v), rest) =>
        (.pair path v, rest)

/-- The lines of a document. -/
def entries (chars : Nat) : (rounds : Nat) → List Char → Option (List Entry)
  | 0, _ => none
  | _ + 1, [] => some []
  | rounds + 1, cs => do
    let (e, cs) ← entry chars (skipSpace cs)
    return e :: (← entries chars rounds (← endLine? cs))

/-- The lines of a document in order, sorted into pairs and sections. -/
def arrange : List Entry → Layout
  | [] => {}
  | .nothing :: es => arrange es
  | .pair path v :: es =>
    let l := arrange es
    { l with pairs := (path, v) :: l.pairs }
  | .header h path :: es =>
    let l := arrange es
    ⟨[], ⟨h, path, l.pairs⟩ :: l.sections⟩

/-- The characters behind a byte order mark, if there is one. -/
def skipMark : List Char → List Char
  | '\uFEFF' :: cs => cs
  | cs => cs

/-- The members of the document that a text holds. -/
def read? (text : String) : Option Members := do
  let cs := unifyLines (skipMark text.toList)
  (arrange (← entries (cs.length + 1) (cs.length + 1) cs)).members?

end Toml

end BlockBoard
