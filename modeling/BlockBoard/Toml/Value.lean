/-!
# TOML values

Values as far as configuration needs them, and the rules by which keys and headers build up tables.
Nothing can be given twice, and a table that was written out in one place cannot be extended in
another. Of floating point numbers, truth values, dates and times only the presence is kept.
-/

namespace BlockBoard

/-- How a table came about. -/
inductive TableForm where
  /-- It has a header, or it is the whole document. -/
  | headed
  /-- It lies on the way to a table with a header. -/
  | passed
  /-- It was made by a dotted key. -/
  | dotted
  /-- It was written between braces. -/
  | inline
deriving DecidableEq, Repr

/-- A TOML value. -/
inductive Toml where
  | text (value : String)
  | int (value : Int)
  /-- A floating point number, a truth value, a date or a time. -/
  | scalar
  | array (items : List Toml)
  | table (form : TableForm) (members : List (String × Toml))
  /-- The tables that have equal headers in double brackets. -/
  | tables (elements : List (List (String × Toml)))
deriving Repr

namespace Toml

/-- The members of a table. -/
abbrev Members := List (String × Toml)

namespace Members

/-- The members with one of them replaced, or added at the end. -/
def set (ms : Members) (key : String) (value : Toml) : Members :=
  if (ms.lookup key).isSome then
    ms.map fun (other, old) => if other = key then (other, value) else (other, old)
  else ms ++ [(key, value)]

/-- The members with a new one, whose key must be free. -/
def add? (ms : Members) (key : String) (value : Toml) : Option Members :=
  if (ms.lookup key).isSome then none else some (ms ++ [(key, value)])

/-- Changes the last of some tables. -/
def changeLast? (change : Members → Option Members) : List Members → Option (List Members)
  | [] => none
  | [ms] => (change ms).map ([·])
  | ms :: rest => (changeLast? change rest).map (ms :: ·)

/-- The members with a value under a dotted key. Only tables that have no header of their own can be
entered on the way, or the last one of those with equal headers; the value must end up in a table
that was made by a dotted key too, unless the key has no dots. -/
def addDotted? (value : Toml) : (path : List String) → (form : TableForm) → Members → Option Members
  | [], _, _ => none
  | [key], form, ms => if form = .dotted then ms.add? key value else none
  | key :: path, _, ms => do
    let inner ← match ms.lookup key with
      | none => (addDotted? value path .dotted []).map (Toml.table .dotted)
      | some (.table .passed inner) =>
        (addDotted? value path .passed inner).map (Toml.table .passed)
      | some (.table .dotted inner) =>
        (addDotted? value path .dotted inner).map (Toml.table .dotted)
      | some (.tables elements) =>
        (changeLast? (addDotted? value path .headed) elements).map Toml.tables
      | _ => none
    return ms.set key inner

/-- The members with a value under a key, which may have dots. -/
def addPair? (ms : Members) (path : List String) (value : Toml) : Option Members :=
  addDotted? value path .dotted ms

/-- The members with several values under their keys. -/
def addPairs? (ms : Members) (pairs : List (List String × Toml)) : Option Members :=
  pairs.foldlM (fun ms (path, value) => ms.addPair? path value) ms

/-- Changes what stands under the path of a header. The tables on the way are made if they are
missing; those between braces cannot be entered. -/
def changeAt? (change : Option Toml → Option Toml) : (path : List String) → Members → Option Members
  | [], _ => none
  | [key], ms => (change (ms.lookup key)).map (ms.set key)
  | key :: path, ms => do
    let inner ← match ms.lookup key with
      | none => (changeAt? change path []).map (Toml.table .passed)
      | some (.table .inline _) => none
      | some (.table form inner) => (changeAt? change path inner).map (Toml.table form)
      | some (.tables elements) => (changeLast? (changeAt? change path) elements).map Toml.tables
      | some _ => none
    return ms.set key inner

end Members

/-- The kind of a header. -/
inductive Header where
  /-- In single brackets. -/
  | table
  /-- In double brackets. -/
  | element
deriving DecidableEq, Repr

/-- What a header makes of that which stands under its path, given the pairs below the header. -/
def Header.extend? (pairs : List (List String × Toml)) : Header → Option Toml → Option Toml
  | table, none => (Members.addPairs? [] pairs).map (Toml.table .headed)
  | table, some (.table .passed ms) => (Members.addPairs? ms pairs).map (Toml.table .headed)
  | element, none => (Members.addPairs? [] pairs).map fun ms => .tables [ms]
  | element, some (.tables elements) =>
    (Members.addPairs? [] pairs).map fun ms => .tables (elements ++ [ms])
  | _, some _ => none

/-- A header with the pairs below it. -/
structure Section where
  header : Header
  path : List String
  pairs : List (List String × Toml)
deriving Repr

/-- A document: the pairs before the first header, and the sections. -/
structure Layout where
  pairs : List (List String × Toml) := []
  sections : List Section := []
deriving Repr

/-- The members of a document, unless something is given twice. -/
def Layout.members? (l : Layout) : Option Members := do
  let ms ← Members.addPairs? [] l.pairs
  l.sections.foldlM (fun ms s => Members.changeAt? (s.header.extend? s.pairs) s.path ms) ms

end Toml

end BlockBoard
