/-!
# A disk

Files and folders by place, as far as the program can see them. A path is split at its slashes and
followed name by name. A folder is there as soon as a file lies below it. Reading and writing fail
for the reasons for which an operating system refuses them.
-/

namespace BlockBoard

/-- What a file holds. -/
inductive Contents where
  | text (text : String)
  /-- Bytes that are no text in UTF-8. -/
  | binary
deriving DecidableEq, Repr

/-- Why a file cannot be read or written. -/
inductive FileError where
  | notFound
  /-- A file stands where the path needs a folder. -/
  | notFolder
  /-- The path leads to a folder. -/
  | isFolder
  | nameTooLong
  /-- The path holds the character U+0000. -/
  | holdsNul
  /-- The file holds no text. -/
  | notText
deriving DecidableEq, Repr

namespace FileError

/-- The text of an error. -/
def reason : FileError → String
  | notFound => "No such file or directory"
  | notFolder => "Not a directory"
  | isFolder => "Is a directory"
  | nameTooLong => "File name too long"
  | holdsNul => "file name contained an unexpected NUL byte"
  | notText => "stream did not contain valid UTF-8"

/-- The number that the operating system gives to an error, if the error is one of its own. -/
def number? : FileError → Option Nat
  | notFound => some 2
  | notFolder => some 20
  | isFolder => some 21
  | nameTooLong => some 36
  | holdsNul | notText => none

/-- The name of the kind of an error. -/
def kindName : FileError → String
  | notFound => "NotFound"
  | notFolder => "NotADirectory"
  | isFolder => "IsADirectory"
  | nameTooLong => "InvalidFilename"
  | holdsNul => "InvalidInput"
  | notText => "InvalidData"

/-- The report on an error. -/
def message (e : FileError) : String :=
  match e.number? with
  | some n => s!"{e.reason} (os error {n})"
  | none => e.reason

/-- The fields of an error, written out. -/
def inspect (e : FileError) : String :=
  let tail := "kind: " ++ e.kindName ++ ", message: \"" ++ e.reason ++ "\" \x7d"
  match e.number? with
  | some n => "Os \x7b code: " ++ toString n ++ ", " ++ tail
  | none => "Error \x7b " ++ tail

end FileError

/-- A place on a disk: the names of the folders that lead to it, and its own. The names of a place
that is counted from the root begin with a slash, those of a place outside of the folder in which
paths begin with two points for each step upwards. -/
abbrev Disk.Place := List String

/-- The files of a disk by their places, and folders that may be empty. -/
structure Disk where
  files : List (Disk.Place × Contents) := []
  folders : List Disk.Place := []
deriving DecidableEq, Repr

namespace Disk

/-- The most bytes that a name may have. -/
def nameLimit : Nat := 255

/-- The number of bytes from which on a path is too long. -/
def pathLimit : Nat := 4096

/-- The name of the root. -/
def root : String := "/"

variable (d : Disk)

/-- The file at a place. -/
def file? (place : Place) : Option Contents :=
  d.files.lookup place

/-- Whether there is a folder at a place. The root, the folder in which paths begin and the folders
above it are always there. -/
def hasFolder (place : Place) : Bool :=
  place.all (· = "..") || place = [root] || d.folders.contains place ||
    d.files.any fun (other, _) => place.isPrefixOf other && place ≠ other

/-- The disk with a file put at a place, where it replaces the one that is there. -/
def put (place : Place) (contents : Contents) : Disk :=
  { d with files := (place, contents) :: d.files.filter fun (other, _) => other ≠ place }

/-- The folder that holds a place. The root holds itself. -/
def parent (place : Place) : Place :=
  if place = [root] then place
  else if place.all (· = "..") then place ++ [".."]
  else place.dropLast

/-- The place to which names lead from a place. All but the last name must be those of folders. -/
def follow (place : Place) : (names : List String) → Except FileError Place
  | [] => .ok place
  | name :: names =>
    if !d.hasFolder place then .error (if (d.file? place).isSome then .notFolder else .notFound)
    else if name = "" ∨ name = "." then follow place names
    else if name = ".." then follow (parent place) names
    else if nameLimit < name.utf8ByteSize then .error .nameTooLong
    else follow (place ++ [name]) names

/-- The place to which names lead, counted from the root if the first name is empty. -/
def followFrom (names : List String) : Except FileError Place :=
  d.follow (if names.head? = some "" then [root] else []) names

/-- The names between the slashes of a path. -/
def names (path : String) : Except FileError (List String) :=
  if path.contains '\x00' then .error .holdsNul
  else if path = "" then .error .notFound
  else if pathLimit ≤ path.utf8ByteSize then .error .nameTooLong
  else .ok (path.splitOn root)

/-- The contents of the file at a path. -/
def read (path : String) : Except FileError Contents := do
  let place ← d.followFrom (← names path)
  match d.file? place with
  | some contents => return contents
  | none => throw (if d.hasFolder place then .isFolder else .notFound)

/-- The text of the file at a path. -/
def readText (path : String) : Except FileError String := do
  match ← d.read path with
  | .text text => return text
  | .binary => throw .notText

/-- Whether a path leads to a file or a folder. -/
def hasPath (path : String) : Bool :=
  match d.read path with
  | .ok _ | .error .isFolder => true
  | .error _ => false

/-- Writes a text into the file at a path, which need not be there yet. A path that ends in a slash
can only name a folder. -/
def writeText (path text : String) : Except FileError Disk := do
  let names ← names path
  let shorter := (names.reverse.dropWhile (· = "")).reverse
  let place ← d.followFrom shorter
  if shorter.length < names.length || d.hasFolder place then throw .isFolder
  return d.put place (.text text)

end Disk

/-- The path of a file in a folder. A name that begins at the root is a path of its own. -/
def pathIn (folder name : String) : String :=
  if name.startsWith "/" then name
  else if folder.endsWith "/" then folder ++ name
  else folder ++ "/" ++ name

end BlockBoard
