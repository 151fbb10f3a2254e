import BlockBoard.Json.Read
import BlockBoard.Project.Document

/-!
# Reading project documents

The text of a document is read from left to right, and the first problem decides what is wrong with
it. A document is an object with the keys `blocks` and `settings`, or an array of their values in
this order; settings are an object or an array in the same way. Keys that are not known are skipped.
A node is an object. Its members are read as JSON values first, and its shape is checked at its
closing brace; only its `id` is checked where it stands.

At most 127 arrays and objects may be open at a time, apart from values that are skipped.
-/

namespace BlockBoard

open Json (Fault)

/-- The members of nodes by their shape, with arrays of nodes read already. -/
inductive Field where
  | text (value : String)
  | int (value : Int)
  | nodes (value : List Node)
  /-- A value of a shape that no node uses. -/
  | other

namespace Field

/-- The field of the given key, none if it is missing. Fails if the key occurs more than once. -/
def once? (key : String) (fields : List (String × Field)) : Option (Option Field) :=
  match fields.filter fun field => field.1 = key with
  | [] => some none
  | [field] => some (some field.2)
  | _ => none

/-- The text of a field, empty if the field is missing. -/
def text? (key : String) (fields : List (String × Field)) : Option String :=
  match once? key fields with
  | some none => some ""
  | some (some (.text s)) => some s
  | _ => none

/-- The number of a field, zero if the field is missing. -/
def word? (key : String) (fields : List (String × Field)) : Option Int :=
  match once? key fields with
  | some none => some 0
  | some (some (.int n)) => if Word.Fits n then some n else none
  | _ => none

/-- The nodes of a field, none if the field is missing. -/
def nodes? (key : String) (fields : List (String × Field)) : Option (List Node) :=
  match once? key fields with
  | some none => some []
  | some (some (.nodes list)) => some list
  | _ => none

end Field

/-- The four types of nodes. -/
inductive NodeType where
  | start
  | move
  | fill
  | repetition
deriving DecidableEq, Repr

namespace NodeType

/-- The type that a field names: by its name, or by its number from 0 to 3. -/
def ofField? : Field → Option NodeType
  | .text "start" | .int 0 => some start
  | .text "move" | .int 1 => some move
  | .text "fill" | .int 2 => some fill
  | .text "repeat" | .int 3 => some repetition
  | _ => none

end NodeType

namespace Node

/-- The node with the given fields. Fields that its type does not use may hold anything. -/
def ofFields? (fields : List (String × Field)) : Option Node := do
  let .text id ← ← Field.once? "id" fields | none
  match ← NodeType.ofField? (← ← Field.once? "type" fields) with
  | .start => return .start id (← Field.nodes? "body" fields)
  | .move => return .move id (← Field.text? "direction" fields)
  | .fill => return .fill id (← Field.text? "color" fields)
  | .repetition =>
    return .repetition id (← Field.word? "times" fields) (← Field.nodes? "body" fields)

mutual

/-- The node that a JSON value describes. -/
def ofJson? : Json → Option Node
  | .object members => ofFields? (fieldsOf members)
  | _ => none

/-- The nodes that JSON values describe, if all of them do. -/
def listOfJson? : List Json → Option (List Node)
  | [] => some []
  | j :: js =>
    match ofJson? j, listOfJson? js with
    | some node, some nodes => some (node :: nodes)
    | _, _ => none

/-- The field that a JSON value is. -/
def fieldOf : Json → Field
  | .text s => .text s
  | .int n => .int n
  | .array items =>
    match listOfJson? items with
    | some nodes => .nodes nodes
    | none => .other
  | _ => .other

/-- The fields that the members of an object are. -/
def fieldsOf : List (String × Json) → List (String × Field)
  | [] => []
  | (key, j) :: members => (key, fieldOf j) :: fieldsOf members

end

/-- How many arrays and objects may be open inside a node of a stack. -/
def depthInside : Nat := 123

/-- Reads a member of a node of a stack. A second `id`, and an `id` that is no string, are refused
at once. -/
def member (limit : Nat) (before : List (String × Field)) (key : String) (cs : List Char) :
    Except Fault (List (String × Field) × List Char) := do
  if key = "id" then
    if before.any fun field => field.1 = "id" then .error .shape
    else Json.member (fun cs => do
      let (s, cs) ← Json.textValue limit cs
      .ok (Field.text s, cs)) before key cs
  else
    Json.member (fun cs => do
      let (j, cs) ← Json.value .strict limit depthInside cs
      .ok (fieldOf j, cs)) before key cs

/-- Reads a node of a stack. -/
def read (limit : Nat) (cs : List Char) : Except Fault (Node × List Char) := do
  let cs ← Json.openWith '\x7b' limit cs
  let (before, cs) ← Json.foldMembers .strict limit (member limit) limit true [] cs
  match ofFields? before.reverse with
  | some node => .ok (node, cs)
  | none => .error .shape

/-- Reads a stack. -/
def readStack (limit : Nat) (cs : List Char) : Except Fault (List Node × List Char) := do
  Json.items (read limit) limit (← Json.openWith '[' limit cs)

/-- Reads the stacks of a document. -/
def readStacks (limit : Nat) (cs : List Char) : Except Fault (List (List Node) × List Char) := do
  Json.items (readStack limit) limit (← Json.openWith '[' limit cs)

end Node

namespace Settings

/-- Settings of which some fields are given. -/
structure Partial where
  rows : Option Int := none
  cols : Option Int := none
  startRow : Option Int := none
  startCol : Option Int := none

/-- The settings in which the missing fields have their defaults. -/
def Partial.complete (p : Partial) : Settings where
  rows := p.rows.getD 15
  cols := p.cols.getD 15
  startRow := p.startRow.getD 0
  startCol := p.startCol.getD 0

/-- Reads the number of a field that may not have been given before. -/
def readField (limit : Nat) (before : Option Int) (set : Option Int → Partial) (cs : List Char) :
    Except Fault (Partial × List Char) := do
  if before.isSome then .error .shape
  let (n, cs) ← Json.wordValue limit (← Json.colon cs)
  .ok (set (some n), cs)

/-- Reads a member of a settings object. -/
def member (limit : Nat) (p : Partial) (key : String) (cs : List Char) :
    Except Fault (Partial × List Char) :=
  match key with
  | "rows" => readField limit p.rows (fun n => { p with rows := n }) cs
  | "cols" => readField limit p.cols (fun n => { p with cols := n }) cs
  | "startrow" => readField limit p.startRow (fun n => { p with startRow := n }) cs
  | "startcol" => readField limit p.startCol (fun n => { p with startCol := n }) cs
  | _ => do .ok (p, ← Json.skip limit (← Json.colon cs))

/-- Reads at most `room` more numbers of a settings array, behind those read before, the latest
first, and the end of the array. -/
def readNumbers (limit : Nat) : (room : Nat) → (before : List Int) → List Char →
    Except Fault (List Int × List Char)
  | 0, before, cs => do .ok (before.reverse, ← Json.closeArray cs)
  | room + 1, before, cs => do
    match ← Json.nextItem before.isEmpty cs with
    | .done cs => .ok (before.reverse, cs)
    | .more _ cs =>
      let (n, cs) ← Json.wordValue limit cs
      readNumbers limit room (n :: before) cs

/-- The settings whose first fields are given in order. -/
def ofNumbers (ns : List Int) : Settings :=
  Partial.complete ⟨ns[0]?, ns[1]?, ns[2]?, ns[3]?⟩

/-- Reads settings. -/
def read (limit : Nat) (cs : List Char) : Except Fault (Settings × List Char) :=
  match Json.skipBlanks cs with
  | '[' :: cs => do
    let (ns, cs) ← readNumbers limit 4 [] cs
    .ok (ofNumbers ns, cs)
  | cs => do
    let (p, cs) ←
      Json.foldMembers .strict limit (member limit) limit true {} (← Json.openWith '\x7b' limit cs)
    .ok (p.complete, cs)

/-- Reads settings, or `null` in their place. -/
def readOption (limit : Nat) (cs : List Char) : Except Fault (Option Settings × List Char) :=
  match Json.skipBlanks cs with
  | 'n' :: cs => do .ok (none, ← Json.expect ['u', 'l', 'l'] cs)
  | cs => do
    let (s, cs) ← read limit cs
    .ok (some s, cs)

/-- The settings that a text holds. -/
def parse (text : String) : Except Fault Settings :=
  Json.whole read text

end Settings

namespace Document

/-- A document of which some fields are given. -/
structure Partial where
  blocks : Option (List (List Node)) := none
  settings : Option (Option Settings) := none

/-- The document in which the missing fields have their defaults. -/
def Partial.complete (p : Partial) : Document :=
  ⟨p.blocks.getD [], p.settings.getD none⟩

/-- Reads a member of a document object. -/
def member (limit : Nat) (p : Partial) (key : String) (cs : List Char) :
    Except Fault (Partial × List Char) := do
  match key with
  | "blocks" =>
    if p.blocks.isSome then .error .shape
    let (blocks, cs) ← Node.readStacks limit (← Json.colon cs)
    .ok ({ p with blocks := some blocks }, cs)
  | "settings" =>
    if p.settings.isSome then .error .shape
    let (settings, cs) ← Settings.readOption limit (← Json.colon cs)
    .ok ({ p with settings := some settings }, cs)
  | _ => .ok (p, ← Json.skip limit (← Json.colon cs))

/-- Reads the settings of a document array, whose stacks were read, and the end of the array. -/
def readSecond (limit : Nat) (blocks : List (List Node)) (cs : List Char) :
    Except Fault (Document × List Char) := do
  match ← Json.nextItem false cs with
  | .done cs => .ok (⟨blocks, none⟩, cs)
  | .more _ cs =>
    let (settings, cs) ← Settings.readOption limit cs
    .ok (⟨blocks, settings⟩, ← Json.closeArray cs)

/-- Reads a document array, whose opening bracket was taken. -/
def readArray (limit : Nat) (cs : List Char) : Except Fault (Document × List Char) := do
  match ← Json.nextItem true cs with
  | .done cs => .ok ({}, cs)
  | .more _ cs =>
    let (blocks, cs) ← Node.readStacks limit cs
    readSecond limit blocks cs

/-- Reads a document. -/
def read (limit : Nat) (cs : List Char) : Except Fault (Document × List Char) :=
  match Json.skipBlanks cs with
  | '[' :: cs => readArray limit cs
  | cs => do
    let (p, cs) ←
      Json.foldMembers .strict limit (member limit) limit true {} (← Json.openWith '\x7b' limit cs)
    .ok (p.complete, cs)

/-- The document that a text holds. -/
def parse (text : String) : Except Fault Document :=
  Json.whole read text

end Document

end BlockBoard
