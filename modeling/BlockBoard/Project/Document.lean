import BlockBoard.Json.Write
import BlockBoard.Settings

/-!
# Project documents

What a project file holds: stacks of blocks, each a block and those that follow it, and the settings
of the board. A node is a block with its body; its links are implied by where it stands.
-/

namespace BlockBoard

/-- A block in a document, with the nodes of its body. -/
inductive Node where
  | start (id : String) (body : List Node)
  | move (id direction : String)
  | fill (id color : String)
  | repetition (id : String) (times : Int) (body : List Node)
deriving Repr

/-- The contents of a project file. -/
structure Document where
  /-- The stacks of the top level. -/
  blocks : List (List Node) := []
  settings : Option Settings := none
deriving Repr

namespace Node

/-- The name of the block. -/
def id : Node → String
  | start id _ | move id _ | fill id _ | repetition id _ _ => id

mutual

/-- A node as JSON: an object with the name, the type and the fields of the type. -/
def toJson : Node → Json
  | start id body =>
    .object [("id", .text id), ("type", .text "start"), ("body", .array (listToJson body))]
  | move id direction =>
    .object [("id", .text id), ("type", .text "move"), ("direction", .text direction)]
  | fill id color => .object [("id", .text id), ("type", .text "fill"), ("color", .text color)]
  | repetition id times body =>
    .object [("id", .text id), ("type", .text "repeat"), ("times", .int times),
      ("body", .array (listToJson body))]

/-- A list of nodes as JSON values. -/
def listToJson : List Node → List Json
  | [] => []
  | node :: nodes => node.toJson :: listToJson nodes

end

end Node

namespace Settings

/-- Settings as a JSON object. -/
def toJson (s : Settings) : Json :=
  .object [("rows", .int s.rows), ("cols", .int s.cols), ("startrow", .int s.startRow),
    ("startcol", .int s.startCol)]

end Settings

namespace Document

/-- A document as a JSON object. Settings that are absent are left out. -/
def toJson (d : Document) : Json :=
  .object (("blocks", .array (d.blocks.map fun stack => .array (Node.listToJson stack)))
    :: d.settings.toList.map fun s => ("settings", s.toJson))

end Document

end BlockBoard
