import BlockBoard.Program.Workspace
import BlockBoard.Project.Document

/-!
# Building a workspace from a document

The nodes of a document become blocks under their own names, in depth first order. The first block
of a stack is put at the top level; the first block of a body is attached to its parent, and every
other block follows the one before it in its list. The first node that cannot be placed refuses the
document. A start block is added at the end if the document has none.
-/

namespace BlockBoard

namespace Node

/-- The type of the block, with its fields. -/
def kind : Node → Kind
  | start _ _ => .start
  | move _ direction => .move direction
  | fill _ color => .fill color
  | repetition _ times _ => .repetition times

end Node

/-- Where a block is attached. -/
inductive Place where
  | topLevel
  /-- At the end of the body of a block. -/
  | inside (parent : BlockId)
  /-- Behind a block in its list. -/
  | after (previous : BlockId)
deriving DecidableEq, Repr

namespace Workspace

/-- Adds a block under a given name and attaches it. -/
def insertAt (ws : Workspace) (place : Place) (id : BlockId) (kind : Kind) :
    Except EditError Workspace := do
  let ws ← ws.insert id kind
  match place with
  | .topLevel => return ws
  | .inside parent => ws.append parent id
  | .after previous => ws.setNext previous id

mutual

/-- Adds the block of a node, and then the nodes of its body. -/
def addNode (ws : Workspace) (place : Place) : Node → Except EditError Workspace
  | .start id body => do (← ws.insertAt place id .start).addList (.inside id) body
  | .move id direction => ws.insertAt place id (.move direction)
  | .fill id color => ws.insertAt place id (.fill color)
  | .repetition id times body => do
    (← ws.insertAt place id (.repetition times)).addList (.inside id) body

/-- Adds a list of nodes. The first is attached at a place, and each of the others behind the one
before it. -/
def addList (ws : Workspace) (place : Place) : List Node → Except EditError Workspace
  | [] => return ws
  | node :: nodes => do (← ws.addNode place node).addList (.after node.id) nodes

end

/-- Adds stacks at the top level. -/
def addStacks (ws : Workspace) : List (List Node) → Except EditError Workspace
  | [] => return ws
  | stack :: rest => do (← ws.addList .topLevel stack).addStacks rest

end Workspace

namespace Document

/-- The workspace that a document describes. -/
def build (d : Document) : Except EditError Workspace := do
  return (← Workspace.empty.addStacks d.blocks).ensureStart.1

end Document

end BlockBoard
