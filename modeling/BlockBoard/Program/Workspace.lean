import BlockBoard.Program.Block
import Std.Data.HashMap

/-!
# The workspace

A workspace stores blocks by name and lists the top-level ones, those that are nobody's body and
follow nobody, in the order in which they were added. An edit that would give a block a second
parent, attach a block to itself, or put a start block anywhere but at the top level is refused, and
a refused edit changes nothing but the counter of generated names.
-/

namespace BlockBoard

/-- Blocks by name, the names of the top-level blocks in order, and the number that the next
generated name is tried with. -/
structure Workspace where
  blocks : Std.HashMap BlockId Block := ∅
  top : List BlockId := []
  nextNumber : Nat := 0

namespace Workspace

/-- A workspace without blocks. -/
def empty : Workspace := {}

/-- The number of blocks. -/
def size (ws : Workspace) : Nat :=
  ws.blocks.size

/-- The block of a name. -/
def get? (ws : Workspace) (id : BlockId) : Option Block :=
  ws.blocks[id]?

/-- The block of a name, or the refusal of an edit that names it. -/
def find (ws : Workspace) (id : BlockId) : Except EditError Block :=
  match ws.get? id with
  | some block => .ok block
  | none => .error (.unknownBlock id)

/-! ### Walks -/

/-- At most `n` blocks of a list, from a given one on along the links to the next. -/
def walk (ws : Workspace) : Nat → Option BlockId → List Block
  | 0, _ => []
  | _ + 1, none => []
  | n + 1, some id =>
    match ws.get? id with
    | none => []
    | some block => block :: ws.walk n block.next

/-- The blocks of a list from a given one on. It ends after as many blocks as the workspace holds,
so that it ends even where the links run in a circle. -/
def chain (ws : Workspace) (first : Option BlockId) : List Block :=
  ws.walk ws.size first

/-- The top-level blocks in order. -/
def topBlocks (ws : Workspace) : List Block :=
  ws.top.filterMap ws.get?

/-- The first start block of the top level. -/
def start? (ws : Workspace) : Option Block :=
  ws.topBlocks.find? fun block => block.kind = .start

/-! ### Adding blocks -/

/-- The generated name of a number. -/
def generated (n : Nat) : BlockId :=
  "blk" ++ toString n

/-- The first number from `n` on whose generated name is free, if one of the first `tries` is. -/
def freeNumber (ws : Workspace) : (tries : Nat) → (n : Nat) → Nat
  | 0, n => n
  | tries + 1, n => if ws.blocks.contains (generated n) then ws.freeNumber tries (n + 1) else n

/-- The number of the next generated name. There are at most as many taken names to pass over as
there are blocks. -/
def freshNumber (ws : Workspace) : Nat :=
  ws.freeNumber ws.size ws.nextNumber

/-- The next generated name. -/
def freshId (ws : Workspace) : BlockId :=
  generated ws.freshNumber

/-- The workspace after a generated name was used up. -/
def useFreshId (ws : Workspace) : Workspace :=
  { ws with nextNumber := ws.freshNumber + 1 }

/-- Stores a block under its name and puts it at the end of the top level. -/
def place (ws : Workspace) (block : Block) : Workspace :=
  { ws with blocks := ws.blocks.insert block.id block, top := ws.top ++ [block.id] }

/-- Adds a block at the top level under a generated name. -/
def add (ws : Workspace) (kind : Kind) : Workspace × BlockId :=
  (ws.useFreshId.place { id := ws.freshId, kind }, ws.freshId)

/-- Adds a block at the top level under a given name. -/
def insert (ws : Workspace) (id : BlockId) (kind : Kind) : Except EditError Workspace :=
  if ws.blocks.contains id then .error (.duplicateId id)
  else .ok (ws.place { id, kind })

/-- The start block, which is added if there is none. -/
def ensureStart (ws : Workspace) : Workspace × BlockId :=
  match ws.start? with
  | some block => (ws, block.id)
  | none => ws.add .start

/-- A workspace with one start block. -/
def new : Workspace :=
  empty.ensureStart.1

/-- Removes every block. Generated names are not used again. -/
def clear (ws : Workspace) : Workspace :=
  { nextNumber := ws.nextNumber }

/-! ### Linking blocks -/

/-- Whether a block may be attached to another: it is a different block, no start block, and not
attached yet. -/
def checkAttachable (ws : Workspace) (anchor child : BlockId) : Except EditError Unit := do
  if anchor = child then throw (.selfAttachment child)
  let block ← ws.find child
  if block.kind = .start then throw (.startNotAttachable child)
  if child ∉ ws.top then throw (.alreadyAttached child)

/-- Changes the block of a name. -/
def modify (ws : Workspace) (id : BlockId) (f : Block → Block) : Workspace :=
  { ws with blocks := ws.blocks.modify id f }

/-- Takes a block off the top level. -/
def detach (ws : Workspace) (id : BlockId) : Workspace :=
  { ws with top := ws.top.filter (· ≠ id) }

/-- The last block of the list that starts with a given one. -/
def lastOf (ws : Workspace) (first : BlockId) : BlockId :=
  ((ws.chain (some first)).getLast?.map Block.id).getD first

/-- Puts a block at the end of a parent's body. -/
def linkLast (ws : Workspace) (parent : Block) (child : BlockId) : Workspace :=
  let linked := match parent.body with
    | none => ws.modify parent.id fun block => { block with body := some child }
    | some first => ws.modify (ws.lastOf first) fun block => { block with next := some child }
  linked.detach child

/-- Puts a block that is not attached yet at the end of the body of another. -/
@[inline] def append (ws : Workspace) (parent child : BlockId) : Except EditError Workspace := do
  let block ← ws.find parent
  if !block.kind.hasBody then throw (.noBody parent block.kind)
  ws.checkAttachable parent child
  return ws.linkLast block child

/-- Lets a block that is not attached yet follow another, which has no successor yet. -/
def setNext (ws : Workspace) (anchor next : BlockId) : Except EditError Workspace := do
  let block ← ws.find anchor
  if block.next.isSome then throw (.successorTaken anchor)
  ws.checkAttachable anchor next
  return (ws.modify anchor fun block => { block with next := some next }).detach next

/-- Takes a block out again. -/
def remove (ws : Workspace) (id : BlockId) : Workspace :=
  { ws with blocks := ws.blocks.erase id }.detach id

/-- Adds a block under a generated name at the end of the body of another. A block that is refused
there is taken out again, but its name stays used up. -/
def push (ws : Workspace) (parent : BlockId) (kind : Kind) :
    Workspace × Except EditError BlockId :=
  match ws.find parent with
  | .error e => (ws, .error e)
  | .ok _ =>
    let (added, id) := ws.add kind
    match added.append parent id with
    | .error e => (added.remove id, .error e)
    | .ok linked => (linked, .ok id)

end Workspace

end BlockBoard
