import BlockBoard.Program.Forest
import BlockBoard.Project.Document
import BlockBoard.Record

/-!
# Saving a workspace

The stacks of a workspace as a document, with the settings of a board. The blocks get new names,
which are numbered in depth first order, a block before its body, and end in a stamp, so that files
saved at different times do not share names. Bodies that lie too deep are left out, and reported.
-/

namespace BlockBoard

/-- The name that a save gives to a block. -/
def savedName (stamp : String) (n : Nat) : String :=
  s!"b{n}_{stamp}"

mutual

/-- The node of a tree, whose number is `n`, and the number of the next node. -/
def Tree.toNode (stamp : String) (n : Nat) : Tree → Node × Nat
  | .node block _ body =>
    match block.kind with
    | .start =>
      let (nodes, next) := listToNodes stamp (n + 1) body
      (.start (savedName stamp n) nodes, next)
    | .move direction => (.move (savedName stamp n) direction, n + 1)
    | .fill color => (.fill (savedName stamp n) color, n + 1)
    | .repetition times =>
      let (nodes, next) := listToNodes stamp (n + 1) body
      (.repetition (savedName stamp n) times nodes, next)

/-- The nodes of trees, the first of which has the number `n`, and the number of the next node. -/
def listToNodes (stamp : String) (n : Nat) : List Tree → List Node × Nat
  | [] => ([], n)
  | tree :: trees =>
    let (node, next) := tree.toNode stamp n
    let (nodes, last) := listToNodes stamp next trees
    (node :: nodes, last)

end

/-- The stacks of nodes of stacks of trees, the first of which has the number `n`. -/
def stacksToNodes (stamp : String) (n : Nat) : List (List Tree) → List (List Node)
  | [] => []
  | stack :: rest =>
    let (nodes, next) := listToNodes stamp n stack
    nodes :: stacksToNodes stamp next rest

mutual

/-- The blocks of a tree whose bodies were left out, in depth first order. -/
def Tree.cutIds : Tree → List BlockId
  | .node block cut body => (if cut then [block.id] else []) ++ listCutIds body

/-- The blocks of trees whose bodies were left out, in depth first order. -/
def listCutIds : List Tree → List BlockId
  | [] => []
  | tree :: trees => tree.cutIds ++ listCutIds trees

end

namespace Document

/-- The document of a workspace and a board. -/
def ofWorkspace (stamp : String) (ws : Workspace) (b : Board) : Document where
  blocks := stacksToNodes stamp 0 ws.stackTrees
  settings := some (Settings.ofBoard b)

/-- The text of a project file. -/
def save (stamp : String) (ws : Workspace) (b : Board) : String :=
  (ofWorkspace stamp ws b).toJson.pretty

/-- The reports on saving a workspace: one for each body that was left out. -/
def saveRecords (ws : Workspace) : List Record :=
  (ws.stackTrees.flatMap listCutIds).map fun id =>
    ⟨.warn, .project, s!"not saving blocks nested below '{id}'"⟩

/-- The report on a project that was written to a file. -/
def savedRecord (path : String) : Record :=
  ⟨.info, .project, s!"saved project to {path}"⟩

end Document

end BlockBoard
