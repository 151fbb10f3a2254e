import BlockBoard.Program.Workspace

/-!
# Programs as trees

A list of blocks with their bodies, read off a workspace as a list of trees. Bodies are followed for
a given number of levels; where one lies deeper the tree says that it was cut. What is compiled,
saved and shown of a workspace are functions of these trees.
-/

namespace BlockBoard

/-- A block with the trees of its body. If the body lies too deep there are none, and `cut` is
true. -/
inductive Tree where
  | node (block : Block) (cut : Bool) (body : List Tree)
deriving Repr

namespace Tree

/-- The block at the root. -/
def block : Tree → Block
  | node block _ _ => block

/-- Whether the body of the root was left out. -/
def cut : Tree → Bool
  | node _ cut _ => cut

/-- The trees of the body of the root. -/
def body : Tree → List Tree
  | node _ _ body => body

end Tree

/-- The number of levels of bodies that are compiled, saved and shown. -/
def maxDepth : Nat := 64

namespace Workspace

/-- The list of blocks from a given one on, each with its body, followed for a number of levels. -/
def forest (ws : Workspace) : (levels : Nat) → (first : Option BlockId) → List Tree
  | 0, first => (ws.chain first).map fun block => .node block block.body.isSome []
  | levels + 1, first =>
    (ws.chain first).map fun block => .node block false (ws.forest levels block.body)

/-- The stacks of the top level: each top-level block with those that follow it. -/
def stackTrees (ws : Workspace) : List (List Tree) :=
  ws.topBlocks.map fun block => ws.forest maxDepth (some block.id)

end Workspace

end BlockBoard
