import BlockBoard.Pane.Theme
import BlockBoard.Program.Compile

/-!
# The outline of a program

Every block has a line, indented by the depth of its body. First come the start block and the blocks
that follow it; the other stacks follow under a separator, dimmed since they never run. The line of
the running block has an arrow and a background of its own.
-/

namespace BlockBoard

/-- What a line of the outline is about. -/
inductive OutlineRow where
  /-- The line above the stacks that never run. -/
  | separator
  | block (depth : Nat) (detached : Bool) (block : Block)
deriving Repr

mutual

/-- The rows of a tree: its root, and its body one level deeper. -/
def Tree.outline (detached : Bool) (depth : Nat) : Tree → List OutlineRow
  | .node block _ body => .block depth detached block :: listOutline detached (depth + 1) body

/-- The rows of a list of trees. -/
def listOutline (detached : Bool) (depth : Nat) : List Tree → List OutlineRow
  | [] => []
  | tree :: trees => tree.outline detached depth ++ listOutline detached depth trees

end

namespace Workspace

/-- The rows of a top-level block, with those that follow it. -/
def stackOutline (ws : Workspace) (detached : Bool) (first : BlockId) : List OutlineRow :=
  listOutline detached 0 (ws.forest maxDepth (some first))

/-- The top-level blocks apart from the start block of the program. -/
def others (ws : Workspace) : List Block :=
  ws.topBlocks.filter fun block => some block.id ≠ ws.start?.map Block.id

/-- The rows of the outline. -/
def outline (ws : Workspace) : List OutlineRow :=
  let attached := match ws.start? with
    | some start => ws.stackOutline false start.id
    | none => []
  match ws.others with
  | [] => attached
  | others =>
    attached ++ .separator :: others.flatMap fun block => ws.stackOutline true block.id

end Workspace

namespace Kind

/-- A keyword in its color. -/
def keyword (text : String) (color : Tint) : Span :=
  ⟨text, { fg := some color, bold := true }⟩

/-- The spans that show a direction field. -/
def directionSpan (field : String) : Span :=
  match Direction.ofText? field with
  | some d => ⟨s!" {d.arrow} {d.name}", { fg := some Theme.text }⟩
  | none => ⟨s!" ? {field}", { fg := some Theme.error }⟩

/-- The color that a fill block with the given field puts on the board. -/
def paintedColor (field : String) : String :=
  if Text.trim field = "" then Color.defaultFill else Color.normalize field

/-- A sample of a color; it is hollow if the color cannot be decoded. -/
def swatch (color : String) : Span :=
  match Color.toRgb? color with
  | some rgb => ⟨" ■", { fg := some (.rgb rgb) }⟩
  | none => ⟨" □", {}⟩

/-- The spans that show a block of this kind. -/
def spans : Kind → List Span
  | start => [keyword "when run" Theme.startBlock]
  | move direction => [keyword "move" Theme.moveBlock, directionSpan direction]
  | fill color =>
    [keyword "fill" Theme.fillBlock, swatch (paintedColor color),
      ⟨s!" {paintedColor color}", { fg := some Theme.text }⟩]
  | repetition times =>
    [keyword "repeat" Theme.repeatBlock, ⟨s!" {times} times", { fg := some Theme.text }⟩]

end Kind

namespace OutlineRow

/-- Whether the row is that of the given block. -/
def isBlock (id : Option BlockId) : OutlineRow → Bool
  | separator => false
  | block _ _ b => some b.id = id

/-- What a row shows when the given block is running. -/
def line (highlighted : Option BlockId) : OutlineRow → Line
  | separator => ⟨[⟨"── not connected ──", { fg := some Theme.comment }⟩], {}⟩
  | block depth detached b =>
    let current : Bool := some b.id = highlighted
    { spans :=
        ⟨if current then "▸ " else "  ", { fg := some Theme.secondary }⟩
          :: ⟨"".pushn ' ' (2 * depth), {}⟩ :: b.kind.spans
      style :=
        if current then { bg := some Theme.currentLine, bold := true }
        else if detached then { dim := true }
        else {} }

end OutlineRow

namespace Workspace

/-- The lines of the outline. -/
def outlineLines (ws : Workspace) (highlighted : Option BlockId) : List Line :=
  ws.outline.map (OutlineRow.line highlighted)

/-- The index of the line of the running block. -/
def currentLine? (ws : Workspace) (highlighted : Option BlockId) : Option Nat :=
  ws.outline.findIdx? (OutlineRow.isBlock highlighted)

end Workspace

end BlockBoard
