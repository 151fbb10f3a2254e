import BlockBoard.Pane.Outline
import BlockBoard.Screen.Canvas

/-!
# The program pane

The outline of the program in a frame. It is scrolled so that the line of the running block is
visible, and not further than its last line.
-/

namespace BlockBoard

namespace ProgramPane

/-- The number of lines that a pane of the given height shows. -/
def visibleLines (height : Nat) : Nat :=
  max (height - 2) 1

/-- The scroll offset moved so that a line is visible. -/
def follow (scroll visible : Nat) : (current : Option Nat) → Nat
  | none => scroll
  | some line =>
    if line < scroll then line
    else if scroll + visible ≤ line then line + 1 - visible
    else scroll

/-- The scroll offset at which a pane of the given height shows a workspace. -/
def scrollOffset (ws : Workspace) (highlighted : Option BlockId) (height scroll : Nat) : Nat :=
  let lines := ws.outline.length
  if lines = 0 then scroll
  else
    let visible := visibleLines height
    min (follow scroll visible (ws.currentLine? highlighted)) (lines - visible)

/-- The number of the first line that is drawn for a scroll offset. Offsets are drawn as 16-bit
numbers. -/
def firstLine (offset : Nat) : Nat :=
  offset % 0x10000

/-- The style of the frame. -/
def frameStyle (running : Bool) : Style :=
  if running then { fg := some Theme.focusedBorder, bold := true }
  else { fg := some Theme.border }

/-- Draws the pane at a scroll offset. -/
def draw (c : Canvas) (a : Area) (ws : Workspace) (highlighted : Option BlockId) (running : Bool)
    (offset : Nat) : Canvas :=
  let title := Line.plain s!" Program ({ws.size} blocks) "
  match ws.outlineLines highlighted with
  | [] =>
    let style : Style := { fg := some Theme.comment }
    ((c.paint a style).frame a (frameStyle running) title ⟨[], {}⟩).paragraph a.inner style .left 0
      [Line.plain "(no blocks)"]
  | lines =>
    (c.frame a (frameStyle running) title ⟨[], {}⟩).paragraph a.inner {} .left (firstLine offset)
      lines

end ProgramPane

end BlockBoard
