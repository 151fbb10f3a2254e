import BlockBoard.App.Request
import BlockBoard.Corner
import BlockBoard.Disk
import BlockBoard.Pane.Board
import BlockBoard.Pane.Program
import BlockBoard.Pane.Status
import BlockBoard.Run.Machine
import BlockBoard.Screen.Display

/-!
# The application

A machine and a workspace on a screen: the program pane on the left, the board pane on the right,
the status bar below.
-/

namespace BlockBoard

/-- The state of the application. -/
structure App where
  machine : Machine
  workspace : Workspace
  /-- The message in the status bar. -/
  status : String := "Ready!"
  /-- Whether the application should end. -/
  quit : Bool := false
  /-- How far the program pane is scrolled. -/
  scroll : Nat := 0
  /-- The start preset, which is put in place again when the grid changes. -/
  corner : Corner
  /-- The file that projects are saved to and loaded from. -/
  projectPath : String := "project.json"
  exportFolder : String := "."
  /-- The name of exported bitmaps, without its ending. -/
  exportBase : String := "board"

/-- What is outside of the application. -/
structure Outside where
  /-- What the user looks at. -/
  display : Display
  /-- The keys that the user presses, in bursts. A burst is what arrives during one pause of a run;
  the first one arrives during the next pause. -/
  arrivals : List (List Key) := []
  disk : Disk := {}
  /-- What the names of saved blocks end in. -/
  stamp : String

namespace Outside

/-- The next key and what comes after it. -/
def nextKey? : (arrivals : List (List Key)) → Option (Key × List (List Key))
  | [] => none
  | [] :: later => nextKey? later
  | (key :: keys) :: later => some (key, keys :: later)

/-- The number of keys that are still to come. -/
def keyCount (o : Outside) : Nat :=
  o.arrivals.flatten.length

end Outside

namespace App

/-- The areas of the program pane, the board pane and the status bar. -/
def areas (a : Area) : Area × Area × Area :=
  let height := a.height - 1
  let width := (a.width * 35 + 50) / 100
  ({ a with width, height }, { a with x := a.x + width, width := a.width - width, height },
    { a with y := a.y + height, height := a.height - height })

/-- The height of the program pane on a screen of the given height. -/
def paneHeight (height : Nat) : Nat :=
  height - 1

/-- The application with the scroll offset at which a screen of the given height shows it. -/
def settle (a : App) (height : Nat) : App :=
  { a with
    scroll :=
      ProgramPane.scrollOffset a.workspace a.machine.highlighted (paneHeight height) a.scroll }

/-- The screen of an application, whose scroll offset is drawn as it is. -/
def draw (a : App) (width height : Nat) : Canvas :=
  let c := Canvas.blank width height
  let (program, board, bar) := areas c.area
  let r := a.machine
  let c := ProgramPane.draw c program a.workspace r.highlighted (r.state = .running) a.scroll
  let c := BoardPane.draw c board r.board.toScene a.corner.label r.queue.length
  StatusBar.draw c bar a.status r.state r.executed r.speed.position

/-- A display after it has shown the application. -/
def onto (a : App) (d : Display) : Display :=
  d.present (a.draw d.width d.height)

end App

end BlockBoard
