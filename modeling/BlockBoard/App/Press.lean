import BlockBoard.App.Drive
import BlockBoard.Board.Bitmap
import BlockBoard.Project.File

/-!
# Handling keys

What the application does with a key while nothing runs, and the loop that takes one key after the
other until it should end. Changes of the board and loading stop the program first.
-/

namespace BlockBoard

/-- What handling a key leaves behind. -/
structure Reaction where
  app : App
  outside : Outside
  records : List Record := []

namespace App

/-- Handles a run or a step. -/
def drive (a : App) (o : Outside) (r : RunResult Watch) : Reaction where
  app := a.afterRun r
  outside := { o with display := r.host.display, arrivals := r.host.arrivals }
  records := r.records

/-- The application with the program stopped. -/
def halt (a : App) : App :=
  { a with machine := a.machine.stop }

/-- The application with another board. -/
def withBoard (a : App) (b : Board) : App :=
  { a with machine := { a.machine with board := b } }

/-- Starts over with an empty program. -/
def reset (a : App) : App :=
  let (machine, workspace) := a.machine.reset a.workspace
  { a with machine, workspace, scroll := 0, status := "Program reset" }

/-- Moves the speed slider. The amounts that keys ask for are small, so the sum is a word. -/
def pace (a : App) (amount : Int) : App :=
  let speed := a.machine.speed.shift amount
  { a with machine := { a.machine with speed }, status := s!"Speed {speed.position}" }

/-- Puts the start at the next preset. -/
def nextCorner (a : App) (o : Outside) : Reaction :=
  let corner := a.corner.next
  let b := a.halt.machine.board
  { app := { a.halt.withBoard (corner.apply b) with corner, status := s!"Start: {corner.label}" }
    outside := o
    records := a.machine.stopRecords ++ corner.applyRecords b }

/-- The board with rows and columns added, and the start at a preset. The sums are those of a build
without overflow checks: a row or column more than the greatest number of them wraps around there,
where a build with the checks fails. -/
def resized (b : Board) (corner : Corner) (rows cols : Int) : Board :=
  corner.apply (b.setGrid (Word.sum b.rows rows) (Word.sum b.cols cols))

/-- The reports on adding rows and columns. -/
def resizedRecords (b : Board) (corner : Corner) (rows cols : Int) : List Record :=
  let (rows, cols) := (Word.sum b.rows rows, Word.sum b.cols cols)
  Board.setGridRecords rows cols ++ corner.applyRecords (b.setGrid rows cols)

/-- Adds rows and columns to the grid. -/
def resize (a : App) (o : Outside) (rows cols : Int) : Reaction :=
  let before := a.halt.machine.board
  let b := resized before a.corner rows cols
  { app := { a.halt.withBoard b with status := s!"Grid {b.rows}×{b.cols}" }
    outside := o
    records := a.machine.stopRecords ++ resizedRecords before a.corner rows cols }

/-- Saves the project. -/
def save (a : App) (o : Outside) : Reaction :=
  let records := Project.saveFileRecords a.projectPath a.workspace
  match Project.saveFile o.disk a.projectPath o.stamp a.workspace a.machine.board with
  | .ok disk => ⟨{ a with status := s!"Saved {a.projectPath}" }, { o with disk }, records true⟩
  | .error e => ⟨{ a with status := s!"Save failed: {e.message}" }, o, records false⟩

/-- The report on a project that cannot be loaded. -/
def loadFailedRecord (path : String) (e : ProjectFileError) : Record :=
  ⟨.warn, .app, s!"load of {path} failed: {e.message}"⟩

/-- The application, whose program is stopped, with a project. -/
def withProject (a : App) (p : Project) : App :=
  { a.withBoard (p.board a.machine.board) with
    workspace := p.workspace
    corner := p.settings.corner
    scroll := 0
    status := s!"Loaded {a.projectPath}" }

/-- Replaces the program and the settings by those of the project file. -/
def load (a : App) (o : Outside) : Reaction :=
  match Project.loadFile o.disk a.projectPath with
  | .ok p => ⟨a.halt.withProject p, o, a.machine.stopRecords ++ p.loadRecords a.halt.machine.board⟩
  | .error e =>
    ⟨{ a.halt with status := s!"Load failed: {e.message}" }, o,
      a.machine.stopRecords ++ [loadFailedRecord a.projectPath e]⟩

/-- The path to which a bitmap is exported. -/
def exportPath (a : App) (m : Bitmap) : String :=
  pathIn a.exportFolder (m.format.fileName a.exportBase)

/-- Writes the board as a bitmap. -/
def exportBitmap (a : App) (o : Outside) : Reaction :=
  let m := a.machine.board.bitmap
  let records := a.machine.board.bitmapRecords
  let path := a.exportPath m
  match o.disk.writeText path m.text with
  | .ok disk =>
    ⟨{ a with status := s!"Exported {path} as {m.format.magic}" }, { o with disk },
      records ++ [m.writtenRecord path]⟩
  | .error e => ⟨{ a with status := s!"Export failed: {e.message}" }, o, records⟩

/-- Does what is asked for. -/
def answer (a : App) (o : Outside) : Request → Reaction
  | .quit => ⟨{ a with quit := true }, o, []⟩
  | .run => a.drive o (a.run o)
  | .step => a.drive o (a.step o)
  | .stop => ⟨{ a.halt with status := Notice.stopped.message }, o, a.machine.stopRecords⟩
  | .reset => ⟨a.reset, o, a.machine.stopRecords⟩
  | .pace amount => ⟨a.pace amount, o, []⟩
  | .nextCorner => a.nextCorner o
  | .resize rows cols => a.resize o rows cols
  | .save => a.save o
  | .load => a.load o
  | .exportBitmap => a.exportBitmap o
  | .scrollUp => ⟨{ a with scroll := a.scroll - 1 }, o, []⟩
  | .scrollDown => ⟨{ a with scroll := a.scroll + 1 }, o, []⟩

/-- Handles a key. -/
def press (a : App) (o : Outside) (key : Key) : Reaction :=
  match key.request? with
  | some request => a.answer o request
  | none => ⟨a, o, []⟩

/-- Shows the screen, scrolled to the line of the running block. -/
def refresh (a : App) (o : Outside) : App × Outside :=
  let a := a.settle o.display.height
  (a, { o with display := a.onto o.display })

/-- Shows the screen and handles the next key, for at most `rounds` rounds, until the application
should end or no key is left. -/
def loop (a : App) (o : Outside) : (rounds : Nat) → Reaction
  | 0 => ⟨a, o, []⟩
  | rounds + 1 =>
    let (a, o) := a.refresh o
    if a.quit then ⟨a, o, []⟩
    else
      match Outside.nextKey? o.arrivals with
      | none => ⟨a, o, []⟩
      | some (key, arrivals) =>
        let r := a.press { o with arrivals } key
        let last := r.app.loop r.outside rounds
        { last with records := r.records ++ last.records }

/-- Handles keys until the application should end. -/
def converse (a : App) (o : Outside) : Reaction :=
  a.loop o (o.keyCount + 1)

end App

end BlockBoard
