import BlockBoard.App.Press
import BlockBoard.Board.Picture
import BlockBoard.Command.Arguments
import BlockBoard.Config

/-!
# Carrying out commands

A command reads and writes files, prints text, and ends with an exit code. It is carried out on a
disk with an environment, and a terminal if there is one; what it leaves behind is a value.
-/

namespace BlockBoard

/-- A terminal. -/
structure Terminal where
  width : Nat := 80
  height : Nat := 24
  /-- The keys that the user presses, in bursts. -/
  arrivals : List (List Key) := []

/-- What a command finds. -/
structure Setting where
  disk : Disk
  /-- The path of the configuration file of the user. -/
  userConfig : Option String
  env : Environment
  /-- Whether log records are written. -/
  logging : Bool
  terminal : Option Terminal
  /-- What the names of saved blocks end in. -/
  stamp : String

/-- What a command leaves behind. -/
structure Ending where
  code : Nat := 0
  output : String := ""
  /-- The lines that are written beside the output. -/
  notes : List String := []
  /-- How many milliseconds the command takes at least. -/
  duration : Nat := 0
  disk : Disk

namespace Ending

/-- Something written in front of the notes of an ending. -/
def after (notes : List String) (e : Ending) : Ending :=
  { e with notes := notes ++ e.notes }

/-- The ending after a failure. -/
def failed (disk : Disk) (message : String) (output : String := "") : Ending :=
  { code := 1, output, notes := ["Error: " ++ message], disk }

end Ending

namespace Setting

variable (s : Setting)

/-- The lines of a log with the given records. -/
def log (records : List Record) : List String :=
  if s.logging then records.map Record.line else []

end Setting

namespace Invocation

variable (i : Invocation)

/-- A board with the dimensions of the command line, if there are any; the start is then put at a
preset. -/
def adjust (b : Board) (corner : Corner) : Board :=
  if i.rows.isSome || i.cols.isSome then
    corner.apply (b.setGrid (i.rows.getD b.rows) (i.cols.getD b.cols))
  else b

/-- The reports on setting the dimensions of the command line. -/
def adjustRecords (b : Board) (corner : Corner) : List Record :=
  if i.rows.isSome || i.cols.isSome then
    let (rows, cols) := (i.rows.getD b.rows, i.cols.getD b.cols)
    Board.setGridRecords rows cols ++ corner.applyRecords (b.setGrid rows cols)
  else []

/-! ### Configuration -/

/-- Prints a configuration file, and notes which ones were read. -/
def showConfig (s : Setting) (sources : List String) : Ending where
  output := Config.sample
  notes :=
    if sources.isEmpty then ["# no config files found, using defaults"]
    else sources.map ("# read " ++ ·)
  disk := s.disk

/-! ### New projects -/

/-- Writes an empty project. -/
def newProject (s : Setting) (c : Config) (file : String) (start : Option Corner) (force : Bool) :
    Ending :=
  if s.disk.hasPath file && !force then
    .failed s.disk s!"{file} already exists (use --force to overwrite)"
  else
    let corner := start.getD c.corner
    let placed := corner.apply c.board
    let b := i.adjust placed corner
    let setup := c.boardRecords ++ corner.applyRecords c.board ++ i.adjustRecords placed corner
    let records (saved : Bool) :=
      s.log (setup ++ Project.saveFileRecords file Workspace.new saved)
    match Project.saveFile s.disk file s.stamp Workspace.new b with
    | .error e => (Ending.failed s.disk e.message).after (records false)
    | .ok disk =>
      { output := s!"created {file} ({b.rows}x{b.cols}, start {corner.label})\n"
        notes := records true
        disk }

/-! ### Runs -/

/-- What a run leaves behind. -/
structure Finish where
  machine : Machine
  outcome : Except RunError RunOutcome
  records : List Record
  waited : Waited := {}

/-- Runs a workspace. Only a run that is paced waits, and gives notices. -/
def finish (r : Machine) (ws : Workspace) (paced : Bool) : Finish :=
  if paced then
    let result := r.run Host.waiting ws {}
    ⟨result.machine, result.outcome, result.records, result.host⟩
  else
    let result := r.run Host.silent ws ()
    ⟨result.machine, result.outcome, result.records, {}⟩

/-- The pictures of the scenes that an observer was shown. -/
def traceText (b : Board) : String :=
  String.join ((b.seen.getD []).reverse.map fun scene => scene.picture ++ "\n\n")

/-- What is printed about a board after a run. -/
def summary (b : Board) : String :=
  b.picture ++ s!"piece at ({b.piece.row}, {b.piece.col}), {b.fills.size} cells colored\n"

/-- Prints a board after a run, and exports it to a bitmap if a name for that is given. -/
def report (s : Setting) (b : Board) (exported : Option String) : Ending :=
  let output := traceText b ++ summary b
  match exported with
  | none => { output, disk := s.disk }
  | some base =>
    let m := b.bitmap
    let path := pathIn "." (m.format.fileName base)
    match s.disk.writeText path m.text with
    | .error e => (Ending.failed s.disk e.inspect output).after (s.log b.bitmapRecords)
    | .ok disk =>
      { output := output ++ s!"wrote {path} ({m.format.magic})\n"
        notes := s.log (b.bitmapRecords ++ [m.writtenRecord path])
        disk }

/-- Runs a project and prints the board. -/
def runProject (s : Setting) (c : Config) (file : String) (trace : Bool) (speed : Option Int)
    (exported : Option (Option String)) : Ending :=
  match Project.loadFile s.disk file with
  | .error e => (Ending.failed s.disk e.message).after (s.log c.boardRecords)
  | .ok p =>
    let corner := p.settings.corner
    let b := i.adjust (p.board c.board) corner
    let r : Machine := {
      board := if trace then b.observe else b
      speed := .ofInt (speed.getD c.speedNumber) }
    let f := finish r p.workspace speed.isSome
    let notes :=
      s.log (c.boardRecords ++ p.loadRecords c.board ++ i.adjustRecords (p.board c.board) corner
          ++ f.records)
        ++ f.waited.notices.map Notice.message
    let rest : Ending := match f.outcome with
      | .error e => .failed s.disk e.message (traceText f.machine.board)
      | .ok _ => report s f.machine.board (exported.map fun base => base.getD c.exportName)
    { rest.after notes with duration := f.waited.milliseconds }

/-! ### The application -/

/-- The application as it is opened. -/
structure Opening where
  app : App
  disk : Disk
  /-- The lines of the log. -/
  log : List String
  notes : List String

/-- The disk with an empty log file, if there is to be one. -/
def prepareLog (s : Setting) (c : Config) : Except FileError Disk :=
  match c.logFile with
  | none => .ok s.disk
  | some path => s.disk.writeText path ""

/-- The application with a workspace and a board that are adjusted. -/
def openWith (c : Config) (path : String) (ws : Workspace) (b : Board) (corner : Corner) : App where
  machine := { board := i.adjust b corner, speed := .ofInt c.speedNumber }
  workspace := ws
  corner
  projectPath := path
  exportBase := c.exportName

/-- Opens the application with the project of a file, or with an empty one if there is no file. -/
def openApp (s : Setting) (c : Config) (file : Option String) : Except Ending Opening := do
  let disk ← (prepareLog s c).mapError fun e => .failed s.disk e.inspect
  let path := file.getD c.projectPath
  if disk.hasPath path then
    let p ← (Project.loadFile disk path).mapError fun e => .failed disk e.message
    let (b, corner) := (p.board c.board, p.settings.corner)
    return {
      app := i.openWith c path p.workspace b corner
      disk
      log := s.log (c.boardRecords ++ p.loadRecords c.board ++ i.adjustRecords b corner)
      notes := [] }
  else
    return {
      app := i.openWith c path Workspace.new c.board c.corner
      disk
      log := s.log (c.boardRecords ++ i.adjustRecords c.board c.corner)
      notes :=
        if file.isSome then [s!"{path} does not exist yet; it will be created on save"] else [] }

/-- The disk with the lines of the log in the log file. -/
def writeLog (c : Config) (lines : List String) (disk : Disk) : Disk :=
  match c.logFile with
  | none => disk
  | some path =>
    if lines.isEmpty then disk
    else (disk.writeText path (String.join (lines.map (· ++ "\n")))).toOption.getD disk

/-- The failure of the application where there is no terminal. -/
def noTerminal : String :=
  "Os \x7b code: 6, kind: Uncategorized, message: \"No such device or address\" \x7d"

/-- Opens the application and handles keys until it should end. -/
def playProject (s : Setting) (c : Config) (file : Option String) : Ending :=
  match i.openApp s c file with
  | .error e => e
  | .ok opening =>
    match s.terminal with
    | none => (Ending.failed (writeLog c opening.log opening.disk) noTerminal).after opening.notes
    | some t =>
      let o : Outside := {
        display := .blank t.width t.height
        arrivals := t.arrivals
        disk := opening.disk
        stamp := s.stamp }
      let r := opening.app.converse o
      { notes := opening.notes
        disk := writeLog c (opening.log ++ s.log r.records) r.outside.disk }

/-! ### All commands -/

/-- Carries out a command. -/
def perform (s : Setting) (l : Config.Loaded) : Command → Ending
  | .play file => i.playProject s l.config file
  | .run file trace speed exported => i.runProject s l.config file trace speed exported
  | .new file start force => i.newProject s l.config file start force
  | .config => showConfig s l.sources

/-- The configuration of an invocation. -/
def configure (s : Setting) : Config.Loaded :=
  Config.load s.disk s.userConfig i.config s.env

/-- The files that decide the configuration. -/
def configPaths (userConfig : Option String) : List String :=
  userConfig.toList ++ [Config.localPath] ++ i.config.toList

/-- The files that a bitmap may be exported to. -/
def bitmapPaths (base : String) : List String :=
  [BitmapFormat.bits, .grays, .colors].map fun format => pathIn "." (format.fileName base)

/-- The files that the command may read or write apart from those that decide the configuration. -/
def paths (c : Config) : List String :=
  match i.command with
  | .play file => file.getD c.projectPath :: c.logFile.toList ++ bitmapPaths c.exportName
  | .run file _ _ exported =>
    file :: (exported.toList.flatMap fun base => bitmapPaths (base.getD c.exportName))
  | .new file _ _ => [file]
  | .config => []

/-- Reads the configuration and carries out the command. -/
def execute (s : Setting) : Ending :=
  let l := i.configure s
  (i.perform s l i.command).after l.warnings

end Invocation

namespace Stop

/-- The version of the program. -/
def versionLine : String := "tily 0.1.0\n"

/-- A summary of the command line. -/
def usage : List String :=
  ["Block programs on a tiled board", "",
    "Usage: tily [--config PATH] [--rows N] [--cols N] [COMMAND]", "",
    "Commands:",
    "  play [FILE]                                           open the board (default)",
    "  run FILE [--trace] [--speed N] [--export [BASENAME]]  run a project",
    "  new FILE [--start CORNER] [--force]                   write an empty project",
    "  config                                                print a sample config"]

/-- The ending of a command line that asks for no command. -/
def ending (disk : Disk) : Stop → Ending
  | misuse => { code := 2, notes := usage, disk }
  | help => { output := String.join (usage.map (· ++ "\n")), disk }
  | version => { output := versionLine, disk }

end Stop

/-- Carries out the command that the words of the command line ask for. -/
def execute (words : List String) (s : Setting) : Ending :=
  match Invocation.parse words with
  | .ok i => i.execute s
  | .error stop => stop.ending s.disk

end BlockBoard
