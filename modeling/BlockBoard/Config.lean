import BlockBoard.Corner
import BlockBoard.Disk
import BlockBoard.Run.Speed
import BlockBoard.Text.Blank
import BlockBoard.Text.Quoted
import BlockBoard.Toml.Read

/-!
# Configuration

Options come from files and from the environment. The file of the user comes first, then that of the
folder, then the one named on the command line; an option that a later source sets replaces that of
an earlier one, and the environment comes last. A file that is not valid as a whole sets nothing.
-/

namespace BlockBoard

/-- The options that a source sets. -/
structure Config where
  rows : Option Int := none
  cols : Option Int := none
  start : Option Corner := none
  speed : Option Int := none
  /-- The file that the application writes its log to. -/
  logFile : Option String := none
  exportBase : Option String := none
  projectFile : Option String := none
deriving DecidableEq, Repr

/-- The values of environment variables. -/
abbrev Environment := (name : String) → Option String

namespace Config

/-! ### Effective values -/

/-- The number of rows of a new board. -/
def rowCount (c : Config) : Int := c.rows.getD Board.defaultSize

/-- The number of columns of a new board. -/
def colCount (c : Config) : Int := c.cols.getD Board.defaultSize

/-- The start preset of a new board. -/
def corner (c : Config) : Corner := c.start.getD .topLeft

/-- The number that the speed slider is set to. -/
def speedNumber (c : Config) : Int := c.speed.getD Speed.standard

/-- The name of exported bitmaps, without its ending. -/
def exportName (c : Config) : String := c.exportBase.getD "board"

/-- The project file that is opened when none is named. -/
def projectPath (c : Config) : String := c.projectFile.getD "project.json"

/-- The board that a project starts with. -/
def board (c : Config) : Board :=
  c.corner.apply (Board.ofSize c.rowCount c.colCount)

/-- The reports on setting up the board. -/
def boardRecords (c : Config) : List Record :=
  c.corner.applyRecords (Board.ofSize c.rowCount c.colCount)

/-! ### Files -/

/-- An integer. -/
def intOf? : Toml → Option Int
  | .int n => some n
  | _ => none

/-- A string. -/
def textOf? : Toml → Option String
  | .text s => some s
  | _ => none

/-- A preset: its name, or a table whose only key is the name and whose value there is empty. -/
def cornerOf? : Toml → Option Corner
  | .text name => Corner.ofName? name
  | .table _ [(name, .array [])] | .table _ [(name, .table _ [])] => Corner.ofName? name
  | _ => none

/-- The value of a key, read as an option; the key may be missing. -/
def option? {α : Type} (read : Toml → Option α) (key : String) (ms : Toml.Members) :
    Option (Option α) :=
  match ms.lookup key with
  | none => some none
  | some value => (read value).map some

/-- The options that a document sets, unless the value of an option is not of its type. Keys that
are no options do not matter. -/
def ofMembers? (ms : Toml.Members) : Option Config := do
  return {
    rows := ← option? intOf? "rows" ms
    cols := ← option? intOf? "cols" ms
    start := ← option? cornerOf? "start" ms
    speed := ← option? intOf? "speed" ms
    logFile := ← option? textOf? "log_file" ms
    exportBase := ← option? textOf? "export_basename" ms
    projectFile := ← option? textOf? "project_file" ms }

/-- The options that a text sets. -/
def parse? (text : String) : Option Config := do
  ofMembers? (← Toml.read? text)

/-- The options of a source and of one that replaces them. -/
def merge (earlier later : Config) : Config where
  rows := later.rows.or earlier.rows
  cols := later.cols.or earlier.cols
  start := later.start.or earlier.start
  speed := later.speed.or earlier.speed
  logFile := later.logFile.or earlier.logFile
  exportBase := later.exportBase.or earlier.exportBase
  projectFile := later.projectFile.or earlier.projectFile

/-- The options set by files, the files that were read, and the warnings on the others. -/
structure Loaded where
  config : Config := {}
  /-- The paths of the files that were read. -/
  sources : List String := []
  warnings : List String := []

/-- Reads one more file, if there is one at the path. -/
def Loaded.readFile (d : Disk) (l : Loaded) (path : String) : Loaded :=
  let warn (warning : String) := { l with warnings := l.warnings ++ ["warning: " ++ warning] }
  if d.hasPath path then
    match d.readText path with
    | .error e => warn s!"cannot read {path}: {e.message}"
    | .ok text =>
      match parse? text with
      | none => warn s!"ignoring {path}"
      | some config =>
        { l with config := l.config.merge config, sources := l.sources ++ [path] }
  else l

/-- The configuration file of a folder. -/
def localPath : String := "tily.toml"

/-- The configuration file of the user, in the folder for configuration or else below the home
folder. -/
def userPath? (env : Environment) : Option String :=
  let folder := (env "XDG_CONFIG_HOME").filter (·.startsWith "/")
  let home := ((env "HOME").filter (· ≠ "")).map fun home => pathIn home ".config"
  (folder.or home).map fun folder => pathIn folder "tily/config.toml"

/-- Reads the file of the user, that of the folder, and one that is named. -/
def readFiles (d : Disk) (user named : Option String) : Loaded :=
  (user.toList ++ [localPath] ++ named.toList).foldl (Loaded.readFile d) {}

/-! ### The environment -/

/-- The number that a variable sets, and the warning on a value that is none. Blanks around the
number do not matter. -/
def numberVariable (env : Environment) (name : String) : Option Int × List String :=
  match env name with
  | none => (none, [])
  | some raw =>
    match Word.ofText? (Text.trim raw) with
    | some n => (some n, [])
    | none => (none, [s!"warning: ignoring {name}={Text.quote raw}: not a number"])

/-- The variables that matter. -/
def variableNames : List String :=
  ["TILY_ROWS", "TILY_COLS", "TILY_SPEED", "TILY_LOG", "XDG_CONFIG_HOME", "HOME"]

/-- The options that the environment sets, and the warnings on it. -/
def ofEnvironment (env : Environment) : Config × List String :=
  let (rows, rowWarnings) := numberVariable env "TILY_ROWS"
  let (cols, colWarnings) := numberVariable env "TILY_COLS"
  let (speed, speedWarnings) := numberVariable env "TILY_SPEED"
  ({ rows, cols, speed, logFile := env "TILY_LOG" }, rowWarnings ++ colWarnings ++ speedWarnings)

/-- The configuration from all sources. -/
def load (d : Disk) (user named : Option String) (env : Environment) : Loaded :=
  let files := readFiles d user named
  let (config, warnings) := ofEnvironment env
  { files with config := files.config.merge config, warnings := files.warnings ++ warnings }

/-- The lines of a configuration file that sets the defaults. -/
def sampleLines : List String :=
  ["# tily configuration", "# Place this file at ~/.config/tily/config.toml or ./tily.toml", "",
    "rows = 15", "cols = 15", "start = \"top-left\"", "speed = 50", "# log_file = \"tily.log\"",
    "export_basename = \"board\"", "project_file = \"project.json\""]

/-- A configuration file that sets the defaults. -/
def sample : String :=
  String.join (sampleLines.map (· ++ "\n"))

end Config

end BlockBoard
