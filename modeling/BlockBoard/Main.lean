import BlockBoard.Command.Execute
import Std.Time.DateTime.Timestamp

/-!
# The program

The outer layer: looks at the files that a command may touch, carries it out, and writes what it
leaves behind. The application takes its keys from the lines of the standard input and shows the
screen after each line.
-/

namespace BlockBoard

namespace Shell

/-- Whether there is a folder at a path. -/
def isFolder (path : String) : IO Bool := do
  ((← IO.currentDir) / path).isDir

/-- What the file at a path holds, if it can be read. -/
def contentsOf? (path : String) : IO (Option Contents) :=
  try
    let bytes ← IO.FS.readBinFile path
    return some (match String.fromUTF8? bytes with
      | some text => .text text
      | none => .binary)
  catch _ => return none

/-- Adds the file at a path and the folders on the way to a disk. -/
def look (d : Disk) (path : String) : IO Disk := do
  let names := path.splitOn "/"
  let mut d := d
  for n in [1:names.length + 1] do
    let front := "/".intercalate (names.take n)
    if ← isFolder (if front = "" then "/" else front) then
      if let .ok place := d.followFrom (names.take n) then
        d := { d with folders := place :: d.folders }
  if let some contents ← contentsOf? path then
    if let .ok place := d.followFrom names then
      d := d.put place contents
  return d

/-- Writes the files that are new or changed. -/
def store (before after : Disk) : IO Unit := do
  for (place, contents) in after.files do
    if before.file? place ≠ some contents then
      if let .text text := contents then
        let path := match place with
          | [] => ""
          | name :: names =>
            if name = Disk.root then "/" ++ "/".intercalate names else "/".intercalate place
        IO.FS.writeFile path text

/-- Writes the lines that stand beside the output. -/
def printNotes (notes : List String) : IO Unit :=
  for note in notes do IO.eprintln note

/-- What a saved block's name ends in: the time in milliseconds. -/
def stampNow : IO String := do
  return toString (← Std.Time.Timestamp.now).toMillisecondsSinceUnixEpoch.val

/-- Prints what a display shows. -/
def printDisplay (d : Display) : IO Unit :=
  for line in d.shown.text do IO.println line

/-- Opens the application and handles lines of keys until it should end. -/
def playLines (i : Invocation) (s : Setting) (c : Config) (file : Option String) : IO UInt32 := do
  match i.openApp s c file with
  | .error e =>
    store s.disk e.disk
    printNotes e.notes
    return e.code.toUInt32
  | .ok opening =>
    store s.disk opening.disk
    printNotes opening.notes
    let terminal : Terminal := {}
    let input ← IO.getStdin
    let mut a := opening.app
    let mut display := Display.blank terminal.width terminal.height
    let mut log := opening.log
    let mut ended := false
    while !ended do
      a := a.settle display.height
      display := a.onto display
      printDisplay display
      let line ← input.getLine
      let keys := Key.ofChars (line.toList.filter (· ≠ '\n'))
      let disk ← (i.paths c).foldlM look {}
      let r := a.converse {
        display
        arrivals := [keys]
        disk
        stamp := ← stampNow }
      store disk r.outside.disk
      a := r.app
      display := r.outside.display
      log := log ++ s.log r.records
      ended := line.isEmpty || a.quit
    let disk ← c.logFile.toList.foldlM look {}
    store disk (Invocation.writeLog c log disk)
    return 0

/-- Carries out the command that the words of the command line ask for. -/
def carryOut (words : List String) : IO UInt32 := do
  let values ← Config.variableNames.mapM fun name => return (name, ← IO.getEnv name)
  let env : Environment := fun name => (values.lookup name).join
  let userConfig := Config.userPath? env
  let setting (disk : Disk) (stamp : String) : Setting :=
    { disk, userConfig, env, logging := true, terminal := none, stamp }
  match Invocation.parse words with
  | .error stop =>
    let e := stop.ending {}
    IO.print e.output
    printNotes e.notes
    return e.code.toUInt32
  | .ok i =>
    let disk ← (i.configPaths userConfig).foldlM look {}
    let l := i.configure (setting disk "")
    let disk ← (i.paths l.config).foldlM look disk
    let s := setting disk (← stampNow)
    match i.command with
    | .play file =>
      printNotes l.warnings
      playLines i s l.config file
    | _ =>
      let e := i.execute s
      IO.sleep e.duration.toUInt32
      IO.print e.output
      store disk e.disk
      printNotes e.notes
      return e.code.toUInt32

end Shell

end BlockBoard

/-- Carries out the command that the words of the command line ask for. -/
def main (words : List String) : IO UInt32 :=
  BlockBoard.Shell.carryOut words
