import BlockBoard.Disk
import BlockBoard.Project.Load
import BlockBoard.Project.Save

/-!
# Project files

A project is loaded from a file, and a workspace is saved to one. Loading gives a project or an
error, and changes nothing by itself.
-/

namespace BlockBoard

/-- Why a project file cannot be loaded or saved. -/
inductive ProjectFileError where
  | unreachable (path : String) (cause : FileError)
  | unloadable (cause : LoadError)
deriving DecidableEq, Repr

/-- The report on a project file that cannot be loaded or saved. -/
def ProjectFileError.message : ProjectFileError → String
  | unreachable path cause => s!"Cannot access '{path}': {cause.message}"
  | unloadable cause => cause.message

namespace Project

/-- The project in the file at a path. -/
def loadFile (d : Disk) (path : String) : Except ProjectFileError Project := do
  let text ← (d.readText path).mapError (.unreachable path)
  (load text).mapError .unloadable

/-- Saves a workspace and the settings of a board to the file at a path. -/
def saveFile (d : Disk) (path stamp : String) (ws : Workspace) (b : Board) :
    Except ProjectFileError Disk :=
  (d.writeText path (Document.save stamp ws b)).mapError (.unreachable path)

/-- The reports on saving to the file at a path, of which the last is left out if the file cannot be
written. -/
def saveFileRecords (path : String) (ws : Workspace) (saved : Bool) : List Record :=
  Document.saveRecords ws ++ if saved then [Document.savedRecord path] else []

end Project

end BlockBoard
