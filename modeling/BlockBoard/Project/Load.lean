import BlockBoard.Project.Build
import BlockBoard.Project.Read
import BlockBoard.Record

/-!
# Loading a project

A text replaces the workspace and the settings of the board, all at once or not at all.
-/

namespace BlockBoard

/-- Why a text cannot be loaded. -/
inductive LoadError where
  /-- It is no project document. -/
  | unreadable (fault : Json.Fault)
  /-- Its blocks cannot be placed. -/
  | misplaced (cause : EditError)
deriving DecidableEq, Repr

/-- The report on a text that cannot be loaded. -/
def LoadError.message : LoadError → String
  | unreadable _ => "Cannot parse project file"
  | misplaced cause => "Invalid block structure: " ++ cause.message

/-- What a project file holds when it can be loaded. -/
structure Project where
  workspace : Workspace
  /-- The settings of the file, or the defaults if it has none. -/
  settings : Settings

namespace Project

/-- The project that a text holds. -/
def load (text : String) : Except LoadError Project := do
  let document ← (Document.parse text).mapError .unreadable
  let workspace ← document.build.mapError .misplaced
  return ⟨workspace, document.settings.getD {}⟩

/-- A text is parsed and built, and both can fail. -/
theorem load_eq (text : String) :
    load text =
      match Document.parse text with
      | .error fault => .error (.unreadable fault)
      | .ok d =>
        match d.build with
        | .error cause => .error (.misplaced cause)
        | .ok ws => .ok ⟨ws, d.settings.getD {}⟩ := by
  unfold load
  cases Document.parse text with
  | error fault => rfl
  | ok d =>
    show (d.build.mapError LoadError.misplaced >>= fun ws =>
      pure (⟨ws, d.settings.getD {}⟩ : Project)) = _
    dsimp only
    cases d.build <;> rfl

/-- The board with the settings of the project. -/
def board (p : Project) (b : Board) : Board :=
  p.settings.apply b

/-- The reports on replacing a workspace and the settings of a board by the project. -/
def loadRecords (p : Project) (b : Board) : List Record :=
  p.settings.applyRecords b
    ++ [⟨.info, .project,
      s!"loaded {p.workspace.size} blocks on a {(p.board b).rows}x{(p.board b).cols} board"⟩]

/-- What an attempt to load a text leaves. -/
structure Attempt where
  workspace : Workspace
  board : Board
  /-- The settings that were applied, or why there are none. -/
  result : Except LoadError Settings
  records : List Record

/-- Replaces a workspace and the settings of a board by what a text holds, if it can be loaded. -/
def loadInto (text : String) (ws : Workspace) (b : Board) : Attempt :=
  match load text with
  | .ok p => ⟨p.workspace, p.board b, .ok p.settings, p.loadRecords b⟩
  | .error e => ⟨ws, b, .error e, []⟩

end Project

end BlockBoard
