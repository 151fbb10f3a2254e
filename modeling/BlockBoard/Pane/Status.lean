import BlockBoard.Pane.Theme
import BlockBoard.Run.Host
import BlockBoard.Screen.Canvas

/-!
# The status bar

One row: the state of the machine, the number of executed steps and a message on the left; on the
right the keys that do something now, and the speed.
-/

namespace BlockBoard

namespace StatusBar

/-- The keys that do something while nothing runs. -/
def idleKeys : List (String × String) :=
  [(" r ", " run "), (" s/→ ", " step "), (" n ", " reset "), (" +/- ", " speed "),
    (" c ", " start "), (" []\x7b\x7d ", " grid "), (" w ", " save "), (" l ", " load "),
    (" e ", " export "), (" q ", " quit ")]

/-- The keys that do something during a run. -/
def runningKeys : List (String × String) :=
  [(" x ", " stop "), (" +/- ", " speed "), (" q ", " quit ")]

/-- The keys that do something in a state. -/
def keys : RunState → List (String × String)
  | .running => runningKeys
  | .idle | .stopped => idleKeys

/-- The badge of a state, with its background. -/
def badge : RunState → String × Tint
  | .idle => (" IDLE ", Theme.primary)
  | .running => (" ▶ RUNNING ", Theme.secondary)
  | .stopped => (" ■ STOPPED ", Theme.error)

/-- The style of the bar. -/
def barStyle : Style := { bg := some Theme.currentLine }

/-- The style of what matters less. -/
def quiet : Style := { barStyle with fg := some Theme.comment }

/-- The style of text. -/
def textStyle : Style := { barStyle with fg := some Theme.text }

/-- The left part. -/
def left (state : RunState) (executed : Nat) (message : String) : Line :=
  let (text, color) := badge state
  ⟨[⟨text, { bg := some color, fg := some .black, bold := true }⟩, ⟨s!" step {executed} ", quiet⟩,
    ⟨"│", quiet⟩, ⟨s!" {message} ", textStyle⟩], {}⟩

/-- The spans for a key. -/
def keySpans (key : String × String) : List Span :=
  [⟨key.1, { bg := some Theme.comment, fg := some .black }⟩, ⟨key.2, textStyle⟩, ⟨"│", quiet⟩]

/-- The right part. -/
def right (state : RunState) (speed : Nat) : Line :=
  ⟨(keys state).flatMap keySpans
    ++ [⟨s!" speed {speed} ", { bg := some Theme.success, fg := some .black, bold := true }⟩], {}⟩

/-- Draws the bar. -/
def draw (c : Canvas) (a : Area) (message : String) (state : RunState) (executed speed : Nat) :
    Canvas :=
  let width := (a.width * 45 + 50) / 100
  let (l, r) : Area × Area :=
    ({ a with width }, { a with x := a.x + width, width := a.width - width })
  (c.paragraph l barStyle .left 0 [left state executed message]).paragraph r barStyle .right 0
    [right state speed]

end StatusBar

end BlockBoard
