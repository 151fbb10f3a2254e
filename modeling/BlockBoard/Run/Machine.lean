import BlockBoard.Program.Compile
import BlockBoard.Run.Host

/-!
# Running a program

A machine owns a board and the queue of the steps that are still to be executed. `run` compiles a
workspace, puts the board at its start and drains the queue; `singleStep` executes one step, and
compiles the workspace first if the queue is empty. Neither does anything while a program is
running. The speed slider is read before each step. When the host asks for a stop, the queue is
dropped before another step is taken and the board goes back to its start.
-/

namespace BlockBoard

/-- Why a run or a step is refused. -/
inductive RunError where
  /-- The workspace has no start block. -/
  | missingStart
deriving DecidableEq, Repr

/-- The report on a refused run. -/
def RunError.message : RunError → String
  | missingStart => "No start block found: add a start block to run the program"

/-- How a run or a step ended. -/
inductive RunOutcome where
  /-- The queue is empty. -/
  | completed
  /-- A step was executed and more are queued. -/
  | stepped
  /-- The host asked for a stop. -/
  | stopped
  /-- A program was running already, and nothing was done. -/
  | busy
deriving DecidableEq, Repr

/-- A board with the program that moves its piece. -/
structure Machine where
  board : Board
  speed : Slider
  /-- The steps that are still to be executed. -/
  queue : List Step := []
  state : RunState := .idle
  /-- The block that is running. -/
  highlighted : Option BlockId := none
  /-- The number of steps executed since the program was compiled. -/
  executed : Nat := 0

/-- What a run or a step leaves behind. -/
structure RunResult (σ : Type) where
  outcome : Except RunError RunOutcome
  machine : Machine
  /-- The state of the host. -/
  host : σ
  records : List Record

namespace Machine

/-- What can be seen of the run. -/
def view (r : Machine) : RunView :=
  ⟨r.board, r.highlighted, r.queue, r.state, r.executed⟩

/-- The machine that is seen during a run, with its slider. -/
def ofView (v : RunView) (speed : Slider) : Machine :=
  ⟨v.board, speed, v.pending, v.state, v.highlighted, v.executed⟩

/-- Queues a compiled program and puts the board at its start. -/
def load (r : Machine) (steps : List Step) : Machine :=
  { r with
    board := r.board.applyStart true
    queue := steps
    executed := 0
    highlighted := none
    state := .idle }

/-- Drops the queue and puts the board back to its start. -/
def stop (r : Machine) : Machine :=
  { r with
    board := r.board.applyStart true
    queue := []
    state := .stopped
    highlighted := none }

/-- The report on stopping. -/
def stopRecords (r : Machine) : List Record :=
  if r.queue.isEmpty then []
  else [⟨.info, .machine, s!"stopping with {r.queue.length} steps pending"⟩]

/-- Stops, and starts over with a workspace that holds an empty start block. -/
def reset (r : Machine) (ws : Workspace) : Machine × Workspace :=
  ({ r.stop with board := r.stop.board.applyStart true, executed := 0, state := .idle },
    ws.clear.ensureStart.1)

variable {σ : Type}

/-- Lets the host spend a delay; there is no pause if it is zero. -/
def pause (r : Machine) (p : Host σ) (delay : Nat) (s : σ) : Interrupt × Machine × σ :=
  if delay = 0 then (.resume, r, s)
  else
    let (signal, slider, s) := p.pause r.view delay r.speed s
    (signal, { r with speed := slider }, s)

/-- Executes a step that was taken off the queue. -/
def execute (r : Machine) (p : Host σ) (step : Step) (s : σ) : Interrupt × Machine × σ :=
  let delay := r.speed.delay
  let r := { r with executed := r.executed + 1 }
  match step with
  | .highlight id => { r with highlighted := some id }.pause p (delay / 2) s
  | .unhighlight _ => (.resume, { r with highlighted := none }, s)
  | .move none => (.resume, r, s)
  | .move (some d) => { r with board := r.board.advance d }.pause p delay s
  | .fill color => { r with board := r.board.fillPiece color }.pause p (delay / 2) s

/-- Takes a step off the queue and executes it, and stops if the host asks for it. The records are
those of stopping. -/
def take (r : Machine) (p : Host σ) (step : Step) (rest : List Step) (s : σ) :
    Interrupt × Machine × σ × List Record :=
  match { r with queue := rest }.execute p step s with
  | (.resume, r, s) => (.resume, r, s, [])
  | (.stop, r, s) => (.stop, r.stop, s, r.stopRecords)

/-- Executes the given steps, which are those of the queue, until they are used up or the host asks
for a stop. -/
def drain (r : Machine) (p : Host σ) (s : σ) : (steps : List Step) → Machine × σ × List Record
  | [] => (r, s, [])
  | step :: rest =>
    match r.take p step rest s with
    | (.resume, r, s, _) => r.drain p s rest
    | (.stop, r, s, records) => (r, s, records)

/-- Ends a run and tells the host how it ended. -/
def finish (r : Machine) (p : Host σ) (s : σ) (records : List Record) : RunResult σ :=
  if r.state = .stopped then ⟨.ok .stopped, r, p.notify .stopped s, records⟩
  else
    ⟨.ok .completed, { r with state := .idle }, p.notify .finished s,
      records ++ [⟨.info, .machine, s!"program finished after {r.executed} steps"⟩]⟩

/-- Runs the program of a workspace until it ends or the host asks for a stop. -/
def run (r : Machine) (p : Host σ) (ws : Workspace) (s : σ) : RunResult σ :=
  if r.state = .running then ⟨.ok .busy, r, s, []⟩
  else
    match ws.compile? with
    | none => ⟨.error .missingStart, r, s, []⟩
    | some c =>
      let steps := c.steps.toList
      let (r, s, records) := { r.load steps with state := .running }.drain p s steps
      r.finish p s
        (c.records ++ ⟨.info, .machine, s!"running program of {c.steps.size} steps"⟩ :: records)

/-- The machine with a program in its queue: its own, or that of the workspace if it has none. -/
def ready (r : Machine) (ws : Workspace) : Except RunError (Machine × List Record) :=
  if r.queue.isEmpty then
    match ws.compile? with
    | none => .error .missingStart
    | some c => .ok (r.load c.steps.toList, c.records)
  else .ok (r, [])

/-- Executes one step of the queue, or of the program of the workspace if the queue is empty. -/
def singleStep (r : Machine) (p : Host σ) (ws : Workspace) (s : σ) : RunResult σ :=
  if r.state = .running then ⟨.ok .busy, r, s, []⟩
  else
    match r.ready ws with
    | .error e => ⟨.error e, r, s, []⟩
    | .ok (r, records) =>
      match r.queue with
      | [] => r.finish p s records
      | step :: rest =>
        match { r with state := .running }.take p step rest s with
        | (.stop, r, s, stopping) => r.finish p s (records ++ stopping)
        | (.resume, r, s, _) =>
          if r.queue.isEmpty then r.finish p s records
          else ⟨.ok .stepped, { r with state := .idle }, s, records⟩

end Machine

end BlockBoard
