import BlockBoard.App.Basic

/-!
# Runs on the screen

While a program runs, each pause shows the screen and takes the keys that arrive. Only the keys that
stop the run, quit or move the speed slider count then. The first that stops the run ends the pause;
the keys behind it keep waiting.
-/

namespace BlockBoard

/-- What a run changes of the application apart from its machine, and the keys to come. -/
structure Watch where
  scroll : Nat
  status : String
  quit : Bool
  display : Display
  arrivals : List (List Key)

namespace Watch

/-- The application, which was started as `a`, as it looks in the middle of a run. -/
def app (w : Watch) (a : App) (v : RunView) (slider : Slider) : App :=
  { a with
    machine := .ofView v slider
    status := w.status
    quit := w.quit
    scroll := w.scroll }

/-- Shows the screen, scrolled to the line of the running block. -/
def refresh (w : Watch) (a : App) (v : RunView) (slider : Slider) : Watch :=
  let now := (w.app a v slider).settle w.display.height
  { w with scroll := now.scroll, display := now.onto w.display }

/-- Shows the screen and takes the keys of a burst one after the other, until one stops the run. The
screen is shown again after each key that does not. -/
def take (w : Watch) (a : App) (v : RunView) (slider : Slider) :
    (burst : List Key) → (later : List (List Key)) → Interrupt × Slider × Watch
  | [], later => (.resume, slider, { w.refresh a v slider with arrivals := later })
  | key :: keys, later =>
    let w := w.refresh a v slider
    match key.request? with
    | some .stop => (.stop, slider, { w with arrivals := keys :: later })
    | some .quit => (.stop, slider, { w with quit := true, arrivals := keys :: later })
    | some (.pace amount) => w.take a v (slider.shift amount) keys later
    | _ => w.take a v slider keys later

/-- Spends a pause with the burst that arrives. -/
def pause (w : Watch) (a : App) (v : RunView) (slider : Slider) : Interrupt × Slider × Watch :=
  w.take a v slider (w.arrivals.headD []) w.arrivals.tail

/-- The host of a run that the application starts. -/
def host (a : App) : Host Watch where
  pause v _ slider w := w.pause a v slider
  notify notice w := { w with status := notice.message }

end Watch

namespace App

/-- What a run starts with. -/
def watch (a : App) (o : Outside) : Watch :=
  ⟨a.scroll, a.status, a.quit, o.display, o.arrivals⟩

/-- The status after a run or a step. -/
def outcomeStatus (r : RunResult Watch) : String :=
  match r.outcome with
  | .ok .stepped => s!"{r.machine.queue.length} steps left"
  | .ok .completed | .ok .stopped => r.host.status
  | .ok .busy => "Already running"
  | .error e => s!"Cannot run: {e.message}"

/-- The application after a run or a step. -/
def afterRun (a : App) (r : RunResult Watch) : App :=
  { a with
    machine := r.machine
    scroll := r.host.scroll
    quit := r.host.quit
    status := outcomeStatus r }

/-- Runs the program. -/
def run (a : App) (o : Outside) : RunResult Watch :=
  a.machine.run (Watch.host a) a.workspace (a.watch o)

/-- Executes one step of the program. -/
def step (a : App) (o : Outside) : RunResult Watch :=
  a.machine.singleStep (Watch.host a) a.workspace (a.watch o)

end App

end BlockBoard
