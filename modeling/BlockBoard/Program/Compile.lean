import BlockBoard.Color
import BlockBoard.Program.Forest
import BlockBoard.Program.Step
import BlockBoard.Record

/-!
# Compiling

The body of the start block as a sequence of steps. A move or fill block becomes three steps: mark
the block, act, remove the mark. A repeat block becomes the steps of its body a number of times. The
result has at most `maxSteps` steps; a body that is repeated is compiled once and its steps are
copied, so a stack of repeats around an empty body costs nothing.
-/

namespace BlockBoard

/-- The greatest number of times that a repeat block runs its body. -/
def maxRepeat : Nat := 200

/-- The greatest length of a compiled program. -/
def maxSteps : Nat := 1000000

/-- How often a repeat block with the given field runs its body. -/
def repeatCount (times : Int) : Nat :=
  (max 0 (min times maxRepeat)).toNat

/-- The color that a fill block with the given field paints. -/
def fillColor (field : String) : String :=
  if Text.trim field = "" then Color.defaultFill else field

/-- Steps compiled so far, and what there is to report about them. -/
structure Compilation where
  steps : Array Step := #[]
  /-- The steps did not fit. -/
  truncated : Bool := false
  /-- A body was skipped since it lies too deep. -/
  tooDeep : Bool := false
  /-- The move blocks met whose field names no direction, the latest first. -/
  unknown : List BlockId := []

namespace Compilation

/-- Adds a step if there is room for it. -/
def emit (c : Compilation) (budget : Nat) (step : Step) : Compilation :=
  if c.steps.size < budget then { c with steps := c.steps.push step }
  else { c with truncated := true }

/-- Adds an action between the mark of its block and the removal of the mark. -/
def bracketed (c : Compilation) (budget : Nat) (id : BlockId) (action : Step) : Compilation :=
  ((c.emit budget (.highlight id)).emit budget action).emit budget (.unhighlight id)

/-- Adds a number of copies of some steps, or as much of them as there is room for. -/
def copies (c : Compilation) (budget : Nat) (body : Array Step) : (times : Nat) → Compilation
  | 0 => c
  | times + 1 =>
    if budget - c.steps.size < body.size then
      { c with steps := c.steps ++ body.extract 0 (budget - c.steps.size), truncated := true }
    else
      { c with steps := c.steps ++ body }.copies budget body times

/-- Adds the copies of the steps of a body, which were compiled after what `c` holds. -/
def repeated (c : Compilation) (budget : Nat) (body : Compilation) (times : Nat) : Compilation :=
  let c := { body with steps := c.steps }
  if body.steps.isEmpty then c else c.copies budget body.steps times

/-- The reports on a finished compilation. -/
def records (c : Compilation) : List Record :=
  (c.unknown.reverse.map fun id =>
      ⟨.warn, .compiler, s!"move block '{id}' has an unknown direction"⟩)
    ++ (if c.truncated then [⟨.warn, .compiler, s!"program truncated at {maxSteps} steps"⟩] else [])
    ++ if c.tooDeep then
        [⟨.warn, .compiler, s!"blocks nested deeper than {maxDepth} levels were skipped"⟩]
      else []

end Compilation

mutual

/-- Adds the steps of a tree. The steps may grow to the length `budget`. -/
def Tree.compile (budget : Nat) (c : Compilation) : Tree → Compilation
  | .node block cut body =>
    match block.kind with
    | .move direction =>
      let direction? := Direction.ofText? direction
      let c := if direction?.isNone then { c with unknown := block.id :: c.unknown } else c
      c.bracketed budget block.id (.move direction?)
    | .fill color => c.bracketed budget block.id (.fill (fillColor color))
    | .repetition times =>
      if repeatCount times = 0 then c
      else
        let inner := { c with steps := #[], tooDeep := c.tooDeep || cut }
        c.repeated budget (compileAll (budget - c.steps.size) inner body) (repeatCount times)
    | .start => compileAll budget { c with tooDeep := c.tooDeep || cut } body

/-- Adds the steps of the trees of a list, up to the first at which the steps do not fit any
more. -/
def compileAll (budget : Nat) (c : Compilation) : List Tree → Compilation
  | [] => c
  | tree :: trees => if c.truncated then c else compileAll budget (tree.compile budget c) trees

end

/-- Why a program cannot be compiled. -/
inductive CompileError where
  /-- There is no start block. -/
  | missingStart
deriving DecidableEq, Repr

/-- The text of an error. -/
def CompileError.message : CompileError → String
  | missingStart => "no start block in the program"

namespace Workspace

/-- The steps of the program, or none if there is no start block. -/
def compile? (ws : Workspace) : Option Compilation :=
  ws.start?.map fun start => compileAll maxSteps {} (ws.forest maxDepth start.body)

/-- The steps of the program, or the error if there is no start block. -/
def compile (ws : Workspace) : Except CompileError Compilation :=
  match ws.compile? with
  | some c => .ok c
  | none => .error .missingStart

end Workspace

end BlockBoard
