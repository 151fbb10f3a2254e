import BlockBoard.Corner
import BlockBoard.Word

/-!
# The command line

The words of the command line name a command and set switches. Some switches may stand before the
command or behind it. Words are taken from left to right, and the first that cannot be accepted
decides.
-/

namespace BlockBoard

/-- A part of the command line: the words in front of the command, or those behind it. -/
inductive Scope where
  | top
  | play
  | run
  | new
  | config
deriving DecidableEq, Repr

/-- A switch. -/
inductive Switch where
  | config
  | rows
  | cols
  | trace
  | speed
  | exported
  | start
  | force
  | help
  | version
deriving DecidableEq, Repr

/-- How many values a switch takes. -/
inductive Arity where
  | none
  | one
  | atMostOne
deriving DecidableEq, Repr

namespace Switch

/-- The name of a switch, behind two dashes. -/
def name : Switch → String
  | config => "config"
  | rows => "rows"
  | cols => "cols"
  | trace => "trace"
  | speed => "speed"
  | exported => "export"
  | start => "start"
  | force => "force"
  | help => "help"
  | version => "version"

/-- The letter of a switch, behind a single dash. -/
def letter? : Switch → Option Char
  | force => some 'f'
  | help => some 'h'
  | version => some 'V'
  | _ => none

/-- How many values a switch takes. -/
def arity : Switch → Arity
  | config | rows | cols | speed | start => .one
  | exported => .atMostOne
  | trace | force | help | version => .none

end Switch

namespace Scope

/-- The switches that can be used in a scope. -/
def switches : Scope → List Switch
  | top => [.config, .rows, .cols, .help, .version]
  | play | config => [.config, .rows, .cols, .help]
  | run => [.config, .rows, .cols, .help, .trace, .speed, .exported]
  | new => [.config, .rows, .cols, .help, .start, .force]

/-- The switch of a name. -/
def named? (s : Scope) (name : String) : Option Switch :=
  s.switches.find? (·.name = name)

/-- The switch of a letter. -/
def lettered? (s : Scope) (letter : Char) : Option Switch :=
  s.switches.find? (·.letter? = some letter)

/-- Whether a scope takes the name of a file. -/
def takesFile : Scope → Bool
  | play | run | new => true
  | top | config => false

/-- The scope of a command. -/
def ofCommand? : String → Option Scope
  | "play" => some play
  | "run" => some run
  | "new" => some new
  | "config" => some config
  | _ => none

end Scope

/-- Why no command is carried out. -/
inductive Stop where
  /-- The words make no sense. -/
  | misuse
  /-- Help is asked for. -/
  | help
  /-- The version is asked for. -/
  | version
deriving DecidableEq, Repr

/-- What the words of a scope set. -/
structure Words where
  config : Option String := none
  rows : Option Int := none
  cols : Option Int := none
  trace : Bool := false
  speed : Option Int := none
  /-- A switch that may have a value, and the value. -/
  exported : Option (Option String) := none
  start : Option Corner := none
  force : Bool := false
  file : Option String := none
deriving DecidableEq, Repr

namespace Words

/-- A value that is set now, if it was not set before. -/
def once {α : Type} (old new : Option α) : Except Stop (Option α) :=
  match old, new with
  | none, some value => .ok (some value)
  | _, _ => .error .misuse

/-- A mark that is set now, if it was not set before. -/
def mark (old : Bool) : Except Stop Bool :=
  if old then .error .misuse else .ok true

/-- A path, which is never empty. -/
def path? (text : String) : Option String :=
  if text = "" then none else some text

/-- Sets a switch. -/
def set (w : Words) : Switch → (value : Option String) → Except Stop Words
  | .config, v => do return { w with config := ← once w.config (v.bind path?) }
  | .rows, v => do return { w with rows := ← once w.rows (v.bind Word.ofText?) }
  | .cols, v => do return { w with cols := ← once w.cols (v.bind Word.ofText?) }
  | .speed, v => do return { w with speed := ← once w.speed (v.bind Word.ofText?) }
  | .start, v => do return { w with start := ← once w.start (v.bind Corner.ofName?) }
  | .exported, v => do return { w with exported := ← once w.exported (some v) }
  | .trace, _ => do return { w with trace := ← mark w.trace }
  | .force, _ => do return { w with force := ← mark w.force }
  | .help, _ => .error .help
  | .version, _ => .error .version

/-- Sets the file, of which there is at most one. -/
def setFile (w : Words) (scope : Scope) (text : String) : Except Stop Words :=
  if scope.takesFile then do return { w with file := ← once w.file (path? text) }
  else .error .misuse

/-- Sets the switches of letters. -/
def setLetters (w : Words) (scope : Scope) (letters : List Char) : Except Stop Words :=
  letters.foldlM (fun w letter =>
    match scope.lettered? letter with
    | some switch => w.set switch none
    | none => .error .misuse) w

end Words

/-- What a word is, by its dashes. -/
inductive WordForm where
  /-- Two dashes: all further words are files. -/
  | divider
  /-- The name of a switch, with the value behind an equals sign. -/
  | named (name : String) (value : Option String)
  | letters (letters : List Char)
  | plain
deriving DecidableEq, Repr

namespace WordForm

/-- The form of a word. A single dash is a plain word. -/
def of (word : String) : WordForm :=
  match word.toList with
  | ['-', '-'] => divider
  | '-' :: '-' :: cs =>
    let value := match cs.dropWhile (· ≠ '=') with
      | _ :: rest => some (String.ofList rest)
      | [] => none
    named (String.ofList (cs.takeWhile (· ≠ '='))) value
  | '-' :: c :: cs => letters (c :: cs)
  | _ => plain

end WordForm

namespace Words

/-- Sets a switch whose value did not follow, if there is one. -/
def setPending (w : Words) : (pending : Option Switch) → Except Stop Words
  | none => .ok w
  | some switch => if switch.arity = .one then .error .misuse else w.set switch none

/-- Takes the words of a scope, the first of which may be the value of a pending switch. The first
plain word in front of the command ends the scope; it and the words behind it are left. -/
def read (scope : Scope) (w : Words) (pending : Option Switch) :
    (words : List String) → Except Stop (Words × List String)
  | [] => do return (← w.setPending pending, [])
  | word :: rest =>
    match pending, WordForm.of word with
    | some switch, .plain => do read scope (← w.set switch (some word)) none rest
    | pending, form => do
      let w ← w.setPending pending
      match form with
      | .divider => return (← rest.foldlM (fun w text => w.setFile scope text) w, [])
      | .letters letters => read scope (← w.setLetters scope letters) none rest
      | .plain =>
        if scope = .top then return (w, word :: rest)
        else read scope (← w.setFile scope word) none rest
      | .named name value =>
        match scope.named? name with
        | none => throw .misuse
        | some switch =>
          match switch.arity, value with
          | .none, none => read scope (← w.set switch none) none rest
          | .none, some _ => throw .misuse
          | _, some v => read scope (← w.set switch (some v)) none rest
          | _, none => read scope w (some switch) rest

end Words

/-- A command. -/
inductive Command where
  /-- Open the application. -/
  | play (file : Option String)
  /-- Run a project and print the board. -/
  | run (file : String) (trace : Bool) (speed : Option Int) (exported : Option (Option String))
  /-- Write an empty project. -/
  | new (file : String) (start : Option Corner) (force : Bool)
  /-- Print a configuration file. -/
  | config
deriving DecidableEq, Repr

/-- A command, and the switches that go with every command. -/
structure Invocation where
  config : Option String
  rows : Option Int
  cols : Option Int
  command : Command
deriving DecidableEq, Repr

namespace Invocation

/-- The command of a scope with the words behind it. -/
def command? (w : Words) : Scope → Except Stop Command
  | .top => .ok (.play none)
  | .play => .ok (.play w.file)
  | .run =>
    match w.file with
    | some file => .ok (.run file w.trace w.speed w.exported)
    | none => .error .misuse
  | .new =>
    match w.file with
    | some file => .ok (.new file w.start w.force)
    | none => .error .misuse
  | .config => .ok .config

/-- The stop that the word `help` in the place of a command leads to, given the words behind it. -/
def helpOn : List String → Stop
  | [] | ["help"] => .help
  | [name] => if (Scope.ofCommand? name).isSome then .help else .misuse
  | _ => .misuse

/-- The invocation that the words of the command line ask for. A switch behind the command counts
more than the same switch in front of it. -/
def parse (words : List String) : Except Stop Invocation := do
  let (front, rest) ← Words.read .top {} none words
  match rest with
  | [] => return ⟨front.config, front.rows, front.cols, .play none⟩
  | "help" :: later => throw (helpOn later)
  | name :: later =>
    match Scope.ofCommand? name with
    | none => throw .misuse
    | some scope =>
      let (back, _) ← Words.read scope {} none later
      return ⟨back.config.or front.config, back.rows.or front.rows, back.cols.or front.cols,
        ← command? back scope⟩

end Invocation

end BlockBoard
