import ShaderTemplate.Config
import ShaderTemplate.Directive.LoopHeader
import ShaderTemplate.Event
import ShaderTemplate.Names
import ShaderTemplate.Output.Piece
import ShaderTemplate.Provider
import ShaderTemplate.Scopes

/-!
# States of an expansion

An expansion reads files line by line. A file may include others, and a loop reads the lines after
its header again for each key, so between two lines the expansion has to remember where it is.

## Shape of a state

Three stacks, each with the innermost element first, say where the expansion is:

* `inputs`, the files that are open, each with the number of lines read so far;
* `loops`, the loops that are open, each of which knows how many files were open at its header;
* `scopes`, with one scope for every open loop.

The other fields only grow: the pieces of output and the journal, latest first, and the files that
were opened, in their order.
-/

namespace ShaderTemplate

/-- What an expansion is given, and never changes. -/
structure Environment where
  provider : Provider
  dictionary : Dictionary
  config : Config

/-- An open file. -/
structure Input where
  path : Path
  lines : Array Text
  /-- the number of lines read so far, which is also the number of the current line -/
  line : Nat
  /-- the white space in front of the includes that led to this file -/
  indentation : Text

namespace Input

/-- A file before its first line. -/
def start (path : Path) (text indentation : Text) : Input :=
  ⟨path, (Text.lines text).toArray, 0, indentation⟩

/-- The next line of a file, and the file after it. -/
def next? (input : Input) : Option (Text × Input) :=
  input.lines[input.line]?.map fun text => (text, { input with line := input.line + 1 })

/-- The current line of a file. -/
def place (input : Input) : Place :=
  ⟨input.path.text, input.line⟩

end Input

/-- What a loop is doing. -/
inductive Phase where
  /-- running its body for the key with this index -/
  | iteration (index : Nat)
  /-- skipping its body, for want of keys, with so many loops of the body still to end -/
  | skipping (nested : Nat)
  deriving DecidableEq

/-- An open loop. -/
structure Loop where
  /-- how many files were open at the header -/
  depth : Nat
  /-- where the header is; the body begins on the line after it -/
  place : Place
  header : LoopHeader
  /-- the path of the dictionary that is looped over -/
  reference : Text
  keys : List Text
  phase : Phase

namespace Loop

/-- The key of the current iteration. -/
def key? (loop : Loop) : Option Text :=
  match loop.phase with
  | .iteration index => loop.keys[index]?
  | .skipping _ => none

/-- What the scope of the current iteration binds: the key name to the key in quotes, and the value
name to the path of the value. -/
def bindings (loop : Loop) : List (Text × Text) :=
  match loop.key? with
  | some key =>
    [(loop.header.key, Text.enquote key), (loop.header.value, loop.reference ++ '.' :: key)]
  | none => []

/-- The loop in its next iteration, and the key of that. -/
def next? (loop : Loop) : Option (Text × Loop) :=
  match loop.phase with
  | .iteration index =>
    loop.keys[index + 1]?.map fun key => (key, { loop with phase := .iteration (index + 1) })
  | .skipping _ => none

end Loop

/-- An expansion between two lines. -/
structure State where
  inputs : List Input
  loops : List Loop
  scopes : Scopes
  /-- the output so far, the latest piece first -/
  pieces : List Piece
  /-- the files opened so far, each of them once -/
  opened : List Path
  /-- what has happened so far, the latest event first -/
  journal : List Event

namespace State

/-- An expansion before its first file is opened. -/
def initial : State :=
  ⟨[], [], Scopes.empty, [], [], []⟩

/-- The line that was read last. -/
def place (state : State) : Place :=
  state.inputs.head?.elim ⟨[], 0⟩ Input.place

/-- What names stand for. -/
def names (env : Environment) (state : State) : Names :=
  ⟨env.dictionary, state.scopes.resolve?⟩

/-- Adds an event to the journal. -/
def record (state : State) (event : Event) : State :=
  { state with journal := event :: state.journal }

/-- Adds a piece to the output. -/
def write (state : State) (piece : Piece) : State :=
  { state with pieces := piece :: state.pieces }

/-- Marks the line that will be read next, if line markers are on and a file is open. -/
def markLine (env : Environment) (state : State) : State :=
  match env.config.lineMarkers, state.inputs with
  | true, input :: _ => state.write (.lineMarker (input.line + 1) input.path.fileName)
  | _, _ => state

/-- Adds a comment on a loop, if loop markers are on. -/
def markLoop (env : Environment) (note : LoopNote) (state : State) : State :=
  if env.config.loopMarkers then state.write (.loopMarker note) else state

/-- Adds a line of code behind the indentation of its file and its own. -/
def writeCode (indentation line : Text) (state : State) : State :=
  match state.inputs with
  | [] => state
  | input :: _ =>
    state.write (.code
      { path := input.path
        line := input.line
        text := input.indentation ++ indentation ++ line ++ ['\n'] })

/-- Adds a path to the files opened so far, unless it is among them. -/
def noteOpened (path : Path) (state : State) : State :=
  if state.opened.contains path then state
  else { state with opened := state.opened ++ [path] }

/-- Goes back to the line after a loop's header. -/
def rewind (line : Nat) (state : State) : State :=
  match state.inputs with
  | [] => state
  | input :: outer => { state with inputs := { input with line } :: outer }

end State

end ShaderTemplate
