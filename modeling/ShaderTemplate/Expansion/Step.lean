import ShaderTemplate.Directive.Include
import ShaderTemplate.Directive.Word
import ShaderTemplate.Expansion.State
import ShaderTemplate.Template

/-!
# Steps of an expansion

A step reads one line, or closes a file that has no more lines. `step` is a function from states to
`Progress`: either there is a next state, or the expansion has halted. A halted expansion keeps its
state, since the opened files and the journal are reported after a failure too.

## Shape of a line

A line is first looked at as it stands: an `#endfor` ends the innermost loop, and while a loop is
skipping its body nothing else is done than to count the loops in it. Otherwise the holes of the
line are filled, and what comes out is an `#include`, the header of a loop, or code. So a directive
may come out of a hole, but an `#endfor` may not.
-/

namespace ShaderTemplate

/-- Where an expansion has got to. -/
inductive Progress where
  | running (state : State)
  | halted (result : Except Failure Unit) (state : State)

namespace State

/-- Halts with a failure. -/
def fail (state : State) (failure : Failure) : Progress :=
  .halted (.error failure) state

/-! ## Files -/

/-- Opens a file, whose lines are then read before the rest of the current one. A file that is
already open may not be opened again. -/
def openFile (env : Environment) (path : Path) (indentation : Text) (state : State) : Progress :=
  if state.inputs.any (·.path == path) then
    state.fail (.recursiveInclude path.text state.place)
  else
    match env.provider.read path with
    | .error cause => state.fail (.unreadable path.text cause)
    | .ok text =>
      let state := (state.record (.opened path)).noteOpened path
      .running <| markLine env
        { state with inputs := Input.start path text indentation :: state.inputs }

/-- Closes a file after its last line, with no loop open that began in it. -/
def closeFile (env : Environment) (state : State) : Progress :=
  match state.loops with
  | loop :: _ =>
    if loop.depth ≥ state.inputs.length then
      state.fail (.unterminatedFor loop.place state.place.file)
    else .running <| markLine env { state with inputs := state.inputs.tail }
  | [] => .running <| markLine env { state with inputs := state.inputs.tail }

/-- Looks for a file in one directory after the other, and gives the attempts with the file that
was found. -/
def search (provider : Provider) (target : Text) : List Path → List Event × Option Path
  | [] => ([], none)
  | directory :: others =>
    let candidate := provider.absolute (directory.join ⟨target⟩)
    if provider.isFile candidate then ([.tried target candidate true], some candidate)
    else
      let (events, found) := search provider target others
      (.tried target candidate false :: events, found)

/-- Finds the file that an `#include` in the current file names. -/
def locate (env : Environment) (state : State) : IncludeTarget → List Event × Option Path
  | .near target =>
    let here := state.inputs.head?.elim ⟨[]⟩ (·.path.directory)
    search env.provider target (here :: env.config.includePaths)
  | .fixed target =>
    let candidate := env.provider.absolute ⟨target⟩
    ([], if env.provider.isFile candidate then some candidate else none)

/-- Opens the file that an `#include` names, behind the indentation of the directive. -/
def includeFile (env : Environment) (indentation argument : Text) (state : State) : Progress :=
  match IncludeTarget.parse argument with
  | .error fault => state.fail (.malformedInclude fault.reason state.place)
  | .ok target =>
    let (events, found) := locate env state target
    let state := events.foldl record state
    match found with
    | none => state.fail (.includeNotFound target.text state.place)
    | some path =>
      let outer := state.inputs.head?.elim [] Input.indentation
      state.openFile env path (outer ++ indentation)

/-! ## Loops -/

/-- Begins a loop. Over a dictionary with entries the first iteration starts; over an empty one the
body is skipped, within a scope that binds nothing. -/
def beginLoop (env : Environment) (argument : Text) (state : State) : Progress :=
  match LoopHeader.parse argument with
  | .error fault => state.fail (.malformedFor fault.reason state.place)
  | .ok header =>
    match (state.names env).levelOf state.place header.reference with
    | .error failure => state.fail failure
    | .ok (reference, keys) =>
      let enter (phase : Phase) (state : State) : State :=
        let loop : Loop := ⟨state.inputs.length, state.place, header, reference, keys, phase⟩
        { state with
          loops := loop :: state.loops
          scopes := state.scopes.push loop.bindings }
      .running <|
        match keys with
        | key :: _ =>
          (state.record (.loopBegun reference key))
            |> markLoop env (.begun reference)
            |> markLoop env (.onKey reference key)
            |> enter (.iteration 0)
            |> markLine env
        | [] =>
          (state.record (.loopEmpty reference))
            |> markLoop env .empty
            |> enter (.skipping 0)

/-- Ends the body of a loop: of one within a skipped body, or of the innermost open one, which then
goes on with its next key or is over. -/
def endLoop (env : Environment) (state : State) : Progress :=
  match state.loops with
  | [] => state.fail (.unexpectedEndFor state.place)
  | loop :: outer =>
    if loop.depth ≠ state.inputs.length then
      state.fail (.mismatchedEndFor loop.place state.place)
    else
      match loop.phase with
      | .skipping (nested + 1) =>
        .running { state with loops := { loop with phase := .skipping nested } :: outer }
      | _ =>
        let state := { state with loops := outer, scopes := state.scopes.pop }
        .running <| markLine env <|
          match loop.next? with
          | some (key, next) =>
            { state.record (.loopKey loop.reference key) with
              loops := next :: outer
              scopes := state.scopes.push next.bindings }
              |> markLoop env (.onKey loop.reference key)
              |> rewind loop.place.line
          | none => state |> markLoop env (.ended loop.reference)

/-! ## Lines -/

/-- Fills the holes of a line and does what comes out of it. -/
def expandLine (env : Environment) (indentation line : Text) (state : State) : Progress :=
  let textOf name := (state.names env).textOf state.place (Text.trim name)
  match (Template.parse line).fill textOf (.unterminatedSubstitution state.place) with
  | .error failure => state.fail failure
  | .ok filled =>
    match Directive.includeFile.argument? filled, Directive.forLoop.argument? filled with
    | some argument, _ => state.includeFile env indentation argument
    | none, some argument => state.beginLoop env argument
    | none, none => .running (state.writeCode indentation filled)

/-- Does what a line of the current file says. -/
def readLine (env : Environment) (raw : Text) (state : State) : Progress :=
  let line := Text.trim raw
  if Directive.endFor.isOn line then state.endLoop env
  else
    match state.loops with
    | loop :: outer =>
      match loop.phase with
      | .skipping nested =>
        if Directive.forLoop.isOn line then
          .running { state with loops := { loop with phase := .skipping (nested + 1) } :: outer }
        else .running state
      | .iteration _ => state.expandLine env (Text.indentation raw) line
    | [] => state.expandLine env (Text.indentation raw) line

/-- Halts after the last file, with no loop and no scope left open. -/
def settle (state : State) : Progress :=
  match state.loops with
  | loop :: _ => state.fail (.unterminatedFor loop.place loop.place.file)
  | [] =>
    if state.scopes.depth > 0 then state.fail (.openScopes state.scopes.depth)
    else .halted (.ok ()) state

/-- Reads the next line, or closes the current file, or halts. -/
def step (env : Environment) (state : State) : Progress :=
  match state.inputs with
  | [] => state.settle
  | input :: outer =>
    match input.next? with
    | none => state.closeFile env
    | some (raw, input) => { state with inputs := input :: outer }.readLine env raw

end State

end ShaderTemplate
