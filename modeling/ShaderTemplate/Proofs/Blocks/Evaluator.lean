import ShaderTemplate.Proofs.Blocks.Report
import ShaderTemplate.Proofs.Provider.Listing
import ShaderTemplate.Proofs.Scopes.Lexical

/-!
# Expansion by blocks

A template is made of blocks: a file is one, and so is the body of a loop, up to its `#endfor`.
`Blocks.readBlock` expands a block by recursion, where `State.step` keeps stacks and moves a cursor:
an included file is read within the line that includes it, and the body of a loop is read once for
each key, from where the body begins to wherever the block then ends. What a name stands for is
looked up in the list of the open loops, from the inside out.

Where a block ends is only known when it has been read, since holes may be filled with directives.
So a block gives back the line at which it has stopped: the `#endfor` of a loop, or the end of the
file. Only the body of a loop without keys has an end that can be seen in the text, since it is not
expanded (`Blocks.skip?`).

## Shape of the recursion

A block goes on after a line with the rest of the block, so the lines left in the file go down; that
is also why a block gives back a line which is not before the one it was begun with (`Later`). An
included file is not among those around it, so it takes its lines off `Provider.unread`.
-/

namespace ShaderTemplate.Blocks

/-- An open loop, as its body sees it. -/
structure Frame where
  /-- where the header of the loop is -/
  header : Place
  /-- what the key and the value stand for -/
  bindings : List (Text × Text)

/-- A file that is read, with what is open around it. -/
structure Scene where
  path : Path
  lines : Array Text
  /-- the white space in front of the includes that led to this file -/
  indentation : Text
  /-- the files that include this one, the innermost first -/
  outer : List Path
  /-- the loops within which it is included, the innermost first -/
  around : List Frame

/-- What a line says, once its holes are filled. -/
inductive Instruction where
  | code (text : Text)
  | inclusion (path : Path)
  | loop (header : LoopHeader) (reference : Text) (keys : List Text)

variable (env : Environment)

/-- Finds the file that an `#include` in this file names. -/
def Scene.locate (scene : Scene) : IncludeTarget → List Event × Option Path
  | .near target =>
    State.search env.provider target (scene.path.directory :: env.config.includePaths)
  | .fixed target =>
    let candidate := env.provider.absolute ⟨target⟩
    ([], if env.provider.isFile candidate then some candidate else none)

/-- What names stand for within some loops. -/
def names (frames : List Frame) : Names :=
  ⟨env.dictionary, Scopes.lookUp (frames.map Frame.bindings)⟩

/-- Fills the holes of a line, which is trimmed, and finds out what it says. -/
def Scene.instruction (scene : Scene) (frames : List Frame) (place : Place) (line : Text) :
    Report Instruction := do
  let names := names env frames
  let filled ← .ofExcept <| (Template.parse line).fill
    (fun name => names.textOf place (Text.trim name)) (.unterminatedSubstitution place)
  match Directive.includeFile.argument? filled, Directive.forLoop.argument? filled with
  | some argument, _ =>
    match IncludeTarget.parse argument with
    | .error fault => .fail (.malformedInclude fault.reason place)
    | .ok target =>
      let (events, found) := scene.locate env target
      .note events
      match found with
      | none => .fail (.includeNotFound target.text place)
      | some path => return .inclusion path
  | none, some argument =>
    match LoopHeader.parse argument with
    | .error fault => .fail (.malformedFor fault.reason place)
    | .ok header =>
      let (reference, keys) ← .ofExcept (names.levelOf place header.reference)
      return .loop header reference keys
  | none, none => return .code filled

/-- The number of lines before the `#endfor` that ends a body, which begins with these lines, within
so many loops of the body. The lines are taken as they stand. -/
def skip? : (nested : Nat) → List Text → Option Nat
  | _, [] => none
  | nested, raw :: rest =>
    if Directive.endFor.isOn (Text.trim raw) then
      match nested with
      | 0 => some 0
      | nested + 1 => (skip? nested rest).map (· + 1)
    else if Directive.forLoop.isOn (Text.trim raw) then (skip? (nested + 1) rest).map (· + 1)
    else (skip? nested rest).map (· + 1)

/-- The marker in front of the line that is read next, after so many lines. -/
def lineMark (scene : Scene) (line : Nat) : List Piece :=
  if env.config.lineMarkers then [.lineMarker (line + 1) scene.path.fileName] else []

/-- A comment on a loop. -/
def loopMark (note : LoopNote) : List Piece :=
  if env.config.loopMarkers then [.loopMarker note] else []

/-- The frame of the iteration for a key. -/
def Frame.ofKey (place : Place) (header : LoopHeader) (reference key : Text) : Frame :=
  ⟨place, [(header.key, Text.enquote key), (header.value, reference ++ '.' :: key)]⟩

/-- A number of lines read, not less than this one. -/
abbrev Later (line : Nat) := { stop : Nat // line ≤ stop }

/-- The line itself. -/
def Later.now (line : Nat) : Later line := ⟨line, Nat.le_refl line⟩

/-- One line further. -/
def Later.next {line : Nat} (stop : Later line) : Later line := ⟨stop + 1, Nat.le_succ_of_le stop.2⟩

/-- What is later than a line is later than those before it. -/
def Later.since {line earlier : Nat} (stop : Later line) (le : earlier ≤ line) : Later earlier :=
  ⟨stop, Nat.le_trans le stop.2⟩

/-- A line that is there is one of the lines that are left. -/
theorem lt_of_line {lines : Array Text} {line : Nat} {raw : Text} (h : lines[line]? = some raw) :
    line < lines.size :=
  (Array.getElem?_eq_some_iff.mp h).1

mutual

/-- Expands the block of a file that goes on after `line` lines, within the loops `here` that were
begun in the file. Gives the number of lines before the `#endfor` of the innermost of these loops,
and without such a loop the number of all lines. -/
def readBlock (lists : env.provider.ListsAll) (scene : Scene) (here : List Frame) (line : Nat) :
    Report (Later line) :=
  match hraw : scene.lines[line]? with
  | none =>
    match here with
    | [] => return .now line
    | frame :: _ => .fail (.unterminatedFor frame.header scene.path.text)
  | some raw =>
    let place : Place := ⟨scene.path.text, line + 1⟩
    -- an `#endfor` is looked for in the line as it stands, not in what fills its holes
    if Directive.endFor.isOn (Text.trim raw) then
      match here, scene.around with
      | _ :: _, _ => return .now line
      | [], frame :: _ => .fail (.mismatchedEndFor frame.header place)
      | [], [] => .fail (.unexpectedEndFor place)
    else do
      match ← scene.instruction env (here ++ scene.around) place (Text.trim raw) with
      | .code text =>
        let text := scene.indentation ++ Text.indentation raw ++ text ++ ['\n']
        .write [.code ⟨scene.path, line + 1, text⟩]
        let stop ← readBlock lists scene here (line + 1)
        return stop.since (Nat.le_succ line)
      | .inclusion path =>
        readFile lists path (scene.indentation ++ Text.indentation raw) (scene.path :: scene.outer)
          (here ++ scene.around) place
        .write (lineMark env scene (line + 1))
        let stop ← readBlock lists scene here (line + 1)
        return stop.since (Nat.le_succ line)
      | .loop header reference (key :: keys) =>
        .note [.loopBegun reference key]
        .write (loopMark env (.begun reference))
        .write (loopMark env (.onKey reference key))
        .write (lineMark env scene (line + 1))
        -- the block goes on where the last iteration has ended, which may depend on its key
        let after ← iterate lists scene here place header reference key keys (line + 1)
        let stop ← readBlock lists scene here after
        return stop.since (Nat.le_of_succ_le after.2)
      | .loop _ reference [] =>
        .note [.loopEmpty reference]
        .write (loopMark env .empty)
        match skip? 0 (scene.lines.toList.drop (line + 1)) with
        | none => .fail (.unterminatedFor place scene.path.text)
        | some skipped =>
          .write (loopMark env (.ended reference))
          .write (lineMark env scene (line + 1 + skipped + 1))
          let stop ← readBlock lists scene here (line + 1 + skipped + 1)
          return stop.since (by omega)
termination_by
  (env.provider.unread (scene.path :: scene.outer), scene.lines.size - line, 0)
decreasing_by
  all_goals have := lt_of_line hraw
  all_goals exact .right _ (.left _ _ (by omega))

/-- Expands the body of a loop, which goes on after `line` lines, for a key and then for all others.
Gives the number of lines up to the `#endfor` at which the last iteration ends. -/
def iterate (lists : env.provider.ListsAll) (scene : Scene) (here : List Frame) (place : Place)
    (header : LoopHeader) (reference key : Text) (keys : List Text) (line : Nat) :
    Report (Later line) := do
  let stop ← readBlock lists scene (.ofKey place header reference key :: here) line
  match keys with
  | [] =>
    .write (loopMark env (.ended reference))
    .write (lineMark env scene (stop + 1))
    return stop.next
  | next :: rest =>
    .note [.loopKey reference next]
    .write (loopMark env (.onKey reference next))
    .write (lineMark env scene line)
    iterate lists scene here place header reference next rest line
termination_by
  (env.provider.unread (scene.path :: scene.outer), scene.lines.size - line, keys.length + 1)
decreasing_by
  all_goals exact .right _ (.right _ (by simp))

/-- Expands a file that is included at a place, with these files and loops around it. -/
def readFile (lists : env.provider.ListsAll) (path : Path) (indentation : Text)
    (outer : List Path) (around : List Frame) (place : Place) : Report Unit :=
  if _hopen : outer.any (· == path) then .fail (.recursiveInclude path.text place)
  else
    match _hread : env.provider.read path with
    | .error cause => .fail (.unreadable path.text cause)
    | .ok text => do
      let scene : Scene := ⟨path, (Text.lines text).toArray, indentation, outer, around⟩
      .note [.opened path]
      .write (lineMark env scene 0)
      let _ ← readBlock lists scene [] 0
      return
termination_by (env.provider.unread outer, 0, 0)
decreasing_by
  have hclosed : outer.any (· == path) = false := by simpa using _hopen
  have := Provider.unread_cons_le lists hclosed _hread
  exact .left _ _ (by omega)

end

/-- Expands a file that no other file includes. -/
def expand (lists : env.provider.ListsAll) (path : Path) : Report Unit :=
  readFile env lists path [] [] [] ⟨[], 0⟩

end ShaderTemplate.Blocks
