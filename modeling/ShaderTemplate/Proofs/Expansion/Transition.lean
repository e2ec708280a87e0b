import ShaderTemplate.Expansion.Pass

/-!
# Transitions of an expansion

`Transition` lists what a step can do, once for all proofs: the file is closed, or a line is read
and something is done with it (`LineMove`). Each constructor carries the conditions under which the
step does it and gives the state after it, so an invariant is shown by looking at the constructors,
and no later proof opens `State.step`. `transition_of_step` is the inversion, and
`step_of_transition` its converse.

## Shape of the inversion

There is one lemma for each function that `State.step` is made of, which says what follows from its
going on. Markers, pieces and events touch one field each; that all other fields stay is said by
the lemmas of the first section.
-/

namespace ShaderTemplate

namespace State

/-! ## What the small operations leave alone -/

variable (env : Environment) (state : State)

@[simp] theorem record_inputs (event : Event) : (state.record event).inputs = state.inputs := rfl

@[simp] theorem record_loops (event : Event) : (state.record event).loops = state.loops := rfl

@[simp] theorem record_pieces (event : Event) : (state.record event).pieces = state.pieces := rfl

@[simp] theorem record_scopes (event : Event) : (state.record event).scopes = state.scopes := rfl

@[simp] theorem record_opened (event : Event) : (state.record event).opened = state.opened := rfl

@[simp] theorem markLine_inputs : (markLine env state).inputs = state.inputs := by
  unfold markLine; split <;> rfl

@[simp] theorem markLine_loops : (markLine env state).loops = state.loops := by
  unfold markLine; split <;> rfl

@[simp] theorem markLine_scopes : (markLine env state).scopes = state.scopes := by
  unfold markLine; split <;> rfl

@[simp] theorem markLine_opened : (markLine env state).opened = state.opened := by
  unfold markLine; split <;> rfl

@[simp] theorem markLine_journal : (markLine env state).journal = state.journal := by
  unfold markLine; split <;> rfl

@[simp] theorem markLoop_inputs (note : LoopNote) :
    (markLoop env note state).inputs = state.inputs := by
  unfold markLoop; split <;> rfl

@[simp] theorem markLoop_loops (note : LoopNote) :
    (markLoop env note state).loops = state.loops := by
  unfold markLoop; split <;> rfl

@[simp] theorem markLoop_scopes (note : LoopNote) :
    (markLoop env note state).scopes = state.scopes := by
  unfold markLoop; split <;> rfl

@[simp] theorem markLoop_opened (note : LoopNote) :
    (markLoop env note state).opened = state.opened := by
  unfold markLoop; split <;> rfl

@[simp] theorem markLoop_journal (note : LoopNote) :
    (markLoop env note state).journal = state.journal := by
  unfold markLoop; split <;> rfl

variable {env state} in
theorem markLine_of_off (off : env.config.lineMarkers = false) : markLine env state = state := by
  unfold markLine
  rw [off]

variable {env state} in
theorem markLoop_of_off (off : env.config.loopMarkers = false) (note : LoopNote) :
    markLoop env note state = state := by
  unfold markLoop
  rw [off, if_neg Bool.false_ne_true]

@[simp] theorem writeCode_inputs (indentation line : Text) :
    (writeCode indentation line state).inputs = state.inputs := by
  unfold writeCode; split <;> rfl

@[simp] theorem writeCode_loops (indentation line : Text) :
    (writeCode indentation line state).loops = state.loops := by
  unfold writeCode; split <;> rfl

@[simp] theorem writeCode_scopes (indentation line : Text) :
    (writeCode indentation line state).scopes = state.scopes := by
  unfold writeCode; split <;> rfl

@[simp] theorem writeCode_opened (indentation line : Text) :
    (writeCode indentation line state).opened = state.opened := by
  unfold writeCode; split <;> rfl

@[simp] theorem writeCode_journal (indentation line : Text) :
    (writeCode indentation line state).journal = state.journal := by
  unfold writeCode; split <;> rfl

@[simp] theorem noteOpened_inputs (path : Path) :
    (noteOpened path state).inputs = state.inputs := by
  unfold noteOpened; split <;> rfl

@[simp] theorem noteOpened_loops (path : Path) :
    (noteOpened path state).loops = state.loops := by
  unfold noteOpened; split <;> rfl

@[simp] theorem noteOpened_pieces (path : Path) :
    (noteOpened path state).pieces = state.pieces := by
  unfold noteOpened; split <;> rfl

@[simp] theorem noteOpened_scopes (path : Path) :
    (noteOpened path state).scopes = state.scopes := by
  unfold noteOpened; split <;> rfl

@[simp] theorem noteOpened_journal (path : Path) :
    (noteOpened path state).journal = state.journal := by
  unfold noteOpened; split <;> rfl

@[simp] theorem rewind_loops (line : Nat) : (rewind line state).loops = state.loops := by
  unfold rewind; split <;> rfl

@[simp] theorem rewind_pieces (line : Nat) : (rewind line state).pieces = state.pieces := by
  unfold rewind; split <;> rfl

@[simp] theorem rewind_scopes (line : Nat) : (rewind line state).scopes = state.scopes := by
  unfold rewind; split <;> rfl

@[simp] theorem rewind_opened (line : Nat) : (rewind line state).opened = state.opened := by
  unfold rewind; split <;> rfl

@[simp] theorem rewind_journal (line : Nat) : (rewind line state).journal = state.journal := by
  unfold rewind; split <;> rfl

@[simp] theorem length_rewind_inputs (line : Nat) :
    (rewind line state).inputs.length = state.inputs.length := by
  unfold rewind; split <;> simp_all

theorem contains_noteOpened (path : Path) (state : State) :
    (state.noteOpened path).opened.contains path = true := by
  unfold noteOpened
  split
  · assumption
  · simp

theorem contains_noteOpened_of_contains {state : State} {path file : Path}
    (h : state.opened.contains file = true) :
    (state.noteOpened path).opened.contains file = true := by
  unfold noteOpened
  split
  · exact h
  · simp only [List.contains_append, h, Bool.true_or]

theorem foldl_record (events : List Event) :
    events.foldl record state = { state with journal := events.reverse ++ state.journal } := by
  induction events generalizing state with
  | nil => rfl
  | cons event events ih => rw [List.foldl_cons, ih]; simp [record]

/-- A search notes the paths that it tries, and nothing else. -/
theorem tried_of_mem_search {provider : Provider} {target : Text} {directories : List Path}
    {event : Event} (h : event ∈ (search provider target directories).1) :
    ∃ candidate found, event = .tried target candidate found := by
  induction directories with
  | nil => simp [search] at h
  | cons directory others ih =>
    unfold search at h
    dsimp only at h
    split at h
    · exact ⟨_, _, List.mem_singleton.mp h⟩
    · rcases List.mem_cons.mp h with rfl | h
      · exact ⟨_, _, rfl⟩
      · exact ih h

/-- Files are found alike where the same paths are tried. -/
theorem search_congr {provider provider' : Provider} {target : Text}
    {directories directories' : List Path} (isFile : provider'.isFile = provider.isFile)
    (same : directories'.map (fun directory => provider'.absolute (directory.join ⟨target⟩)) =
      directories.map fun directory => provider.absolute (directory.join ⟨target⟩)) :
    search provider' target directories' = search provider target directories := by
  induction directories generalizing directories' with
  | nil =>
    rw [List.map_eq_nil_iff.mp same]
    rfl
  | cons directory directories ih =>
    cases directories' with
    | nil => cases same
    | cons directory' directories' =>
      obtain ⟨hfirst, hrest⟩ := List.cons.inj same
      dsimp only at hfirst
      rw [search, search, hfirst, isFile, ih hrest]

end State

/-- What the next iteration of a loop has in common with the loop. -/
theorem Loop.next?_eq_some {loop next : Loop} {key : Text} (h : loop.next? = some (key, next)) :
    ∃ index, loop.phase = .iteration index ∧ loop.keys[index + 1]? = some key ∧
      next = { loop with phase := .iteration (index + 1) } := by
  unfold next? at h
  split at h
  · rename_i index hphase
    obtain ⟨found, hkey, hfound⟩ := Option.map_eq_some_iff.mp h
    cases hfound
    exact ⟨index, hphase, hkey, rfl⟩
  · cases h

/-! ## Moves and transitions -/

/-- The text that comes out of a line after its holes are filled. -/
def State.fillLine (env : Environment) (state : State) (line : Text) : Except Failure Text :=
  (Template.parse line).fill (fun name => (state.names env).textOf state.place (Text.trim name))
    (.unterminatedSubstitution state.place)

/-- Whether lines are expanded, and not skipped for want of keys. -/
def State.Expanding (state : State) : Prop :=
  ∀ loop ∈ state.loops.head?, ∀ nested, loop.phase ≠ .skipping nested

/-- A file that may be opened, with its text. -/
structure State.Opens (env : Environment) (state : State) (path : Path) (text : Text) : Prop where
  closed : state.inputs.any (·.path == path) = false
  readable : env.provider.read path = .ok text

/-- The state after opening a file. -/
def State.afterOpen (env : Environment) (path : Path) (text indentation : Text) (state : State) :
    State :=
  let state := (state.record (.opened path)).noteOpened path
  markLine env { state with inputs := Input.start path text indentation :: state.inputs }

/-- The loop that the header of a line begins. -/
def State.loopOf (state : State) (header : LoopHeader) (reference : Text) (keys : List Text)
    (phase : Phase) : Loop :=
  ⟨state.inputs.length, state.place, header, reference, keys, phase⟩

/-- The state within a loop that has just begun. -/
def State.enterLoop (loop : Loop) (state : State) : State :=
  { state with loops := loop :: state.loops, scopes := state.scopes.push loop.bindings }

/-- The state after the header of a loop over these keys. -/
def State.beginWith (env : Environment) (header : LoopHeader) (reference : Text)
    (state : State) : List Text → State
  | key :: keys =>
    (state.record (.loopBegun reference key)
      |> State.markLoop env (.begun reference)
      |> State.markLoop env (.onKey reference key)).enterLoop
        (state.loopOf header reference (key :: keys) (.iteration 0))
      |> State.markLine env
  | [] =>
    (state.record (.loopEmpty reference) |> State.markLoop env .empty).enterLoop
      (state.loopOf header reference [] (.skipping 0))

/-- The state without its innermost loop, the others being given. -/
def State.leaveLoop (outer : List Loop) (state : State) : State :=
  { state with loops := outer, scopes := state.scopes.pop }

section Fields

variable (env : Environment) (state : State)

@[simp] theorem State.enterLoop_inputs (loop : Loop) :
    (state.enterLoop loop).inputs = state.inputs := rfl

@[simp] theorem State.enterLoop_loops (loop : Loop) :
    (state.enterLoop loop).loops = loop :: state.loops := rfl

@[simp] theorem State.enterLoop_pieces (loop : Loop) :
    (state.enterLoop loop).pieces = state.pieces := rfl

@[simp] theorem State.enterLoop_scopes (loop : Loop) :
    (state.enterLoop loop).scopes = state.scopes.push loop.bindings := rfl

@[simp] theorem State.enterLoop_opened (loop : Loop) :
    (state.enterLoop loop).opened = state.opened := rfl

@[simp] theorem State.leaveLoop_inputs (outer : List Loop) :
    (state.leaveLoop outer).inputs = state.inputs := rfl

@[simp] theorem State.leaveLoop_loops (outer : List Loop) :
    (state.leaveLoop outer).loops = outer := rfl

@[simp] theorem State.leaveLoop_pieces (outer : List Loop) :
    (state.leaveLoop outer).pieces = state.pieces := rfl

@[simp] theorem State.leaveLoop_scopes (outer : List Loop) :
    (state.leaveLoop outer).scopes = state.scopes.pop := rfl

@[simp] theorem State.leaveLoop_opened (outer : List Loop) :
    (state.leaveLoop outer).opened = state.opened := rfl

@[simp] theorem State.beginWith_inputs (header : LoopHeader) (reference : Text)
    (keys : List Text) :
    (state.beginWith env header reference keys).inputs = state.inputs := by
  cases keys <;> simp [State.beginWith]

@[simp] theorem State.beginWith_cons_loops (header : LoopHeader) (reference key : Text)
    (keys : List Text) :
    (state.beginWith env header reference (key :: keys)).loops =
      state.loopOf header reference (key :: keys) (.iteration 0) :: state.loops := by
  simp [State.beginWith]

@[simp] theorem State.beginWith_nil_loops (header : LoopHeader) (reference : Text) :
    (state.beginWith env header reference []).loops =
      state.loopOf header reference [] (.skipping 0) :: state.loops := by
  simp [State.beginWith]

@[simp] theorem State.beginWith_cons_scopes (header : LoopHeader) (reference key : Text)
    (keys : List Text) :
    (state.beginWith env header reference (key :: keys)).scopes =
      state.scopes.push (state.loopOf header reference (key :: keys) (.iteration 0)).bindings := by
  simp [State.beginWith]

@[simp] theorem State.beginWith_nil_scopes (header : LoopHeader) (reference : Text) :
    (state.beginWith env header reference []).scopes =
      state.scopes.push (state.loopOf header reference [] (.skipping 0)).bindings := by
  simp [State.beginWith]

@[simp] theorem State.beginWith_opened (header : LoopHeader) (reference : Text)
    (keys : List Text) :
    (state.beginWith env header reference keys).opened = state.opened := by
  cases keys <;> simp [State.beginWith]

@[simp] theorem State.afterOpen_inputs (path : Path) (text indentation : Text) :
    (state.afterOpen env path text indentation).inputs =
      Input.start path text indentation :: state.inputs := by
  simp [State.afterOpen]

@[simp] theorem State.afterOpen_loops (path : Path) (text indentation : Text) :
    (state.afterOpen env path text indentation).loops = state.loops := by
  simp [State.afterOpen]

@[simp] theorem State.afterOpen_scopes (path : Path) (text indentation : Text) :
    (state.afterOpen env path text indentation).scopes = state.scopes := by
  simp [State.afterOpen]

@[simp] theorem State.afterOpen_opened (path : Path) (text indentation : Text) :
    (state.afterOpen env path text indentation).opened = (state.noteOpened path).opened := by
  simp only [State.afterOpen, State.markLine_opened]
  unfold State.noteOpened
  rw [State.record_opened]
  split <;> rfl

end Fields

/-- What may be done with a line that has just been read. -/
inductive LineMove (env : Environment) (raw : Text) (state : State) : State → Prop
  /-- a loop within a skipped body ends -/
  | nestedEnd {loop : Loop} {outer : List Loop} {nested : Nat}
      (word : Directive.endFor.isOn (Text.trim raw) = true)
      (loops : state.loops = loop :: outer) (depth : loop.depth = state.inputs.length)
      (phase : loop.phase = .skipping (nested + 1)) :
      LineMove env raw state
        { state with loops := { loop with phase := .skipping nested } :: outer }
  /-- a loop goes on with its next key -/
  | nextKey {loop : Loop} {outer : List Loop} {key : Text} {next : Loop}
      (word : Directive.endFor.isOn (Text.trim raw) = true)
      (loops : state.loops = loop :: outer) (depth : loop.depth = state.inputs.length)
      (more : loop.next? = some (key, next)) :
      LineMove env raw state <|
        ((state.leaveLoop outer).record (.loopKey loop.reference key)).enterLoop next
          |> State.markLoop env (.onKey loop.reference key)
          |> State.rewind loop.place.line
          |> State.markLine env
  /-- a loop is over -/
  | lastEnd {loop : Loop} {outer : List Loop}
      (word : Directive.endFor.isOn (Text.trim raw) = true)
      (loops : state.loops = loop :: outer) (depth : loop.depth = state.inputs.length)
      (phase : ∀ nested, loop.phase ≠ .skipping (nested + 1)) (done : loop.next? = none) :
      LineMove env raw state
        (state.leaveLoop outer |> State.markLoop env (.ended loop.reference) |> State.markLine env)
  /-- a loop begins within a skipped body -/
  | nestedHeader {loop : Loop} {outer : List Loop} {nested : Nat}
      (word : Directive.endFor.isOn (Text.trim raw) = false)
      (loops : state.loops = loop :: outer) (phase : loop.phase = .skipping nested)
      (header : Directive.forLoop.isOn (Text.trim raw) = true) :
      LineMove env raw state
        { state with loops := { loop with phase := .skipping (nested + 1) } :: outer }
  /-- any other line of a skipped body -/
  | skipped {loop : Loop} {outer : List Loop} {nested : Nat}
      (word : Directive.endFor.isOn (Text.trim raw) = false)
      (loops : state.loops = loop :: outer) (phase : loop.phase = .skipping nested)
      (header : Directive.forLoop.isOn (Text.trim raw) = false) :
      LineMove env raw state state
  /-- a file is included -/
  | openFile {filled argument text : Text} {target : IncludeTarget} {events : List Event}
      {path : Path} (word : Directive.endFor.isOn (Text.trim raw) = false)
      (expanding : state.Expanding) (fill : state.fillLine env (Text.trim raw) = .ok filled)
      (directive : Directive.includeFile.argument? filled = some argument)
      (parse : IncludeTarget.parse argument = .ok target)
      (located : state.locate env target = (events, some path))
      (opens : state.Opens env path text) :
      LineMove env raw state <|
        (events.foldl State.record state).afterOpen env path text
          (state.inputs.head?.elim [] Input.indentation ++ Text.indentation raw)
  /-- a loop begins with its first key -/
  | beginLoop {filled argument reference key : Text} {header : LoopHeader} {keys : List Text}
      (word : Directive.endFor.isOn (Text.trim raw) = false)
      (expanding : state.Expanding) (fill : state.fillLine env (Text.trim raw) = .ok filled)
      (noInclude : Directive.includeFile.argument? filled = none)
      (directive : Directive.forLoop.argument? filled = some argument)
      (parse : LoopHeader.parse argument = .ok header)
      (level : (state.names env).levelOf state.place header.reference
        = .ok (reference, key :: keys)) :
      LineMove env raw state (state.beginWith env header reference (key :: keys))
  /-- a loop begins that has no key -/
  | beginEmpty {filled argument reference : Text} {header : LoopHeader}
      (word : Directive.endFor.isOn (Text.trim raw) = false)
      (expanding : state.Expanding) (fill : state.fillLine env (Text.trim raw) = .ok filled)
      (noInclude : Directive.includeFile.argument? filled = none)
      (directive : Directive.forLoop.argument? filled = some argument)
      (parse : LoopHeader.parse argument = .ok header)
      (level : (state.names env).levelOf state.place header.reference = .ok (reference, [])) :
      LineMove env raw state (state.beginWith env header reference [])
  /-- a line of code is written -/
  | code {filled : Text}
      (word : Directive.endFor.isOn (Text.trim raw) = false)
      (expanding : state.Expanding) (fill : state.fillLine env (Text.trim raw) = .ok filled)
      (noInclude : Directive.includeFile.argument? filled = none)
      (noLoop : Directive.forLoop.argument? filled = none) :
      LineMove env raw state (state.writeCode (Text.indentation raw) filled)

/-- What a step may do. -/
inductive Transition (env : Environment) (state : State) : State → Prop
  /-- a file is closed after its last line -/
  | close {input : Input} {outer : List Input} (inputs : state.inputs = input :: outer)
      (atEnd : input.next? = none)
      (nested : ∀ loop ∈ state.loops.head?, loop.depth < state.inputs.length) :
      Transition env state (State.markLine env { state with inputs := outer })
  /-- a line is read -/
  | line {after : State} {input read : Input} {outer : List Input} {raw : Text}
      (inputs : state.inputs = input :: outer) (next : input.next? = some (raw, read))
      (move : LineMove env raw { state with inputs := read :: outer } after) :
      Transition env state after

/-! ## The inversion -/

namespace State

variable {env : Environment} {state after : State}

theorem openFile_running {path : Path} {indentation : Text}
    (h : state.openFile env path indentation = .running after) :
    ∃ text, state.Opens env path text ∧ after = state.afterOpen env path text indentation := by
  unfold openFile at h
  split at h
  · cases h
  · rename_i hclosed
    split at h
    · cases h
    · rename_i text hread
      cases h
      exact ⟨text, ⟨by simpa using hclosed, hread⟩, rfl⟩

theorem closeFile_running (h : state.closeFile env = .running after) :
    (∀ loop ∈ state.loops.head?, loop.depth < state.inputs.length) ∧
      after = markLine env { state with inputs := state.inputs.tail } := by
  unfold closeFile at h
  split at h
  · rename_i loop outer hloops
    split at h
    · cases h
    · cases h
      exact ⟨by simpa [hloops] using by omega, rfl⟩
  · rename_i hloops
    cases h
    exact ⟨by simp [hloops], rfl⟩

theorem includeFile_running {indentation argument : Text}
    (h : state.includeFile env indentation argument = .running after) :
    ∃ target events path text, IncludeTarget.parse argument = .ok target ∧
      state.locate env target = (events, some path) ∧ state.Opens env path text ∧
      after = (events.foldl record state).afterOpen env path text
        (state.inputs.head?.elim [] Input.indentation ++ indentation) := by
  unfold includeFile at h
  split at h
  · cases h
  · rename_i target htarget
    split at h
    rename_i events found hlocate
    dsimp only at h
    split at h
    · cases h
    · rename_i path
      obtain ⟨text, hopens, hafter⟩ := openFile_running h
      rw [foldl_record] at hopens hafter
      refine ⟨target, events, path, text, htarget, hlocate, ⟨hopens.closed, hopens.readable⟩, ?_⟩
      rw [hafter, foldl_record]

theorem beginLoop_eq (argument : Text) :
    state.beginLoop env argument =
      match LoopHeader.parse argument with
      | .error fault => state.fail (.malformedFor fault.reason state.place)
      | .ok header =>
        match (state.names env).levelOf state.place header.reference with
        | .error failure => state.fail failure
        | .ok (reference, keys) => .running (state.beginWith env header reference keys) := by
  unfold beginLoop
  cases LoopHeader.parse argument with
  | error fault => rfl
  | ok header =>
    dsimp only
    cases (state.names env).levelOf state.place header.reference with
    | error failure => rfl
    | ok level =>
      obtain ⟨reference, keys⟩ := level
      cases keys <;> simp [beginWith, enterLoop, loopOf, place]

theorem beginLoop_running {argument : Text} (h : state.beginLoop env argument = .running after) :
    ∃ header reference keys, LoopHeader.parse argument = .ok header ∧
      (state.names env).levelOf state.place header.reference = .ok (reference, keys) ∧
      after = state.beginWith env header reference keys := by
  rw [beginLoop_eq] at h
  split at h
  · cases h
  · rename_i header hheader
    split at h
    · cases h
    · rename_i reference keys hlevel
      cases h
      exact ⟨header, reference, keys, hheader, hlevel, rfl⟩

theorem endLoop_running (h : state.endLoop env = .running after) :
    ∃ loop outer, state.loops = loop :: outer ∧ loop.depth = state.inputs.length ∧
      ((∃ nested, loop.phase = .skipping (nested + 1) ∧
          after = { state with loops := { loop with phase := .skipping nested } :: outer }) ∨
        (∃ key next, loop.next? = some (key, next) ∧
          after = (((state.leaveLoop outer).record (.loopKey loop.reference key)).enterLoop next
            |> markLoop env (.onKey loop.reference key)
            |> rewind loop.place.line
            |> markLine env)) ∨
        ((∀ nested, loop.phase ≠ .skipping (nested + 1)) ∧ loop.next? = none ∧
          after = (state.leaveLoop outer |> markLoop env (.ended loop.reference)
            |> markLine env))) := by
  unfold endLoop at h
  split at h
  · cases h
  · rename_i loop outer hloops
    split at h
    · cases h
    · rename_i hdepth
      refine ⟨loop, outer, hloops, by simpa using hdepth, ?_⟩
      split at h
      · rename_i nested hphase
        cases h
        exact .inl ⟨nested, hphase, rfl⟩
      · rename_i hphase
        cases hnext : loop.next? with
        | none =>
          simp only [hnext] at h
          cases h
          exact .inr (.inr ⟨hphase, rfl, rfl⟩)
        | some found =>
          obtain ⟨key, next⟩ := found
          simp only [hnext] at h
          cases h
          exact .inr (.inl ⟨key, next, rfl, rfl⟩)

theorem expandLine_eq (indentation line : Text) :
    state.expandLine env indentation line =
      match state.fillLine env line with
      | .error failure => state.fail failure
      | .ok filled =>
        match Directive.includeFile.argument? filled, Directive.forLoop.argument? filled with
        | some argument, _ => state.includeFile env indentation argument
        | none, some argument => state.beginLoop env argument
        | none, none => .running (state.writeCode indentation filled) := rfl

/-- A line that is expanded goes on as one of the last four moves. -/
theorem expandLine_running {raw : Text} (word : Directive.endFor.isOn (Text.trim raw) = false)
    (expanding : state.Expanding)
    (h : state.expandLine env (Text.indentation raw) (Text.trim raw) = .running after) :
    LineMove env raw state after := by
  rw [expandLine_eq] at h
  split at h
  · cases h
  · rename_i filled hfill
    split at h
    · rename_i argument _ hdirective
      obtain ⟨target, events, path, text, hparse, hlocate, hopens, rfl⟩ := includeFile_running h
      exact .openFile word expanding hfill hdirective hparse hlocate hopens
    · rename_i argument hnone hdirective
      obtain ⟨header, reference, keys, hparse, hlevel, rfl⟩ := beginLoop_running h
      cases keys with
      | nil => exact .beginEmpty word expanding hfill hnone hdirective hparse hlevel
      | cons key keys => exact .beginLoop word expanding hfill hnone hdirective hparse hlevel
    · rename_i hnone hnoLoop
      cases h
      exact .code word expanding hfill hnone hnoLoop

theorem readLine_running {raw : Text} (h : state.readLine env raw = .running after) :
    LineMove env raw state after := by
  unfold readLine at h
  dsimp only at h
  split at h
  · rename_i word
    obtain ⟨loop, outer, hloops, hdepth, hcases⟩ := endLoop_running h
    rcases hcases with ⟨nested, hphase, rfl⟩ | ⟨key, next, hnext, rfl⟩ | ⟨hphase, hnext, rfl⟩
    · exact .nestedEnd word hloops hdepth hphase
    · exact .nextKey word hloops hdepth hnext
    · exact .lastEnd word hloops hdepth hphase hnext
  · rename_i word
    have word : Directive.endFor.isOn (Text.trim raw) = false := by simpa using word
    split at h
    · rename_i loop outer hloops
      split at h
      · rename_i nested hphase
        split at h <;> rename_i hheader <;> cases h
        · exact .nestedHeader word hloops hphase hheader
        · exact .skipped word hloops hphase (by simpa using hheader)
      · rename_i index hphase
        exact expandLine_running word (by simp [Expanding, hloops, hphase]) h
    · rename_i hloops
      exact expandLine_running word (by simp [Expanding, hloops]) h

theorem transition_of_step (h : state.step env = .running after) : Transition env state after := by
  unfold step at h
  split at h
  · unfold settle at h
    split at h
    · cases h
    · split at h <;> cases h
  · rename_i input outer hinputs
    split at h
    · rename_i hnext
      obtain ⟨hnested, rfl⟩ := closeFile_running h
      rw [hinputs, List.tail_cons]
      exact .close hinputs hnext hnested
    · rename_i raw read hnext
      exact .line hinputs hnext (readLine_running h)

/-! ## The converse

Every transition is taken, under the conditions that its constructor names. So to show that a step
leads to some state, it is enough to give a transition.
-/

section Converse

variable {input read : Input} {outer : List Input} {raw : Text}

theorem step_of_line (inputs : state.inputs = input :: outer)
    (next : input.next? = some (raw, read)) :
    state.step env = { state with inputs := read :: outer }.readLine env raw := by
  unfold step
  simp only [inputs, next]

theorem step_of_end (inputs : state.inputs = input :: outer) (next : input.next? = none) :
    state.step env = state.closeFile env := by
  unfold step
  simp only [inputs, next]

theorem openFile_of_opens {path : Path} {text indentation : Text}
    (opens : state.Opens env path text) :
    state.openFile env path indentation = .running (state.afterOpen env path text indentation) := by
  rw [openFile, opens.closed, opens.readable]
  rfl

theorem readLine_endFor (word : Directive.endFor.isOn (Text.trim raw) = true) :
    state.readLine env raw = state.endLoop env := by
  unfold readLine
  simp only [word, if_true]

theorem readLine_expanding (word : Directive.endFor.isOn (Text.trim raw) = false)
    (expanding : state.Expanding) :
    state.readLine env raw = state.expandLine env (Text.indentation raw) (Text.trim raw) := by
  unfold readLine
  simp only [word, Bool.false_eq_true, if_false]
  split
  · rename_i loop outer hloops
    split
    · rename_i nested hphase
      exact absurd hphase (expanding loop (by simp [hloops]) nested)
    · rfl
  · rfl

theorem readLine_skipping {loop : Loop} {loops : List Loop} {nested : Nat}
    (word : Directive.endFor.isOn (Text.trim raw) = false) (hloops : state.loops = loop :: loops)
    (phase : loop.phase = .skipping nested) :
    state.readLine env raw =
      if Directive.forLoop.isOn (Text.trim raw) then
        .running { state with loops := { loop with phase := .skipping (nested + 1) } :: loops }
      else .running state := by
  unfold readLine
  simp only [word, Bool.false_eq_true, if_false, hloops, phase]

/-- The end of an iteration, as the innermost loop sees it. -/
theorem endLoop_iteration {loop : Loop} {loops : List Loop} {index : Nat}
    (hloops : state.loops = loop :: loops) (depth : loop.depth = state.inputs.length)
    (phase : loop.phase = .iteration index) :
    state.endLoop env =
      match loop.next? with
      | some (key, next) =>
        .running <| ((state.leaveLoop loops).record (.loopKey loop.reference key)).enterLoop next
          |> State.markLoop env (.onKey loop.reference key)
          |> State.rewind loop.place.line
          |> State.markLine env
      | none =>
        .running <| (state.leaveLoop loops |> State.markLoop env (.ended loop.reference)
          |> State.markLine env) := by
  unfold endLoop
  simp only [hloops, depth, phase, ne_eq, not_true_eq_false, if_false]
  cases loop.next? <;> rfl

/-- The end of a skipped body. -/
theorem endLoop_skipping {loop : Loop} {loops : List Loop} {nested : Nat}
    (hloops : state.loops = loop :: loops) (depth : loop.depth = state.inputs.length)
    (phase : loop.phase = .skipping nested) :
    state.endLoop env =
      match nested with
      | nested + 1 =>
        .running { state with loops := { loop with phase := .skipping nested } :: loops }
      | 0 =>
        .running <| (state.leaveLoop loops |> State.markLoop env (.ended loop.reference)
          |> State.markLine env) := by
  have hnext : loop.next? = none := by simp [Loop.next?, phase]
  unfold endLoop
  simp only [hloops, depth, phase, hnext, ne_eq, not_true_eq_false, if_false]
  cases nested <;> rfl

theorem includeFile_of_opens {argument text : Text} {target : IncludeTarget} {events : List Event}
    {path : Path} (indentation : Text) (parse : IncludeTarget.parse argument = .ok target)
    (located : state.locate env target = (events, some path))
    (opens : state.Opens env path text) :
    state.includeFile env indentation argument = .running
      ((events.foldl record state).afterOpen env path text
        (state.inputs.head?.elim [] Input.indentation ++ indentation)) := by
  have hopens : (events.foldl record state).Opens env path text := by
    rw [foldl_record]
    exact ⟨opens.closed, opens.readable⟩
  have hinputs : (events.foldl record state).inputs = state.inputs := by rw [foldl_record]
  unfold includeFile
  simp only [parse, located]
  rw [openFile_of_opens hopens, hinputs]

theorem expandLine_of_fill {filled : Text} (expanding : state.Expanding)
    (word : Directive.endFor.isOn (Text.trim raw) = false)
    (fill : state.fillLine env (Text.trim raw) = .ok filled) :
    state.readLine env raw =
      match Directive.includeFile.argument? filled, Directive.forLoop.argument? filled with
      | some argument, _ => state.includeFile env (Text.indentation raw) argument
      | none, some argument => state.beginLoop env argument
      | none, none => .running (state.writeCode (Text.indentation raw) filled) := by
  rw [readLine_expanding word expanding, expandLine_eq, fill]

theorem readLine_of_move (move : LineMove env raw state after) :
    state.readLine env raw = .running after := by
  cases move with
  | nestedEnd word loops depth phase =>
    rw [readLine_endFor word, endLoop_skipping loops depth phase]
  | @nextKey loop outer key next word loops depth more =>
    obtain ⟨index, phase, -, -⟩ := Loop.next?_eq_some more
    rw [readLine_endFor word, endLoop_iteration loops depth phase, more]
  | @lastEnd loop outer word loops depth phase done =>
    rw [readLine_endFor word]
    cases hphase : loop.phase with
    | iteration index => rw [endLoop_iteration loops depth hphase, done]
    | skipping nested =>
      cases nested with
      | zero => rw [endLoop_skipping loops depth hphase]
      | succ nested => exact absurd hphase (phase nested)
  | nestedHeader word loops phase header => rw [readLine_skipping word loops phase, if_pos header]
  | skipped word loops phase header =>
    rw [readLine_skipping word loops phase, if_neg (by simp [header])]
  | openFile word expanding fill directive parse located opens =>
    rw [expandLine_of_fill expanding word fill, directive]
    exact includeFile_of_opens _ parse located opens
  | beginLoop word expanding fill noInclude directive parse level =>
    rw [expandLine_of_fill expanding word fill, noInclude, directive]
    simp only [beginLoop_eq, parse, level]
  | beginEmpty word expanding fill noInclude directive parse level =>
    rw [expandLine_of_fill expanding word fill, noInclude, directive]
    simp only [beginLoop_eq, parse, level]
  | code word expanding fill noInclude noLoop =>
    rw [expandLine_of_fill expanding word fill, noInclude, noLoop]

theorem step_of_transition (h : Transition env state after) : state.step env = .running after := by
  cases h with
  | line inputs next move => rw [step_of_line inputs next, readLine_of_move move]
  | close inputs atEnd nested =>
    rw [step_of_end inputs atEnd]
    unfold closeFile
    split
    · rename_i loop rest hloops
      have hdepth : loop.depth < state.inputs.length := nested loop (by simp [hloops])
      rw [if_neg (by omega), inputs, List.tail_cons]
    · rw [inputs, List.tail_cons]

end Converse

end State

end ShaderTemplate
