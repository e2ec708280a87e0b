import ShaderTemplate.Proofs.Expansion.Transition
import ShaderTemplate.Proofs.Names.Resolution

/-!
# Faults of an expansion

`Fault` lists what a step can fail with, as `Transition` lists what it can do: a fault of the line
that was read (`LineFault`), a loop without an end, or something that is still open after the last
file. Each constructor carries the condition of its failure, so a statement on failures is shown by
looking at the constructors. `halted_of_step` is the inversion; its other outcome is a success,
which needs that nothing is open any more.
-/

namespace ShaderTemplate

/-- What may be wrong with a file that is to be opened. -/
inductive OpenFault (env : Environment) (state : State) (path : Path) : Failure → Prop
  | recursive (opened : state.inputs.any (·.path == path) = true) :
      OpenFault env state path (.recursiveInclude path.text state.place)
  | unreadable {cause : ReadError} (closed : state.inputs.any (·.path == path) = false)
      (read : env.provider.read path = .error cause) :
      OpenFault env state path (.unreadable path.text cause)

/-- What may be wrong with a line that has just been read. -/
inductive LineFault (env : Environment) (raw : Text) (state : State) : Failure → Prop
  /-- no loop is open that could end -/
  | unexpectedEnd (word : Directive.endFor.isOn (Text.trim raw) = true) (loops : state.loops = []) :
      LineFault env raw state (.unexpectedEndFor state.place)
  /-- the innermost loop has begun in another file -/
  | mismatchedEnd {loop : Loop} {outer : List Loop}
      (word : Directive.endFor.isOn (Text.trim raw) = true) (loops : state.loops = loop :: outer)
      (depth : loop.depth ≠ state.inputs.length) :
      LineFault env raw state (.mismatchedEndFor loop.place state.place)
  /-- a hole cannot be filled -/
  | unfilled {failure : Failure} (word : Directive.endFor.isOn (Text.trim raw) = false)
      (expanding : state.Expanding) (fill : state.fillLine env (Text.trim raw) = .error failure) :
      LineFault env raw state failure
  /-- an include names no file -/
  | malformedInclude {filled argument : Text} {fault : IncludeFault}
      (word : Directive.endFor.isOn (Text.trim raw) = false) (expanding : state.Expanding)
      (fill : state.fillLine env (Text.trim raw) = .ok filled)
      (directive : Directive.includeFile.argument? filled = some argument)
      (parse : IncludeTarget.parse argument = .error fault) :
      LineFault env raw state (.malformedInclude fault.reason state.place)
  /-- an include names a file that is not there -/
  | includeNotFound {filled argument : Text} {target : IncludeTarget} {events : List Event}
      (word : Directive.endFor.isOn (Text.trim raw) = false) (expanding : state.Expanding)
      (fill : state.fillLine env (Text.trim raw) = .ok filled)
      (directive : Directive.includeFile.argument? filled = some argument)
      (parse : IncludeTarget.parse argument = .ok target)
      (located : state.locate env target = (events, none)) :
      LineFault env raw state (.includeNotFound target.text state.place)
  /-- an include names a file that cannot be opened -/
  | unopened {filled argument : Text} {target : IncludeTarget} {events : List Event} {path : Path}
      {failure : Failure}
      (word : Directive.endFor.isOn (Text.trim raw) = false) (expanding : state.Expanding)
      (fill : state.fillLine env (Text.trim raw) = .ok filled)
      (directive : Directive.includeFile.argument? filled = some argument)
      (parse : IncludeTarget.parse argument = .ok target)
      (located : state.locate env target = (events, some path))
      (fault : OpenFault env state path failure) :
      LineFault env raw state failure
  /-- the header of a loop cannot be read -/
  | malformedFor {filled argument : Text} {fault : LoopFault}
      (word : Directive.endFor.isOn (Text.trim raw) = false) (expanding : state.Expanding)
      (fill : state.fillLine env (Text.trim raw) = .ok filled)
      (noInclude : Directive.includeFile.argument? filled = none)
      (directive : Directive.forLoop.argument? filled = some argument)
      (parse : LoopHeader.parse argument = .error fault) :
      LineFault env raw state (.malformedFor fault.reason state.place)
  /-- the header of a loop does not refer to a dictionary -/
  | noLevel {filled argument : Text} {header : LoopHeader} {failure : Failure}
      (word : Directive.endFor.isOn (Text.trim raw) = false) (expanding : state.Expanding)
      (fill : state.fillLine env (Text.trim raw) = .ok filled)
      (noInclude : Directive.includeFile.argument? filled = none)
      (directive : Directive.forLoop.argument? filled = some argument)
      (parse : LoopHeader.parse argument = .ok header)
      (level : (state.names env).levelOf state.place header.reference = .error failure) :
      LineFault env raw state failure

/-- What a step can fail with. -/
inductive Fault (env : Environment) (state : State) : Failure → Prop
  /-- a file ends within a loop that was begun in it -/
  | unterminated {input : Input} {outer : List Input} {loop : Loop} {loops : List Loop}
      (inputs : state.inputs = input :: outer) (atEnd : input.next? = none)
      (loops : state.loops = loop :: loops) (depth : state.inputs.length ≤ loop.depth) :
      Fault env state (.unterminatedFor loop.place input.place.file)
  | line {input read : Input} {outer : List Input} {raw : Text} {failure : Failure}
      (inputs : state.inputs = input :: outer) (next : input.next? = some (raw, read))
      (fault : LineFault env raw { state with inputs := read :: outer } failure) :
      Fault env state failure
  /-- a loop is open after the last file -/
  | openLoop {loop : Loop} {loops : List Loop} (inputs : state.inputs = [])
      (loops : state.loops = loop :: loops) :
      Fault env state (.unterminatedFor loop.place loop.place.file)
  /-- a scope is open after the last file -/
  | openScopes (inputs : state.inputs = []) (loops : state.loops = [])
      (depth : 0 < state.scopes.depth) : Fault env state (.openScopes state.scopes.depth)

/-- No line is at fault for a scope that is left open. -/
theorem LineFault.ne_openScopes {env : Environment} {raw : Text} {state : State} {failure : Failure}
    (fault : LineFault env raw state failure) (count : Nat) : failure ≠ .openScopes count := by
  cases fault with
  | unfilled word expanding fill =>
    rcases Template.fill_eq_error fill with rfl | ⟨name, htext⟩
    · simp
    · rcases Names.textOf_eq_error htext with rfl | ⟨resolved, actual, rfl⟩ <;> simp
  | noLevel word expanding fill noInclude directive parse level =>
    rcases Names.levelOf_eq_error level with rfl | ⟨resolved, actual, rfl⟩ <;> simp
  | unopened word expanding fill directive parse located fault => cases fault <;> simp
  | unexpectedEnd | mismatchedEnd | malformedInclude | includeNotFound | malformedFor => simp

/-! ## The inversion -/

namespace State

variable {env : Environment} {state final : State} {result : Except Failure Unit}

theorem openFile_halted {path : Path} {indentation : Text}
    (h : state.openFile env path indentation = .halted result final) :
    ∃ failure, result = .error failure ∧ OpenFault env state path failure := by
  unfold openFile at h
  split at h
  · rename_i hopened
    cases h
    exact ⟨_, rfl, .recursive hopened⟩
  · rename_i hclosed
    split at h
    · rename_i cause hread
      cases h
      exact ⟨_, rfl, .unreadable (by simpa using hclosed) hread⟩
    · cases h

theorem endLoop_halted {raw : Text} (word : Directive.endFor.isOn (Text.trim raw) = true)
    (h : state.endLoop env = .halted result final) :
    ∃ failure, result = .error failure ∧ LineFault env raw state failure := by
  unfold endLoop at h
  split at h
  · rename_i hloops
    cases h
    exact ⟨_, rfl, .unexpectedEnd word hloops⟩
  · rename_i loop outer hloops
    split at h
    · rename_i hdepth
      cases h
      exact ⟨_, rfl, .mismatchedEnd word hloops hdepth⟩
    · split at h <;> cases h

/-- Only what an include names can be wrong with it, or the file that it names. -/
theorem includeFile_halted {indentation argument : Text}
    (h : state.includeFile env indentation argument = .halted result final) :
    (∃ fault, IncludeTarget.parse argument = .error fault ∧
        result = .error (.malformedInclude fault.reason state.place)) ∨
      ∃ target events found, IncludeTarget.parse argument = .ok target ∧
        state.locate env target = (events, found) ∧
        ((found = none ∧ result = .error (.includeNotFound target.text state.place)) ∨
          ∃ path failure, found = some path ∧ result = .error failure ∧
            OpenFault env state path failure) := by
  unfold includeFile at h
  split at h
  · rename_i fault hparse
    cases h
    exact .inl ⟨fault, hparse, rfl⟩
  · rename_i target hparse
    split at h
    rename_i events found hlocate
    dsimp only at h
    rw [foldl_record] at h
    refine .inr ⟨target, events, found, hparse, hlocate, ?_⟩
    split at h
    · cases h
      exact .inl ⟨rfl, rfl⟩
    · rename_i path
      obtain ⟨failure, hresult, hfault⟩ := openFile_halted h
      refine .inr ⟨path, failure, rfl, hresult, ?_⟩
      -- the attempts to find the file are noted before, which changes nothing that is open
      cases hfault with
      | recursive opened => exact .recursive opened
      | unreadable closed read => exact .unreadable closed read

theorem expandLine_halted {raw : Text} (word : Directive.endFor.isOn (Text.trim raw) = false)
    (expanding : state.Expanding)
    (h : state.expandLine env (Text.indentation raw) (Text.trim raw) = .halted result final) :
    ∃ failure, result = .error failure ∧ LineFault env raw state failure := by
  rw [expandLine_eq] at h
  split at h
  · rename_i failure hfill
    cases h
    exact ⟨failure, rfl, .unfilled word expanding hfill⟩
  · rename_i filled hfill
    split at h
    · rename_i argument _ hdirective
      rcases includeFile_halted h with ⟨fault, hparse, rfl⟩ |
        ⟨target, events, found, hparse, hlocate, ⟨rfl, rfl⟩ | ⟨path, failure, rfl, rfl, hfault⟩⟩
      · exact ⟨_, rfl, .malformedInclude word expanding hfill hdirective hparse⟩
      · exact ⟨_, rfl, .includeNotFound word expanding hfill hdirective hparse hlocate⟩
      · exact ⟨failure, rfl, .unopened word expanding hfill hdirective hparse hlocate hfault⟩
    · rename_i argument hnone hdirective
      rw [beginLoop_eq] at h
      split at h
      · rename_i fault hparse
        cases h
        exact ⟨_, rfl, .malformedFor word expanding hfill hnone hdirective hparse⟩
      · rename_i header hparse
        split at h
        · rename_i failure hlevel
          cases h
          exact ⟨failure, rfl, .noLevel word expanding hfill hnone hdirective hparse hlevel⟩
        · cases h
    · cases h

theorem readLine_halted {raw : Text} (h : state.readLine env raw = .halted result final) :
    ∃ failure, result = .error failure ∧ LineFault env raw state failure := by
  unfold readLine at h
  dsimp only at h
  split at h
  · rename_i word
    exact endLoop_halted word h
  · rename_i word
    have word : Directive.endFor.isOn (Text.trim raw) = false := by simpa using word
    split at h
    · rename_i loop outer hloops
      split at h
      · split at h <;> cases h
      · rename_i index hphase
        exact expandLine_halted word (by simp [Expanding, hloops, hphase]) h
    · rename_i hloops
      exact expandLine_halted word (by simp [Expanding, hloops]) h

/-- An expansion succeeds where nothing is open any more, and fails with a fault. -/
theorem halted_of_step (h : state.step env = .halted result final) :
    (result = .ok () ∧ final = state ∧ state.inputs = [] ∧ state.loops = [] ∧
        state.scopes.depth = 0) ∨
      ∃ failure, result = .error failure ∧ Fault env state failure := by
  unfold step at h
  split at h
  · rename_i hinputs
    unfold settle at h
    split at h
    · rename_i loop outer hloops
      cases h
      exact .inr ⟨_, rfl, .openLoop hinputs hloops⟩
    · rename_i hloops
      split at h
      · rename_i hdepth
        cases h
        exact .inr ⟨_, rfl, .openScopes hinputs hloops hdepth⟩
      · rename_i hdepth
        cases h
        exact .inl ⟨rfl, rfl, hinputs, hloops, by omega⟩
  · rename_i input outer hinputs
    split at h
    · rename_i hnext
      unfold closeFile at h
      split at h
      · rename_i loop loops hloops
        split at h
        · rename_i hdepth
          cases h
          refine .inr ⟨_, rfl, ?_⟩
          have hplace : state.place = input.place := by simp [place, hinputs]
          rw [hplace]
          exact .unterminated hinputs hnext hloops hdepth
        · cases h
      · cases h
    · rename_i raw read hnext
      obtain ⟨failure, hresult, hfault⟩ := readLine_halted h
      exact .inr ⟨failure, hresult, .line hinputs hnext hfault⟩

end State

end ShaderTemplate
