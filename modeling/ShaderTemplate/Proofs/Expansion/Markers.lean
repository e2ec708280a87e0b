import ShaderTemplate.Proofs.Expansion.Termination
import ShaderTemplate.Proofs.Output.Chunks

/-!
# Markers do not interfere

Markers are written and never read: an expansion with markers takes the same steps as one without.
`State.unmarked` leaves the markers out of what has been written, and `Environment.unmarked` turns
them off. Leaving out the markers after a step is the same as taking the step without them
(`step_unmarked`), and so for whole runs and passes.

## Shape of the argument

There is one equation for each function that `State.step` is made of. Each says how the function
commutes with leaving out the markers, so none needs to know what the others do.
-/

namespace ShaderTemplate

/-- Whether a piece is code, and no marker. -/
def Piece.isCode (piece : Piece) : Bool :=
  piece.code?.isSome

/-- The environment with all markers turned off. -/
def Environment.unmarked (env : Environment) : Environment :=
  { env with config := { env.config with lineMarkers := false, loopMarkers := false } }

/-- The state in which no marker has been written. -/
def State.unmarked (state : State) : State :=
  { state with pieces := state.pieces.filter Piece.isCode }

/-- The progress in which no marker has been written. -/
def Progress.unmarked : Progress → Progress
  | .running state => .running state.unmarked
  | .halted result state => .halted result state.unmarked

/-- The expanded file without markers. -/
def Expanded.unmarked (expanded : Expanded) : Expanded where
  pieces := expanded.pieces.filter Piece.isCode

/-- The pass whose expanded file has no markers. -/
def Pass.unmarked (pass : Pass) : Pass :=
  { pass with result := pass.result.map Expanded.unmarked }

namespace State

variable (env : Environment) (state : State)

/-! ## Small operations -/

@[simp] theorem unmarked_provider : env.unmarked.provider = env.provider := rfl

@[simp] theorem unmarked_names : state.unmarked.names env.unmarked = state.names env := rfl

@[simp] theorem unmarked_inputs : state.unmarked.inputs = state.inputs := rfl

@[simp] theorem unmarked_loops : state.unmarked.loops = state.loops := rfl

@[simp] theorem unmarked_scopes : state.unmarked.scopes = state.scopes := rfl

@[simp] theorem unmarked_place : state.unmarked.place = state.place := rfl

@[simp] theorem record_unmarked (event : Event) :
    (state.record event).unmarked = state.unmarked.record event := rfl

@[simp] theorem enterLoop_unmarked (loop : Loop) :
    (state.enterLoop loop).unmarked = state.unmarked.enterLoop loop := rfl

@[simp] theorem leaveLoop_unmarked (outer : List Loop) :
    (state.leaveLoop outer).unmarked = state.unmarked.leaveLoop outer := rfl

@[simp] theorem fail_unmarked (failure : Failure) :
    (state.fail failure).unmarked = state.unmarked.fail failure := rfl

/-- A marker that is written is left out again. -/
@[simp] theorem markLine_unmarked : (markLine env state).unmarked = state.unmarked := by
  unfold markLine
  split <;> rfl

@[simp] theorem markLoop_unmarked (note : LoopNote) :
    (markLoop env note state).unmarked = state.unmarked := by
  unfold markLoop
  split <;> rfl

/-- No marker is written where they are turned off. -/
@[simp] theorem markLine_env_unmarked : markLine env.unmarked state = state := rfl

@[simp] theorem markLoop_env_unmarked (note : LoopNote) :
    markLoop env.unmarked note state = state := rfl

@[simp] theorem noteOpened_unmarked (path : Path) :
    (noteOpened path state).unmarked = noteOpened path state.unmarked := by
  unfold noteOpened unmarked
  dsimp only
  split <;> rfl

@[simp] theorem rewind_unmarked (line : Nat) :
    (rewind line state).unmarked = rewind line state.unmarked := by
  unfold rewind unmarked
  dsimp only
  split <;> rfl

@[simp] theorem writeCode_unmarked (indentation line : Text) :
    (writeCode indentation line state).unmarked = writeCode indentation line state.unmarked := by
  unfold writeCode unmarked
  dsimp only
  split <;> rfl

/-! ## Steps -/

theorem openFile_unmarked (path : Path) (indentation : Text) :
    (state.openFile env path indentation).unmarked =
      state.unmarked.openFile env.unmarked path indentation := by
  unfold openFile
  rw [unmarked_inputs, unmarked_provider]
  split
  · rfl
  · cases env.provider.read path with
    | error cause => rfl
    | ok text =>
      have hopened : ((state.record (.opened path)).noteOpened path).unmarked =
          (state.unmarked.record (.opened path)).noteOpened path := by
        rw [noteOpened_unmarked, record_unmarked]
      simp only [Progress.unmarked, markLine_unmarked, markLine_env_unmarked, ← hopened]
      rfl

theorem closeFile_unmarked :
    (state.closeFile env).unmarked = state.unmarked.closeFile env.unmarked := by
  unfold closeFile
  rw [unmarked_loops, unmarked_inputs]
  split
  · split
    · rfl
    · simp only [Progress.unmarked, markLine_unmarked, markLine_env_unmarked]
      rfl
  · simp only [Progress.unmarked, markLine_unmarked, markLine_env_unmarked]
    rfl

theorem includeFile_unmarked (indentation argument : Text) :
    (state.includeFile env indentation argument).unmarked =
      state.unmarked.includeFile env.unmarked indentation argument := by
  unfold includeFile
  cases IncludeTarget.parse argument with
  | error fault => rfl
  | ok target =>
    have hlocate : state.unmarked.locate env.unmarked target = state.locate env target := by
      cases target <;> rfl
    dsimp only
    rw [hlocate]
    obtain ⟨events, found⟩ := state.locate env target
    have hrecord : (events.foldl record state).unmarked = events.foldl record state.unmarked := by
      rw [foldl_record, foldl_record]
      rfl
    dsimp only
    rw [← hrecord]
    cases found with
    | none => rfl
    | some path => exact openFile_unmarked env _ path _

theorem beginWith_unmarked (header : LoopHeader) (reference : Text) (keys : List Text) :
    (state.beginWith env header reference keys).unmarked =
      state.unmarked.beginWith env.unmarked header reference keys := by
  cases keys <;> simp [beginWith, loopOf]

theorem beginLoop_unmarked (argument : Text) :
    (state.beginLoop env argument).unmarked = state.unmarked.beginLoop env.unmarked argument := by
  rw [beginLoop_eq, beginLoop_eq, unmarked_names, unmarked_place]
  cases LoopHeader.parse argument with
  | error fault => rfl
  | ok header =>
    dsimp only
    cases (state.names env).levelOf state.place header.reference with
    | error failure => rfl
    | ok level => exact congrArg Progress.running (beginWith_unmarked env state _ _ _)

theorem endLoop_unmarked :
    (state.endLoop env).unmarked = state.unmarked.endLoop env.unmarked := by
  cases hloops : state.loops with
  | nil =>
    unfold endLoop
    simp only [unmarked_loops, hloops]
    rfl
  | cons loop outer =>
    by_cases hdepth : loop.depth = state.inputs.length
    · have hunmarked : state.unmarked.loops = loop :: outer := hloops
      cases hphase : loop.phase with
      | iteration index =>
        rw [endLoop_iteration hloops hdepth hphase, endLoop_iteration hunmarked hdepth hphase]
        cases loop.next? with
        | none => simp [Progress.unmarked]
        | some found => simp [Progress.unmarked]
      | skipping nested =>
        rw [endLoop_skipping hloops hdepth hphase, endLoop_skipping hunmarked hdepth hphase]
        cases nested with
        | zero => simp [Progress.unmarked]
        | succ nested => rfl
    · unfold endLoop
      simp only [unmarked_loops, unmarked_inputs, hloops, ne_eq, hdepth, not_false_eq_true, if_true]
      rfl

theorem expandLine_unmarked (indentation line : Text) :
    (state.expandLine env indentation line).unmarked =
      state.unmarked.expandLine env.unmarked indentation line := by
  have hfill : state.unmarked.fillLine env.unmarked line = state.fillLine env line := rfl
  rw [expandLine_eq, expandLine_eq, hfill]
  cases state.fillLine env line with
  | error failure => rfl
  | ok filled =>
    dsimp only
    split
    · exact includeFile_unmarked env state _ _
    · exact beginLoop_unmarked env state _
    · exact congrArg Progress.running (writeCode_unmarked state _ _)

theorem readLine_unmarked (raw : Text) :
    (state.readLine env raw).unmarked = state.unmarked.readLine env.unmarked raw := by
  unfold readLine
  dsimp only
  rw [unmarked_loops]
  split
  · exact endLoop_unmarked env state
  · split
    · split
      · split <;> rfl
      · exact expandLine_unmarked env state _ _
    · exact expandLine_unmarked env state _ _

/-- A step does the same with and without markers. -/
theorem step_unmarked :
    (state.step env).unmarked = state.unmarked.step env.unmarked := by
  unfold step
  rw [unmarked_inputs]
  split
  · unfold settle
    rw [unmarked_loops, unmarked_scopes]
    split
    · rfl
    · split <;> rfl
  · split
    · exact closeFile_unmarked env state
    · rename_i raw read hnext
      exact readLine_unmarked env { state with inputs := read :: _ } raw

end State

/-! ## Runs and passes -/

theorem Progress.run_unmarked (env : Environment) (steps : Nat) (progress : Progress) :
    progress.unmarked.run env.unmarked steps =
      (progress.run env steps).map fun halted => (halted.1, halted.2.unmarked) := by
  induction steps generalizing progress with
  | zero => cases progress <;> rfl
  | succ steps ih =>
    cases progress with
    | halted result state => rfl
    | running state =>
      have hrun := ih (state.step env)
      rw [State.step_unmarked] at hrun
      exact hrun

theorem Pass.ofHalted_unmarked (result : Except Failure Unit) (state : State) :
    ofHalted (result, state.unmarked) = (ofHalted (result, state)).unmarked := by
  cases result <;> simp [ofHalted, unmarked, State.unmarked, Expanded.unmarked, Except.map]

theorem Pass.within?_unmarked (steps : Nat) (env : Environment) (shader : Path) :
    within? steps env.unmarked shader = (within? steps env shader).map unmarked := by
  have hopen (path : Path) : State.initial.openFile env.unmarked path [] =
      (State.initial.openFile env path []).unmarked :=
    (State.openFile_unmarked env State.initial path []).symm
  unfold within?
  rw [State.unmarked_provider]
  dsimp only
  split
  · rw [hopen, Progress.run_unmarked, Option.map_map, Option.map_map]
    congr 1
    funext halted
    exact Pass.ofHalted_unmarked halted.1 halted.2
  · rfl

/-! ## What is left of the output -/

namespace Expanded

variable (expanded : Expanded)

theorem codeLines_unmarked : expanded.unmarked.codeLines = expanded.codeLines := by
  unfold codeLines unmarked
  rw [List.filterMap_filter]
  apply List.filterMap_congr
  intro piece _
  cases piece <;> rfl

theorem chunks_unmarked : expanded.unmarked.chunks = expanded.chunks := by
  rw [chunks, chunks, codeLines_unmarked]

theorem source_unmarked : expanded.unmarked.source = expanded.codeLines.flatMap CodeLine.text := by
  unfold source unmarked codeLines
  induction expanded.pieces with
  | nil => rfl
  | cons piece pieces ih =>
    cases piece with
    | code line => exact congrArg (line.text ++ ·) ih
    | lineMarker | loopMarker => exact ih

/-- The chunks make up the code. -/
theorem flatMap_source_chunks :
    expanded.chunks.flatMap Chunk.source = expanded.codeLines.flatMap CodeLine.text := by
  have hruns (runs : List (List CodeLine)) :
      (runs.filterMap Chunk.ofRun?).flatMap Chunk.source =
        runs.flatten.flatMap CodeLine.text := by
    induction runs with
    | nil => rfl
    | cons run runs ih =>
      rw [List.flatten_cons, List.flatMap_append, ← ih]
      cases run <;> rfl
  rw [chunks, Chunk.ofLines, hruns, List.flatten_splitBy]

end Expanded

/-- **Markers do not interfere with the expansion.** For every store, dictionary, include paths and
file, and any two choices of markers: both passes have a result, open the same files in the same
order, keep the same journal, and either fail alike or have the same chunks. Without any markers the
text is what the chunks make up. -/
theorem FileStore.markers_do_not_interfere (store : FileStore) (dictionary : Dictionary)
    (includePaths : List Path) (shader : Path)
    (lineMarkers loopMarkers lineMarkers' loopMarkers' : Bool) :
    ∃ pass pass',
      Pass.run? ⟨store.memory, dictionary, includePaths, lineMarkers, loopMarkers⟩ shader =
          some pass ∧
        Pass.run? ⟨store.memory, dictionary, includePaths, lineMarkers', loopMarkers'⟩ shader =
          some pass' ∧
        pass.opened = pass'.opened ∧ pass.journal = pass'.journal ∧
        pass.result.map Expanded.chunks = pass'.result.map Expanded.chunks ∧
        (lineMarkers = false → loopMarkers = false → ∀ expanded, pass.result = .ok expanded →
          expanded.source = expanded.chunks.flatMap Chunk.source) := by
  have hpass (line loop : Bool) : ∃ pass,
      Pass.run? ⟨store.memory, dictionary, includePaths, line, loop⟩ shader = some pass ∧
        Pass.run? ⟨store.memory, dictionary, includePaths, false, false⟩ shader =
          some pass.unmarked := by
    obtain ⟨pass, hpass⟩ := Option.isSome_iff_exists.mp <| @Pass.run?_isSome
      ⟨store.memory, dictionary, includePaths, line, loop⟩ store.listsAll_memory shader
    refine ⟨pass, hpass, ?_⟩
    have hunmarked (steps : Nat) :=
      Pass.within?_unmarked steps ⟨store.memory, dictionary, includePaths, line, loop⟩ shader
    exact (hunmarked _).trans (congrArg (Option.map Pass.unmarked) hpass)
  obtain ⟨pass, hrun, hunmarked⟩ := hpass lineMarkers loopMarkers
  obtain ⟨pass', hrun', hunmarked'⟩ := hpass lineMarkers' loopMarkers'
  have hsame : pass.unmarked = pass'.unmarked := Option.some.inj (hunmarked.symm.trans hunmarked')
  have hopened : pass.unmarked.opened = pass'.unmarked.opened := congrArg Pass.opened hsame
  have hjournal : pass.unmarked.journal = pass'.unmarked.journal := congrArg Pass.journal hsame
  have hresult := congrArg (fun pass => pass.result.map Expanded.chunks) hsame
  have hchunks (pass : Pass) : pass.unmarked.result.map Expanded.chunks =
      pass.result.map Expanded.chunks := by
    unfold Pass.unmarked
    cases pass.result with
    | error failure => rfl
    | ok expanded => exact congrArg Except.ok expanded.chunks_unmarked
  simp only [hchunks] at hresult
  refine ⟨pass, pass', hrun, hrun', hopened, hjournal, hresult, ?_⟩
  rintro rfl rfl expanded hok
  -- with no markers to leave out, the pass stays as it is
  have hself : pass = pass.unmarked := Option.some.inj (hrun.symm.trans hunmarked)
  have hexpanded : expanded = expanded.unmarked := by
    have hresult := congrArg Pass.result hself
    rw [hok, Pass.unmarked, hok] at hresult
    exact Except.ok.inj hresult
  rw [Expanded.flatMap_source_chunks, ← Expanded.source_unmarked, ← hexpanded]

end ShaderTemplate
