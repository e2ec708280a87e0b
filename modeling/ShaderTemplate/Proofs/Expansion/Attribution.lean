import ShaderTemplate.Proofs.Expansion.Consistency
import ShaderTemplate.Proofs.Path.Canonical
import ShaderTemplate.Proofs.Session.Tracking

/-!
# Where failures point

A failure says in which file and at which line something went wrong, and some failures name a second
file or a second line. `Failure.Fits` says what is true of them: what is named are opened files and
lines of theirs, and an `#endfor` stands where one is reported.

## Shape of the argument

A failure takes its places from two sources. One is the line that has just been read, which is a
line of the innermost open file. The other is a loop, which was told the place of its header when it
was begun, maybe several files further out. `State.Attributed` keeps the two together: the text in
the place of a loop is the path of the open file that the depth of the loop leads to. That this file
is listed in the spelling in which it is open takes a provider that gives each file one spelling
(`Provider.Spells`).
-/

namespace ShaderTemplate

/-- A provider for which a path is what its steps are: resolved paths with the same steps are
spelled alike, and paths with the same steps lead to the same contents. -/
structure Provider.Spells (provider : Provider) : Prop where
  absolute : ∀ a b, (provider.absolute a == provider.absolute b) = true →
    provider.absolute a = provider.absolute b
  read : ∀ a b, (a == b) = true → provider.read a = provider.read b

theorem FileStore.spells_memory (store : FileStore) : store.memory.Spells where
  absolute _ _ := Path.normalize_eq_of_beq
  read _ _ := store.read_congr

/-! ## The files of open loops -/

/-- A loop was begun at a line of the file that its depth leads to, the innermost file being the
first of these. -/
structure Loop.BegunIn (loop : Loop) (paths : List Path) : Prop where
  depth : 0 < loop.depth
  line : 0 < loop.place.line
  file : ∃ path, paths.reverse[loop.depth - 1]? = some path ∧ loop.place.file = path.text

namespace Loop.BegunIn

variable {loop : Loop} {path : Path} {paths : List Path}

theorem cons (begun : loop.BegunIn paths) : loop.BegunIn (path :: paths) := by
  obtain ⟨file, hfile, htext⟩ := begun.file
  obtain ⟨hlt, -⟩ := List.getElem?_eq_some_iff.mp hfile
  exact ⟨begun.depth, begun.line, file,
    by rw [List.reverse_cons, List.getElem?_append_left hlt, hfile], htext⟩

/-- A loop that was begun further out does not need the innermost file. -/
theorem of_cons (begun : loop.BegunIn (path :: paths)) (depth : loop.depth ≤ paths.length) :
    loop.BegunIn paths := by
  obtain ⟨file, hfile, htext⟩ := begun.file
  have hpos := begun.depth
  have hlt : loop.depth - 1 < paths.reverse.length := by
    rw [List.length_reverse]
    omega
  rw [List.reverse_cons, List.getElem?_append_left hlt] at hfile
  exact ⟨hpos, begun.line, file, hfile, htext⟩

/-- The file of a loop that was begun in the innermost file. -/
theorem file_of_top (begun : loop.BegunIn (path :: paths)) (depth : loop.depth = paths.length + 1) :
    loop.place.file = path.text := by
  obtain ⟨file, hfile, htext⟩ := begun.file
  have hindex : loop.depth - 1 = paths.reverse.length := by
    rw [List.length_reverse]
    omega
  rw [List.reverse_cons, hindex, List.getElem?_concat_length] at hfile
  cases hfile
  exact htext

end Loop.BegunIn

/-- The open files have been resolved and noted, and the open loops name files among them. -/
structure State.Attributed (env : Environment) (state : State) : Prop where
  resolved : ∀ path ∈ state.inputs.map Input.path, ∃ written, path = env.provider.absolute written
  noted : ∀ path ∈ state.inputs.map Input.path, state.opened.contains path = true
  headers : ∀ loop ∈ state.loops, loop.BegunIn (state.inputs.map Input.path)

namespace State

@[simp] theorem map_path_rewind_inputs (state : State) (line : Nat) :
    (rewind line state).inputs.map Input.path = state.inputs.map Input.path := by
  unfold rewind; split <;> simp_all

namespace Attributed

variable {env : Environment} {state after : State} {input : Input} {outer : List Input}

/-- Nothing changes for a step that keeps the files and the headers. -/
theorem of_same (attributed : state.Attributed env)
    (paths : after.inputs.map Input.path = state.inputs.map Input.path)
    (opened : after.opened = state.opened)
    (loops : after.loops.map (fun loop => (loop.depth, loop.place)) =
      state.loops.map fun loop => (loop.depth, loop.place)) :
    after.Attributed env := by
  refine ⟨paths ▸ attributed.resolved, ?_, fun loop hloop => ?_⟩
  · rw [paths, opened]
    exact attributed.noted
  · obtain ⟨other, hother, hdepth, hplace⟩ := Loop.exists_of_mem_same loops hloop
    obtain ⟨hpos, hline, hfile⟩ := attributed.headers other hother
    rw [hdepth, hplace] at hfile
    exact ⟨hdepth ▸ hpos, hplace ▸ hline, paths ▸ hfile⟩

theorem leaveLoop (attributed : state.Attributed env) {loop : Loop} {loops : List Loop}
    (hloops : state.loops = loop :: loops) : (state.leaveLoop loops).Attributed env :=
  ⟨attributed.resolved, attributed.noted,
    fun other hother => attributed.headers other (hloops ▸ List.mem_cons_of_mem _ hother)⟩

/-- A loop begins at the line that is read. -/
theorem beginWith (attributed : state.Attributed env) (inputs : state.inputs = input :: outer)
    (counted : 1 ≤ input.line) (header : LoopHeader) (reference : Text) (keys : List Text) :
    (state.beginWith env header reference keys).Attributed env := by
  have hbegun (phase : Phase) : (state.loopOf header reference keys phase).BegunIn
      (state.inputs.map Input.path) := by
    have hplace : state.place = input.place := by simp [place, inputs]
    have hindex : state.inputs.length - 1 = (outer.map Input.path).reverse.length := by
      simp [inputs]
    have hline : 0 < (state.loopOf header reference keys phase).place.line := by
      simpa [loopOf, hplace, Input.place] using Nat.lt_of_succ_le counted
    refine ⟨by simp [loopOf, inputs], hline, input.path, ?_, by simp [loopOf, hplace, Input.place]⟩
    simp only [loopOf]
    rw [hindex, inputs, List.map_cons, List.reverse_cons, List.getElem?_concat_length]
  refine ⟨by simpa using attributed.resolved, by simpa using attributed.noted, ?_⟩
  rw [beginWith_inputs]
  cases keys with
  | nil =>
    rw [beginWith_nil_loops]
    exact List.forall_mem_cons.mpr ⟨hbegun _, attributed.headers⟩
  | cons key keys =>
    rw [beginWith_cons_loops]
    exact List.forall_mem_cons.mpr ⟨hbegun _, attributed.headers⟩

theorem afterOpen (attributed : state.Attributed env) {path : Path} {text : Text}
    (indentation : Text) (resolved : ∃ written, path = env.provider.absolute written) :
    (state.afterOpen env path text indentation).Attributed env := by
  refine ⟨?_, ?_, fun loop hloop => ?_⟩
  · rw [afterOpen_inputs]
    exact List.forall_mem_cons.mpr ⟨resolved, attributed.resolved⟩
  · rw [afterOpen_inputs, afterOpen_opened]
    refine List.forall_mem_cons.mpr ⟨contains_noteOpened path state, fun other hother => ?_⟩
    exact contains_noteOpened_of_contains (attributed.noted other hother)
  · rw [afterOpen_loops] at hloop
    rw [afterOpen_inputs]
    exact (attributed.headers loop hloop).cons

theorem move {raw : Text} (attributed : state.Attributed env)
    (inputs : state.inputs = input :: outer) (counted : 1 ≤ input.line)
    (move : LineMove env raw state after) : after.Attributed env := by
  cases move with
  | nestedEnd word loops | nestedHeader word loops =>
    exact attributed.of_same rfl rfl (by simp [loops])
  | skipped | code => exact attributed.of_same (by simp) (by simp) (by simp)
  | @nextKey loop rest key next word loops depth more =>
    obtain ⟨index, -, -, rfl⟩ := Loop.next?_eq_some more
    exact attributed.of_same (by simp) (by simp) (by simp [loops])
  | lastEnd word loops =>
    exact (attributed.leaveLoop loops).of_same (by simp) (by simp) (by simp)
  | @openFile filled argument text target events path _ _ _ _ _ located opens =>
    have hrecord : (events.foldl record state).Attributed env := by
      rw [foldl_record]
      exact attributed.of_same rfl rfl rfl
    have hresolved := (locate_spec env state target).2 path (by rw [located]; rfl)
    exact hrecord.afterOpen _ hresolved
  | beginLoop | beginEmpty => exact attributed.beginWith inputs counted _ _ _

theorem transition (attributed : state.Attributed env) (nested : state.Nested)
    (transition : Transition env state after) : after.Attributed env := by
  cases transition with
  | @close input outer inputs atEnd above =>
    have hwithin : ∀ loop ∈ state.loops, loop.depth ≤ outer.length := by
      simpa using (nested.transition (@Transition.close env _ _ _ inputs atEnd above)).within
    obtain ⟨hresolved, hnoted, hheaders⟩ := attributed
    rw [inputs, List.map_cons] at hresolved hnoted hheaders
    refine ⟨?_, ?_, fun loop hloop => ?_⟩
    · rw [markLine_inputs]
      exact (List.forall_mem_cons.mp hresolved).2
    · rw [markLine_inputs, markLine_opened]
      exact (List.forall_mem_cons.mp hnoted).2
    · rw [markLine_loops] at hloop
      rw [markLine_inputs]
      exact (hheaders loop hloop).of_cons (by simpa using hwithin loop hloop)
  | @line _ input read outer raw inputs next move =>
    obtain ⟨text, -, hread⟩ := Option.map_eq_some_iff.mp next
    cases hread
    have hread : State.Attributed env
        { state with inputs := { input with line := input.line + 1 } :: outer } :=
      attributed.of_same (by simp [inputs]) rfl rfl
    exact hread.move rfl (Nat.le_add_left 1 _) move

end Attributed

end State

/-- The files of the open loops are open, in all states of a run. -/
theorem Reachable.attributed {env : Environment} {path : Path} {state : State}
    (resolved : ∃ written, path = env.provider.absolute written)
    (reachable : Reachable env path state) : state.Attributed env := by
  have hinitial : State.initial.Attributed env :=
    ⟨by simp [State.initial], by simp [State.initial], by simp [State.initial]⟩
  refine (@Reachable.invariant env path (fun state => state.Nested ∧ state.Attributed env)
    (fun text _ => ?_) (fun _ _ h move => ?_) state reachable).2
  · exact ⟨State.Nested.opened path text, hinitial.afterOpen [] resolved⟩
  · exact ⟨h.1.transition move, h.2.transition h.1 move⟩

/-! ## What a failure says -/

/-- A place is a line of one of these files, which reads so. -/
def Place.IsLine (provider : Provider) (files : List Path) (place : Place) (raw : Text) : Prop :=
  ∃ path ∈ files, path.text = place.file ∧ 1 ≤ place.line ∧
    ∃ text, provider.read path = .ok text ∧ (Text.lines text)[place.line - 1]? = some raw

/-- A failure is true to the files that were opened: it names lines of them, and in particular

* the `#endfor` that it reports stands at its place,
* the header of a loop that ends in a wrong file lies in another file,
* a file that is included within itself was opened,
* a loop without an end is reported for the file of its header,
* a file that could not be read was not opened.
-/
def Failure.Fits (provider : Provider) (files : List Path) : Failure → Prop
  | unreadable file _ => files.contains ⟨file⟩ = false
  | shaderNotFound _ => files = []
  | recursiveInclude file place =>
    file ∈ files.map Path.text ∧ ∃ raw, place.IsLine provider files raw
  | unexpectedEndFor place =>
    ∃ raw, place.IsLine provider files raw ∧ Directive.endFor.isOn (Text.trim raw) = true
  | mismatchedEndFor header place =>
    (∃ raw, place.IsLine provider files raw ∧ Directive.endFor.isOn (Text.trim raw) = true) ∧
      (∃ raw, header.IsLine provider files raw) ∧
      ((⟨header.file⟩ : Path) == ⟨place.file⟩) = false
  | unterminatedFor header file => file = header.file ∧ ∃ raw, header.IsLine provider files raw
  | openScopes _ => False
  | includeNotFound _ place | unterminatedSubstitution place | malformedInclude _ place
  | malformedFor _ place | unresolvedName _ place | notAString _ _ _ place
  | notADictionary _ _ place => ∃ raw, place.IsLine provider files raw

/-- The place of a failure is a line of an opened file, unless a file could not be read or there was
none to open. -/
theorem Failure.Fits.isLine {provider : Provider} {files : List Path} {failure : Failure}
    (fits : failure.Fits provider files) (opened : files ≠ [])
    (readable : ∀ file cause, failure ≠ .unreadable file cause) :
    ∃ raw, failure.place.IsLine provider files raw := by
  cases failure with
  | unreadable file cause => exact absurd rfl (readable file cause)
  | shaderNotFound path => exact absurd fits opened
  | recursiveInclude file place => exact fits.2
  | unexpectedEndFor place =>
    obtain ⟨raw, hline, -⟩ := fits
    exact ⟨raw, hline⟩
  | mismatchedEndFor header place =>
    obtain ⟨⟨raw, hline, -⟩, -⟩ := fits
    exact ⟨raw, hline⟩
  | unterminatedFor header file => exact fits.2
  | openScopes count => exact fits.elim
  | includeNotFound | unterminatedSubstitution | malformedInclude | malformedFor | unresolvedName
  | notAString | notADictionary => exact fits

/-! ## The places of a state -/

section Places

variable {env : Environment} {state : State} {files : List Path} {raw : Text} {failure : Failure}

/-- A line that an open file has is a line of the file. -/
theorem Input.isLine {input : Input} {line : Nat} (shows : input.Shows env)
    (listed : input.path ∈ files) (counted : 1 ≤ line) (found : input.lines[line - 1]? = some raw) :
    Place.IsLine env.provider files ⟨input.path.text, line⟩ raw := by
  obtain ⟨text, hread, hlines⟩ := shows
  refine ⟨input.path, listed, rfl, counted, text, hread, ?_⟩
  rw [hlines] at found
  simpa using found

/-- The headers of the open loops are lines of the open files. -/
theorem State.Attributed.isLine_header {loop : Loop} (attributed : state.Attributed env)
    (placed : state.Placed) (faithful : state.Faithful env)
    (listed : ∀ path ∈ state.inputs.map Input.path, path ∈ files) (mem : loop ∈ state.loops) :
    ∃ raw, loop.place.IsLine env.provider files raw := by
  obtain ⟨-, hcounted, path, hpath, hfile⟩ := attributed.headers loop mem
  obtain ⟨-, input, hinput, hline⟩ := placed.header loop mem
  rw [← List.map_reverse, List.getElem?_map, hinput] at hpath
  cases hpath
  have hmem : input ∈ state.inputs := List.mem_reverse.mp (List.mem_of_getElem? hinput)
  have hcursor := placed.cursor input hmem
  have hplace : loop.place = ⟨input.path.text, loop.place.line⟩ := by rw [← hfile]
  have hfound := @Array.getElem?_eq_getElem _ input.lines (loop.place.line - 1) (by omega)
  rw [hplace]
  have hlisted := listed _ (List.mem_map_of_mem hmem)
  exact ⟨_, Input.isLine (faithful input hmem) hlisted hcounted hfound⟩

/-- A loop that was not begun in the innermost file was begun in another one. -/
theorem State.Attributed.ne_file {loop : Loop} {input : Input} {outer : List Input}
    (attributed : state.Attributed env) (nested : state.Nested) (placed : state.Placed)
    (mem : loop ∈ state.loops) (inputs : state.inputs = input :: outer)
    (depth : loop.depth ≠ state.inputs.length) :
    ((⟨loop.place.file⟩ : Path) == ⟨input.path.text⟩) = false := by
  have hle := nested.within loop mem
  have hbegun := attributed.headers loop mem
  have hdistinct := placed.distinct
  rw [inputs, List.length_cons] at hle depth
  rw [inputs, List.map_cons] at hbegun hdistinct
  obtain ⟨-, -, path, hpath, hfile⟩ := hbegun.of_cons (by rw [List.length_map]; omega)
  have hmem := List.mem_reverse.mp (List.mem_of_getElem? hpath)
  have hne := (List.pairwise_cons.mp hdistinct).1 path hmem
  rw [hfile, BEq.comm]
  exact hne

end Places

/-! ## Failures of an expansion -/

/-- All that is named after a line was read: the line itself, the open files and the headers of the
open loops. -/
structure State.Sited (env : Environment) (files : List Path) (raw : Text) (state : State) :
    Prop where
  here : state.place.IsLine env.provider files raw
  listed : ∀ path ∈ state.inputs.map Input.path, path ∈ files
  headers : ∀ loop ∈ state.loops, ∃ raw, loop.place.IsLine env.provider files raw
  apart : ∀ loop ∈ state.loops, loop.depth ≠ state.inputs.length →
    ((⟨loop.place.file⟩ : Path) == ⟨state.place.file⟩) = false

section Failures

variable {env : Environment} {state : State} {files : List Path} {raw : Text} {failure : Failure}

/-- A file that cannot be read is not among those that were opened. -/
theorem not_contains_of_unreadable {path : Path} {cause : ReadError}
    (opens : ∀ path ∈ files, env.CanOpen path) (spells : env.provider.Spells)
    (read : env.provider.read path = .error cause) : files.contains path = false := by
  rw [← Bool.not_eq_true]
  intro hcontains
  obtain ⟨other, hother, hsame⟩ := List.contains_iff_exists_mem_beq.mp hcontains
  obtain ⟨text, htext⟩ := (opens other hother).readable
  rw [← spells.read path other hsame, read] at htext
  cases htext

theorem OpenFault.fits {path : Path} (fault : OpenFault env state path failure)
    (sited : state.Sited env files raw) (opens : ∀ path ∈ files, env.CanOpen path)
    (spells : env.provider.Spells) (resolved : ∃ written, path = env.provider.absolute written) :
    failure.Fits env.provider files := by
  cases fault with
  | recursive opened =>
    obtain ⟨input, hinput, hsame⟩ := List.any_eq_true.mp opened
    have hmem := sited.listed _ (List.mem_map_of_mem hinput)
    obtain ⟨written, hwritten⟩ := (opens _ hmem).resolved
    obtain ⟨written', rfl⟩ := resolved
    rw [hwritten] at hsame hmem
    rw [spells.absolute _ _ hsame] at hmem
    exact ⟨List.mem_map_of_mem hmem, raw, sited.here⟩
  | unreadable closed read => exact not_contains_of_unreadable opens spells read

theorem LineFault.fits (fault : LineFault env raw state failure)
    (sited : state.Sited env files raw) (opens : ∀ path ∈ files, env.CanOpen path)
    (spells : env.provider.Spells) : failure.Fits env.provider files := by
  have here : ∃ raw, state.place.IsLine env.provider files raw := ⟨raw, sited.here⟩
  cases fault with
  | unexpectedEnd word => exact ⟨raw, sited.here, word⟩
  | @mismatchedEnd loop outer word loops depth =>
    have hmem : loop ∈ state.loops := by simp [loops]
    exact ⟨⟨raw, sited.here, word⟩, sited.headers loop hmem, sited.apart loop hmem depth⟩
  | unfilled word expanding fill =>
    rcases Template.fill_eq_error fill with rfl | ⟨name, htext⟩
    · exact here
    · rcases Names.textOf_eq_error htext with rfl | ⟨resolved, actual, rfl⟩ <;> exact here
  | noLevel word expanding fill noInclude directive parse level =>
    rcases Names.levelOf_eq_error level with rfl | ⟨resolved, actual, rfl⟩ <;> exact here
  | @unopened filled argument target events path failure word expanding fill directive parse located
      fault =>
    have hresolved := (State.locate_spec env state target).2 path (by rw [located]; rfl)
    exact fault.fits sited opens spells hresolved
  | malformedInclude | includeNotFound | malformedFor => exact here

/-- The open files are among those that were opened, in the spelling they were opened under. -/
theorem State.Attributed.listed (attributed : state.Attributed env)
    (opens : ∀ path ∈ files, env.CanOpen path) (spells : env.provider.Spells)
    (kept : ∀ path, state.opened.contains path = true → files.contains path = true) :
    ∀ path ∈ state.inputs.map Input.path, path ∈ files := by
  intro path hpath
  obtain ⟨written, rfl⟩ := attributed.resolved path hpath
  obtain ⟨other, hother, hsame⟩ :=
    List.contains_iff_exists_mem_beq.mp (kept _ (attributed.noted _ hpath))
  obtain ⟨written', rfl⟩ := (opens other hother).resolved
  rw [spells.absolute _ _ hsame]
  exact hother

theorem State.Attributed.sited {input read : Input} {outer : List Input}
    (attributed : state.Attributed env) (consistent : state.Consistent env)
    (faithful : state.Faithful env) (listed : ∀ path ∈ state.inputs.map Input.path, path ∈ files)
    (inputs : state.inputs = input :: outer) (next : input.next? = some (raw, read)) :
    State.Sited env files raw { state with inputs := read :: outer } := by
  obtain ⟨text, htext, hread⟩ := Option.map_eq_some_iff.mp next
  cases hread
  have hinput : input ∈ state.inputs := by simp [inputs]
  refine ⟨?_, by simpa [inputs] using listed, fun loop hloop => ?_, fun loop hloop hdepth => ?_⟩
  · have hlisted : input.path ∈ files := listed _ (List.mem_map_of_mem hinput)
    have hline : Place.IsLine env.provider files ⟨input.path.text, input.line + 1⟩ raw :=
      Input.isLine (faithful input hinput) hlisted (Nat.le_add_left 1 _) htext
    exact hline
  · exact attributed.isLine_header consistent.placed faithful listed hloop
  · have hne := attributed.ne_file consistent.nested consistent.placed hloop inputs
      (by simpa [inputs] using hdepth)
    exact hne

theorem Fault.fits (fault : Fault env state failure) (attributed : state.Attributed env)
    (consistent : state.Consistent env) (faithful : state.Faithful env)
    (opens : ∀ path ∈ files, env.CanOpen path) (spells : env.provider.Spells)
    (kept : ∀ path, state.opened.contains path = true → files.contains path = true) :
    failure.Fits env.provider files := by
  have hlisted := attributed.listed opens spells kept
  cases fault with
  | @unterminated input outer loop loops inputs atEnd hloops depth =>
    have hmem : loop ∈ state.loops := by simp [hloops]
    have hbegun := attributed.headers loop hmem
    have hwithin := consistent.nested.within loop hmem
    have hdepth : loop.depth = outer.length + 1 := by
      rw [inputs, List.length_cons] at depth hwithin
      omega
    rw [inputs, List.map_cons] at hbegun
    have hfile : loop.place.file = input.path.text := hbegun.file_of_top (by simpa using hdepth)
    exact ⟨hfile.symm, attributed.isLine_header consistent.placed faithful hlisted hmem⟩
  | line inputs next fault =>
    exact fault.fits (attributed.sited consistent faithful hlisted inputs next) opens spells
  | openLoop inputs loops =>
    rw [consistent.loops_eq_nil inputs] at loops
    cases loops
  | openScopes inputs loops depth =>
    rw [consistent.depth_eq, loops] at depth
    exact absurd depth (Nat.lt_irrefl 0)

/-- A pass fails with a failure that is true to the files it has opened. -/
theorem Pass.fits_of_within {shader : Path} {steps : Nat} {pass : Pass}
    (spells : env.provider.Spells) (run : within? steps env shader = some pass)
    (failed : pass.result = .error failure) : failure.Fits env.provider pass.opened := by
  have hopens := (recorded_of_within run).opened
  unfold within? at run
  dsimp only at run
  split at run
  · obtain ⟨⟨result, final⟩, hrun, rfl⟩ := Option.map_eq_some_iff.mp run
    cases result with
    | ok value => cases failed
    | error failure' =>
      cases failed
      rcases Progress.halted_of_run (fun state => .opened) hrun with h | ⟨state, reachable, h⟩
      · obtain ⟨failure', hresult, hfault⟩ := State.openFile_halted h
        cases hresult
        cases hfault with
        | recursive opened => cases opened
        | unreadable closed read => exact not_contains_of_unreadable hopens spells read
      · rcases State.halted_of_step h with ⟨hresult, -⟩ | ⟨failure', hresult, hfault⟩
        · cases hresult
        · cases hresult
          have hgrows := State.step_grows env state
          rw [h] at hgrows
          exact hfault.fits (reachable.attributed ⟨shader, rfl⟩) reachable.consistent
            reachable.faithful hopens spells fun path => hgrows.contains_opened
  · cases run
    cases failed
    rfl

end Failures

/-- A failure as a line of a log. -/
theorem Event.record_failed (failure : Failure) :
    (failed failure).record =
      s!"ERROR {String.ofList failure.place.file}:{failure.place.line}: {failure.message}" := by
  have hseverity : (failed failure).severity.name = "ERROR" := rfl
  have hmessage : (failed failure).message =
      s!"{String.ofList failure.place.file}:{failure.place.line}: {failure.message}" := rfl
  have herror : "ERROR" ++ " " = "ERROR " := by decide
  simp only [record, hmessage, hseverity, toString, String.append_assoc]
  rw [← String.append_assoc, herror]

/-- A pass that fails says so once, at its end. -/
theorem Pass.Recorded.failed_last {env : Environment} {pass : Pass} {failure : Failure}
    (recorded : pass.Recorded env) (failed : pass.result = .error failure) :
    pass.journal.filter (·.severity = .error) = [.failed failure] ∧
      pass.journal.getLast? = some (.failed failure) := by
  obtain ⟨events, hquiet, hjournal⟩ := recorded.journal
  rw [failed] at hjournal
  have hevents : events.filter (·.severity = .error) = [] := by
    refine List.filter_eq_nil_iff.mpr fun event hevent => ?_
    have hne : event.severity ≠ .error := hquiet event hevent
    simpa using hne
  constructor
  · rw [hjournal, List.filter_append, hevents]
    rfl
  · rw [hjournal, List.getLast?_concat]

/-- **Failures point at real places.** A session over a store gets through its pass. If that fails,
all that the failure names is true to the tracked files. Its place is a line of one of them, unless
not even the first file was opened or a file could not be read, and that file is not tracked.

A failing pass, over whatever provider, logs one error. It is the last record of the log and gives
the place and the message of the failure. -/
theorem Session.failures_point_at_lines {α : Type} (session : Session α) :
    (∀ store : FileStore, ∃ pass after, session.process? store.memory = some (pass, after) ∧
      ∀ failure, pass.result = .error failure →
        failure.Fits store.memory after.trackedPaths ∧
          (after.trackedPaths ≠ [] → (∀ file cause, failure ≠ .unreadable file cause) →
            ∃ raw, failure.place.IsLine store.memory after.trackedPaths raw)) ∧
    ∀ (env : Environment) (shader : Path) (steps : Nat) (pass : Pass) (failure : Failure),
      Pass.within? steps env shader = some pass → pass.result = .error failure →
      pass.journal.filter (·.severity = .error) = [.failed failure] ∧
        pass.journal.getLast? = some (.failed failure) ∧
        (Event.failed failure).record =
          s!"ERROR {String.ofList failure.place.file}:{failure.place.line}: {failure.message}" := by
  constructor
  · intro store
    obtain ⟨pass, after, processed⟩ := session.exists_process? store.listsAll_memory
    refine ⟨pass, after, processed, fun failure failed => ?_⟩
    obtain ⟨hrun, -⟩ := process?_eq_some processed
    have hfits := Pass.fits_of_within store.spells_memory hrun failed
    rw [trackedPaths_of_process? processed]
    exact ⟨hfits, hfits.isLine⟩
  · intro env shader steps pass failure run failed
    obtain ⟨honce, hlast⟩ := (Pass.recorded_of_within run).failed_last failed
    exact ⟨honce, hlast, Event.record_failed failure⟩

/-- A file that begins a loop and a file included in the loop that ends it. -/
def FileStore.strayEnd : FileStore :=
  (FileStore.empty.write ⟨"/main".toList⟩
    (.text "#for k, v in d\n#include \"lib\"\n#endfor\n".toList) none).write
    ⟨"/lib".toList⟩ (.text "x\n #endfor\n".toList) none

/-- The session that expands these files, with an entry to loop over. -/
def Session.strayEnd : Session Unit :=
  .start ⟨"main".toList⟩ ⟨[⟨"d".toList, .dictionary ⟨[⟨"a".toList, .string "1".toList⟩]⟩⟩]⟩
    { lineMarkers := false, loopMarkers := false }

/-- The pass over these files, which fails where the included file ends the loop. -/
def Pass.strayEnd : Pass where
  result := .error (.mismatchedEndFor ⟨"/main".toList, 1⟩ ⟨"/lib".toList, 2⟩)
  opened := [⟨"/main".toList⟩, ⟨"/lib".toList⟩]
  journal :=
    [.opened ⟨"/main".toList⟩, .loopBegun "d".toList "a".toList,
      .tried "lib".toList ⟨"/lib".toList⟩ true, .opened ⟨"/lib".toList⟩,
      .failed (.mismatchedEndFor ⟨"/main".toList, 1⟩ ⟨"/lib".toList, 2⟩)]

theorem Session.failures_point_at_lines_strayEnd :
    let failure := Failure.mismatchedEndFor ⟨"/main".toList, 1⟩ ⟨"/lib".toList, 2⟩
    let tracked : List Path := [⟨"/main".toList⟩, ⟨"/lib".toList⟩]
    (∃ after, Session.strayEnd.process? FileStore.strayEnd.memory = some (.strayEnd, after) ∧
        after.trackedPaths = tracked) ∧
      Pass.strayEnd.result = .error failure ∧
      failure.Fits FileStore.strayEnd.memory tracked ∧
      (∃ raw, failure.place.IsLine FileStore.strayEnd.memory tracked raw) ∧
      Pass.strayEnd.journal.getLast? = some (.failed failure) := by
  intro failure tracked
  have hrun : Pass.within? 8 ⟨FileStore.strayEnd.memory, Session.strayEnd.dictionary,
      Session.strayEnd.config⟩ ⟨"main".toList⟩ = some .strayEnd := by rfl
  obtain ⟨hlocated, hlogged⟩ := Session.failures_point_at_lines Session.strayEnd
  obtain ⟨pass, after, hprocess, hfailed⟩ := hlocated FileStore.strayEnd
  have hpass : pass = .strayEnd := by
    have hwithin := Pass.run?_of_within FileStore.strayEnd.listsAll_memory hrun
    exact Option.some.inj ((process?_eq_some hprocess).1.symm.trans hwithin)
  subst hpass
  have htracked : after.trackedPaths = tracked := trackedPaths_of_process? hprocess
  obtain ⟨hfits, hline⟩ := hfailed failure rfl
  rw [htracked] at hfits hline
  refine ⟨⟨after, hprocess, htracked⟩, rfl, hfits, ?_, ?_⟩
  · exact hline (List.cons_ne_nil _ _) (by simp [failure])
  · exact (hlogged _ _ 8 .strayEnd failure hrun rfl).2.1

end ShaderTemplate
