import ShaderTemplate.Proofs.Expansion.Loops
import ShaderTemplate.Proofs.Inclusion.Inlining

/-!
# The simulation of an include

The states of the two expansions of an `Inlining` are `Inlining.Related` as long as both are at
corresponding lines. Whatever the first expansion does with a line, the second does with the
corresponding one (`Inlining.Related.move`), except for three transitions:

* The include is expanded. The first expansion opens the file, the second does nothing.
* The included file is closed. The second expansion does nothing.
* The include stands in a body that is skipped. The second expansion skips the lines of the file,
  which are balanced.

So every state of the first expansion has a related one in the second (`Inlining.exists_related`).
-/

namespace ShaderTemplate

/-! ## What does not depend on the place -/

/-- A loop whose header stands somewhere else. -/
def Loop.displaced (loop : Loop) (depth : Nat) (place : Place) : Loop :=
  { loop with depth, place }

theorem Loop.next?_displaced (loop : Loop) (depth : Nat) (place : Place) :
    (loop.displaced depth place).next? =
      loop.next?.map fun (key, next) => (key, next.displaced depth place) := by
  unfold next? displaced
  dsimp only
  split
  · rw [Option.map_map]
    rfl
  · rfl

namespace Inlining

variable {inl : Inlining} {inside : Bool}

/-! ### No markers -/

namespace Sound

variable (sound : inl.Sound) (state : State)

include sound

theorem markLine_env : State.markLine inl.env state = state :=
  State.markLine_of_off sound.noLineMarkers

theorem markLine_flat : State.markLine inl.flat state = state :=
  State.markLine_of_off sound.noLineMarkers

theorem markLoop_env (note : LoopNote) : State.markLoop inl.env note state = state :=
  State.markLoop_of_off sound.noLoopMarkers note

theorem markLoop_flat (note : LoopNote) : State.markLoop inl.flat note state = state :=
  State.markLoop_of_off sound.noLoopMarkers note

end Sound

/-! ## Related states -/

/-- A loop of the first expansion, as the second one sees it. -/
def Shown (inl : Inlining) (inside : Bool) (loop loop' : Loop) : Prop :=
  ∃ place, loop' = loop.displaced (depth inside loop.depth) place ∧
    place.line = inl.headerLine inside loop.depth loop.place.line

/-- Two expansions at the same place, with the same loops and the same output. -/
structure Related (inl : Inlining) (inside : Bool) (state state' : State) : Prop where
  files : Stacks inl inside state.inputs state'.inputs
  loops : List.Forall₂ (Shown inl inside) state.loops state'.loops
  scopes : state'.scopes = state.scopes
  texts : state'.pieces.map Piece.text = state.pieces.map Piece.text

theorem Shown.setPhase {loop loop' : Loop} (shown : Shown inl inside loop loop') (phase : Phase) :
    Shown inl inside { loop with phase } { loop' with phase } := by
  obtain ⟨place, rfl, hline⟩ := shown
  exact ⟨place, rfl, hline⟩

/-- The root file is around its loops whether or not another file is included. -/
theorem Shown.of_depth {loop loop' : Loop} (shown : Shown inl inside loop loop')
    (le : loop.depth ≤ 1) (other : Bool) : Shown inl other loop loop' := by
  obtain ⟨place, rfl, hline⟩ := shown
  have hdepth (inside : Bool) : depth inside loop.depth = loop.depth := by
    unfold depth
    exact if_neg (by omega)
  refine ⟨place, by rw [hdepth, hdepth], ?_⟩
  rw [hline, headerLine, headerLine, if_pos le, if_pos le]

namespace Related

variable {state state' after : State} {input input' : Input} {outer outer' : List Input}
  {loop : Loop} {loops : List Loop}

theorem loops_cons (related : inl.Related inside state state') (h : state.loops = loop :: loops) :
    ∃ loop' loops', state'.loops = loop' :: loops' ∧ Shown inl inside loop loop' ∧
      List.Forall₂ (Shown inl inside) loops loops' := by
  have hloops := related.loops
  rw [h] at hloops
  obtain ⟨loop', loops', hshown, hrest, heq⟩ := List.forall₂_cons_left_iff.mp hloops
  exact ⟨loop', loops', heq, hshown, hrest⟩

/-- The innermost loops correspond. -/
theorem shown_head (related : inl.Related inside state state') {loop' : Loop}
    (h : loop' ∈ state'.loops.head?) :
    ∃ loop ∈ state.loops.head?, Shown inl inside loop loop' := by
  cases hloops : state.loops with
  | nil =>
    have hnil := related.loops
    rw [hloops] at hnil
    rw [List.forall₂_nil_left_iff.mp hnil] at h
    cases h
  | cons loop loops =>
    obtain ⟨other, loops', hloops', hshown, -⟩ := related.loops_cons hloops
    rw [hloops'] at h
    cases h
    exact ⟨loop, rfl, hshown⟩

theorem expanding (related : inl.Related inside state state') (expanding : state.Expanding) :
    state'.Expanding := by
  intro loop' hloop' nested hphase
  obtain ⟨loop, hloop, ⟨place, rfl, -⟩⟩ := related.shown_head hloop'
  exact expanding loop hloop nested hphase

theorem names_eq (related : inl.Related inside state state') :
    state'.names inl.flat = state.names inl.env := by
  rw [State.names, State.names, related.scopes]
  rfl

theorem fillLine (related : inl.Related inside state state') {line filled : Text}
    (h : state.fillLine inl.env line = .ok filled) :
    state'.fillLine inl.flat line = .ok filled := by
  refine Template.fill_of_ok (fun name text hname => ?_) h
  rw [related.names_eq]
  exact Names.textOf_of_ok _ hname

theorem locate_eq (sound : inl.Sound) (related : inl.Related inside state state')
    (inputs : state.inputs = input :: outer) (inputs' : state'.inputs = input' :: outer')
    (target : IncludeTarget) :
    State.locate inl.flat state' target = State.locate inl.env state target := by
  have hfiles := related.files
  rw [inputs, inputs'] at hfiles
  unfold State.locate
  cases target with
  | near target =>
    refine State.search_congr sound.isFile ?_
    have habsolute : inl.flat.provider.absolute = inl.env.provider.absolute := sound.absolute
    simp only [inputs, inputs', List.head?_cons, Option.elim_some, List.map_cons, habsolute,
      hfiles.near sound]
    rfl
  | fixed target =>
    have habsolute : inl.flat.provider.absolute = inl.env.provider.absolute := sound.absolute
    have hisFile : inl.flat.provider.isFile = inl.env.provider.isFile := sound.isFile
    simp only [habsolute, hisFile]

theorem opens (sound : inl.Sound) (related : inl.Related inside state state')
    (inputs : state.inputs = input :: outer) {path : Path} {text : Text}
    (opens : state.Opens inl.env path text) : state'.Opens inl.flat path text := by
  have hclosed := List.any_eq_false.mp opens.closed
  refine ⟨List.any_eq_false.mpr fun other hother hsame => ?_, ?_⟩
  · obtain ⟨same, hmem, hpath⟩ := related.files.path_mem hother
    exact hclosed same hmem (hpath ▸ hsame)
  · have hfiles := related.files
    rw [inputs] at hfiles
    obtain ⟨other, hmem, hpath⟩ := hfiles.root_mem
    have hne : (inl.root == path) = false := by
      rw [← hpath, ← Bool.not_eq_true]
      exact hclosed other (inputs ▸ hmem)
    exact (sound.read path hne).trans opens.readable

/-- The header on the line that is read begins corresponding loops. -/
theorem shown_loopOf (related : inl.Related inside state state')
    (inputs : state.inputs = input :: outer) (header : LoopHeader) (reference : Text)
    (keys : List Text) (phase : Phase) :
    Shown inl inside (state.loopOf header reference keys phase)
      (state'.loopOf header reference keys phase) := by
  have hfiles := related.files
  rw [inputs] at hfiles
  obtain ⟨input', outer', inputs'⟩ := hfiles.exists_cons
  refine ⟨state'.place, ?_, ?_⟩
  · rw [State.loopOf, related.files.length_eq]
    rfl
  · rw [inputs'] at hfiles
    simp only [State.place, State.loopOf, inputs, inputs', List.head?_cons, Option.elim_some,
      Input.place, List.length_cons]
    exact hfiles.line_eq

/-! ### Parts of a move -/

/-- The journals of the two expansions are of no concern. -/
theorem record (related : inl.Related inside state state') (event : Event) :
    inl.Related inside (state.record event) (state'.record event) :=
  ⟨related.files, related.loops, related.scopes, related.texts⟩

theorem enterLoop {loop' : Loop} (related : inl.Related inside state state')
    (shown : Shown inl inside loop loop') :
    inl.Related inside (state.enterLoop loop) (state'.enterLoop loop') := by
  refine ⟨related.files, .cons shown related.loops, ?_, related.texts⟩
  obtain ⟨place, rfl, -⟩ := shown
  rw [State.enterLoop_scopes, State.enterLoop_scopes, related.scopes]
  rfl

theorem leaveLoop {loops' : List Loop} (related : inl.Related inside state state')
    (shown : List.Forall₂ (Shown inl inside) loops loops') :
    inl.Related inside (state.leaveLoop loops) (state'.leaveLoop loops') := by
  refine ⟨related.files, shown, ?_, related.texts⟩
  rw [State.leaveLoop_scopes, State.leaveLoop_scopes, related.scopes]

theorem rewind (related : inl.Related inside state state')
    (inputs : state.inputs = input :: outer) {line : Nat} (le : line ≤ input.line) :
    inl.Related inside (state.rewind line)
      (state'.rewind (inl.headerLine inside state.inputs.length line)) := by
  have hfiles := related.files
  rw [inputs] at hfiles
  obtain ⟨input', outer', inputs'⟩ := hfiles.exists_cons
  rw [inputs'] at hfiles
  unfold State.rewind
  simp only [inputs, inputs', List.length_cons]
  exact ⟨hfiles.setLine le, related.loops, related.scopes, related.texts⟩

/-- A loop that is begun is begun in both expansions. -/
theorem beginWith (sound : inl.Sound) (related : inl.Related inside state state')
    (inputs : state.inputs = input :: outer) (header : LoopHeader) (reference : Text)
    (keys : List Text) :
    inl.Related inside (state.beginWith inl.env header reference keys)
      (state'.beginWith inl.flat header reference keys) := by
  have hshown (phase : Phase) := related.shown_loopOf inputs header reference keys phase
  cases keys with
  | nil =>
    simp only [State.beginWith, sound.markLoop_env, sound.markLoop_flat]
    exact (related.record _).enterLoop (hshown _)
  | cons key keys =>
    simp only [State.beginWith, sound.markLine_env, sound.markLine_flat, sound.markLoop_env,
      sound.markLoop_flat]
    exact (related.record _).enterLoop (hshown _)

/-- A file that is opened while another is read is opened in both expansions. -/
theorem afterOpen (sound : inl.Sound) (related : inl.Related inside state state')
    (inputs : state.inputs = input :: outer) (events : List Event) (path : Path)
    (text indentation : Text) :
    inl.Related inside ((events.foldl State.record state).afterOpen inl.env path text indentation)
      ((events.foldl State.record state').afterOpen inl.flat path text indentation) := by
  have hfiles := related.files
  rw [inputs] at hfiles
  refine ⟨?_, ?_, ?_, ?_⟩
  · rw [State.afterOpen_inputs, State.afterOpen_inputs, State.foldl_record, State.foldl_record,
      inputs]
    exact .above hfiles
  · simpa [State.foldl_record] using related.loops
  · simpa [State.foldl_record] using related.scopes
  · simpa [State.foldl_record, State.afterOpen, sound.markLine_env, sound.markLine_flat] using
      related.texts

theorem writeCode (related : inl.Related inside state state')
    (inputs : state.inputs = input :: outer) (inputs' : state'.inputs = input' :: outer')
    {indentation indentation' : Text}
    (same : input'.indentation ++ indentation' = input.indentation ++ indentation) (line : Text) :
    inl.Related inside (state.writeCode indentation line) (state'.writeCode indentation' line) := by
  refine ⟨?_, ?_, ?_, ?_⟩
  · rw [State.writeCode_inputs, State.writeCode_inputs]
    exact related.files
  · rw [State.writeCode_loops, State.writeCode_loops]
    exact related.loops
  · rw [State.writeCode_scopes, State.writeCode_scopes]
    exact related.scopes
  · have htext : input'.indentation ++ indentation' ++ line ++ ['\n'] =
        input.indentation ++ indentation ++ line ++ ['\n'] := by rw [same]
    unfold State.writeCode
    simp only [inputs, inputs', State.write]
    exact congrArg₂ List.cons htext related.texts

/-! ### Moves -/

/-- Whatever is done with a line in the first expansion is done with the corresponding line in the
second. -/
theorem move {raw raw' : Text} (sound : inl.Sound) (related : inl.Related inside state state')
    (header : ∀ loop ∈ state.loops, loop.LiesIn state.inputs)
    (inputs : state.inputs = input :: outer) (inputs' : state'.inputs = input' :: outer')
    (trim : Text.trim raw' = Text.trim raw)
    (indentation : input'.indentation ++ Text.indentation raw' =
      input.indentation ++ Text.indentation raw)
    (move : LineMove inl.env raw state after) :
    ∃ after', LineMove inl.flat raw' state' after' ∧ inl.Related inside after after' := by
  have hlength : state'.inputs.length = depth inside state.inputs.length :=
    related.files.length_eq
  cases move with
  | @nestedEnd loop loops nested word hloops hdepth phase =>
    obtain ⟨loop', loops', hloops', hshown, hrest⟩ := related.loops_cons hloops
    have hlater := hshown.setPhase (.skipping nested)
    obtain ⟨place, rfl, -⟩ := hshown
    refine ⟨_, .nestedEnd (trim ▸ word) hloops' ?_ phase, related.files, .cons hlater hrest,
      related.scopes, related.texts⟩
    rw [hlength, ← hdepth]
    rfl
  | @nextKey loop loops key next word hloops hdepth more =>
    obtain ⟨loop', loops', hloops', hshown, hrest⟩ := related.loops_cons hloops
    have hle : loop.place.line ≤ input.line := by
      have hlies := header loop (by simp [hloops])
      rw [inputs] at hlies
      exact (Loop.LiesIn.top_iff (by rw [hdepth, inputs, List.length_cons])).mp hlies
    obtain ⟨place, rfl, hplace⟩ := hshown
    have hmore : (loop.displaced (depth inside loop.depth) place).next? =
        some (key, next.displaced (depth inside loop.depth) place) := by
      rw [Loop.next?_displaced, more]
      rfl
    have hnext : Shown inl inside next (next.displaced (depth inside loop.depth) place) := by
      obtain ⟨index, -, -, rfl⟩ := Loop.next?_eq_some more
      exact ⟨place, rfl, hplace⟩
    refine ⟨_, .nextKey (trim ▸ word) hloops' ?_ hmore, ?_⟩
    · rw [hlength, ← hdepth]
      rfl
    · simp only [sound.markLine_env, sound.markLine_flat, sound.markLoop_env, sound.markLoop_flat]
      have hleave := (related.leaveLoop hrest).record (.loopKey loop.reference key)
      have hrewind := (hleave.enterLoop hnext).rewind inputs hle
      rw [State.enterLoop_inputs, State.record_inputs, State.leaveLoop_inputs, ← hdepth,
        ← hplace] at hrewind
      exact hrewind
  | @lastEnd loop loops word hloops hdepth phase done =>
    obtain ⟨loop', loops', hloops', ⟨place, rfl, -⟩, hrest⟩ := related.loops_cons hloops
    have hdone : (loop.displaced (depth inside loop.depth) place).next? = none := by
      rw [Loop.next?_displaced, done]
      rfl
    refine ⟨_, .lastEnd (trim ▸ word) hloops' ?_ phase hdone, ?_⟩
    · rw [hlength, ← hdepth]
      rfl
    · simp only [sound.markLine_env, sound.markLine_flat, sound.markLoop_env, sound.markLoop_flat]
      exact related.leaveLoop hrest
  | @nestedHeader loop loops nested word hloops phase hheader =>
    obtain ⟨loop', loops', hloops', hshown, hrest⟩ := related.loops_cons hloops
    have hlater := hshown.setPhase (.skipping (nested + 1))
    obtain ⟨place, rfl, -⟩ := hshown
    exact ⟨_, .nestedHeader (trim ▸ word) hloops' phase (trim ▸ hheader), related.files,
      .cons hlater hrest, related.scopes, related.texts⟩
  | @skipped loop loops nested word hloops phase hheader =>
    obtain ⟨loop', loops', hloops', ⟨place, rfl, -⟩, -⟩ := related.loops_cons hloops
    exact ⟨_, .skipped (trim ▸ word) hloops' phase (trim ▸ hheader), related⟩
  | @openFile filled argument text target events path word hexpanding fill directive parse located
      hopens =>
    refine ⟨_, .openFile (trim ▸ word) (related.expanding hexpanding)
      (related.fillLine (trim ▸ fill)) directive parse
      ((related.locate_eq sound inputs inputs' target).trans located)
      (related.opens sound inputs hopens), ?_⟩
    rw [inputs, inputs', List.head?_cons, List.head?_cons, Option.elim_some, Option.elim_some,
      indentation]
    exact related.afterOpen sound inputs events path text _
  | @beginLoop filled argument reference key lheader keys word hexpanding fill noInclude directive
      parse level =>
    refine ⟨_, .beginLoop (trim ▸ word) (related.expanding hexpanding)
      (related.fillLine (trim ▸ fill)) noInclude directive parse ?_,
      related.beginWith sound inputs lheader reference (key :: keys)⟩
    rw [related.names_eq]
    exact Names.levelOf_of_ok _ level
  | @beginEmpty filled argument reference lheader word hexpanding fill noInclude directive parse
      level =>
    refine ⟨_, .beginEmpty (trim ▸ word) (related.expanding hexpanding)
      (related.fillLine (trim ▸ fill)) noInclude directive parse ?_,
      related.beginWith sound inputs lheader reference []⟩
    rw [related.names_eq]
    exact Names.levelOf_of_ok _ level
  | @code filled word hexpanding fill noInclude noLoop =>
    exact ⟨_, .code (trim ▸ word) (related.expanding hexpanding) (related.fillLine (trim ▸ fill))
      noInclude noLoop, related.writeCode inputs inputs' indentation filled⟩

/-! ### Transitions -/

theorem loops_of_depth (related : inl.Related inside state state')
    (le : ∀ loop ∈ state.loops, loop.depth ≤ 1) (other : Bool) :
    List.Forall₂ (Shown inl other) state.loops state'.loops := by
  have hloops := related.loops
  generalize state.loops = loops at le hloops
  generalize state'.loops = loops' at hloops
  induction hloops with
  | nil => exact .nil
  | cons hshown _ ih =>
    obtain ⟨hle, hrest⟩ := List.forall_mem_cons.mp le
    exact .cons (hshown.of_depth hle other) (ih hrest)

/-- A loop outside the file that is read lies outside it in both expansions, unless this is the
included file. -/
theorem innermost_lt (related : inl.Related inside state state')
    (lower : inside = true → 3 ≤ state.inputs.length)
    (h : ∀ loop ∈ state.loops.head?, loop.depth < state.inputs.length) :
    ∀ loop ∈ state'.loops.head?, loop.depth < state'.inputs.length := by
  intro loop' hloop'
  obtain ⟨loop, hloop, ⟨place, rfl, -⟩⟩ := related.shown_head hloop'
  have hlt := h loop hloop
  rw [related.files.length_eq]
  change depth inside loop.depth < depth inside state.inputs.length
  unfold depth
  split <;> split <;> grind

/-- Closing a file. -/
theorem close (sound : inl.Sound) (related : inl.Related inside state state')
    (inputs : state.inputs = input :: outer) (atEnd : input.next? = none)
    (above : ∀ loop ∈ state.loops.head?, loop.depth < state.inputs.length)
    (within : ∀ loop ∈ state.loops, loop.depth ≤ outer.length) :
    ∃ inside after', Transitions inl.flat state' after' ∧
      inl.Related inside { state with inputs := outer } after' := by
  have habove := related.innermost_lt (h := above)
  have hend : input.lines[input.line]? = none := Option.map_eq_none_iff.mp atEnd
  have hfiles := related.files
  rw [inputs] at hfiles habove
  generalize hinputs' : state'.inputs = inputs' at hfiles
  cases hfiles with
  | outside line =>
    have hne : line ≠ inl.before.length := by
      rintro rfl
      cases hend.symm.trans (rootAt_getElem?_raw _)
    have hend' : (inl.flatAt (inl.shift line)).next? = none :=
      Option.map_eq_none_iff.mpr ((flatAt_getElem? hne line).trans hend)
    have hclose := @Transition.close inl.flat _ _ _ hinputs' hend' (habove nofun)
    rw [sound.markLine_flat] at hclose
    exact ⟨false, _, .single hclose, .closed, related.loops, related.scopes, related.texts⟩
  | @inside line le =>
    -- the lines of the included file have been read in both expansions
    obtain rfl : line = inl.parts.length :=
      Nat.le_antisymm le (Array.getElem?_eq_none_iff.mp hend)
    refine ⟨false, state', .refl, ?_, related.loops_of_depth within false, related.scopes,
      related.texts⟩
    rw [hinputs', ← shift_after]
    exact .outside _
  | @above _ _ below rest _ lower =>
    have hthree : inside = true → 3 ≤ (input :: below :: rest).length := by
      rintro rfl
      exact Nat.succ_le_succ lower.two_le
    have hclose := @Transition.close inl.flat _ _ _ hinputs' atEnd (habove hthree)
    rw [sound.markLine_flat] at hclose
    exact ⟨inside, _, .single hclose, lower, related.loops, related.scopes, related.texts⟩

/-- The include in a body that is skipped: the second expansion skips the lines of the file. -/
theorem skipInclude (sound : inl.Sound) (related : inl.Related false state state')
    (inputs' : state'.inputs = [inl.flatAt inl.before.length]) {nested : Nat}
    (hloops : state.loops = loop :: loops) (atRoot : loop.depth = 1)
    (phase : loop.phase = .skipping nested) :
    ∃ after', Transitions inl.flat state' after' ∧ inl.Related false
      { state with inputs := [inl.rootAt (inl.before.length + 1)] } after' := by
  obtain ⟨loop', loops', hloops', ⟨place, rfl, -⟩, -⟩ := related.loops_cons hloops
  have hbalanced : Text.Balanced inl.indented :=
    sound.balanced.indent fun c hc => Text.isBlank_of_mem_indentation hc
  have hdepth : depth false loop.depth = state'.inputs.length := by
    rw [inputs', atRoot]
    rfl
  have hlength : inl.indented.length = inl.parts.length := length_indented
  have hnext (index : Nat) (h : index < inl.indented.length) :
      (inl.flatAt inl.before.length).lines[inl.before.length + index]? =
        some inl.indented[index] := by
    rw [flatAt_getElem?_parts (hlength ▸ h)]
    simp only [indented, List.getElem_map]
  have hskip : Transitions inl.flat state' _ :=
    State.skip_balanced hbalanced inputs' hnext hloops' hdepth phase
  rw [hlength] at hskip
  refine ⟨_, hskip, ?_, related.loops, related.scopes, related.texts⟩
  have hshift : inl.shift (inl.before.length + 1) = inl.before.length + inl.parts.length :=
    shift_after
  exact hshift ▸ .outside _

/-- The include that is expanded: the second expansion has the lines of the file still before it. -/
theorem openInclude (sound : inl.Sound) (related : inl.Related false state state')
    (inputs' : state'.inputs = [inl.flatAt inl.before.length])
    (within : ∀ loop ∈ state.loops, loop.depth ≤ 1) (events : List Event) {text : Text}
    (readable : inl.env.provider.read inl.file = .ok text) :
    inl.Related true
      ((events.foldl State.record
        { state with inputs := [inl.rootAt (inl.before.length + 1)] }).afterOpen inl.env inl.file
          text inl.indentation) state' := by
  refine ⟨?_, ?_, ?_, ?_⟩
  · have hstart : Input.start inl.file text inl.indentation = inl.fileAt 0 := by
      rw [Input.start, fileAt, sound.fileLines text readable]
    rw [State.afterOpen_inputs, State.foldl_record, inputs', hstart]
    exact .inside (Nat.zero_le _)
  · rw [State.afterOpen_loops, State.foldl_record]
    exact related.loops_of_depth within true
  · rw [State.afterOpen_scopes, State.foldl_record]
    exact related.scopes
  · simpa [State.foldl_record, State.afterOpen, sound.markLine_env] using related.texts

/-- The line with the include. -/
theorem includeLine (sound : inl.Sound) (looping : state.Looping inl.env) (nested : state.Nested)
    (related : inl.Related false state state')
    (inputs : state.inputs = [inl.rootAt inl.before.length])
    (inputs' : state'.inputs = [inl.flatAt inl.before.length])
    (move : LineMove inl.env inl.raw
      { state with inputs := [inl.rootAt (inl.before.length + 1)] } after) :
    ∃ inside after', Transitions inl.flat state' after' ∧ inl.Related inside after after' := by
  obtain ⟨argument, target, hargument, htarget, hfile⟩ := sound.includes
  have hfill {state : State} {filled : Text}
      (h : state.fillLine inl.env (Text.trim inl.raw) = .ok filled) :
      filled = Text.trim inl.raw := by
    rw [State.fillLine, sound.literal] at h
    exact (Except.ok.inj h).symm
  have hend : Directive.endFor.isOn (Text.trim inl.raw) = false :=
    Directive.isOn_eq_false hargument (by decide)
  have hheader : Directive.forLoop.isOn (Text.trim inl.raw) = false :=
    Directive.isOn_eq_false hargument (by decide)
  cases move with
  | nestedEnd word | nextKey word | lastEnd word => exact absurd (hend.symm.trans word) nofun
  | nestedHeader _ _ _ header => exact absurd (hheader.symm.trans header) nofun
  | beginLoop _ _ fill noInclude | beginEmpty _ _ fill noInclude | code _ _ fill noInclude =>
    rw [hfill fill, hargument] at noInclude
    cases noInclude
  | @skipped loop loops nested word hloops phase header =>
    have hdepth : loop.depth = state.inputs.length :=
      looping.innermost loop (by rw [show state.loops = loop :: loops from hloops]; rfl) ⟨_, phase⟩
    rw [inputs] at hdepth
    obtain ⟨after', hsteps, hrelated⟩ := related.skipInclude sound inputs' hloops hdepth phase
    exact ⟨false, after', hsteps, hrelated⟩
  | @openFile filled argument' text target' events path word expanding fill directive parse located
      opens =>
    -- the argument, the target and the file are those of the include
    obtain rfl := hfill fill
    obtain rfl : argument = argument' := Option.some.inj (hargument.symm.trans directive)
    obtain rfl : target = target' := Except.ok.inj (htarget.symm.trans parse)
    have hpath : inl.env.leadsTo? inl.root target = some path := by
      rw [← show (_, some path).2 = some path from rfl, ← located]
      cases target <;> rfl
    obtain rfl : inl.file = path := Option.some.inj (hfile.symm.trans hpath)
    have hwithin : ∀ loop ∈ state.loops, loop.depth ≤ 1 := by
      have := nested.within
      rwa [inputs] at this
    exact ⟨true, state', .refl, related.openInclude sound inputs' hwithin events opens.readable⟩

/-- Whatever the first expansion does, the second does the same, in any number of transitions. -/
theorem transition (sound : inl.Sound) (looping : state.Looping inl.env) (nested : state.Nested)
    (placed : state.Placed) (related : inl.Related inside state state')
    (transition : Transition inl.env state after) :
    ∃ inside after', Transitions inl.flat state' after' ∧ inl.Related inside after after' := by
  have hwithin := (nested.transition transition).within
  cases transition with
  | @close input outer inputs atEnd above =>
    rw [sound.markLine_env] at hwithin ⊢
    exact related.close sound inputs atEnd above hwithin
  | @line _ input read outer raw inputs next move =>
    have hfiles := related.files
    rw [inputs] at hfiles
    by_cases hinclude : outer = [] ∧ input.line = inl.before.length
    · obtain ⟨rfl, hline⟩ := hinclude
      generalize hinputs' : state'.inputs = inputs' at hfiles
      cases hfiles with
      | outside line =>
        obtain rfl : line = inl.before.length := hline
        rw [shift_before] at hinputs'
        obtain ⟨text, htext, hread⟩ := Option.map_eq_some_iff.mp next
        cases hread
        obtain rfl : inl.raw = raw :=
          Option.some.inj ((rootAt_getElem?_raw _).symm.trans htext)
        exact related.includeLine sound looping nested inputs hinputs' move
    · obtain ⟨input', outer', raw', read', hinputs', hnext', hread, htrim, hindentation⟩ :=
        hfiles.read next fun houter hline => hinclude ⟨houter, hline⟩
      have hrelated : inl.Related inside { state with inputs := read :: outer }
          { state' with inputs := read' :: outer' } :=
        ⟨hread, related.loops, related.scopes, related.texts⟩
      have hlies : ∀ loop ∈ state.loops, loop.LiesIn (read :: outer) := by
        intro loop hloop
        have hlies := placed.header loop hloop
        rw [inputs] at hlies
        refine hlies.setTop fun hdepth => ?_
        obtain ⟨text, -, hread⟩ := Option.map_eq_some_iff.mp next
        cases hread
        exact Nat.le_succ_of_le ((Loop.LiesIn.top_iff hdepth).mp hlies)
      obtain ⟨after', hmove', hafter⟩ :=
        hrelated.move sound hlies rfl rfl htrim hindentation move
      exact ⟨inside, after', .single (.line hinputs' hnext' hmove'), hafter⟩

end Related

/-- Every state of the first expansion has a related one in the second. -/
theorem exists_related (sound : inl.Sound) {state : State}
    (reachable : Reachable inl.env inl.root state) :
    ∃ inside state', Reachable inl.flat inl.root state' ∧ inl.Related inside state state' := by
  induction reachable with
  | opened opens =>
    obtain ⟨text, hopens, rfl⟩ := State.openFile_running opens
    obtain ⟨text', hread', hlines'⟩ := sound.flatLines
    have hopens' : State.initial.Opens inl.flat inl.root text' := ⟨rfl, hread'⟩
    refine ⟨false, _, .opened (State.openFile_of_opens hopens'), ?_, ?_, ?_, ?_⟩
    · have hstart : Input.start inl.root text [] = inl.rootAt 0 := by
        rw [Input.start, rootAt, sound.rootLines text hopens.readable]
      have hstart' : Input.start inl.root text' [] = inl.flatAt (inl.shift 0) := by
        rw [Input.start, flatAt, hlines']
        rfl
      rw [State.afterOpen_inputs, State.afterOpen_inputs, hstart, hstart']
      exact .outside 0
    · simp [State.initial]
    · simp
    · simp [State.afterOpen, sound.markLine_env, sound.markLine_flat]
  | step reachable step ih =>
    obtain ⟨inside, state', hreachable', hrelated⟩ := ih
    obtain ⟨inside, after', hsteps, hafter⟩ := hrelated.transition sound reachable.looping
      reachable.nested reachable.placed (State.transition_of_step step)
    exact ⟨inside, after', hreachable'.transitions hsteps, hafter⟩

end Inlining

end ShaderTemplate
