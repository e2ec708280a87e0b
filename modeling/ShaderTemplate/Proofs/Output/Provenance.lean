import ShaderTemplate.Proofs.Expansion.Run

/-!
# Where code lines come from

A code line names a file and a line of it. `CodeLine.ComesFrom` says that this is the truth: the
file has such a line, and the code line is what the expansion has written when it had just read that
line. All code lines of a successful expansion come from where they say (`comesFrom_of_within`).

Loops move the cursor of a file back, and files are opened more than once, but no step changes the
lines of an open file. `State.Faithful` is the invariant that says so. So a line that is read is the
line of the file that the cursor stands behind, and a step writes a code line only for the line that
it reads (`State.mem_code_of_move`).
-/

namespace ShaderTemplate

/-- The states of the expansion of `root` in which this line has just been read. The cursor of the
innermost file is behind the line, and nothing is done about it yet. -/
def State.JustRead (env : Environment) (root : Path) (raw : Text) (state : State) : Prop :=
  ∃ before input read outer, Reachable env root before ∧ before.inputs = input :: outer ∧
    input.next? = some (raw, read) ∧ state = { before with inputs := read :: outer }

/-- The line that has just been read is code, and this is the code line written for it: where the
cursor of the innermost file is, it has the indentation of that file, the line's own indentation and
its filled text, in front of a line feed. -/
def State.Writes (env : Environment) (raw : Text) (state : State) (code : CodeLine) : Prop :=
  ∃ input outer filled, state.inputs = input :: outer ∧
    state.fillLine env (Text.trim raw) = .ok filled ∧
    LineMove env raw state (state.writeCode (Text.indentation raw) filled) ∧
    code = ⟨input.path, input.line,
      input.indentation ++ Text.indentation raw ++ filled ++ ['\n']⟩

/-- The expansion of `root` has written a code line for this line, which is the one that the code
line names. -/
structure CodeLine.WrittenFor (env : Environment) (root : Path) (code : CodeLine) (raw : Text) :
    Prop where
  counted : 1 ≤ code.line
  read : ∃ text, env.provider.read code.path = .ok text ∧
    (Text.lines text)[code.line - 1]? = some raw
  written : ∃ state : State, state.JustRead env root raw ∧ state.Writes env raw code

/-- The expansion of `root` has written a code line for the line of the file that it names. -/
def CodeLine.ComesFrom (env : Environment) (root : Path) (code : CodeLine) : Prop :=
  ∃ raw, code.WrittenFor env root raw

/-- A code line ends with a line feed. -/
theorem CodeLine.ComesFrom.ended {env : Environment} {root : Path} {code : CodeLine}
    (h : code.ComesFrom env root) : ∃ text, code.text = text ++ ['\n'] := by
  obtain ⟨raw, hraw⟩ := h
  obtain ⟨state, -, input, outer, filled, -, -, -, rfl⟩ := hraw.written
  exact ⟨_, rfl⟩

/-- Something is written for every line, so a code line fills at least one line of the output. -/
theorem CodeLine.ComesFrom.one_le_height {env : Environment} {root : Path} {code : CodeLine}
    (h : code.ComesFrom env root) : 1 ≤ code.height := by
  obtain ⟨text, htext⟩ := h.ended
  rw [CodeLine.height, htext, Text.lineFeeds, List.count_append]
  simp

theorem CodeLine.ComesFrom.one_le_line {env : Environment} {root : Path} {code : CodeLine}
    (h : code.ComesFrom env root) : 1 ≤ code.line := by
  obtain ⟨raw, hraw⟩ := h
  exact hraw.counted

/-- An open file has the lines of the file it stands for. -/
def Input.Shows (env : Environment) (input : Input) : Prop :=
  ∃ text, env.provider.read input.path = .ok text ∧ input.lines = (Text.lines text).toArray

/-- The open files are true to the files there are. -/
def State.Faithful (env : Environment) (state : State) : Prop :=
  ∀ input ∈ state.inputs, input.Shows env

namespace State

/-! ## Open files -/

theorem mem_rewind_inputs {state : State} {input : Input} {line : Nat}
    (h : input ∈ (rewind line state).inputs) :
    ∃ other ∈ state.inputs, other.path = input.path ∧ other.lines = input.lines := by
  unfold rewind at h
  split at h
  · exact ⟨input, h, rfl, rfl⟩
  · rename_i first outer hinputs
    rcases List.mem_cons.mp h with rfl | h
    · exact ⟨first, by simp [hinputs], rfl, rfl⟩
    · exact ⟨input, by simp [hinputs, h], rfl, rfl⟩

namespace Faithful

variable {env : Environment} {state after : State}

/-- A step that opens no file changes no file. -/
theorem of_same (faithful : state.Faithful env) (inputs : after.inputs = state.inputs) :
    after.Faithful env := by
  rw [Faithful, inputs]
  exact faithful

theorem afterOpen (faithful : state.Faithful env) {path : Path} {text : Text} (indentation : Text)
    (read : env.provider.read path = .ok text) :
    (state.afterOpen env path text indentation).Faithful env := by
  rw [Faithful, afterOpen_inputs]
  exact List.forall_mem_cons.mpr ⟨⟨text, read, rfl⟩, faithful⟩

theorem move {raw : Text} (faithful : state.Faithful env) (move : LineMove env raw state after) :
    after.Faithful env := by
  cases move with
  | nestedEnd | nestedHeader | skipped => exact faithful.of_same rfl
  | lastEnd | beginLoop | beginEmpty | code => exact faithful.of_same (by simp)
  | @nextKey loop =>
    -- the cursor moves back, but the file still has its lines
    intro input hinput
    rw [markLine_inputs] at hinput
    obtain ⟨other, hother, hpath, hlines⟩ := mem_rewind_inputs hinput
    obtain ⟨text, hread, hshown⟩ := faithful other (by simpa using hother)
    exact ⟨text, hpath ▸ hread, hlines ▸ hshown⟩
  | @openFile filled argument text target events path word expanding fill directive parse located
      opens =>
    have hrecord : (events.foldl record state).Faithful env := by
      rw [foldl_record]
      exact faithful.of_same rfl
    exact hrecord.afterOpen _ opens.readable

theorem transition (faithful : state.Faithful env) (transition : Transition env state after) :
    after.Faithful env := by
  cases transition with
  | @close input outer inputs =>
    intro other hother
    rw [markLine_inputs] at hother
    exact faithful other (by simpa [inputs] using Or.inr hother)
  | @line _ input read outer raw inputs next move =>
    obtain ⟨text, htext, hread⟩ := Option.map_eq_some_iff.mp next
    cases hread
    rw [Faithful, inputs, List.forall_mem_cons] at faithful
    have hfaithful : State.Faithful env
        { state with inputs := { input with line := input.line + 1 } :: outer } :=
      List.forall_mem_cons.mpr faithful
    exact hfaithful.move move

end Faithful

end State

/-- The open files are true to the files there are, in all states of a run. -/
theorem Reachable.faithful {env : Environment} {root : Path} {state : State}
    (reachable : Reachable env root state) : state.Faithful env := by
  have hinitial : State.initial.Faithful env := by simp [State.Faithful, State.initial]
  exact reachable.invariant (fun text opens => hinitial.afterOpen [] opens.readable)
    fun _ _ h => h.transition

namespace State

/-! ## Code -/

section

variable {env : Environment} {state after : State} {raw : Text} {code : CodeLine}

@[simp] theorem code_mem_markLine :
    Piece.code code ∈ (markLine env state).pieces ↔ Piece.code code ∈ state.pieces := by
  unfold markLine
  split <;> simp [write]

@[simp] theorem code_mem_markLoop {note : LoopNote} :
    Piece.code code ∈ (markLoop env note state).pieces ↔ Piece.code code ∈ state.pieces := by
  unfold markLoop
  split <;> simp [write]

@[simp] theorem code_mem_beginWith {header : LoopHeader} {reference : Text} {keys : List Text} :
    Piece.code code ∈ (state.beginWith env header reference keys).pieces ↔
      Piece.code code ∈ state.pieces := by
  cases keys <;> simp [beginWith]

@[simp] theorem code_mem_afterOpen {path : Path} {text indentation : Text} :
    Piece.code code ∈ (state.afterOpen env path text indentation).pieces ↔
      Piece.code code ∈ state.pieces := by
  simp [afterOpen]

/-- The code there is after a line is the code before it and what is written for the line. -/
theorem mem_code_of_move (move : LineMove env raw state after)
    (mem : Piece.code code ∈ after.pieces) :
    Piece.code code ∈ state.pieces ∨ state.Writes env raw code := by
  cases move with
  | nestedEnd | nestedHeader | skipped => exact .inl mem
  | nextKey | lastEnd | beginLoop | beginEmpty => exact .inl (by simpa using mem)
  | openFile =>
    rw [code_mem_afterOpen, foldl_record] at mem
    exact .inl mem
  | @code filled word expanding fill noInclude noLoop =>
    unfold writeCode at mem
    split at mem
    · exact .inl mem
    · rename_i input outer hinputs
      rw [write, List.mem_cons, Piece.code.injEq] at mem
      rcases mem with rfl | mem
      · have hmove := LineMove.code word expanding fill noInclude noLoop
        exact .inr ⟨input, outer, filled, hinputs, fill, hmove, rfl⟩
      · exact .inl mem

/-- What is written for a line that was read is written for the line that it names. -/
theorem JustRead.writtenFor {root : Path} (justRead : state.JustRead env root raw)
    (writes : state.Writes env raw code) : code.WrittenFor env root raw := by
  have hline : 1 ≤ code.line ∧ ∃ text, env.provider.read code.path = .ok text ∧
      (Text.lines text)[code.line - 1]? = some raw := by
    obtain ⟨before, input, read, outer, hreachable, hinputs, hnext, rfl⟩ := justRead
    obtain ⟨cursor, _, filled, hcursor, -, -, rfl⟩ := writes
    cases hcursor
    obtain ⟨line, hline, hread⟩ := Option.map_eq_some_iff.mp hnext
    cases hread
    obtain ⟨text, htext, hlines⟩ := hreachable.faithful input (by simp [hinputs])
    rw [hlines] at hline
    exact ⟨Nat.le_add_left 1 _, text, htext, by simpa using hline⟩
  exact ⟨hline.1, hline.2, state, justRead, writes⟩

end

end State

/-- Every code line that a run has written comes from the line of the file that it names. -/
theorem Reachable.comesFrom {env : Environment} {root : Path} {state : State}
    (reachable : Reachable env root state) :
    ∀ code, Piece.code code ∈ state.pieces → code.ComesFrom env root := by
  intro code hcode
  induction reachable with
  | opened opens =>
    obtain ⟨text, -, rfl⟩ := State.openFile_running opens
    simp [State.initial] at hcode
  | @step before after reachable step ih =>
    cases State.transition_of_step step with
    | close => exact ih (by simpa using hcode)
    | @line _ input read outer raw inputs next move =>
      rcases State.mem_code_of_move move hcode with hcode | hwrites
      · exact ih hcode
      · have hread : State.JustRead env root raw { before with inputs := read :: outer } :=
          ⟨before, input, read, outer, reachable, inputs, next, rfl⟩
        exact ⟨raw, hread.writtenFor hwrites⟩

/-- Every code line of a successful expansion comes from the line of the file that it names. -/
theorem comesFrom_of_within {env : Environment} {shader : Path} {steps : Nat} {pass : Pass}
    {expanded : Expanded} (run : Pass.within? steps env shader = some pass)
    (ok : pass.result = .ok expanded) :
    ∀ code ∈ expanded.codeLines, code.ComesFrom env (env.provider.absolute shader) := by
  obtain ⟨state, hreachable, -, -, -, -, hpieces⟩ := settled_of_within run ok
  intro code hcode
  obtain ⟨piece, hpiece, hcode⟩ := List.mem_filterMap.mp hcode
  cases piece with
  | code line =>
    cases hcode
    exact hreachable.comesFrom code (by simpa [hpieces] using hpiece)
  | lineMarker | loopMarker => cases hcode

end ShaderTemplate
