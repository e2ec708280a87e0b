import ShaderTemplate.FileStore
import ShaderTemplate.Proofs.Expansion.Consistency
import ShaderTemplate.Proofs.Inclusion.Balance

/-!
# Loops without keys

The body of a loop over an empty dictionary is skipped. Where it ends is told by counting the
directives alone: at the first `#endfor` before which the body has as many headers as ends
(`Text.EndsBody`). `Environment.empty_loop_skipped` says that the expansion gets behind this line
with nothing but markers written, whatever the other lines are, and that it fails for the header of
the loop if there is no such line in the file.

## Shape of the argument

The state counts the loops of the body that are open, up and down. Up to the end of the body the
count does not go below zero, since the first `#endfor` for which it would is the end of the body
(`Text.countP_endFor_le`). So the lines of the body are balanced, and skipped as a whole.
-/

namespace ShaderTemplate

/-! ## The end of a body -/

namespace Text

/-- Whether this line of some lines ends the body that begins with the first of them: it is the end
of a loop, and as many loops begin as end before it. -/
def EndsBody (lines : List Text) (index : Nat) : Prop :=
  ∃ raw, lines[index]? = some raw ∧ Directive.endFor.begins raw = true ∧
    (lines.take index).countP Directive.endFor.begins =
      (lines.take index).countP Directive.forLoop.begins

instance (lines : List Text) (index : Nat) : Decidable (EndsBody lines index) :=
  decidable_of_iff (lines[index]?.any Directive.endFor.begins = true ∧
      (lines.take index).countP Directive.endFor.begins =
        (lines.take index).countP Directive.forLoop.begins)
    (by simp only [EndsBody, Option.any_eq_true, ← and_assoc, exists_and_right])

variable {lines : List Text} {count : Nat}

theorem EndsBody.lt_length {index : Nat} (ends : EndsBody lines index) : index < lines.length := by
  obtain ⟨raw, hraw, -⟩ := ends
  exact (List.getElem?_eq_some_iff.mp hraw).1

/-- Before the end of the body no more loops end than begin. -/
theorem countP_endFor_le (within : ∀ index < count, ¬ EndsBody lines index) :
    (lines.take count).countP Directive.endFor.begins ≤
      (lines.take count).countP Directive.forLoop.begins := by
  induction count with
  | zero => simp
  | succ count ih =>
    have hstart := ih fun index hindex => within index (Nat.lt_succ_of_lt hindex)
    cases hraw : lines[count]? with
    | none =>
      rw [List.take_add_one, hraw, Option.toList_none, List.append_nil]
      exact hstart
    | some raw =>
      rw [List.take_add_one, hraw, Option.toList_some, List.countP_append, List.countP_append,
        List.countP_singleton, List.countP_singleton]
      cases hend : Directive.endFor.begins raw with
      | false =>
        rw [if_neg (by simp)]
        omega
      | true =>
        -- the counts differ, or the body would end here
        have hne : (lines.take count).countP Directive.endFor.begins ≠
            (lines.take count).countP Directive.forLoop.begins :=
          fun hcount => within count (Nat.lt_succ_self count) ⟨raw, hraw, hend, hcount⟩
        rw [if_pos rfl]
        omega

/-- Nor in the first lines of the body. -/
theorem countP_prefix_le (within : ∀ index < count, ¬ EndsBody lines index) {start : List Text}
    (h : start <+: lines.take count) :
    start.countP Directive.endFor.begins ≤ start.countP Directive.forLoop.begins := by
  obtain ⟨length, hle, rfl⟩ : ∃ length ≤ count, start = lines.take length := by
    refine ⟨start.length, ?_, List.prefix_iff_eq_take.mp (h.trans (List.take_prefix _ _))⟩
    exact h.length_le.trans (List.length_take_le _ _)
  exact countP_endFor_le fun index hindex => within index (Nat.lt_of_lt_of_le hindex hle)

/-- The lines of a body are balanced. -/
theorem balanced_of_endsBody {last : Nat} (ends : EndsBody lines last)
    (first : ∀ index < last, ¬ EndsBody lines index) : Balanced (lines.take last) := by
  obtain ⟨raw, -, -, hcount⟩ := ends
  exact ⟨hcount, fun start => countP_prefix_le first⟩

end Text

/-! ## What is written -/

/-- Nothing but markers is written between two states. -/
def State.Marks (before after : State) : Prop :=
  ∃ markers : List Piece, after.pieces = markers ++ before.pieces ∧
    ∀ piece ∈ markers, piece.code? = none

namespace State.Marks

variable {env : Environment} {before after : State}

theorem markLoop (marks : before.Marks after) (note : LoopNote) :
    before.Marks (after.markLoop env note) := by
  obtain ⟨markers, hpieces, hmarkers⟩ := marks
  unfold State.markLoop
  split
  · exact ⟨.loopMarker note :: markers, by simp [write, hpieces],
      List.forall_mem_cons.mpr ⟨rfl, hmarkers⟩⟩
  · exact ⟨markers, hpieces, hmarkers⟩

theorem markLine (marks : before.Marks after) : before.Marks (after.markLine env) := by
  obtain ⟨markers, hpieces, hmarkers⟩ := marks
  unfold State.markLine
  split
  · rename_i input outer _ _
    exact ⟨.lineMarker (input.line + 1) input.path.fileName :: markers, by simp [write, hpieces],
      List.forall_mem_cons.mpr ⟨rfl, hmarkers⟩⟩
  · exact ⟨markers, hpieces, hmarkers⟩

/-- Markers are in no chunk. -/
theorem chunks (marks : before.Marks after) : after.output.chunks = before.output.chunks := by
  obtain ⟨markers, hpieces, hmarkers⟩ := marks
  have hnone : markers.filterMap Piece.code? = [] := List.filterMap_eq_nil_iff.mpr hmarkers
  simp [Expanded.chunks, Expanded.codeLines, output, hpieces, hnone]

end State.Marks

/-! ## Through the body -/

/-- The lines of a file that have not been read. -/
def Input.rest (input : Input) : List Text :=
  input.lines.toList.drop input.line

theorem Input.getElem?_rest (input : Input) (index : Nat) :
    input.rest[index]? = input.lines[input.line + index]? := by
  rw [rest, List.getElem?_drop, Array.getElem?_toList]

/-- What comes next after so many more lines have been read. -/
theorem Input.next?_later (input : Input) (count : Nat) :
    Input.next? { input with line := input.line + count } =
      input.rest[count]?.map fun raw => (raw, { input with line := input.line + count + 1 }) := by
  rw [getElem?_rest]
  rfl

/-- The header of a loop without keys has been read in a file, whose next line is the first of the
body. -/
structure State.AtBody (before : State) (input : Input) (others : List Input) (loop : Loop)
    (state : State) : Prop where
  inputs : state.inputs = input :: others
  loops : state.loops = loop :: before.loops
  depth : loop.depth = others.length + 1
  phase : loop.phase = .skipping 0
  place : loop.place = input.place
  opened : state.opened = before.opened
  marks : before.Marks state
  journal : state.journal = .loopEmpty loop.reference :: before.journal

namespace State

variable {env : Environment} {before state : State} {input read : Input} {others : List Input}
  {loop : Loop}

/-- A step that opens a loop without keys has read its header. -/
theorem atBody_of_transition {raw : Text} (inputs : before.inputs = input :: others)
    (next : input.next? = some (raw, read)) (transition : Transition env before state)
    (loops : state.loops = loop :: before.loops) (keys : loop.keys = []) :
    before.AtBody read others loop state := by
  have hlength : state.loops.length = before.loops.length + 1 := by rw [loops, List.length_cons]
  cases transition with
  | close => simp at hlength
  | line hinputs hnext move =>
    cases hinputs.symm.trans inputs
    cases hnext.symm.trans next
    cases move with
    | skipped | code => simp at hlength
    | openFile => simp [foldl_record] at hlength
    | nestedEnd word outer | nestedHeader word outer | nextKey word outer | lastEnd word outer =>
      have hbefore := congrArg List.length outer
      simp at hbefore hlength
      omega
    | beginLoop =>
      rw [beginWith_cons_loops] at loops
      cases loops
      cases keys
    | @beginEmpty filled argument reference header =>
      rw [beginWith_nil_loops] at loops
      cases loops
      have hmarks : before.Marks
          (State.record { before with inputs := read :: others } (.loopEmpty reference)) :=
        ⟨[], rfl, by simp⟩
      constructor
      case inputs => simp
      case loops => simp
      case depth => rfl
      case phase => rfl
      case place => rfl
      case opened => simp
      case marks => exact @Marks.markLoop env _ _ hmarks .empty
      case journal => simp [beginWith, enterLoop, record, loopOf]

namespace AtBody

theorem depth_eq (body : before.AtBody input others loop state) :
    loop.depth = state.inputs.length := by
  rw [body.depth, body.inputs, List.length_cons]

/-- The lines up to the end of the body are skipped. -/
theorem reaches_end (body : before.AtBody input others loop state) {last : Nat}
    (ends : Text.EndsBody input.rest last)
    (first : ∀ index < last, ¬ Text.EndsBody input.rest index) :
    Transitions env state
      { state with inputs := { input with line := input.line + last } :: others } := by
  have hlength : (input.rest.take last).length = last :=
    List.length_take_of_le (Nat.le_of_lt ends.lt_length)
  have hbalanced := Text.balanced_of_endsBody ends first
  have hskip := @skip_balanced env _ state input others loop before.loops 0 hbalanced body.inputs
    (fun index hindex => ?_) body.loops body.depth_eq body.phase
  · rwa [hlength] at hskip
  · have hlt : index < last := by rwa [hlength] at hindex
    rw [← Input.getElem?_rest, ← List.getElem?_eq_getElem hindex, List.getElem?_take_of_lt hlt]

/-- At the end of the body the loop is over, and all is as before the header but for the markers. -/
theorem ends (body : before.AtBody input others loop state) {last : Nat}
    (ends : Text.EndsBody input.rest last)
    (first : ∀ index < last, ¬ Text.EndsBody input.rest index) :
    ∃ after, Transitions env state after ∧
      after.inputs = { input with line := input.line + last + 1 } :: others ∧
      after.loops = before.loops ∧ after.opened = before.opened ∧ before.Marks after ∧
      after.journal = .loopEmpty loop.reference :: before.journal := by
  have hreaches := @reaches_end env before state input others loop body last ends first
  obtain ⟨raw, hraw, hend, -⟩ := ends
  have hnext : Input.next? { input with line := input.line + last } =
      some (raw, { input with line := input.line + last + 1 }) := by
    rw [Input.next?_later, hraw, Option.map_some]
  have hlastEnd := @LineMove.lastEnd env raw
    { state with inputs := { input with line := input.line + last + 1 } :: others } loop
    before.loops hend body.loops body.depth (by simp [body.phase])
    (by simp [Loop.next?, body.phase])
  refine ⟨_, .tail hreaches (.line rfl hnext hlastEnd), by simp, by simp, ?_, ?_, ?_⟩
  · simpa using body.opened
  · have hmarks : before.Marks (State.leaveLoop before.loops
        { state with inputs := { input with line := input.line + last + 1 } :: others }) :=
      body.marks
    exact (hmarks.markLoop _).markLine
  · rw [markLine_journal, markLoop_journal]
    exact body.journal

/-- Without an end of the body the file ends in it. -/
theorem unterminated (body : before.AtBody input others loop state)
    (endless : ∀ index, ¬ Text.EndsBody input.rest index) :
    ∃ last, Transitions env state last ∧
      last.step env =
        .halted (.error (.unterminatedFor input.place input.path.text)) last := by
  have hstarts : ∀ start, start <+: input.rest → start.countP Directive.endFor.begins ≤
      start.countP Directive.forLoop.begins := by
    intro start hstart
    rw [← List.take_length (l := input.rest)] at hstart
    exact Text.countP_prefix_le (fun index _ => endless index) hstart
  obtain ⟨later, hlater⟩ := Nat.exists_eq_add_of_le' (hstarts _ (List.prefix_refl _))
  have hskip := @skip_lines env input.rest state input others loop before.loops 0 later body.inputs
    (fun index hindex => ?_) body.loops body.depth_eq body.phase (fun start hstart => ?_) ?_
  · refine ⟨_, hskip, ?_⟩
    have hend : Input.next? { input with line := input.line + input.rest.length } = none := by
      rw [Input.next?_later, List.getElem?_length, Option.map_none]
    rw [step_of_end rfl hend, closeFile]
    simp only [body.depth, body.place, List.length_cons, ge_iff_le, Nat.le_refl, if_true]
    rfl
  · rw [← Input.getElem?_rest, List.getElem?_eq_getElem hindex]
  · exact Nat.le_add_left_of_le (hstarts start hstart)
  · omega

end AtBody

end State

/-- **A loop without keys is skipped as a whole.** Take a state of an expansion, whose next line is
the header of a loop over an empty dictionary. If the body of the loop has an end in the same file,
the expansion gets behind it, whatever the lines of the body are: with the files, loops and scopes
as before the header, no file opened or looked for, and no line of code written but only markers. If
the body has no end, the expansion fails at the end of the file, for the header of the loop. -/
theorem Environment.empty_loop_skipped (env : Environment) (path : Path) (before state : State)
    (input read : Input) (others : List Input) (raw : Text) (loop : Loop)
    (reachable : Reachable env path before) (inputs : before.inputs = input :: others)
    (next : input.next? = some (raw, read)) (step : before.step env = .running state)
    (loops : state.loops = loop :: before.loops) (keys : loop.keys = []) :
    (∀ last, Text.EndsBody read.rest last → (∀ index < last, ¬ Text.EndsBody read.rest index) →
      ∃ after, Transitions env state after ∧
        after.inputs = { read with line := read.line + last + 1 } :: others ∧
        after.loops = before.loops ∧ after.scopes = before.scopes ∧
        after.opened = before.opened ∧ after.output.chunks = before.output.chunks ∧
        before.Marks after ∧ after.journal = .loopEmpty loop.reference :: before.journal) ∧
      ((∀ index, ¬ Text.EndsBody read.rest index) → ∃ steps final,
        (State.initial.openFile env path []).run env steps =
          some (.error (.unterminatedFor read.place read.path.text), final)) := by
  have hbody := State.atBody_of_transition inputs next (State.transition_of_step step) loops keys
  have hstate : Reachable env path state := .step reachable step
  refine ⟨fun last ends first => ?_, fun endless => ?_⟩
  · obtain ⟨after, hafter, hinputs, hloops, hopened, hmarks, hjournal⟩ := hbody.ends ends first
    have hscopes : after.scopes = before.scopes := by
      rw [(hstate.transitions hafter).looping.scopes, reachable.looping.scopes, hloops]
    exact ⟨after, hafter, hinputs, hloops, hscopes, hopened, hmarks.chunks, hmarks, hjournal⟩
  · obtain ⟨last, hlast, hhalt⟩ := hbody.unterminated endless
    have hrun : (Progress.running last).run env 1 =
        some (.error (.unterminatedFor read.place read.path.text), last) := by
      rw [Progress.run, hhalt]
      rfl
    obtain ⟨steps, hsteps⟩ := (hstate.transitions hlast).run_of_state hrun
    exact ⟨steps, last, hsteps⟩

/-- An empty loop with lines in it that could not be expanded. -/
def Text.brokenBody : Text :=
  "#for k, v in t\n#\x7bu\n#for\n#include\n#endfor\n#endfor\ny\n".toList

/-- An empty loop in which another loop ends, but not the loop itself. -/
def Text.openBody : Text :=
  "#for k, v in t\n#for\n#endfor\n".toList

/-- A file with this text, for which `t` is an empty dictionary. -/
def Environment.overEmpty (text : Text) : Environment :=
  ⟨(FileStore.empty.write ⟨"/main".toList⟩ (.text text) none).memory,
    ⟨[⟨"t".toList, .dictionary .empty⟩]⟩, [], false, true⟩

/-- The loop over the empty dictionary. -/
def Loop.overEmpty : Loop :=
  ⟨1, ⟨"/main".toList, 1⟩, ⟨"k".toList, "v".toList, "t".toList⟩, "t".toList, [], .skipping 0⟩

/-- The state before the loop. -/
def State.beforeEmpty (text : Text) : State :=
  ⟨[Input.start ⟨"/main".toList⟩ text []], [], .empty, [], [⟨"/main".toList⟩],
    [.opened ⟨"/main".toList⟩]⟩

/-- The state after the header of the loop. -/
def State.withinEmpty (text : Text) : State :=
  ⟨[{ Input.start ⟨"/main".toList⟩ text [] with line := 1 }], [.overEmpty], Scopes.empty.push [],
    [.loopMarker .empty], [⟨"/main".toList⟩], [.loopEmpty "t".toList, .opened ⟨"/main".toList⟩]⟩

theorem Environment.empty_loop_skipped_brokenBody :
    (∃ after, Reachable (.overEmpty .brokenBody) ⟨"/main".toList⟩ after ∧
      Transitions (.overEmpty .brokenBody) (.withinEmpty .brokenBody) after ∧
      after.inputs = [{ Input.start ⟨"/main".toList⟩ .brokenBody [] with line := 6 }] ∧
      after.loops = [] ∧ after.scopes = .empty ∧ after.output.chunks = []) ∧
      ∃ steps final,
        (State.initial.openFile (.overEmpty .openBody) ⟨"/main".toList⟩ []).run
            (.overEmpty .openBody) steps =
          some (.error (.unterminatedFor ⟨"/main".toList, 1⟩ "/main".toList), final) := by
  have hbroken : Reachable (.overEmpty .brokenBody) ⟨"/main".toList⟩ (.beforeEmpty .brokenBody) :=
    .opened (by rfl)
  have hopen : Reachable (.overEmpty .openBody) ⟨"/main".toList⟩ (.beforeEmpty .openBody) :=
    .opened (by rfl)
  have hbrokenStep : (State.beforeEmpty .brokenBody).step (.overEmpty .brokenBody) =
      .running (.withinEmpty .brokenBody) := by rfl
  have hopenStep : (State.beforeEmpty .openBody).step (.overEmpty .openBody) =
      .running (.withinEmpty .openBody) := by rfl
  constructor
  · obtain ⟨hends, -⟩ := Environment.empty_loop_skipped (.overEmpty .brokenBody) ⟨"/main".toList⟩
      (.beforeEmpty .brokenBody) (.withinEmpty .brokenBody) _ _ [] _ .overEmpty hbroken rfl rfl
      hbrokenStep rfl rfl
    obtain ⟨after, hafter, hinputs, hloops, hscopes, -, hchunks, -⟩ :=
      hends 4 (by decide +kernel) (by decide +kernel)
    exact ⟨after, (Reachable.step hbroken hbrokenStep).transitions hafter, hafter, hinputs, hloops,
      hscopes, hchunks⟩
  · obtain ⟨-, hendless⟩ := Environment.empty_loop_skipped (.overEmpty .openBody) ⟨"/main".toList⟩
      (.beforeEmpty .openBody) (.withinEmpty .openBody) _ _ [] _ .overEmpty hopen rfl rfl
      hopenStep rfl rfl
    refine hendless fun index hindex => ?_
    have hlt : index < 2 := hindex.lt_length
    have hnone : ∀ index < 2, ¬ Text.EndsBody ["#for".toList, "#endfor".toList] index := by
      decide +kernel
    exact hnone index hlt hindex

end ShaderTemplate
