import ShaderTemplate.Proofs.Output.Origins
import ShaderTemplate.Proofs.Session.Tracking

/-!
# Files with nothing to expand

A line is plain if it opens no hole and is no directive. A file of plain lines goes through an
expansion without markers as it is, except for the white space at the ends of its lines and for its
line ends (`Text.copied`). `Session.plain_file_copied` says what the expansion is then, whatever the
dictionary is and wherever includes would be looked for, and that the copy of a copy is the same
text.

## Shape of the argument

The expansion of a plain file can be written down: it is `Expanded.copy`, with a code line for each
line of the file. `State.copying` is the state between two lines, and each line takes one such state
to the next. What is claimed of the text, the chunks and the origins is then read off the copy: its
code lines are consecutive and fill one physical line each, so there is one chunk, and the alignment
of origins gives the line of each.
-/

namespace ShaderTemplate

/-! ## Plain lines -/

namespace Text

/-- A line with nothing to expand. It may start with the word of a directive if the word goes on. -/
structure Plain (line : Text) : Prop where
  literal : ¬ ['#', '\x7b'] <:+: line
  ordinary : ∀ (directive : Directive) (rest : Text), trim line = directive.word ++ rest →
    rest.head?.any Directive.continuesWord = true

/-- A line as it is copied: without the white space at its end, unless there is nothing else. -/
def copied (line : Text) : Text :=
  if line.all isBlank then line else trimEnd line

variable {line : Text}

theorem copied_of_blank (h : Blank line) : copied line = line :=
  if_pos (List.all_eq_true.mpr h)

theorem copied_of_not_blank (h : ¬ Blank line) : copied line = trimEnd line :=
  if_neg (mt List.all_eq_true.mp h)

theorem exists_append_copied (line : Text) :
    ∃ blank, Blank blank ∧ copied line ++ blank = line := by
  by_cases h : Blank line
  · exact ⟨[], nofun, by rw [copied_of_blank h, List.append_nil]⟩
  · refine ⟨line.rtakeWhile isBlank, fun c hc => List.mem_rtakeWhile_imp hc, ?_⟩
    rw [copied_of_not_blank h]
    exact List.rdropWhile_append_rtakeWhile

theorem trim_copied (line : Text) : trim (copied line) = trim line := by
  obtain ⟨blank, hblank, hline⟩ := exists_append_copied line
  conv_rhs => rw [← hline]
  exact (trim_append_of_blank hblank _).symm

theorem copied_isPrefix (line : Text) : copied line <+: line :=
  let ⟨blank, _, hline⟩ := exists_append_copied line
  ⟨blank, hline⟩

/-- What is copied once is copied as it is. -/
theorem copied_copied (line : Text) : copied (copied line) = copied line := by
  by_cases h : Blank line
  · rw [copied_of_blank h, copied_of_blank h]
  · have hcopied : ¬ Blank (copied line) := by
      rwa [← trim_eq_nil_iff, trim_copied, trim_eq_nil_iff]
    rw [copied_of_not_blank hcopied, copied_of_not_blank h]
    exact List.rdropWhile_idempotent isBlank line

/-- A line is copied as its indentation, and what is left of it after trimming. -/
theorem indentation_append_trim (line : Text) : indentation line ++ trim line = copied line := by
  have hsplit : indentation line ++ trimStart line = line := List.takeWhile_append_dropWhile
  by_cases h : Blank line
  · have hstart : trimStart line = [] := trimStart_eq_nil_iff.mpr h
    rw [copied_of_blank h, trim_eq_nil_iff.mpr h]
    rwa [hstart] at hsplit
  · have hstart : ¬ Blank (trimStart line) := by
      intro hblank
      rw [← hsplit] at h
      exact h (List.forall_mem_append.mpr ⟨fun c hc => List.mem_takeWhile_imp hc, hblank⟩)
    rw [copied_of_not_blank h, trim, ← trimEnd_append_of_not_blank hstart, hsplit]

theorem Plain.argument?_eq_none (plain : Plain line) (directive : Directive) :
    directive.argument? (trim line) = none := by
  cases h : directive.argument? (trim line) with
  | none => rfl
  | some rest =>
    obtain ⟨hword, hends⟩ := Option.filter_eq_some_iff.mp h
    have hword := List.isPrefixOf?_eq_some_iff_append_eq.mp hword
    have hgoes := plain.ordinary directive rest hword.symm
    rw [hgoes] at hends
    cases hends

/-- Whether a line is plain is seen by looking for an opening and for each of the directives. -/
theorem plain_iff : Plain line ↔ ¬ ['#', '\x7b'] <:+: line ∧
    ∀ directive ∈ [Directive.includeFile, .forLoop, .endFor],
      directive.argument? (trim line) = none := by
  constructor
  · exact fun plain => ⟨plain.literal, fun directive _ => plain.argument?_eq_none directive⟩
  · rintro ⟨literal, code⟩
    refine ⟨literal, fun directive rest htrim => ?_⟩
    have hnone : directive.argument? (trim line) = none :=
      code directive (by cases directive <;> decide)
    have hword : directive.word.isPrefixOf? (trim line) = some rest :=
      List.isPrefixOf?_eq_some_iff_append_eq.mpr htrim.symm
    rw [Directive.argument?, hword] at hnone
    simpa using hnone

instance : Decidable (Plain line) :=
  decidable_of_iff' _ plain_iff

theorem Plain.copied (plain : Plain line) : Plain (copied line) where
  literal h := plain.literal (h.trans (copied_isPrefix line).isInfix)
  ordinary directive rest htrim :=
    plain.ordinary directive rest (by rw [← trim_copied, htrim])

end Text

/-! ## The expansion of a plain file -/

/-- The code line for a line of a plain file. -/
def CodeLine.copy (path : Path) (index : Nat) (line : Text) : CodeLine where
  path := path
  line := index + 1
  text := Text.copied line ++ ['\n']

/-- The code lines for the lines of a plain file. -/
def CodeLine.copies (path : Path) (lines : List Text) : List CodeLine :=
  lines.mapIdx (CodeLine.copy path)

/-- What a plain file is expanded to. -/
def Expanded.copy (path : Path) (lines : List Text) : Expanded where
  pieces := (CodeLine.copies path lines).map .code

namespace State

/-- The state between two lines of a plain file that is expanded. -/
def copying (path : Path) (read rest : List Text) : State where
  inputs := [⟨path, (read ++ rest).toArray, read.length, []⟩]
  loops := []
  scopes := .empty
  pieces := ((CodeLine.copies path read).map Piece.code).reverse
  opened := [path]
  journal := [.opened path]

variable {env : Environment} {path : Path} {read rest : List Text} {line : Text}

theorem fillLine_of_literal (state : State) (literal : ¬ ['#', '\x7b'] <:+: line) :
    state.fillLine env line = .ok line := by
  rw [fillLine, Template.parse_eq_plain literal]
  rfl

theorem opened_copying (off : env.config.lineMarkers = false) (text : Text) :
    initial.afterOpen env path text [] = copying path [] (Text.lines text) :=
  markLine_of_off off

/-- A plain line is copied. -/
theorem transition_copying (plain : line.Plain) :
    Transition env (copying path read (line :: rest)) (copying path (read ++ [line]) rest) := by
  let input : Input := ⟨path, (read ++ line :: rest).toArray, read.length, []⟩
  let after : Input := { input with line := read.length + 1 }
  let reading : State := { copying path read (line :: rest) with inputs := [after] }
  have hnext : input.next? = some (line, after) := by simp [input, after, Input.next?]
  have hliteral : ¬ ['#', '\x7b'] <:+: Text.trim line :=
    fun h => plain.literal (h.trans (Text.trim_infix line))
  have hword : Directive.endFor.isOn (Text.trim line) = false := by
    rw [Directive.isOn, plain.argument?_eq_none]
    rfl
  have hmove : LineMove env line reading
      (reading.writeCode (Text.indentation line) (Text.trim line)) :=
    .code hword nofun (fillLine_of_literal reading hliteral) (plain.argument?_eq_none .includeFile)
      (plain.argument?_eq_none .forLoop)
  have hwritten : reading.writeCode (Text.indentation line) (Text.trim line) =
      copying path (read ++ [line]) rest := by
    -- the file is not included, so nothing stands in front of the line's own indentation
    have htext : [] ++ Text.indentation line ++ Text.trim line = Text.copied line :=
      Text.indentation_append_trim line
    simp only [writeCode, reading, after, input, htext]
    simp [write, copying, CodeLine.copies, CodeLine.copy]
  rw [hwritten] at hmove
  exact .line rfl hnext hmove

/-- A file of plain lines is copied line by line. -/
theorem transitions_copying (plain : ∀ line ∈ rest, line.Plain) :
    Transitions env (copying path read rest) (copying path (read ++ rest) []) := by
  induction rest generalizing read with
  | nil =>
    rw [List.append_nil]
  | cons line rest ih =>
    obtain ⟨hline, hrest⟩ := List.forall_mem_cons.mp plain
    have hothers := @ih (read ++ [line]) hrest
    rw [List.append_assoc, List.singleton_append] at hothers
    exact .head (transition_copying hline) hothers

theorem transition_closed (off : env.config.lineMarkers = false) (lines : List Text) :
    Transition env (copying path lines []) { copying path lines [] with inputs := [] } := by
  have hclose : Transition env (copying path lines [])
      (markLine env { copying path lines [] with inputs := [] }) := by
    refine .close rfl ?_ nofun
    simp [Input.next?]
  rwa [markLine_of_off off] at hclose

end State

/-- The pass over a file of plain lines. Loop markers do not matter, as there are no loops. -/
theorem Pass.within?_copy {env : Environment} {shader : Path} {text : Text}
    (isFile : env.provider.isFile (env.provider.absolute shader) = true)
    (read : env.provider.read (env.provider.absolute shader) = .ok text)
    (off : env.config.lineMarkers = false) (plain : ∀ line ∈ Text.lines text, line.Plain) :
    let path := env.provider.absolute shader
    ∃ steps, within? steps env shader =
      some ⟨.ok (.copy path (Text.lines text)), [path], [.opened path]⟩ := by
  intro path
  have hopens : State.initial.Opens env path text := ⟨rfl, read⟩
  have hopened : Reachable env path (.copying path [] (Text.lines text)) := by
    rw [← State.opened_copying off]
    exact .opened (State.openFile_of_opens hopens)
  have hread : Reachable env path (.copying path (Text.lines text) []) :=
    hopened.transitions (State.transitions_copying plain)
  have hclosed := hread.step (State.step_of_transition (State.transition_closed off _))
  obtain ⟨steps, hsteps⟩ := within?_of_step hclosed isFile rfl
  refine ⟨steps, hsteps.trans ?_⟩
  simp [ofHalted, State.copying, Expanded.copy, path]

/-! ## What the copy is -/

section Copy

variable {path : Path} {lines : List Text}

theorem CodeLine.map_text_copies :
    (copies path lines).map CodeLine.text = lines.map fun line => Text.copied line ++ ['\n'] := by
  apply List.ext_getElem <;> simp [copies, copy]

theorem CodeLine.height_copy {line : Text} (index : Nat) (single : '\n' ∉ line) :
    (copy path index line).height = 1 := by
  have hcopied : '\n' ∉ Text.copied line := mt ((Text.copied_isPrefix line).subset ·) single
  rw [height, Text.lineFeeds, copy, List.count_append, List.count_eq_zero.mpr hcopied]
  rfl

theorem CodeLine.consecutive_copies (single : ∀ line ∈ lines, '\n' ∉ line) :
    Consecutive (copies path lines) := by
  refine List.isChain_iff_getElem.mpr fun index hindex => continues_iff.mpr ?_
  simp only [copies, List.getElem_mapIdx]
  exact ⟨height_copy _ (single _ (List.getElem_mem _)), Path.beq_iff.mpr rfl, rfl⟩

namespace Expanded

theorem codeLines_copy : (copy path lines).codeLines = CodeLine.copies path lines := by
  rw [codeLines, copy, List.filterMap_map]
  exact List.filterMap_some

theorem source_copy :
    (copy path lines).source = (CodeLine.copies path lines).flatMap CodeLine.text :=
  List.flatMap_map ..

theorem source_copy_eq :
    (copy path lines).source = lines.flatMap fun line => Text.copied line ++ ['\n'] := by
  rw [source_copy, List.flatMap_def, List.flatMap_def, CodeLine.map_text_copies]

theorem chunks_copy (single : ∀ line ∈ lines, '\n' ∉ line) :
    (copy path lines).chunks =
      if lines = [] then [] else [⟨(copy path lines).source, path.fileName, 0⟩] := by
  have hconsecutive : CodeLine.Consecutive (CodeLine.copies path lines) :=
    CodeLine.consecutive_copies single
  rw [chunks, codeLines_copy, source_copy, Chunk.ofLines]
  cases lines with
  | nil => rfl
  | cons line lines =>
    rw [if_neg (List.cons_ne_nil _ _)]
    rw [CodeLine.copies, List.mapIdx_cons] at hconsecutive ⊢
    rw [List.splitBy_of_isChain (List.cons_ne_nil _ _) hconsecutive]
    rfl

theorem origins_written_copy (single : ∀ line ∈ lines, '\n' ∉ line) :
    (copy path lines).written.map (fun line => line.2.origin?) =
      (CodeLine.copies path lines).map fun code => some ⟨code.path.fileName, code.line⟩ := by
  rw [map_snd_written, copy, List.flatMap_map, ← List.flatMap_pure_eq_map]
  apply List.flatMap_congr
  intro code hcode
  obtain ⟨index, hindex, rfl⟩ := List.mem_mapIdx.mp hcode
  have hheight : (Piece.code (.copy path index lines[index])).text.lineFeeds = 1 :=
    CodeLine.height_copy index (single _ (List.getElem_mem hindex))
  rw [hheight]
  rfl

theorem originOf_copy (single : ∀ line ∈ lines, '\n' ∉ line) (outputLine : Nat) :
    (copy path lines).originOf outputLine =
      if 1 ≤ outputLine ∧ outputLine ≤ lines.length then some ⟨path.fileName, outputLine⟩
      else none := by
  have haligned : (copy path lines).Aligned := by
    apply aligned_of_quoted
    · rw [codeLines_copy]
      intro code hcode
      obtain ⟨index, hindex, rfl⟩ := List.mem_mapIdx.mp hcode
      exact Nat.le_add_left 1 index
    · intro piece hpiece
      obtain ⟨code, -, rfl⟩ := List.mem_map.mp hpiece
      exact nofun
  cases outputLine with
  | zero => rw [haligned.outside, if_neg (by omega)]
  | succ index =>
    calc (copy path lines).originOf (index + 1)
        = ((copy path lines).written.map fun line => line.2.origin?)[index]?.join := by
          rw [haligned.origin, List.getElem?_map]
          cases (copy path lines).written[index]? <;> rfl
      _ = lines[index]?.map fun _ => ⟨path.fileName, index + 1⟩ := by
          rw [origins_written_copy single, List.getElem?_map, CodeLine.copies, List.getElem?_mapIdx]
          cases lines[index]? <;> rfl
      _ = _ := by
        by_cases hindex : index < lines.length
        · rw [List.getElem?_eq_getElem hindex, if_pos (by omega)]
          rfl
        · rw [List.getElem?_eq_none (by omega), if_neg (by omega)]
          rfl

end Expanded

/-- The lines of the copy, which are copied again, unless a carriage return gets in the way. -/
theorem Text.lines_source_copy (single : ∀ line ∈ lines, '\n' ∉ line)
    (returns : '\r' ∉ (Expanded.copy path lines).source) :
    Text.lines (Expanded.copy path lines).source = lines.map copied := by
  rw [Expanded.source_copy_eq] at returns ⊢
  have hparts : ∀ part ∈ lines.map copied, '\n' ∉ part := by
    intro part hpart
    obtain ⟨line, hline, rfl⟩ := List.mem_map.mp hpart
    exact mt ((copied_isPrefix line).subset ·) (single line hline)
  have hreturns : ∀ part ∈ lines.map copied, dropCarriageReturn part = part := by
    intro part hpart
    obtain ⟨line, hline, rfl⟩ := List.mem_map.mp hpart
    refine dropCarriageReturn_of_ne fun hlast => returns ?_
    exact List.mem_flatMap.mpr ⟨line, hline, List.mem_append_left _ (List.mem_of_getLast? hlast)⟩
  calc Text.lines (lines.flatMap fun line => copied line ++ ['\n'])
      = Text.lines ((lines.map copied).flatMap (· ++ ['\n'])) := by rw [List.flatMap_map]
    _ = (lines.map copied).map dropCarriageReturn := lines_flatMap hparts
    _ = lines.map copied := (List.map_congr_left hreturns).trans (List.map_id _)

end Copy

/-! ## Sessions with a plain file -/

namespace Session

variable {α : Type}

/-- The file of a session has this text, and is expanded without line markers. -/
structure Expands (session : Session α) (provider : Provider) (text : Text) : Prop where
  lists : provider.ListsAll
  isFile : provider.isFile (provider.absolute session.shader) = true
  read : provider.read (provider.absolute session.shader) = .ok text
  noLineMarkers : session.config.lineMarkers = false

theorem Expands.process?_eq {session : Session α} {provider : Provider} {text : Text}
    (expands : session.Expands provider text) (plain : ∀ line ∈ Text.lines text, line.Plain) :
    let path := provider.absolute session.shader
    ∃ after, session.process? provider =
      some (⟨.ok (.copy path (Text.lines text)), [path], [.opened path]⟩, after) := by
  intro path
  obtain ⟨steps, hsteps⟩ := @Pass.within?_copy ⟨provider, session.dictionary, session.config⟩
    session.shader text expands.isFile expands.read expands.noLineMarkers plain
  exact process?_of_within expands.lists hsteps

/-- **Plain files are copied.** If no line of its file opens a hole or is a directive, a session
without line markers succeeds, whatever its dictionary and the rest of its configuration are. The
expanded text has each line without the white space at its end, or as it is if there is nothing
else on it. It is one chunk that starts with the file, or none if there is no line, and each line is
from the line of the same number. If there is no carriage return in it, any session that expands it
in turn gets the same text. -/
theorem plain_file_copied (session : Session α) (provider : Provider) (text : Text)
    (expands : session.Expands provider text) (plain : ∀ line ∈ Text.lines text, line.Plain) :
    let lines := Text.lines text
    let file := (provider.absolute session.shader).fileName
    ∃ pass after expanded, session.process? provider = some (pass, after) ∧
      pass.result = .ok expanded ∧
      expanded.source = lines.flatMap (fun line => Text.copied line ++ ['\n']) ∧
      expanded.chunks = (if lines = [] then [] else [⟨expanded.source, file, 0⟩]) ∧
      (∀ outputLine, expanded.originOf outputLine =
        if 1 ≤ outputLine ∧ outputLine ≤ lines.length then some ⟨file, outputLine⟩ else none) ∧
      ('\r' ∉ expanded.source →
        ∀ (again : Session α) (other : Provider), again.Expands other expanded.source →
          ∃ pass' after' expanded', again.process? other = some (pass', after') ∧
            pass'.result = .ok expanded' ∧ expanded'.source = expanded.source) := by
  intro lines file
  let copy := Expanded.copy (provider.absolute session.shader) lines
  have hsingle : ∀ line ∈ lines, '\n' ∉ line := fun _ => Text.not_mem_of_mem_lines
  obtain ⟨after, hprocess⟩ := expands.process?_eq plain
  refine ⟨_, after, copy, hprocess, rfl, Expanded.source_copy_eq, Expanded.chunks_copy hsingle,
    Expanded.originOf_copy hsingle, ?_⟩
  intro returns again other expandsAgain
  have hlines : Text.lines copy.source = lines.map Text.copied :=
    Text.lines_source_copy hsingle returns
  have hplain : ∀ line ∈ Text.lines copy.source, line.Plain := by
    rw [hlines]
    intro copied hcopied
    obtain ⟨line, hline, rfl⟩ := List.mem_map.mp hcopied
    exact (plain line hline).copied
  obtain ⟨after', hprocess'⟩ := expandsAgain.process?_eq hplain
  refine ⟨_, after', _, hprocess', rfl, ?_⟩
  rw [hlines, Expanded.source_copy_eq, Expanded.source_copy_eq, List.flatMap_map]
  simp only [Text.copied_copied]

end Session

/-- Lines that are hardly code, or hardly no directives, with all kinds of white space around. -/
def FileStore.nearMisses : FileStore :=
  empty.write ⟨"/main".toList⟩
    (.text "  #format \t\n \t\n#endforever \u3000\r\n#for_each \x7d #".toList) none

/-- A session that expands these lines. -/
def Session.nearMisses : Session Unit :=
  .start ⟨"main".toList⟩ .empty { lineMarkers := false, loopMarkers := false }

theorem Session.plain_file_copied_nearMisses :
    let source := "  #format\n \t\n#endforever\n#for_each \x7d #\n".toList
    let copied := FileStore.nearMisses.write ⟨"/main".toList⟩ (.text source) none
    ∃ pass after expanded,
      Session.nearMisses.process? FileStore.nearMisses.memory = some (pass, after) ∧
        pass.result = .ok expanded ∧ expanded.source = source ∧
        expanded.chunks = [⟨source, "main".toList, 0⟩] ∧
        expanded.originOf 4 = some ⟨"main".toList, 4⟩ ∧ expanded.originOf 5 = none ∧
        ∃ pass' after' expanded', Session.nearMisses.process? copied.memory = some (pass', after') ∧
          pass'.result = .ok expanded' ∧ expanded'.source = source := by
  intro source copied
  let text := "  #format \t\n \t\n#endforever \u3000\r\n#for_each \x7d #".toList
  have hexpands : Session.nearMisses.Expands FileStore.nearMisses.memory text :=
    ⟨FileStore.listsAll_memory _, rfl, rfl, rfl⟩
  have hplain : ∀ line ∈ Text.lines text, line.Plain := by decide +kernel
  obtain ⟨pass, after, expanded, hprocess, hok, hsource, hchunks, horigin, hagain⟩ :=
    Session.plain_file_copied Session.nearMisses _ text hexpands hplain
  have hcopy : expanded.source = source := hsource.trans (by decide +kernel)
  rw [hcopy] at hchunks hagain
  have hexpandsAgain : Session.nearMisses.Expands copied.memory source :=
    ⟨FileStore.listsAll_memory _, rfl, rfl, rfl⟩
  refine ⟨pass, after, expanded, hprocess, hok, hcopy, hchunks.trans (by decide +kernel),
    (horigin 4).trans (by decide +kernel), (horigin 5).trans (by decide +kernel), ?_⟩
  exact hagain (by decide) Session.nearMisses copied.memory hexpandsAgain

end ShaderTemplate
