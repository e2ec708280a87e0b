import Mathlib.Data.List.Destutter
import ShaderTemplate.Proofs.InfoLog.Passes
import ShaderTemplate.Proofs.Output.Origins

/-!
# Logs lead back to the files

A compiler is handed the chunks of an expansion as numbered source texts, and names a line by the
number of a text and the line in it. `InfoLog.remap_leads_back` says that `InfoLog.remap` puts the
line of the file in its place that the origins of the expansion give for that line of the chunk.

## Shape of the argument

Chunks and origins are tied together by the code that a chunk is made of (`Chunk.MadeOf`), whose
lines are consecutive, so the line in the file is the line in the chunk and a constant
(`Expanded.linesOf_eq`). The location itself means the numbers that its digits were written for, so
one of the two passes replaces it, and both copy the rest of its line (`remapFrom_of_single`).
-/

namespace ShaderTemplate

/-- The lines of its file that are recorded for a chunk. A line that fills several lines of the
output counts once. -/
def Expanded.linesOf (expanded : Expanded) (chunk : Nat) : List Nat :=
  ((expanded.lineOrigins.reduceOption.filter (·.chunk == chunk)).map Origin.line).destutter (· ≠ ·)

/-! ## Lines of a chunk -/

/-- Ascending lines are all kept, and repetitions of the last one are not. -/
theorem destutter_range'_append_replicate (start count extra : Nat) :
    (List.range' start (count + 1) ++ List.replicate extra (start + count)).destutter (· ≠ ·) =
      List.range' start (count + 1) := by
  rw [List.range'_succ, List.cons_append, List.destutter_cons']
  induction count generalizing start with
  | zero =>
    rw [List.range'_zero, List.nil_append]
    induction extra with
    | zero => rfl
    | succ extra ih =>
      rw [List.replicate_succ, List.destutter'_cons, if_neg (by simp)]
      exact ih
  | succ count ih =>
    have hnext : start + (count + 1) = start + 1 + count := by omega
    rw [List.range'_succ, List.cons_append, List.destutter'_cons, if_pos (by omega), hnext, ih]

/-- The lines recorded for a chunk are those of the code that it is made of. -/
theorem Expanded.linesOf_eq {env : Environment} {root : Path} {expanded : Expanded} {index : Nat}
    {chunk : Chunk} (comes : ∀ code ∈ expanded.codeLines, code.ComesFrom env root)
    (found : expanded.chunks[index]? = some chunk) :
    ∃ code, chunk.MadeOf code ∧ expanded.linesOf index = code.map CodeLine.line := by
  obtain ⟨code, hcode, hrun⟩ := Option.bind_eq_some_iff.mp <|
    (Chunk.getElem?_ofLines expanded.codeLines index).symm.trans found
  have hmem := List.mem_of_getElem? hcode
  have hpart := CodeLine.infix_of_mem_splitBy hmem
  have hcomes : ∀ line ∈ code, line.ComesFrom env root :=
    fun line hline => comes line (hpart.subset hline)
  have hmade : chunk.MadeOf code := Chunk.madeOf_of_ofRun? hrun
    (List.isChain_of_mem_splitBy hmem) fun line hline => (hcomes line hline).one_le_line
  obtain ⟨extra, hextra⟩ := hmade.lines_ofRun
    (fun line hline => (hcomes line hline).one_le_height) index
  have horigins : expanded.lineOrigins.reduceOption.filter (·.chunk == index) =
      Origin.ofRun index code := by
    have hfilter := @Origin.filter_ofRuns 0 index _ code hcode
    rw [← Origin.ofCode_eq_ofRuns, Nat.zero_add] at hfilter
    rw [lineOrigins, Origin.reduceOption_ofPieces]
    exact hfilter
  obtain ⟨count, hcount⟩ := Nat.exists_eq_succ_of_ne_zero
    (List.length_pos_iff.mpr hmade.nonempty).ne'
  have hlast : chunk.lineOffset + code.length = chunk.lineOffset + 1 + count := by omega
  refine ⟨code, hmade, ?_⟩
  rw [linesOf, horigins, hextra, hmade.lines, hlast, hcount]
  exact destutter_range'_append_replicate _ _ _

/-! ## Sizes -/

/-- There are no more code lines than characters in the output. -/
theorem Expanded.length_codeLines_le {env : Environment} {root : Path} {expanded : Expanded}
    (comes : ∀ code ∈ expanded.codeLines, code.ComesFrom env root) :
    expanded.codeLines.length ≤ expanded.source.length := by
  unfold codeLines source at *
  generalize expanded.pieces = pieces at comes
  induction pieces with
  | nil => simp
  | cons piece pieces ih =>
    rw [List.flatMap_cons, List.length_append]
    cases piece with
    | code code =>
      have hpiece : Piece.code? (.code code) = some code := rfl
      rw [List.filterMap_cons_some hpiece] at comes ⊢
      obtain ⟨hcode, hcomes⟩ := List.forall_mem_cons.mp comes
      have hheight : 1 ≤ (Piece.code code).text.length :=
        hcode.one_le_height.trans List.count_le_length
      have hrest := ih hcomes
      rw [List.length_cons]
      omega
    | lineMarker | loopMarker => exact Nat.le_add_left_of_le (ih comes)

/-- There are no more chunks than code lines. -/
theorem Chunk.length_ofLines_le (lines : List CodeLine) :
    (ofLines lines).length ≤ lines.length := by
  have hflatten := List.flatten_splitBy CodeLine.continues lines
  have hnonempty : ∀ run ∈ lines.splitBy CodeLine.continues, run ≠ [] :=
    fun run => List.ne_nil_of_mem_splitBy
  rw [length_ofLines]
  generalize lines.splitBy CodeLine.continues = runs at hflatten hnonempty
  subst hflatten
  induction runs with
  | nil => simp
  | cons run runs ih =>
    obtain ⟨hrun, hruns⟩ := List.forall_mem_cons.mp hnonempty
    have hpos := List.length_pos_iff.mpr hrun
    have hrest := ih hruns
    rw [List.flatten_cons, List.length_append, List.length_cons]
    omega

/-! ## Logs of one line -/

namespace InfoLog

variable {chunks : List Chunk} {index line : Nat} {chunk : Chunk} {rest : Text}

/-- What is left of a line is copied. -/
theorem remapFrom_of_single (single : '\n' ∉ rest) : remapFrom chunks false rest = rest := by
  induction rest with
  | nil => exact remapFrom_nil
  | cons c rest ih =>
    rw [List.mem_cons, not_or] at single
    have hstart : (c == '\n') = false := beq_eq_false_iff_ne.mpr (Ne.symm single.1)
    rw [remapFrom_cons (by simp), hstart, ih single.2]

/-- A location behind a label, and then the rest of its line. -/
theorem remap_withColon (found : chunks[index]? = some chunk) (indexFits : index < UInt64.size)
    (sumFits : chunk.lineOffset + line < UInt64.size) (file : '\n' ∉ chunk.file) {label : Text}
    (known : label = "ERROR".toList ∨ label = "WARNING".toList) (single : '\n' ∉ rest)
    (ends : ∀ c ∈ rest.head?, Text.isDecimalDigit c = false) :
    remap chunks (label ++ ':' :: ' ' :: (Location.withColon index line ++ rest)) =
      label ++ ':' :: ' ' ::
        (Location.inBrackets chunk.file (chunk.lineOffset + line) ++ rest) := by
  have hlocation := @Location.labelled_withColon rest index line label known ends
  have hremap := remapFrom_of_labelled hlocation
    (Location.means_toDigits found indexFits sumFits) (Location.single_inBrackets file _)
  rw [startsBehind_labelled hlocation, remapFrom_of_single single] at hremap
  simpa [remap, remapFrom] using hremap

/-- A location in brackets, and then the rest of its line. -/
theorem remap_inBrackets (found : chunks[index]? = some chunk) (indexFits : index < UInt64.size)
    (sumFits : chunk.lineOffset + line < UInt64.size) (single : '\n' ∉ rest) :
    remap chunks (Location.inBrackets (Nat.toDigits 10 index) line ++ rest) =
      Location.inBrackets chunk.file (chunk.lineOffset + line) ++ ' ' :: Text.trimStart rest := by
  have hlocation := @Location.bracketed_inBrackets index line rest
  have hrest : Text.indentation rest ++ Text.trimStart rest = rest :=
    List.takeWhile_append_dropWhile
  have hblanks : '\n' ∉ Text.indentation rest := fun hmem =>
    single (hrest ▸ List.mem_append_left _ hmem)
  have hbehind : '\n' ∉ Text.trimStart rest := fun hmem =>
    single (hrest ▸ List.mem_append_right _ hmem)
  have hcovered : '\n' ∉
      Location.inBrackets (Nat.toDigits 10 index) line ++ Text.indentation rest := by
    rw [List.mem_append, not_or]
    exact ⟨Location.single_inBrackets (Location.digits_toDigits index).single line, hblanks⟩
  have hremap := remapFrom_of_bracketed hlocation
    (Location.means_toDigits found indexFits sumFits)
  rw [startsBehind_of_single hcovered hlocation.nonempty, remapFrom_of_single hbehind,
    List.append_assoc, hrest] at hremap
  simpa [remap, remapFrom] using hremap

/-- **Logs lead back to the files.** Take a successful expansion that a machine can hold, and in
which no file name has a line feed. For a line of a chunk, counted from 1, let `origin` be the line
that the origins record for it, which is a number of 64 bits like all lines of files. Then the two
ways to write the location of that line in front of one line of a log are replaced by the name of
the file and `origin`. The index of the chunk is the one that its source text begins with. -/
theorem remap_leads_back {env : Environment} {shader : Path} {steps : Nat} {pass : Pass}
    {expanded : Expanded} (run : Pass.within? steps env shader = some pass)
    (ok : pass.result = .ok expanded) (held : expanded.source.length < UInt64.size)
    (named : ∀ chunk ∈ expanded.chunks, '\n' ∉ chunk.file) {index line origin : Nat} {chunk : Chunk}
    (found : expanded.chunks[index]? = some chunk) (counted : 1 ≤ line)
    (recorded : (expanded.linesOf index)[line - 1]? = some origin) (fits : origin < UInt64.size)
    (rest : Text) (single : '\n' ∉ rest) :
    let place := Location.inBrackets chunk.file origin
    ((∀ c ∈ rest.head?, Text.isDecimalDigit c = false) →
        ∀ label ∈ ["ERROR".toList, "WARNING".toList],
          remap expanded.chunks
              (label ++ ':' :: ' ' :: (Location.withColon index line ++ rest)) =
            label ++ ':' :: ' ' :: (place ++ rest)) ∧
      remap expanded.chunks (Location.inBrackets (Nat.toDigits 10 index) line ++ rest) =
        place ++ ' ' :: Text.trimStart rest ∧
      (Chunk.sources expanded.chunks)[index]? =
        some ("#line 1 ".toList ++ Nat.toDigits 10 index ++ '\n' :: chunk.source) ∧
      ∃ code, chunk.MadeOf code ∧ expanded.linesOf index = code.map CodeLine.line := by
  intro place
  have hcomes := comesFrom_of_within run ok
  obtain ⟨code, hmade, hlines⟩ := Expanded.linesOf_eq hcomes found
  have hsize := Expanded.length_codeLines_le hcomes
  rw [hlines, hmade.lines] at recorded
  obtain ⟨hlt, horigin⟩ := List.getElem?_eq_some_iff.mp recorded
  rw [List.length_range'] at hlt
  rw [List.getElem_range', Nat.one_mul] at horigin
  obtain rfl : origin = chunk.lineOffset + line := by omega
  have hindex : index < UInt64.size := by
    obtain ⟨hlt, -⟩ := List.getElem?_eq_some_iff.mp found
    have hle := Chunk.length_ofLines_le expanded.codeLines
    have hlt : index < (Chunk.ofLines expanded.codeLines).length := hlt
    omega
  refine ⟨fun ends label hlabel => ?_, ?_, ?_, code, hmade, hlines⟩
  · have hknown : label = "ERROR".toList ∨ label = "WARNING".toList := by simpa using hlabel
    have hfile := named chunk (List.mem_of_getElem? found)
    exact remap_withColon found hindex fits hfile hknown single ends
  · exact remap_inBrackets found hindex fits single
  · simp [Chunk.sources, found]

end InfoLog

/-- A file that is filled with a value of two lines after an include. -/
def Environment.tallValue : Environment where
  provider :=
    ((FileStore.empty.write ⟨"/main".toList⟩
      (.text "#include \"lib\"\na\n#{v}\nb\n".toList) none).write ⟨"/lib".toList⟩
        (.text "c\n".toList) none).memory
  dictionary := ⟨[⟨"v".toList, .string "x\ny".toList⟩]⟩
  config := { lineMarkers := false, loopMarkers := false }

/-- The code of these files, of which the two middle lines make a chunk. -/
def Expanded.tallValue : Expanded where
  pieces :=
    [.code ⟨⟨"/lib".toList⟩, 1, "c\n".toList⟩, .code ⟨⟨"/main".toList⟩, 2, "a\n".toList⟩,
      .code ⟨⟨"/main".toList⟩, 3, "x\ny\n".toList⟩, .code ⟨⟨"/main".toList⟩, 4, "b\n".toList⟩]

theorem InfoLog.remap_leads_back_tallValue :
    let chunks := Expanded.tallValue.chunks
    (∃ pass, Pass.within? 9 .tallValue ⟨"main".toList⟩ = some pass ∧ pass.result = .ok .tallValue) ∧
      Expanded.tallValue.linesOf 1 = [2, 3] ∧
      remap chunks "ERROR: 1:2: no".toList = "ERROR: main(3): no".toList ∧
      remap chunks "1(2)  2 errors".toList = "main(3) 2 errors".toList ∧
      (Chunk.sources chunks)[1]? = some "#line 1 1\na\nx\ny\n".toList := by
  intro chunks
  have hrun : Pass.within? 9 .tallValue ⟨"main".toList⟩ =
      some ⟨.ok .tallValue, [⟨"/main".toList⟩, ⟨"/lib".toList⟩],
        [.opened ⟨"/main".toList⟩, .tried "lib".toList ⟨"/lib".toList⟩ true,
          .opened ⟨"/lib".toList⟩]⟩ := by rfl
  have hheld : Expanded.tallValue.source.length < UInt64.size := by decide
  have hnamed : ∀ chunk ∈ Expanded.tallValue.chunks, '\n' ∉ chunk.file := by decide
  have hfound : Expanded.tallValue.chunks[1]? = some ⟨"a\nx\ny\n".toList, "main".toList, 1⟩ := by
    rfl
  have hlines : Expanded.tallValue.linesOf 1 = [2, 3] := by rfl
  have hrecorded : (Expanded.tallValue.linesOf 1)[2 - 1]? = some 3 := by rw [hlines]; rfl
  obtain ⟨hlabelled, -, -⟩ := remap_leads_back hrun rfl hheld hnamed hfound (by decide) hrecorded
    (by decide) ": no".toList (by decide)
  obtain ⟨-, hbracketed, hsource, -⟩ := remap_leads_back hrun rfl hheld hnamed hfound (by decide)
    hrecorded (by decide) "  2 errors".toList (by decide)
  refine ⟨⟨_, hrun, rfl⟩, hlines, ?_, hbracketed, hsource⟩
  exact hlabelled (by rintro c ⟨⟩; decide) "ERROR".toList List.mem_cons_self

end ShaderTemplate
