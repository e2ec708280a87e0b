import Mathlib.Algebra.Order.BigOperators.Group.List
import Mathlib.Algebra.Order.Ring.Nat
import ShaderTemplate.Proofs.Output.Chunks
import ShaderTemplate.Proofs.Text.Lines

/-!
# Origins and the text

`Expanded.written` lists the lines of an expanded text, each with the piece that it was written as a
part of. The origin of a line should be the place of that piece, and none if the piece is a marker;
this is `Expanded.Aligned`.

It does not hold for all expansions. A marker has one entry in the table of origins, but it quotes
keys, paths of dictionaries and names of files as they are, and one of these with a line feed in it
lets the marker fill several lines. Then all origins after it belong to lines further up.
`Pass.aligned_iff` says that nothing else goes wrong: the origins are aligned exactly if no marker
quotes a line feed.
-/

namespace ShaderTemplate

/-! ## Lines of a text -/

namespace Text

/-- The lines of a text that end with a line feed, each without it. -/
def ended (text : Text) : List Text :=
  (segments '\n' text).dropLast

theorem length_ended (text : Text) : text.ended.length = text.lineFeeds := by
  rw [ended, List.length_dropLast, length_segments]
  rfl

/-- A text that ends with a line feed leaves the lines of what follows it as they are. -/
theorem ended_append (text rest : Text) :
    ended (text ++ ['\n'] ++ rest) = ended (text ++ ['\n']) ++ ended rest := by
  have hsegments : segments '\n' (text ++ ['\n']) = segments '\n' text ++ [[]] :=
    segments_append '\n' text []
  rw [List.append_assoc, List.singleton_append, ended, ended, ended, segments_append, hsegments,
    List.dropLast_append_of_ne_nil (segments_ne_nil _ _), List.dropLast_concat]

end Text

/-! ## Pieces and their lines -/

namespace Piece

/-- What a marker quotes from the files and the dictionary. -/
def quoted : Piece → List Text
  | lineMarker _ file => [file]
  | loopMarker (.begun reference) => [reference]
  | loopMarker (.onKey reference key) => [key, reference]
  | loopMarker .empty => []
  | loopMarker (.ended reference) => [reference]
  | code _ => []

/-- The place that a piece was written for. -/
def origin? : Piece → Option Place
  | code line => some ⟨line.path.fileName, line.line⟩
  | _ => none

/-- The number of entries that a piece has in the table of origins. -/
def entries : Piece → Nat
  | code line => line.height
  | _ => 1

theorem count_toDigits (number : Nat) : (Nat.toDigits 10 number).count '\n' = 0 := by
  apply List.count_eq_zero.mpr
  intro hmem
  have hdigit := Nat.isDigit_of_mem_toDigits (by decide) (by decide) hmem
  exact absurd hdigit (by decide)

theorem count_loopNote (note : LoopNote) :
    note.text.count '\n' = ((loopMarker note).quoted.map (List.count '\n')).sum := by
  unfold LoopNote.text
  cases note <;> simp [quoted]

/-- A piece has too few entries if it quotes line feeds. -/
theorem lineFeeds_text (piece : Piece) :
    piece.text.lineFeeds = piece.entries + (piece.quoted.map (List.count '\n')).sum := by
  unfold text
  cases piece with
  | code line => rfl
  | lineMarker line file =>
    simp [entries, quoted, Text.lineFeeds, Text.enquote, count_toDigits, Nat.add_comm]
  | loopMarker note => simp [entries, Text.lineFeeds, ← count_loopNote, Nat.add_comm]

theorem entries_le (piece : Piece) : piece.entries ≤ piece.text.lineFeeds := by
  rw [lineFeeds_text]
  exact Nat.le_add_right _ _

/-- A piece has an entry for each of its lines exactly if it quotes no line feed. -/
theorem entries_eq_iff (piece : Piece) :
    piece.entries = piece.text.lineFeeds ↔ ∀ name ∈ piece.quoted, '\n' ∉ name := by
  rw [lineFeeds_text, Nat.left_eq_add, List.sum_eq_zero_iff_forall_eq_nat]
  simp [List.count_eq_zero]

end Piece

/-- Where a line feed ends the text of a piece, as it does in an expansion. -/
def Piece.Closed (piece : Piece) : Prop :=
  ∃ text, piece.text = text ++ ['\n']

theorem Piece.closed_of_code {piece : Piece} {env : Environment} {root : Path}
    (code : ∀ line, piece.code? = some line → line.ComesFrom env root) : piece.Closed := by
  cases piece with
  | code line => exact (code line rfl).ended
  | lineMarker | loopMarker => exact ⟨_, rfl⟩

/-! ## Places of origins -/

namespace Origin

/-- The origins of a run have the places of its lines, if its chunk has the name of their file. -/
theorem places_ofRun {chunks : List Chunk} {index : Nat} {chunk : Chunk} {run : List CodeLine}
    (hchunk : chunks[index]? = some chunk) (file : ∀ line ∈ run, line.path.fileName = chunk.file) :
    (ofRun index run).map (place? chunks) =
      run.flatMap fun line => List.replicate line.height (Piece.code line).origin? := by
  rw [ofRun, List.map_flatMap]
  apply List.flatMap_congr
  intro line hline
  rw [List.map_replicate, place?, hchunk]
  simp [Piece.origin?, file line hline]

theorem places_ofRuns {chunks : List Chunk} {first : Nat} {runs : List (List CodeLine)}
    (made : ∀ index run, runs[index]? = some run → ∃ chunk, chunks[first + index]? = some chunk ∧
      ∀ line ∈ run, line.path.fileName = chunk.file) :
    (ofRuns first runs).map (place? chunks) =
      runs.flatten.flatMap fun line =>
        List.replicate line.height (Piece.code line).origin? := by
  induction runs generalizing first with
  | nil => rfl
  | cons run runs ih =>
    obtain ⟨chunk, hchunk, hfile⟩ := made 0 run rfl
    rw [Nat.add_zero] at hchunk
    rw [ofRuns, List.map_append, places_ofRun hchunk hfile, List.flatten_cons, List.flatMap_append]
    congr 1
    apply ih
    intro index other hother
    have hindex : first + 1 + index = first + (index + 1) := by omega
    rw [hindex]
    exact made (index + 1) other hother

/-- The origins of code lines have the places that the lines name. -/
theorem places_ofCode (lines : List CodeLine) (counted : ∀ line ∈ lines, 1 ≤ line.line) :
    (ofCode 0 none lines).map (place? (Chunk.ofLines lines)) =
      lines.flatMap fun line => List.replicate line.height (Piece.code line).origin? := by
  rw [ofCode_eq_ofRuns, places_ofRuns, List.flatten_splitBy]
  intro index run hrun
  have hmem : run ∈ lines.splitBy CodeLine.continues := List.mem_of_getElem? hrun
  have hsome := Chunk.isSome_ofRun? (List.ne_nil_of_mem_splitBy hmem)
  obtain ⟨chunk, hchunk⟩ := Option.isSome_iff_exists.mp hsome
  have hmade : chunk.MadeOf run := Chunk.madeOf_of_ofRun? hchunk (List.isChain_of_mem_splitBy hmem)
    fun line hline => counted line ((CodeLine.infix_of_mem_splitBy hmem).subset hline)
  refine ⟨chunk, ?_, hmade.file⟩
  rw [Chunk.getElem?_ofLines, Nat.zero_add, hrun, Option.bind_some, hchunk]

/-- Markers have no place, and the places of the code do not depend on the markers in between. -/
theorem places_ofPieces {chunks : List Chunk} {begun : Nat} {before : Option CodeLine}
    {pieces : List Piece}
    (code : (ofCode begun before (pieces.filterMap Piece.code?)).map (place? chunks) =
      (pieces.filterMap Piece.code?).flatMap fun line =>
        List.replicate line.height (Piece.code line).origin?) :
    (ofPieces begun before pieces).map (·.bind (place? chunks)) =
      pieces.flatMap fun piece => List.replicate piece.entries piece.origin? := by
  induction pieces generalizing begun before with
  | nil => rfl
  | cons piece pieces ih =>
    cases piece with
    | code line =>
      have hcode : Piece.code? (.code line) = some line := rfl
      rw [List.filterMap_cons_some hcode, ofCode, List.map_append, List.flatMap_cons] at code
      -- both sides begin with as many places as the line is high, so the rest agrees on its own
      obtain ⟨hline, hrest⟩ := List.append_inj code (by simp)
      rw [ofPieces, List.map_append, List.flatMap_cons, ih hrest]
      congr 1
      simpa [Piece.entries] using hline
    | lineMarker number file => exact congrArg (none :: ·) (ih code)
    | loopMarker note => exact congrArg (none :: ·) (ih code)

theorem length_ofPieces (begun : Nat) (before : Option CodeLine) (pieces : List Piece) :
    (ofPieces begun before pieces).length = (pieces.map Piece.entries).sum := by
  induction pieces generalizing begun before with
  | nil => rfl
  | cons piece pieces ih =>
    cases piece with
    | code line =>
      rw [ofPieces, List.length_append, List.length_replicate, ih, List.map_cons, List.sum_cons]
      rfl
    | lineMarker | loopMarker =>
      rw [ofPieces, List.length_cons, ih, List.map_cons, List.sum_cons]
      exact Nat.add_comm _ 1

end Origin

/-! ## Alignment -/

namespace Expanded

/-- The lines of the text, each with the piece that it was written as a part of. -/
def written (expanded : Expanded) : List (Text × Piece) :=
  expanded.pieces.flatMap fun piece => piece.text.ended.map fun line => (line, piece)

/-- There is an origin for each line of the text: the place for which the line was written, and none
for a line of a marker. Lines that the text does not have are from nowhere. -/
structure Aligned (expanded : Expanded) : Prop where
  length : expanded.lineOrigins.length = expanded.source.lineFeeds
  outside : expanded.originOf 0 = none
  origin : ∀ index, expanded.originOf (index + 1) =
    expanded.written[index]?.bind fun (_, piece) => piece.origin?

variable {expanded : Expanded}

/-- The lines of the pieces are the lines of the text. -/
theorem map_fst_written (closed : ∀ piece ∈ expanded.pieces, piece.Closed) :
    expanded.written.map Prod.fst = expanded.source.ended := by
  unfold written source
  generalize expanded.pieces = pieces at closed
  induction pieces with
  | nil => rfl
  | cons piece pieces ih =>
    obtain ⟨hpiece, hpieces⟩ := List.forall_mem_cons.mp closed
    obtain ⟨text, htext⟩ := hpiece
    rw [List.flatMap_cons, List.flatMap_cons, List.map_append, ih hpieces, htext, Text.ended_append]
    simp [Function.comp_def]

theorem map_snd_written :
    expanded.written.map (fun line => line.2.origin?) =
      expanded.pieces.flatMap fun piece =>
        List.replicate piece.text.lineFeeds piece.origin? := by
  rw [written, List.map_flatMap]
  apply List.flatMap_congr
  intro piece _
  rw [← Text.length_ended]
  simp [Function.comp_def, List.map_const']

theorem lineFeeds_source :
    expanded.source.lineFeeds = (expanded.pieces.map fun piece => piece.text.lineFeeds).sum :=
  List.count_flatMap

/-- The table of origins has an entry for each line exactly if no marker quotes a line feed. -/
theorem length_lineOrigins_eq_iff :
    expanded.lineOrigins.length = expanded.source.lineFeeds ↔
      ∀ piece ∈ expanded.pieces, ∀ name ∈ piece.quoted, '\n' ∉ name := by
  rw [lineOrigins, Origin.length_ofPieces, lineFeeds_source]
  generalize expanded.pieces = pieces
  induction pieces with
  | nil => simp
  | cons piece pieces ih =>
    rw [List.forall_mem_cons, ← Piece.entries_eq_iff, ← ih, List.map_cons, List.map_cons,
      List.sum_cons, List.sum_cons]
    -- no piece has more entries than lines, so the sums agree only if all summands do
    have hpiece := piece.entries_le
    have hpieces : (pieces.map Piece.entries).sum ≤
        (pieces.map fun piece => piece.text.lineFeeds).sum :=
      List.sum_le_sum fun piece _ => piece.entries_le
    omega

theorem aligned_of_quoted (counted : ∀ line ∈ expanded.codeLines, 1 ≤ line.line)
    (quoted : ∀ piece ∈ expanded.pieces, ∀ name ∈ piece.quoted, '\n' ∉ name) :
    expanded.Aligned := by
  have hcode : expanded.lineOrigins.map (·.bind (Origin.place? expanded.chunks)) =
      expanded.pieces.flatMap fun piece => List.replicate piece.entries piece.origin? :=
    Origin.places_ofPieces (Origin.places_ofCode expanded.codeLines counted)
  have hplaces : expanded.lineOrigins.map (·.bind (Origin.place? expanded.chunks)) =
      expanded.written.map fun line => line.2.origin? := by
    rw [map_snd_written, hcode]
    apply List.flatMap_congr
    intro piece hpiece
    rw [piece.entries_eq_iff.mpr (quoted piece hpiece)]
  refine ⟨length_lineOrigins_eq_iff.mpr quoted, rfl, fun index => ?_⟩
  calc expanded.originOf (index + 1)
      = (expanded.lineOrigins.map (·.bind (Origin.place? expanded.chunks)))[index]?.join := by
        rw [List.getElem?_map, originOf, Origin.lookUp]
        cases expanded.lineOrigins[index]? <;> rfl
    _ = expanded.written[index]?.bind fun line => line.2.origin? := by
        rw [hplaces, List.getElem?_map]
        cases expanded.written[index]? <;> rfl

end Expanded

/-- **When origins are aligned.** For every successful expansion, `Expanded.written` has the lines
of the text, and each code line comes from the line of the file that it names. The origins are those
of the lines as they were written, one for each line, exactly if no marker quotes a line feed: then
the length of the table is already wrong. -/
theorem Pass.aligned_iff {env : Environment} {shader : Path} {steps : Nat} {pass : Pass}
    {expanded : Expanded} (run : Pass.within? steps env shader = some pass)
    (ok : pass.result = .ok expanded) :
    expanded.written.map Prod.fst = expanded.source.ended ∧
      (∀ line ∈ expanded.codeLines, line.ComesFrom env (env.provider.absolute shader)) ∧
      (expanded.Aligned ↔
        ∀ piece ∈ expanded.pieces, ∀ name ∈ piece.quoted, '\n' ∉ name) := by
  have hcomes := comesFrom_of_within run ok
  refine ⟨Expanded.map_fst_written fun piece hpiece => ?_, hcomes, ?_, fun quoted => ?_⟩
  · exact Piece.closed_of_code fun line hline =>
      hcomes line (List.mem_filterMap.mpr ⟨piece, hpiece, hline⟩)
  · exact fun aligned => Expanded.length_lineOrigins_eq_iff.mp aligned.length
  · exact Expanded.aligned_of_quoted (fun line hline => (hcomes line hline).one_le_line) quoted

/-- A loop over a dictionary whose only key has a line feed in it. -/
def Environment.brokenKey : Environment where
  provider :=
    (FileStore.empty.write ⟨"/main".toList⟩
      (.text "#for k, v in t\n#{v}\n#endfor\nend\n".toList) none).memory
  dictionary :=
    ⟨[⟨"t".toList, .dictionary ⟨[⟨"a\nb".toList, .string "x".toList⟩]⟩⟩]⟩
  config := { lineMarkers := false }

/-- The marker for the key fills two lines. -/
def Expanded.brokenKey : Expanded where
  pieces :=
    [.loopMarker (.begun "t".toList), .loopMarker (.onKey "t".toList "a\nb".toList),
      .code ⟨⟨"/main".toList⟩, 2, "x\n".toList⟩, .loopMarker (.ended "t".toList),
      .code ⟨⟨"/main".toList⟩, 4, "end\n".toList⟩]

/-- The second line of the marker for the key is taken for the line of code behind it. -/
theorem Pass.not_aligned_brokenKey :
    let pass : Pass := ⟨.ok .brokenKey, [⟨"/main".toList⟩],
      [.opened ⟨"/main".toList⟩, .loopBegun "t".toList "a\nb".toList]⟩
    Pass.within? 8 .brokenKey ⟨"main".toList⟩ = some pass ∧ pass.result = .ok .brokenKey ∧
      Expanded.brokenKey.written[2]? =
        some ("b in t".toList, .loopMarker (.onKey "t".toList "a\nb".toList)) ∧
      Expanded.brokenKey.originOf 3 = some ⟨"main".toList, 2⟩ ∧
      ¬ Expanded.brokenKey.Aligned := by
  intro pass
  have hrun : Pass.within? 8 .brokenKey ⟨"main".toList⟩ = some pass := by rfl
  refine ⟨hrun, rfl, by rfl, by rfl, fun aligned => ?_⟩
  have hquoted := (Pass.aligned_iff hrun rfl).2.2.mp aligned
  have hmarker : Piece.loopMarker (.onKey "t".toList "a\nb".toList) ∈ Expanded.brokenKey.pieces :=
    List.mem_cons_of_mem _ List.mem_cons_self
  exact hquoted _ hmarker "a\nb".toList List.mem_cons_self (by simp)

end ShaderTemplate
