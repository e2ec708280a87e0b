import Mathlib.Data.List.ReduceOption
import Mathlib.Data.List.SplitBy
import ShaderTemplate.FileStore
import ShaderTemplate.Proofs.Output.Provenance

/-!
# Chunks and origins describe the same code

The chunks of an expansion and the origins of its lines are computed apart from each other: chunks
by cutting the code lines into runs, origins by going through the pieces and comparing each code
line with the one before it. `Pass.origins_follow_chunks` says that they agree: the origins that are
not missing go through the chunks in order, and through the physical lines of each.

## Shape of the argument

Markers do not matter (`Origin.filterMap_ofPieces`), so the origins are those of the code lines
alone. A line continues the chunk of the line before it exactly where `List.splitBy` does not cut,
which gives the origins run by run (`Origin.ofCode_flatten`). Within a run every line is the one
after the line before it, and only the last may fill more than one physical line
(`CodeLine.flatMap_lines`).
-/

namespace ShaderTemplate

/-- Neighbours that stand in one chunk. -/
abbrev CodeLine.Consecutive (run : List CodeLine) : Prop :=
  run.IsChain fun before after => before.continues after = true

theorem CodeLine.continues_iff {before after : CodeLine} :
    before.continues after = true ↔
      before.height = 1 ∧ (before.path == after.path) = true ∧ before.line + 1 = after.line := by
  simp only [continues, Bool.and_eq_true, beq_iff_eq, and_assoc]

/-- What a file is called does not depend on how its path is written. -/
theorem Path.fileName_congr {a b : Path} (h : (a == b) = true) : a.fileName = b.fileName := by
  unfold fileName
  rw [beq_iff.mp h]

/-! ## Origins run by run -/

namespace Origin

/-- The origins of some code lines, as `Origin.ofPieces` gives them without markers. -/
def ofCode (chunks : Nat) (before : Option CodeLine) : List CodeLine → List Origin
  | [] => []
  | line :: rest =>
    let begun := if before.any (·.continues line) then chunks else chunks + 1
    List.replicate line.height ⟨begun - 1, line.line⟩ ++ ofCode begun (some line) rest

/-- The origins of a run of code lines that fills a chunk. -/
def ofRun (chunk : Nat) (run : List CodeLine) : List Origin :=
  run.flatMap fun line => List.replicate line.height ⟨chunk, line.line⟩

/-- The origins of runs of code lines, from this chunk on. -/
def ofRuns (chunk : Nat) : List (List CodeLine) → List Origin
  | [] => []
  | run :: runs => ofRun chunk run ++ ofRuns (chunk + 1) runs

theorem reduceOption_ofPieces (chunks : Nat) (before : Option CodeLine) (pieces : List Piece) :
    (ofPieces chunks before pieces).reduceOption =
      ofCode chunks before (pieces.filterMap Piece.code?) := by
  induction pieces generalizing chunks before with
  | nil => rfl
  | cons piece pieces ih =>
    cases piece with
    | code line =>
      have hcode : Piece.code? (.code line) = some line := rfl
      have hheight (origin : Origin) : (List.replicate line.height (some origin)).reduceOption =
          List.replicate line.height origin := by
        simp [List.reduceOption]
      simp only [ofPieces, List.reduceOption_append, hheight, ih, List.filterMap_cons_some hcode,
        ofCode]
    | lineMarker | loopMarker => exact ih chunks before

/-- The lines of a run stay in the chunk of its first line. -/
theorem ofCode_consecutive {chunks : Nat} {first : CodeLine} {lines : List CodeLine}
    (rest : List CodeLine) (consecutive : CodeLine.Consecutive (first :: lines)) :
    ofCode chunks (some first) (lines ++ rest) =
      ofRun (chunks - 1) lines ++
        ofCode chunks (some ((first :: lines).getLast (List.cons_ne_nil _ _))) rest := by
  induction lines generalizing first with
  | nil => rfl
  | cons second lines ih =>
    obtain ⟨hcontinues, hlines⟩ := List.isChain_cons_cons.mp consecutive
    simp only [List.cons_append, ofCode, Option.any_some, hcontinues, if_true, ih hlines, ofRun,
      List.flatMap_cons, List.append_assoc, List.getLast_cons_cons]

/-- Each run begins a chunk, if no run continues the chunk of the run before it. -/
theorem ofCode_flatten {chunks : Nat} {before : Option CodeLine} {runs : List (List CodeLine)}
    (nonempty : [] ∉ runs) (consecutive : ∀ run ∈ runs, CodeLine.Consecutive run)
    (apart : runs.IsChain fun run next =>
      ∃ h h', (run.getLast h).continues (next.head h') = false)
    (start : ∀ last ∈ before, ∀ run ∈ runs.head?, ∃ h, last.continues (run.head h) = false) :
    ofCode chunks before runs.flatten = ofRuns chunks runs := by
  induction runs generalizing chunks before with
  | nil => rfl
  | cons run runs ih =>
    cases run with
    | nil => simp at nonempty
    | cons first lines =>
      have hbegun : before.any (·.continues first) = false := by
        cases before with
        | none => rfl
        | some last =>
          obtain ⟨_, hfirst⟩ := start last rfl (first :: lines) rfl
          exact hfirst
      have hlines : CodeLine.Consecutive (first :: lines) := consecutive _ List.mem_cons_self
      -- the next run does not continue the last line of this one, so it begins a chunk in turn
      obtain ⟨hnext, hruns⟩ := List.isChain_cons.mp apart
      have hrest : ofCode (chunks + 1) (some ((first :: lines).getLast (List.cons_ne_nil _ _)))
          runs.flatten = ofRuns (chunks + 1) runs := by
        refine ih (fun h => nonempty (List.mem_cons_of_mem _ h))
          (fun run h => consecutive run (List.mem_cons_of_mem _ h)) hruns ?_
        rintro last ⟨⟩ next hhead
        obtain ⟨_, hcut⟩ := hnext next hhead
        exact hcut
      simp only [List.flatten_cons, List.cons_append, ofCode, hbegun, Bool.false_eq_true, if_false,
        Nat.add_sub_cancel, ofRuns, ofRun, List.flatMap_cons]
      rw [ofCode_consecutive _ hlines, hrest]
      simp [ofRun]

/-- The origins of some code lines go through the runs that make up the chunks. -/
theorem ofCode_eq_ofRuns (lines : List CodeLine) :
    ofCode 0 none lines = ofRuns 0 (lines.splitBy CodeLine.continues) := by
  have hflatten := List.flatten_splitBy CodeLine.continues lines
  calc ofCode 0 none lines = ofCode 0 none (lines.splitBy CodeLine.continues).flatten := by
        rw [hflatten]
    _ = ofRuns 0 (lines.splitBy CodeLine.continues) :=
        ofCode_flatten (List.nil_notMem_splitBy _ _) (fun run => List.isChain_of_mem_splitBy)
          (List.isChain_getLast_head_splitBy _ _) (by simp)

/-- Lines that fill one physical line each are recorded once each. -/
theorem lines_ofRun_of_single (chunk : Nat) {run : List CodeLine}
    (single : ∀ line ∈ run, line.height = 1) :
    (ofRun chunk run).map Origin.line = run.map CodeLine.line := by
  induction run with
  | nil => rfl
  | cons first rest ih =>
    obtain ⟨hfirst, hrest⟩ := List.forall_mem_cons.mp single
    rw [ofRun, List.flatMap_cons, List.map_append, hfirst, List.map_cons, ← ih hrest]
    rfl

theorem mem_ofRun (chunk : Nat) {run : List CodeLine} {line : CodeLine} (h : line ∈ run)
    (filling : 1 ≤ line.height) : ⟨chunk, line.line⟩ ∈ ofRun chunk run :=
  List.mem_flatMap.mpr ⟨line, h, List.mem_replicate.mpr ⟨by omega, rfl⟩⟩

theorem chunk_of_mem_ofRun {chunk : Nat} {run : List CodeLine} {origin : Origin}
    (h : origin ∈ ofRun chunk run) : origin.chunk = chunk := by
  obtain ⟨line, -, hline⟩ := List.mem_flatMap.mp h
  rw [List.eq_of_mem_replicate hline]

theorem chunk_of_mem_ofRuns {chunk : Nat} {runs : List (List CodeLine)} {origin : Origin}
    (h : origin ∈ ofRuns chunk runs) :
    chunk ≤ origin.chunk ∧ origin.chunk < chunk + runs.length := by
  induction runs generalizing chunk with
  | nil => simp [ofRuns] at h
  | cons run runs ih =>
    rw [List.length_cons]
    rcases List.mem_append.mp h with h | h
    · have := chunk_of_mem_ofRun h
      omega
    · have := ih h
      omega

/-- The origins go through the chunks in their order. -/
theorem pairwise_chunk_ofRuns (chunk : Nat) (runs : List (List CodeLine)) :
    ((ofRuns chunk runs).map Origin.chunk).Pairwise (· ≤ ·) := by
  rw [List.pairwise_map]
  induction runs generalizing chunk with
  | nil => exact List.Pairwise.nil
  | cons run runs ih =>
    refine List.pairwise_append.mpr ⟨?_, ih (chunk + 1), fun a ha b hb => ?_⟩
    · apply List.pairwise_of_forall_mem_list
      intro a ha b hb
      rw [chunk_of_mem_ofRun ha, chunk_of_mem_ofRun hb]
    · have := chunk_of_mem_ofRun ha
      have := chunk_of_mem_ofRuns hb
      omega

/-- The origins that belong to a chunk are those of its run. -/
theorem filter_ofRuns {chunk index : Nat} {runs : List (List CodeLine)} {run : List CodeLine}
    (h : runs[index]? = some run) :
    (ofRuns chunk runs).filter (·.chunk == chunk + index) = ofRun (chunk + index) run := by
  induction runs generalizing chunk index with
  | nil => simp at h
  | cons first runs ih =>
    rw [ofRuns, List.filter_append]
    cases index with
    | zero =>
      obtain rfl : first = run := by simpa using h
      have hfirst : (ofRun chunk first).filter (·.chunk == chunk + 0) = ofRun chunk first :=
        List.filter_eq_self.mpr fun origin horigin => by simp [chunk_of_mem_ofRun horigin]
      -- the other runs lie in later chunks
      have hrest : (ofRuns (chunk + 1) runs).filter (·.chunk == chunk + 0) = [] := by
        apply List.filter_eq_nil_iff.mpr
        intro origin horigin
        have := chunk_of_mem_ofRuns horigin
        simp only [beq_iff_eq]
        omega
      rw [hfirst, hrest, List.append_nil, Nat.add_zero]
    | succ index =>
      have hfirst : (ofRun chunk first).filter (·.chunk == chunk + (index + 1)) = [] := by
        apply List.filter_eq_nil_iff.mpr
        intro origin horigin
        have := chunk_of_mem_ofRun horigin
        simp only [beq_iff_eq]
        omega
      have hindex : chunk + (index + 1) = chunk + 1 + index := by omega
      rw [hfirst, List.nil_append, hindex]
      exact ih (by simpa using h)

end Origin

/-! ## What a chunk is made of -/

/-- A run of code lines that a chunk is made of: consecutive lines of one file, of which none but
the last fills more than one line of the chunk. -/
structure Chunk.MadeOf (chunk : Chunk) (code : List CodeLine) : Prop where
  nonempty : code ≠ []
  source : chunk.source = code.flatMap CodeLine.text
  file : ∀ line ∈ code, line.path.fileName = chunk.file
  lines : code.map CodeLine.line = List.range' (chunk.lineOffset + 1) code.length
  single : ∀ line ∈ code.dropLast, line.height = 1

namespace CodeLine

variable {first : CodeLine} {rest : List CodeLine}

theorem Consecutive.lines_eq (consecutive : Consecutive (first :: rest)) :
    (first :: rest).map CodeLine.line = List.range' first.line (rest.length + 1) := by
  induction rest generalizing first with
  | nil => rfl
  | cons second rest ih =>
    obtain ⟨hcontinues, hrest⟩ := List.isChain_cons_cons.mp consecutive
    obtain ⟨-, -, hline⟩ := continues_iff.mp hcontinues
    rw [List.map_cons, ih hrest, ← hline, List.length_cons, List.range'_succ (s := first.line)]

theorem Consecutive.fileName_eq (consecutive : Consecutive (first :: rest)) :
    ∀ line ∈ first :: rest, line.path.fileName = first.path.fileName := by
  induction rest generalizing first with
  | nil => simp
  | cons second rest ih =>
    obtain ⟨hcontinues, hrest⟩ := List.isChain_cons_cons.mp consecutive
    obtain ⟨-, hpath, -⟩ := continues_iff.mp hcontinues
    refine List.forall_mem_cons.mpr ⟨rfl, fun line hline => ?_⟩
    rw [ih hrest line hline, Path.fileName_congr hpath]

theorem Consecutive.single (consecutive : Consecutive (first :: rest)) :
    ∀ line ∈ (first :: rest).dropLast, line.height = 1 := by
  induction rest generalizing first with
  | nil => simp
  | cons second rest ih =>
    obtain ⟨hcontinues, hrest⟩ := List.isChain_cons_cons.mp consecutive
    obtain ⟨hheight, -, -⟩ := continues_iff.mp hcontinues
    rw [List.dropLast_cons_cons]
    exact List.forall_mem_cons.mpr ⟨hheight, ih hrest⟩

end CodeLine

namespace Chunk

theorem madeOf_of_ofRun? {chunk : Chunk} {run : List CodeLine} (h : ofRun? run = some chunk)
    (consecutive : CodeLine.Consecutive run) (counted : ∀ line ∈ run, 1 ≤ line.line) :
    chunk.MadeOf run := by
  cases run with
  | nil => cases h
  | cons first rest =>
    cases h
    have hfirst : first.line - 1 + 1 = first.line :=
      Nat.sub_add_cancel (counted first List.mem_cons_self)
    refine ⟨List.cons_ne_nil _ _, rfl, consecutive.fileName_eq, ?_, consecutive.single⟩
    dsimp only
    rw [hfirst]
    exact consecutive.lines_eq

namespace MadeOf

variable {chunk : Chunk} {code : List CodeLine}

/-- Each line of the code is recorded once, and the last one again for the further physical lines it
fills. -/
theorem lines_ofRun (madeOf : chunk.MadeOf code) (filling : ∀ line ∈ code, 1 ≤ line.height)
    (index : Nat) :
    ∃ extra, (Origin.ofRun index code).map Origin.line =
      List.range' (chunk.lineOffset + 1) code.length ++
        List.replicate extra (chunk.lineOffset + code.length) := by
  obtain ⟨init, last, rfl⟩ := (List.eq_nil_or_concat' code).resolve_left madeOf.nonempty
  have hlines := madeOf.lines
  rw [List.map_append, List.length_append, List.length_singleton, List.range'_1_concat] at hlines
  obtain ⟨hinit, htail⟩ := List.append_inj' hlines rfl
  have hlast : last.line = chunk.lineOffset + 1 + init.length := List.head_eq_of_cons_eq htail
  have hoffset : chunk.lineOffset + (init.length + 1) = last.line := by omega
  have hsingle : ∀ line ∈ init, line.height = 1 := by simpa using madeOf.single
  obtain ⟨extra, hextra⟩ := Nat.exists_eq_add_of_le (filling last (by simp))
  refine ⟨extra, ?_⟩
  calc (Origin.ofRun index (init ++ [last])).map Origin.line
      = init.map CodeLine.line ++ List.replicate last.height last.line := by
        rw [Origin.ofRun, List.flatMap_append, List.map_append]
        congr 1
        · exact Origin.lines_ofRun_of_single index hsingle
        · simp
    _ = (init.map CodeLine.line ++ [last.line]) ++ List.replicate extra last.line := by
        rw [hextra, List.replicate_add, List.append_assoc, List.replicate_one]
    _ = _ := by
        rw [List.length_append, List.length_singleton, List.range'_1_concat, hoffset, ← hlast,
          hinit]

theorem length_ofRun (madeOf : chunk.MadeOf code) (index : Nat) :
    (Origin.ofRun index code).length = Text.lineFeeds chunk.source := by
  rw [madeOf.source, Text.lineFeeds, List.count_flatMap, Origin.ofRun, List.length_flatMap]
  simp only [List.length_replicate]
  rfl

end MadeOf

end Chunk

/-! ## Chunks and runs -/

theorem Chunk.isSome_ofRun? {run : List CodeLine} (nonempty : run ≠ []) : (ofRun? run).isSome := by
  cases run with
  | nil => exact absurd rfl nonempty
  | cons first rest => rfl

/-- Every run makes a chunk. -/
theorem Chunk.getElem?_ofLines (lines : List CodeLine) (index : Nat) :
    (ofLines lines)[index]? = (lines.splitBy CodeLine.continues)[index]?.bind ofRun? := by
  have hnonempty : ∀ run ∈ lines.splitBy CodeLine.continues, run ≠ [] :=
    fun run => List.ne_nil_of_mem_splitBy
  rw [ofLines]
  generalize lines.splitBy CodeLine.continues = runs at hnonempty
  induction runs generalizing index with
  | nil => rfl
  | cons run runs ih =>
    obtain ⟨hrun, hruns⟩ := List.forall_mem_cons.mp hnonempty
    obtain ⟨chunk, hchunk⟩ := Option.isSome_iff_exists.mp (isSome_ofRun? hrun)
    rw [List.filterMap_cons_some hchunk]
    cases index with
    | zero => exact hchunk.symm
    | succ index => exact ih index hruns

theorem Chunk.length_ofLines (lines : List CodeLine) :
    (ofLines lines).length = (lines.splitBy CodeLine.continues).length :=
  List.filterMap_length_eq_length.mpr fun _ hrun => isSome_ofRun? (List.ne_nil_of_mem_splitBy hrun)

/-- A run is a part of the code. -/
theorem CodeLine.infix_of_mem_splitBy {lines run : List CodeLine}
    (h : run ∈ lines.splitBy CodeLine.continues) : run <:+: lines := by
  have hinfix := List.infix_of_mem_flatten h
  rwa [List.flatten_splitBy] at hinfix

/-- **The origins go through the chunks.** For every successful expansion: the origins of the code
are in the order of the chunks, no chunk is left out, and each chunk has as many origins as its
source has lines. The lines recorded for a chunk are those of the code it is made of, which are
consecutive lines of one file, with repetitions of the last one behind them. -/
theorem Pass.origins_follow_chunks {env : Environment} {shader : Path} {steps : Nat} {pass : Pass}
    {expanded : Expanded} (run : Pass.within? steps env shader = some pass)
    (ok : pass.result = .ok expanded) :
    let origins := expanded.lineOrigins.reduceOption
    (origins.map Origin.chunk).Pairwise (· ≤ ·) ∧
      (∀ index, index ∈ origins.map Origin.chunk ↔ index < expanded.chunks.length) ∧
      ∀ index chunk, expanded.chunks[index]? = some chunk →
        let lines := (origins.filter (·.chunk == index)).map Origin.line
        lines.length = Text.lineFeeds chunk.source ∧
          ∃ code extra, code <:+: expanded.codeLines ∧
            (∀ line ∈ code, line.ComesFrom env (env.provider.absolute shader)) ∧
            chunk.MadeOf code ∧
            lines = List.range' (chunk.lineOffset + 1) code.length ++
              List.replicate extra (chunk.lineOffset + code.length) := by
  intro origins
  have hcomes := comesFrom_of_within run ok
  set runs := expanded.codeLines.splitBy CodeLine.continues with hruns
  have horigins : origins = Origin.ofRuns 0 runs := by
    rw [hruns, ← Origin.ofCode_eq_ofRuns]
    exact Origin.reduceOption_ofPieces _ _ _
  have hline : ∀ code ∈ runs, ∀ line ∈ code,
      line.ComesFrom env (env.provider.absolute shader) := fun code hcode line hmem =>
    hcomes line ((CodeLine.infix_of_mem_splitBy hcode).subset hmem)
  have hfilter {index : Nat} {code : List CodeLine} (h : runs[index]? = some code) :
      origins.filter (·.chunk == index) = Origin.ofRun index code := by
    have hrun : (Origin.ofRuns 0 runs).filter (·.chunk == 0 + index) =
        Origin.ofRun (0 + index) code := Origin.filter_ofRuns h
    rwa [Nat.zero_add, ← horigins] at hrun
  refine ⟨?_, fun index => ?_, fun index chunk hchunk => ?_⟩
  · rw [horigins]
    exact Origin.pairwise_chunk_ofRuns 0 runs
  · rw [Expanded.chunks, Chunk.length_ofLines, ← hruns]
    constructor
    · intro hmem
      obtain ⟨origin, horigin, rfl⟩ := List.mem_map.mp hmem
      rw [horigins] at horigin
      have := Origin.chunk_of_mem_ofRuns horigin
      omega
    · intro hlt
      have hcode : runs[index]? = some runs[index] := List.getElem?_eq_getElem hlt
      have hmem : runs[index] ∈ runs := List.getElem_mem hlt
      obtain ⟨line, hfirst⟩ := List.exists_mem_of_ne_nil _ (List.ne_nil_of_mem_splitBy hmem)
      have horigin := Origin.mem_ofRun index hfirst (hline _ hmem line hfirst).one_le_height
      rw [← hfilter hcode] at horigin
      exact List.mem_map.mpr ⟨_, (List.mem_filter.mp horigin).1, rfl⟩
  · obtain ⟨code, hcode, hrun⟩ := Option.bind_eq_some_iff.mp <|
      (Chunk.getElem?_ofLines expanded.codeLines index).symm.trans hchunk
    have hmem : code ∈ runs := List.mem_of_getElem? hcode
    have hmade : chunk.MadeOf code := Chunk.madeOf_of_ofRun? hrun
      (List.isChain_of_mem_splitBy hmem) fun line h => (hline code hmem line h).one_le_line
    obtain ⟨extra, hextra⟩ := hmade.lines_ofRun
      (fun line h => (hline code hmem line h).one_le_height) index
    dsimp only
    rw [hfilter hcode]
    refine ⟨?_, code, extra, CodeLine.infix_of_mem_splitBy hmem, hline code hmem, hmade, hextra⟩
    rw [List.length_map, hmade.length_ofRun]

/-- A file of three lines, the second of which is filled with a value of two lines. -/
def Environment.tallLine : Environment where
  provider :=
    (FileStore.empty.write ⟨"/main".toList⟩ (.text "a\n#{v}\nb\n".toList) none).memory
  dictionary := ⟨[⟨"v".toList, .string "x\ny".toList⟩]⟩
  config := { lineMarkers := false, loopMarkers := false }

/-- The code of that file, whose second line is the last of its chunk. -/
def Expanded.tallLine : Expanded where
  pieces :=
    [.code ⟨⟨"/main".toList⟩, 1, "a\n".toList⟩, .code ⟨⟨"/main".toList⟩, 2, "x\ny\n".toList⟩,
      .code ⟨⟨"/main".toList⟩, 3, "b\n".toList⟩]

theorem Pass.origins_follow_chunks_tallLine :
    let pass : Pass := ⟨.ok .tallLine, [⟨"/main".toList⟩], [.opened ⟨"/main".toList⟩]⟩
    let origins := Expanded.tallLine.lineOrigins.reduceOption
    Pass.within? 5 .tallLine ⟨"main".toList⟩ = some pass ∧ pass.result = .ok .tallLine ∧
      origins = [⟨0, 1⟩, ⟨0, 2⟩, ⟨0, 2⟩, ⟨1, 3⟩] ∧
      (origins.map Origin.chunk).Pairwise (· ≤ ·) := by
  intro pass origins
  have hrun : Pass.within? 5 .tallLine ⟨"main".toList⟩ = some pass := by rfl
  exact ⟨hrun, rfl, by rfl, (Pass.origins_follow_chunks hrun rfl).1⟩

end ShaderTemplate
