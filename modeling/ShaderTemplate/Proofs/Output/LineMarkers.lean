import ShaderTemplate.FileStore
import ShaderTemplate.Proofs.Output.Provenance

/-!
# Line markers

A reader of the output numbers the code by the line markers: the code after a marker begins with the
line that the marker gives, and each code line is followed by the next one of the same file, however
many physical lines it fills. `Presumed` is what such a reader presumes of the next code line.

The reader is right (`Pass.code_follows_lineMarkers`). Between two lines of an expansion the
presumed line is the next one of the file that is read, unless the body of a loop is skipped
(`State.Marked`). Whatever moves the cursor otherwise than by one line, or changes the file that is
read, ends with a marker; a skipped body ends with one too, before any code can be written.
-/

namespace ShaderTemplate

/-- What a reader of the markers presumes after some pieces, which are given with the latest first:
the next code line is this line of this file. The first marker is that of the file `root`, and all
markers are those of some opened files. -/
inductive Presumed (root : Path) (files : List Path) : List Piece → Path → Nat → Prop
  | first (opened : files.contains root = true) :
      Presumed root files [.lineMarker 1 root.fileName] root 1
  | marker {earlier : List Piece} {before : Path} {next : Nat} (path : Path) (line : Nat)
      (history : Presumed root files earlier before next) (opened : files.contains path = true) :
      Presumed root files (.lineMarker line path.fileName :: earlier) path line
  | note {earlier : List Piece} {path : Path} {line : Nat} (note : LoopNote)
      (history : Presumed root files earlier path line) :
      Presumed root files (.loopMarker note :: earlier) path line
  | code {earlier : List Piece} {path : Path} {line : Nat} (text : Text)
      (history : Presumed root files earlier path line) :
      Presumed root files (.code ⟨path, line, text⟩ :: earlier) path (line + 1)

namespace Presumed

variable {root path : Path} {files : List Path} {pieces : List Piece} {line : Nat}

/-- Further files may be opened. -/
theorem mono {more : List Path} (presumed : Presumed root files pieces path line)
    (le : ∀ file, files.contains file = true → more.contains file = true) :
    Presumed root more pieces path line := by
  induction presumed with
  | first opened => exact .first (le _ opened)
  | marker path line history opened ih => exact .marker path line ih (le _ opened)
  | note note history ih => exact .note note ih
  | code text history ih => exact .code text ih

theorem opened (presumed : Presumed root files pieces path line) : files.contains path = true := by
  induction presumed with
  | first opened => exact opened
  | marker path line history opened => exact opened
  | note note history ih => exact ih
  | code text history ih => exact ih

/-- Everything is written after the marker of the first file. -/
theorem getLast?_eq (presumed : Presumed root files pieces path line) :
    pieces.getLast? = some (.lineMarker 1 root.fileName) := by
  have hcons (piece : Piece) {earlier : List Piece} {marker : Piece}
      (h : earlier.getLast? = some marker) : (piece :: earlier).getLast? = some marker := by
    rw [List.getLast?_cons, h]
    rfl
  induction presumed with
  | first opened => rfl
  | marker path line history opened ih => exact hcons _ ih
  | note note history ih => exact hcons _ ih
  | code text history ih => exact hcons _ ih

theorem of_cons {piece : Piece} {earlier : List Piece}
    (presumed : Presumed root files (piece :: earlier) path line) (nonempty : earlier ≠ []) :
    ∃ path line, Presumed root files earlier path line := by
  cases presumed with
  | first opened => exact absurd rfl nonempty
  | marker path line history opened => exact ⟨_, _, history⟩
  | note note history => exact ⟨_, _, history⟩
  | code text history => exact ⟨_, _, history⟩

/-- Something was presumed at every earlier point. -/
theorem earlier {later rest : List Piece} (presumed : Presumed root files (later ++ rest) path line)
    (nonempty : rest ≠ []) : ∃ path line, Presumed root files rest path line := by
  induction later generalizing path line with
  | nil => exact ⟨path, line, presumed⟩
  | cons piece later ih =>
    obtain ⟨path, line, history⟩ := presumed.of_cons (List.append_ne_nil_of_right_ne_nil _ nonempty)
    exact ih history

/-- Since the last marker, the code has gone through the lines from the marked one to the presumed
one, in the file of the marker. -/
theorem since_marker {block rest : List Piece} {number : Nat} {file : Text}
    (presumed : Presumed root files (block ++ .lineMarker number file :: rest) path line)
    (plain : ∀ piece ∈ block, ∀ number file, piece ≠ .lineMarker number file) :
    path.fileName = file ∧ (∀ code ∈ block.filterMap Piece.code?, code.path = path) ∧
      line = number + (block.filterMap Piece.code?).length ∧
      (block.filterMap Piece.code?).reverse.map CodeLine.line =
        List.range' number (block.filterMap Piece.code?).length := by
  induction block generalizing path line with
  | nil =>
    cases presumed with
    | first opened => exact ⟨rfl, by simp, rfl, rfl⟩
    | marker path line history opened => exact ⟨rfl, by simp, rfl, rfl⟩
  | cons piece block ih =>
    obtain ⟨hpiece, hplain⟩ := List.forall_mem_cons.mp plain
    rw [List.cons_append] at presumed
    generalize htail : block ++ .lineMarker number file :: rest = tail at presumed
    cases presumed with
    | first opened => exact absurd htail (by simp)
    | marker path line history opened => exact absurd rfl (hpiece _ _)
    | note note history =>
      subst htail
      exact ih history hplain
    | @code _ _ line text history =>
      subst htail
      obtain ⟨hfile, hpath, hline, hlines⟩ := ih history hplain
      have hcode : Piece.code? (.code ⟨path, line, text⟩) = some ⟨path, line, text⟩ := rfl
      rw [List.filterMap_cons_some hcode]
      refine ⟨hfile, List.forall_mem_cons.mpr ⟨rfl, hpath⟩, ?_, ?_⟩
      · rw [hline, List.length_cons, Nat.add_assoc]
      · rw [List.reverse_cons, List.map_append, hlines, List.length_cons, List.range'_1_concat,
          ← hline]
        rfl

end Presumed

/-! ## The invariant -/

/-- A reader of the markers presumes something. -/
def State.Numbered (root : Path) (state : State) : Prop :=
  ∃ path line, Presumed root state.opened state.pieces path line

/-- What is presumed is so: while lines are expanded, the presumed line is that many lines ahead of
the cursor. All open files have been opened. -/
structure State.Marked (root : Path) (ahead : Nat) (state : State) : Prop where
  recorded : ∀ input ∈ state.inputs, state.opened.contains input.path = true
  presumed : ∃ path line, Presumed root state.opened state.pieces path line ∧
    (state.Expanding → ∀ input ∈ state.inputs.head?,
      input.path = path ∧ line = input.line + ahead)

namespace State

variable {env : Environment} {state after : State} {root : Path}

theorem Numbered.markLoop {note : LoopNote} (numbered : state.Numbered root) :
    (markLoop env note state).Numbered root := by
  obtain ⟨path, line, hpresumed⟩ := numbered
  unfold State.markLoop
  split
  · exact ⟨path, line, .note note hpresumed⟩
  · exact ⟨path, line, hpresumed⟩

/-- After a marker the presumed line is the next line of the file, whatever was presumed before. -/
theorem Numbered.markLine (numbered : state.Numbered root) (on : env.config.lineMarkers = true)
    (recorded : ∀ input ∈ state.inputs, state.opened.contains input.path = true) :
    (markLine env state).Marked root 1 := by
  refine ⟨by simpa using recorded, ?_⟩
  obtain ⟨path, line, hpresumed⟩ := numbered
  cases hinputs : state.inputs with
  | nil =>
    have hmark : State.markLine env state = state := by
      unfold State.markLine
      rw [on, hinputs]
    rw [hmark]
    exact ⟨path, line, hpresumed, by simp [hinputs]⟩
  | cons input outer =>
    have hmark : State.markLine env state =
        state.write (.lineMarker (input.line + 1) input.path.fileName) := by
      unfold State.markLine
      rw [on, hinputs]
    rw [hmark]
    refine ⟨input.path, input.line + 1, .marker _ _ hpresumed (recorded input ?_), ?_⟩
    · simp [hinputs]
    · rintro - other hother
      simp only [write, hinputs, List.head?_cons, Option.mem_def, Option.some.injEq] at hother
      exact hother ▸ ⟨rfl, rfl⟩

namespace Marked

theorem numbered {ahead : Nat} (marked : state.Marked root ahead) : state.Numbered root := by
  obtain ⟨path, line, hpresumed, -⟩ := marked.presumed
  exact ⟨path, line, hpresumed⟩

/-- Nothing is presumed wrongly while a body is skipped. -/
theorem of_skipping {ahead : Nat} (marked : state.Marked root ahead)
    (inputs : after.inputs = state.inputs) (opened : after.opened = state.opened)
    (numbered : after.Numbered root) (skipping : ¬ after.Expanding) : after.Marked root 1 := by
  obtain ⟨path, line, hpresumed⟩ := numbered
  refine ⟨?_, path, line, hpresumed, fun expanding => absurd expanding skipping⟩
  rw [inputs, opened]
  exact marked.recorded

theorem writeCode (marked : state.Marked root 0) (expanding : state.Expanding)
    (indentation filled : Text) : (state.writeCode indentation filled).Marked root 1 := by
  obtain ⟨path, line, hpresumed, hcursor⟩ := marked.presumed
  refine ⟨by simpa using marked.recorded, ?_⟩
  cases hinputs : state.inputs with
  | nil =>
    have hwrite : State.writeCode indentation filled state = state := by
      unfold State.writeCode
      rw [hinputs]
    rw [hwrite]
    exact ⟨path, line, hpresumed, by simp [hinputs]⟩
  | cons input outer =>
    -- the line that has just been read is the presumed one
    obtain ⟨rfl, hline⟩ := hcursor expanding input (by simp [hinputs])
    rw [Nat.add_zero] at hline
    subst hline
    unfold State.writeCode
    rw [hinputs]
    refine ⟨input.path, input.line + 1, .code _ hpresumed, ?_⟩
    rintro - other hother
    simp only [write, hinputs, List.head?_cons, Option.mem_def, Option.some.injEq] at hother
    exact hother ▸ ⟨rfl, rfl⟩

theorem move {raw : Text} (on : env.config.lineMarkers = true) (marked : state.Marked root 0)
    (move : LineMove env raw state after) : after.Marked root 1 := by
  have hnumbered := marked.numbered
  cases move with
  | nestedEnd word loops | nestedHeader word loops =>
    exact marked.of_skipping rfl rfl hnumbered fun expanding => expanding _ rfl _ rfl
  | skipped word loops phase =>
    exact marked.of_skipping rfl rfl hnumbered fun expanding =>
      expanding _ (by simp [loops]) _ phase
  | @nextKey loop outer key next word loops depth more =>
    have hnote : (State.markLoop env (.onKey loop.reference key) (((state.leaveLoop outer).record
        (.loopKey loop.reference key)).enterLoop next)).Numbered root := Numbered.markLoop hnumbered
    refine Numbered.markLine ?_ on fun input hinput => ?_
    · simpa only [Numbered, rewind_opened, rewind_pieces] using hnote
    · obtain ⟨other, hother, hpath, -⟩ := mem_rewind_inputs hinput
      simpa [← hpath] using marked.recorded other (by simpa using hother)
  | @lastEnd loop outer =>
    have hleave : (state.leaveLoop outer).Numbered root := hnumbered
    exact hleave.markLoop.markLine on (by simpa using marked.recorded)
  | @openFile filled argument text target events path =>
    rw [foldl_record]
    obtain ⟨before, line, hpresumed⟩ := hnumbered
    -- the state in which the file is noted differs from `state` in the journal only
    have hmono {file : Path} (h : state.opened.contains file = true) :
        (({ state with journal := events.reverse ++ state.journal }.record
          (.opened path)).noteOpened path).opened.contains file = true :=
      contains_noteOpened_of_contains h
    refine Numbered.markLine ?_ on (List.forall_mem_cons.mpr ⟨?_, ?_⟩)
    · refine ⟨before, line, ?_⟩
      simpa only [noteOpened_pieces, record_pieces] using hpresumed.mono fun file => hmono
    · exact contains_noteOpened path _
    · exact fun input hinput => hmono (marked.recorded input (by simpa using hinput))
  | @beginLoop filled argument reference key header keys =>
    have hrecord : (state.record (.loopBegun reference key)).Numbered root := hnumbered
    have hnote : ((State.markLoop env (.onKey reference key) (State.markLoop env (.begun reference)
        (state.record (.loopBegun reference key)))).enterLoop
          (state.loopOf header reference (key :: keys) (.iteration 0))).Numbered root :=
      hrecord.markLoop.markLoop
    exact hnote.markLine on (by simpa using marked.recorded)
  | @beginEmpty filled argument reference header =>
    have hrecord : (state.record (.loopEmpty reference)).Numbered root := hnumbered
    have hnote : (state.beginWith env header reference []).Numbered root := hrecord.markLoop
    refine marked.of_skipping (by simp) (by simp) hnote fun expanding => ?_
    exact expanding (state.loopOf header reference [] (.skipping 0)) (by simp) 0 rfl
  | @code filled word expanding => exact marked.writeCode expanding _ _

theorem transition (on : env.config.lineMarkers = true) (marked : state.Marked root 1)
    (transition : Transition env state after) : after.Marked root 1 := by
  cases transition with
  | @close input outer inputs =>
    refine Numbered.markLine marked.numbered on fun other hother => ?_
    exact marked.recorded other (by simp [inputs, show other ∈ outer from hother])
  | @line _ input read outer raw inputs next step =>
    obtain ⟨text, -, hread⟩ := Option.map_eq_some_iff.mp next
    cases hread
    obtain ⟨path, line, hpresumed, hcursor⟩ := marked.presumed
    have hmarked : State.Marked root 0
        { state with inputs := { input with line := input.line + 1 } :: outer } := by
      refine ⟨?_, path, line, hpresumed, fun expanding other hother => ?_⟩
      · have hrecorded := marked.recorded
        rw [inputs] at hrecorded
        exact List.forall_mem_cons.mpr (List.forall_mem_cons.mp hrecorded)
      · cases hother
        exact hcursor expanding input (by simp [inputs])
    exact hmarked.move on step

/-- The file that is opened first is marked first. -/
theorem opened (on : env.config.lineMarkers = true) (text : Text) :
    (initial.afterOpen env root text []).Marked root 1 := by
  have hopened : (initial.noteOpened root).opened.contains root = true :=
    contains_noteOpened root _
  refine ⟨?_, root, 1, ?_, ?_⟩
  · rw [afterOpen_inputs, afterOpen_opened]
    exact List.forall_mem_cons.mpr ⟨hopened, by simp [initial]⟩
  · rw [afterOpen_opened]
    have hpieces : (initial.afterOpen env root text []).pieces =
        [.lineMarker 1 root.fileName] := by
      simp [afterOpen, State.markLine, on, write, Input.start, initial]
    rw [hpieces]
    exact .first hopened
  · rintro - input hinput
    rw [afterOpen_inputs] at hinput
    cases hinput
    exact ⟨rfl, rfl⟩

end Marked

end State

theorem Reachable.marked {env : Environment} {path : Path} {state : State}
    (on : env.config.lineMarkers = true) (reachable : Reachable env path state) :
    state.Marked path 1 :=
  reachable.invariant (fun text _ => State.Marked.opened on text) fun _ _ h => h.transition on

/-- **The code follows the line markers.** In every successful expansion with line markers, a marker
of the first file goes first. The code lines that follow a marker, up to the next one, come from the
marked line, the line after it and so on, without a gap, of one opened file, which has the name that
the marker gives. -/
theorem Pass.code_follows_lineMarkers {env : Environment} {shader : Path} {steps : Nat}
    {pass : Pass} {expanded : Expanded} (run : Pass.within? steps env shader = some pass)
    (ok : pass.result = .ok expanded) (on : env.config.lineMarkers = true) :
    expanded.pieces.head? = some (.lineMarker 1 (env.provider.absolute shader).fileName) ∧
      ∀ before number file block after,
        expanded.pieces = before ++ .lineMarker number file :: (block ++ after) →
        (∀ piece ∈ block, ∀ number file, piece ≠ .lineMarker number file) →
        ∃ path, path.fileName = file ∧ pass.opened.contains path = true ∧
          (∀ line ∈ block.filterMap Piece.code?,
            line.path = path ∧ line.ComesFrom env (env.provider.absolute shader)) ∧
          (block.filterMap Piece.code?).map CodeLine.line =
            List.range' number (block.filterMap Piece.code?).length := by
  obtain ⟨state, hreachable, -, -, -, hpass, hpieces⟩ := settled_of_within run ok
  obtain ⟨path, line, hpresumed, -⟩ := (hreachable.marked on).presumed
  have hopened : pass.opened = state.opened := by rw [hpass, ofHalted]
  refine ⟨by rw [hpieces, List.head?_reverse, hpresumed.getLast?_eq], ?_⟩
  intro before number file block after hsplit hplain
  have hreverse : state.pieces =
      after.reverse ++ (block.reverse ++ .lineMarker number file :: before.reverse) := by
    rw [← List.reverse_reverse state.pieces, ← hpieces, hsplit]
    simp
  rw [hreverse] at hpresumed
  obtain ⟨path, line, hblock⟩ := hpresumed.earlier (by simp)
  obtain ⟨hfile, hpath, -, hlines⟩ := hblock.since_marker (by simpa using hplain)
  rw [List.filterMap_reverse, List.reverse_reverse, List.length_reverse] at hlines
  refine ⟨path, hfile, by rw [hopened]; exact hblock.opened, fun code hcode => ⟨?_, ?_⟩, hlines⟩
  · exact hpath code (by rwa [List.filterMap_reverse, List.mem_reverse])
  · refine comesFrom_of_within run ok code ?_
    rw [Expanded.codeLines, hsplit, List.filterMap_append, List.filterMap_cons_none rfl,
      List.filterMap_append]
    exact List.mem_append_right _ (List.mem_append_left _ hcode)

/-- A file is included within a loop, after a loop whose body is skipped. -/
def Environment.loopAround : Environment where
  provider :=
    ((FileStore.empty.write ⟨"/inner".toList⟩ (.text "x\n".toList) none).write ⟨"/main".toList⟩
      (.text <| "#for k, v in t\n#for i, j in none\n#{i}\n#endfor\n".toList ++
        "#include \"inner\"\n#{k}\n#{v}\n#endfor\n".toList) none).memory
  dictionary :=
    ⟨[⟨"t".toList, .dictionary ⟨[⟨"a".toList, .string "1\n2".toList⟩]⟩⟩,
      ⟨"none".toList, .dictionary ⟨[]⟩⟩]⟩
  config := { loopMarkers := false }

/-- The second code line after the included file fills two lines of the text. -/
def Expanded.loopAround : Expanded where
  pieces :=
    [.lineMarker 1 "main".toList, .lineMarker 2 "main".toList, .lineMarker 5 "main".toList,
      .lineMarker 1 "inner".toList, .code ⟨⟨"/inner".toList⟩, 1, "x\n".toList⟩,
      .lineMarker 6 "main".toList, .code ⟨⟨"/main".toList⟩, 6, "a\n".toList⟩,
      .code ⟨⟨"/main".toList⟩, 7, "1\n2\n".toList⟩, .lineMarker 9 "main".toList]

/-- The lines after the included file follow the marker that was written when it was closed. -/
theorem Pass.code_follows_lineMarkers_loopAround :
    let pass : Pass := ⟨.ok .loopAround, [⟨"/main".toList⟩, ⟨"/inner".toList⟩],
      [.opened ⟨"/main".toList⟩, .loopBegun "t".toList "a".toList, .loopEmpty "none".toList,
        .tried "inner".toList ⟨"/inner".toList⟩ true, .opened ⟨"/inner".toList⟩]⟩
    let block := Expanded.loopAround.pieces.extract 6 8
    Pass.within? 12 .loopAround ⟨"main".toList⟩ = some pass ∧ pass.result = .ok .loopAround ∧
      Environment.loopAround.config.lineMarkers = true ∧
      ∃ path, path.fileName = "main".toList ∧ pass.opened.contains path = true ∧
        (∀ line ∈ block.filterMap Piece.code?,
          line.path = path ∧ line.ComesFrom .loopAround ⟨"/main".toList⟩) ∧
        (block.filterMap Piece.code?).map CodeLine.line = List.range' 6 2 := by
  intro pass block
  have hrun : Pass.within? 12 .loopAround ⟨"main".toList⟩ = some pass := by rfl
  refine ⟨hrun, rfl, rfl, ?_⟩
  refine (Pass.code_follows_lineMarkers hrun rfl rfl).2 (Expanded.loopAround.pieces.take 5) 6
    "main".toList block (Expanded.loopAround.pieces.drop 8) (by rfl) ?_
  simp [block, Expanded.loopAround]

end ShaderTemplate
