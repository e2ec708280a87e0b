import ShaderTemplate.Proofs.InfoLog.Passes

/-!
# The two passes as one

`InfoLog.OnePass` describes a single reading of a log as it is: at the start of a line, a location
that means a line of a file is replaced, and any other character is copied.
`InfoLog.remap_eq_iff_onePass` says that this is what the two passes of `InfoLog.remap` do, if no
file name has a line feed.
-/

namespace ShaderTemplate

namespace InfoLog

/-- One reading of a log from the left to the right, with its result. At the start of a line, a
location that means a line of a file is replaced, and the reading goes on behind it. Any other
character is copied. -/
inductive OnePass (chunks : List Chunk) : (atStart : Bool) → (log result : Text) → Prop
  | done {atStart : Bool} : OnePass chunks atStart [] []
  | replaced {covered after replacement result : Text}
      (here : Replaced chunks covered after replacement)
      (rest : OnePass chunks (startsBehind true covered) after result) :
      OnePass chunks true (covered ++ after) (replacement ++ result)
  | copied {atStart : Bool} {c : Char} {log result : Text}
      (nothing : atStart = true → NoneReplaced chunks (c :: log))
      (rest : OnePass chunks (c == '\n') log result) :
      OnePass chunks atStart (c :: log) (c :: result)

section Readings

variable {chunks : List Chunk} {atStart : Bool} {log result : Text}

/-- Every log can be read in one pass. -/
theorem exists_onePass (chunks : List Chunk) (atStart : Bool) (log : Text) :
    ∃ result, OnePass chunks atStart log result := by
  induction hlength : log.length using Nat.strong_induction_on generalizing atStart log with
  | h length ih =>
  cases log with
  | nil => exact ⟨[], .done⟩
  | cons c log =>
    obtain hnone | ⟨rfl, covered, after, replacement, hlog, here⟩ :=
      noneReplaced_or chunks atStart (c :: log)
    · obtain ⟨result, hresult⟩ := ih log.length (by simp [← hlength]) (c == '\n') log rfl
      exact ⟨_, .copied hnone hresult⟩
    · have hless : after.length < length := by
        have hcovered := List.length_pos_iff.mpr here.nonempty
        rw [← hlength, hlog, List.length_append]
        omega
      obtain ⟨result, hresult⟩ := ih after.length hless (startsBehind true covered) after rfl
      rw [hlog]
      exact ⟨_, .replaced here hresult⟩

/-- The two passes do what one pass does. -/
theorem OnePass.remapFrom_eq (named : ∀ chunk ∈ chunks, '\n' ∉ chunk.file)
    (pass : OnePass chunks atStart log result) : remapFrom chunks atStart log = result := by
  induction pass with
  | done => exact remapFrom_nil
  | replaced here rest ih => rw [remapFrom_of_replaced named here, ih]
  | copied none rest ih => rw [remapFrom_cons none, ih]

theorem remapFrom_eq_iff (named : ∀ chunk ∈ chunks, '\n' ∉ chunk.file) :
    remapFrom chunks atStart log = result ↔ OnePass chunks atStart log result := by
  constructor
  · rintro rfl
    obtain ⟨result, hresult⟩ := exists_onePass chunks atStart log
    rwa [hresult.remapFrom_eq named]
  · exact OnePass.remapFrom_eq named

/-! ## Logs of which nothing is replaced -/

/-- Every location at the start of a line means nothing. -/
def AllLost (chunks : List Chunk) (atStart : Bool) (log : Text) : Prop :=
  ∀ before covered after, log = before ++ (covered ++ after) → startsBehind atStart before = true →
    (∀ label index line, Location.Labelled label index line covered after →
        Location.Lost chunks index line) ∧
      ∀ index line, Location.Bracketed index line covered after → Location.Lost chunks index line

/-- Such a log is copied in one pass. -/
theorem AllLost.onePass (lost : AllLost chunks atStart log) :
    OnePass chunks atStart log log := by
  induction log generalizing atStart with
  | nil => exact .done
  | cons c log ih =>
    refine .copied ?_ (ih fun before covered after hlog hstart =>
      lost (c :: before) covered after (by rw [hlog, List.cons_append]) hstart)
    rintro rfl covered after replacement hlog here
    obtain ⟨hlabelled, hbracketed⟩ := lost [] covered after hlog rfl
    cases here with
    | labelled location means =>
      exact Location.exists_means_iff.mp ⟨_, means⟩ (hlabelled _ _ _ location)
    | bracketed location means =>
      exact Location.exists_means_iff.mp ⟨_, means⟩ (hbracketed _ _ location)

/-- **Two passes are one.** If no file name has a line feed, the two passes over a log, of which the
second reads what the first has written, do what one reading of the log from the left to the right
does: it replaces the locations at the starts of lines that mean a line of a file, and copies every
other character. So a log stays as it is if all its locations mean nothing, because there is no
chunk with the index, a number does not fit into 64 bits, or a digit is not in ASCII. -/
theorem remap_eq_iff_onePass (named : ∀ chunk ∈ chunks, '\n' ∉ chunk.file) (log : Text) :
    (∀ result, remap chunks log = result ↔ OnePass chunks true log result) ∧
      (AllLost chunks true log → remap chunks log = log) :=
  ⟨fun _ => remapFrom_eq_iff named, fun lost => (remapFrom_eq_iff named).mpr lost.onePass⟩

end Readings

/-- One chunk that starts behind the third line of its file. -/
def oneChunk : List Chunk := [⟨"a\nb\n".toList, "main.glsl".toList, 3⟩]

/-- The line that the last location of the longer log means does not fit into 64 bits. -/
theorem remap_eq_iff_onePass_oneChunk :
    (∀ chunk ∈ oneChunk, '\n' ∉ chunk.file) ∧
      OnePass oneChunk true
        "ERROR: 0:2: x\nWARNING:\n0:1\n0(1)  \n7(1) y\n0(18446744073709551615) z".toList
        ("ERROR: main.glsl(5): x\nWARNING: main.glsl(4)\n".toList ++
          "main.glsl(4) 7(1) y\nmain.glsl(2) z".toList) ∧
      AllLost oneChunk true "7(1) y".toList ∧ remap oneChunk "7(1) y".toList = "7(1) y".toList := by
  have hnamed : ∀ chunk ∈ oneChunk, '\n' ∉ chunk.file := by decide
  have hlost : AllLost oneChunk true "7(1) y".toList := by
    intro before covered after hlog hstart
    have hsingle : '\n' ∉ before := by
      have hlog : '\n' ∉ before ++ (covered ++ after) := by rw [← hlog]; decide
      exact fun hmem => hlog (List.mem_append_left _ hmem)
    obtain ⟨rfl, -⟩ | ⟨front, rfl⟩ := startsBehind_eq_true_iff.mp hstart
    · constructor
      · intro label index line location
        have hfound := Location.labelled?_eq_some_iff.mpr ⟨covered, after, hlog, rfl, location⟩
        cases hfound
      · intro index line location
        have hfound := Location.bracketed?_eq_some_iff.mpr ⟨covered, after, hlog, rfl, location⟩
        have hvalue : Location.bracketed? "7(1) y".toList = some ⟨['7'], ['1'], 5⟩ := by rfl
        obtain ⟨rfl, rfl, -⟩ := Location.mk.inj (Option.some.inj (hvalue.symm.trans hfound))
        exact .inr (.inr (.inr (by decide)))
    · exact absurd (by simp) hsingle
  exact ⟨hnamed, ((remap_eq_iff_onePass hnamed _).1 _).mp (by rfl), hlost,
    (remap_eq_iff_onePass hnamed _).2 hlost⟩

end InfoLog

end ShaderTemplate
