import ShaderTemplate.Proofs.InfoLog.OnePass

/-!
# Logs line by line

A location may go over the end of a line: the white space behind its label and behind its brackets
may be line feeds. `InfoLog.Spans` says that a location which is replaced does so between two parts
of a log. `InfoLog.remap_append_iff_not_spans` says that these are the only places where a log is
not changed line by line, and that each of them takes lines away.

## Shape of the argument

The one reading of a log (`OnePass`) is cut at a line feed. Where no location goes over it, the two
parts are read as they would be on their own: a location at the end of the first part is the same
with and without the line feed behind it (`Replaced.shorten`, `Replaced.extend`).

Where a location goes over the line feed, the lines are counted. The location leaves none of its
line feeds, while the parts on their own keep the one between them, and the second part keeps all
that it has of the location, since no location starts at a line start in it
(`Replaced.remapFrom_back`). What is in front of the location is read in the same way in both.
-/

namespace ShaderTemplate

namespace InfoLog

variable {chunks : List Chunk} {atStart : Bool} {first second covered front back after rest : Text}
  {replacement : Text}

/-- A location that is replaced goes over the line feed between two parts of a log. -/
def Spans (chunks : List Chunk) (atStart : Bool) (first second : Text) : Prop :=
  ∃ before front back after replacement, first = before ++ front ∧ second = back ++ after ∧
    startsBehind atStart before = true ∧ Replaced chunks (front ++ '\n' :: back) after replacement

/-! ## Locations and what follows them -/

theorem noneReplaced_of_none
    (none : Location.labelled? rest = none ∧ Location.bracketed? rest = none) :
    NoneReplaced chunks rest := by
  rintro covered after replacement rfl here
  cases here with
  | labelled location =>
    have hfound := Location.labelled?_eq_some_iff.mpr ⟨covered, after, rfl, rfl, location⟩
    rw [none.1] at hfound
    cases hfound
  | bracketed location =>
    have hfound := Location.bracketed?_eq_some_iff.mpr ⟨covered, after, rfl, rfl, location⟩
    rw [none.2] at hfound
    cases hfound

theorem noneReplaced_lineFeed : NoneReplaced chunks ('\n' :: rest) :=
  noneReplaced_of_none (Location.none_of_blank (by decide) rest)

/-- No location starts at a line start within one that is replaced. -/
theorem Replaced.not_within (here : Replaced chunks (front ++ '\n' :: back) after replacement)
    (inside : back ≠ []) : NoneReplaced chunks (back ++ after) := by
  cases here with
  | labelled location => exact noneReplaced_of_none location.not_within
  | bracketed location => exact noneReplaced_of_none (location.not_within inside)

/-- A location stays one if the text ends sooner behind it. -/
theorem Replaced.shorten (here : Replaced chunks covered (after ++ rest) replacement) :
    Replaced chunks covered after replacement := by
  have hhead : ∀ c ∈ after.head?, c ∈ (after ++ rest).head? := by
    cases after <;> simp
  cases here with
  | labelled location means =>
    exact .labelled { location with ends := fun c hc => location.ends c (hhead c hc) } means
  | bracketed location means =>
    exact .bracketed { location with ends := fun c hc => location.ends c (hhead c hc) } means

/-- A location stays one if a line is added to the text, but at the end of the text it may go on
over the line feed. -/
theorem Replaced.extend (here : Replaced chunks covered after replacement) (second : Text) :
    Replaced chunks covered (after ++ '\n' :: second) replacement ∨
      after = [] ∧ ∃ back behind, second = back ++ behind ∧
        Replaced chunks (covered ++ '\n' :: back) behind replacement := by
  cases here with
  | labelled location means =>
    refine .inl (.labelled { location with ends := ?_ } means)
    cases after with
    | nil => exact Location.ends_mark (by decide) second
    | cons c after => exact location.ends
  | bracketed location means =>
    cases after with
    | nil =>
      refine .inr ⟨rfl, Text.indentation second, Text.trimStart second,
        List.takeWhile_append_dropWhile.symm, .bracketed ?_ means⟩
      obtain ⟨blanks, hblanks, rfl⟩ := location.covers
      refine ⟨location.indexDigits, location.lineDigits,
        ⟨blanks ++ '\n' :: Text.indentation second, ?_, by simp⟩, Text.head?_dropWhile second⟩
      intro c hc
      obtain hc | rfl | hc := by simpa using hc
      · exact hblanks c hc
      · decide
      · exact List.mem_takeWhile_imp hc
    | cons c after => exact .inl (.bracketed { location with ends := location.ends } means)

/-! ## Parts that no location goes over -/

theorem Spans.append (spans : Spans chunks (startsBehind atStart covered) first second) :
    Spans chunks atStart (covered ++ first) second := by
  obtain ⟨before, front, back, after, replacement, rfl, hsecond, hstart, here⟩ := spans
  refine ⟨covered ++ before, front, back, after, replacement, by simp, hsecond, ?_, here⟩
  rwa [startsBehind_append]

/-- If no location goes over the line feed, one at the start of both parts is one of the first. -/
theorem NoneReplaced.append_lineFeed (apart : ¬ Spans chunks true first second)
    (none : NoneReplaced chunks first) : NoneReplaced chunks (first ++ '\n' :: second) := by
  intro covered after replacement hlog here
  obtain ⟨back, rfl, hback⟩ | ⟨behind, rfl, rfl⟩ := List.append_eq_append_iff.mp hlog
  · cases back with
    | nil =>
      obtain rfl : '\n' :: second = after := hback
      have hfirst : Replaced chunks first ([] ++ '\n' :: second) replacement := by simpa using here
      exact none first [] replacement (by simp) hfirst.shorten
    | cons c back =>
      obtain ⟨rfl, rfl⟩ := List.cons.inj hback
      exact apart ⟨[], first, back, after, replacement, rfl, rfl, rfl, here⟩
  · exact none covered behind replacement rfl here.shorten

/-- The readings of two parts make one of both, if no location goes over the line feed. -/
theorem OnePass.append_lineFeed {result resultSecond : Text}
    (pass : OnePass chunks atStart first result) (apart : ¬ Spans chunks atStart first second)
    (passSecond : OnePass chunks true second resultSecond) :
    OnePass chunks atStart (first ++ '\n' :: second) (result ++ '\n' :: resultSecond) := by
  induction pass with
  | done => exact .copied (fun _ => noneReplaced_lineFeed) passSecond
  | @replaced covered after replacement result here _ ih =>
    have hrest := ih fun spans => apart spans.append
    obtain hhere | ⟨rfl, back, behind, rfl, hhere⟩ := here.extend second
    · rw [List.append_assoc, List.append_assoc]
      exact .replaced hhere hrest
    · exact absurd ⟨[], covered, back, behind, replacement, by simp, rfl, rfl, hhere⟩ apart
  | @copied atStart c log result none _ ih =>
    have hrest := ih fun spans => apart (@Spans.append chunks atStart log second [c] spans)
    refine .copied ?_ hrest
    rintro rfl
    exact (none rfl).append_lineFeed apart

/-! ## Lines that are taken away -/

/-- A text in which no replaced location starts is copied. -/
theorem remapFrom_append_of_noneReplaced {part : Text}
    (none : ∀ before inside, part = before ++ inside → inside ≠ [] →
      startsBehind atStart before = true → NoneReplaced chunks (inside ++ rest)) :
    remapFrom chunks atStart (part ++ rest) =
      part ++ remapFrom chunks (startsBehind atStart part) rest := by
  induction part generalizing atStart with
  | nil => rfl
  | cons c part ih =>
    have hhere : atStart = true → NoneReplaced chunks (c :: (part ++ rest)) :=
      none [] (c :: part) rfl (by simp)
    have hrest := @ih (c == '\n') fun before inside hpart hinside hstart =>
      none (c :: before) inside (by rw [hpart, List.cons_append]) hinside hstart
    rw [List.cons_append, remapFrom_cons hhere, hrest]
    rfl

/-- What a location has behind a line feed is copied if a line of its own starts with it. -/
theorem Replaced.remapFrom_back
    (here : Replaced chunks (front ++ '\n' :: back) after replacement) :
    remapFrom chunks true (back ++ after) =
      back ++ remapFrom chunks (startsBehind true back) after := by
  refine remapFrom_append_of_noneReplaced fun before inside hsplit hinside hstart => ?_
  obtain ⟨rfl, -⟩ | ⟨more, rfl⟩ := startsBehind_eq_true_iff.mp hstart
  · rw [List.nil_append] at hsplit
    exact hsplit ▸ here.not_within (hsplit ▸ hinside)
  · have hagain : front ++ '\n' :: back = (front ++ '\n' :: more) ++ '\n' :: inside := by
      simp [hsplit]
    rw [hagain] at here
    exact here.not_within hinside

/-- What is put in the place of a location is in one line if no file name has a line feed. -/
theorem Replaced.count_eq_zero (named : ∀ chunk ∈ chunks, '\n' ∉ chunk.file)
    (here : Replaced chunks covered after replacement) : replacement.count '\n' = 0 := by
  rw [List.count_eq_zero]
  cases here with
  | labelled location means =>
    rcases location.known with rfl | rfl <;> simp [means.single named]
  | bracketed location means => simp [means.single named]

/-- No line is added to a log. -/
theorem OnePass.count_le (named : ∀ chunk ∈ chunks, '\n' ∉ chunk.file) {log result : Text}
    (pass : OnePass chunks atStart log result) : result.count '\n' ≤ log.count '\n' := by
  induction pass with
  | done => exact Nat.le_refl _
  | replaced here _ ih =>
    rw [List.count_append, List.count_append, here.count_eq_zero named]
    omega
  | copied _ _ ih =>
    rw [List.count_cons, List.count_cons]
    omega

/-- A location ends in front of a line that begins with another one. -/
theorem Replaced.ends_before {before behind : Text}
    (here : Replaced chunks covered behind replacement) (same : before ++ rest = covered ++ behind)
    (nonempty : before ≠ []) (start : startsBehind true before = true)
    (other : ¬ NoneReplaced chunks rest) :
    ∃ between, before = covered ++ between ∧ behind = between ++ rest := by
  obtain ⟨between, rfl, hrest⟩ | hbetween := List.append_eq_append_iff.mp same
  · obtain ⟨hnil, -⟩ | ⟨front, rfl⟩ := startsBehind_eq_true_iff.mp start
    · exact absurd hnil nonempty
    · rw [List.append_assoc] at here
      by_cases hinside : between = []
      · exact ⟨[], by simp [hinside], by simp [hrest, hinside]⟩
      · rw [hrest] at other
        exact absurd (here.not_within hinside) other
  · exact hbetween

theorem NoneReplaced.of_append_lineFeed (none : NoneReplaced chunks (first ++ '\n' :: second)) :
    NoneReplaced chunks first := by
  rintro covered after replacement rfl here
  obtain hhere | ⟨rfl, back, behind, rfl, hhere⟩ := here.extend second
  · exact none covered _ replacement (by simp) hhere
  · exact none _ behind replacement (by simp) hhere

/-- A location that goes over the line feed between two parts takes lines away that the parts have
on their own. -/
theorem count_lt_of_spans (named : ∀ chunk ∈ chunks, '\n' ∉ chunk.file)
    (spans : Spans chunks atStart first second) :
    (remapFrom chunks atStart (first ++ '\n' :: second)).count '\n' <
      (remapFrom chunks atStart first ++ '\n' :: remapFrom chunks true second).count '\n' := by
  obtain ⟨before, front, back, after, replacement, rfl, rfl, hstart, here⟩ := spans
  have hother : ¬ NoneReplaced chunks (front ++ '\n' :: (back ++ after)) :=
    fun none => none _ after replacement (by simp) here
  -- along what is in front of the location
  induction hlength : before.length using Nat.strong_induction_on generalizing atStart before with
  | h length ih =>
  cases before with
  | nil =>
    obtain rfl : atStart = true := hstart
    have hwhole := remapFrom_of_replaced named here
    rw [startsBehind_append, startsBehind_cons, List.append_assoc, List.cons_append] at hwhole
    rw [List.nil_append, hwhole, here.remapFrom_back]
    simp only [List.count_append, List.count_cons, here.count_eq_zero named, beq_self_eq_true,
      if_true]
    omega
  | cons c before =>
    obtain hnone | ⟨rfl, covered, behind, replaced, hlog, hhere⟩ :=
      noneReplaced_or chunks atStart (c :: (before ++ front ++ '\n' :: (back ++ after)))
    · have hfirst : atStart = true → NoneReplaced chunks (c :: (before ++ front)) :=
        fun start => (hnone start).of_append_lineFeed
      have hrest := ih before.length (by simp [← hlength]) before hstart rfl
      rw [List.cons_append, List.cons_append, remapFrom_cons hnone, remapFrom_cons hfirst]
      simp only [List.cons_append, List.count_cons] at hrest ⊢
      omega
    · have hsame : (c :: before) ++ (front ++ '\n' :: (back ++ after)) = covered ++ behind := by
        simpa using hlog
      obtain ⟨between, hbefore, rfl⟩ := hhere.ends_before hsame (by simp) hstart hother
      have hfirst : Replaced chunks covered (between ++ front) replaced := by
        rw [← List.append_assoc] at hhere
        exact hhere.shorten
      have hless : between.length < length := by
        have hcovered := List.length_pos_iff.mpr hhere.nonempty
        rw [← hlength, hbefore, List.length_append]
        omega
      have hrest := ih between.length hless between (by simpa [hbefore] using hstart) rfl
      rw [hbefore, List.append_assoc, List.append_assoc, List.append_assoc,
        remapFrom_of_replaced named hhere, remapFrom_of_replaced named hfirst]
      simp only [List.append_assoc, List.count_append] at hrest ⊢
      omega

theorem onePass_remap (named : ∀ chunk ∈ chunks, '\n' ∉ chunk.file) (log : Text) :
    OnePass chunks true log (remap chunks log) :=
  (remapFrom_eq_iff named).mp rfl

theorem remap_append_of_not_spans (named : ∀ chunk ∈ chunks, '\n' ∉ chunk.file)
    (apart : ¬ Spans chunks true first second) :
    remap chunks (first ++ '\n' :: second) = remap chunks first ++ '\n' :: remap chunks second :=
  (remapFrom_eq_iff named).mpr
    ((onePass_remap named first).append_lineFeed apart (onePass_remap named second))

/-- A log keeps its lines if no location goes over the end of one. -/
theorem count_remap_of_apart (named : ∀ chunk ∈ chunks, '\n' ∉ chunk.file) {log : Text}
    (apart : ∀ first second, log = first ++ '\n' :: second → ¬ Spans chunks true first second) :
    (remap chunks log).count '\n' = log.count '\n' := by
  -- line by line
  induction hlength : log.length using Nat.strong_induction_on generalizing log with
  | h length ih =>
  by_cases hsingle : '\n' ∈ log
  · obtain ⟨first, second, rfl, hfirst⟩ := List.eq_append_cons_of_mem hsingle
    have hsecond : (remap chunks second).count '\n' = second.count '\n' := by
      refine ih second.length (by simp [← hlength]; omega) (fun more last hmore spans => ?_) rfl
      have hspans : Spans chunks (startsBehind true (first ++ ['\n'])) more last := by
        simpa using spans
      exact apart (first ++ ['\n'] ++ more) last (by simp [hmore]) hspans.append
    have hnone := (onePass_remap named first).count_le named
    rw [remap_append_of_not_spans named (apart first second rfl), List.count_append,
      List.count_append, List.count_cons, List.count_cons, hsecond]
    rw [List.count_eq_zero.mpr hfirst] at hnone ⊢
    omega
  · have hle := (onePass_remap named log).count_le named
    rw [List.count_eq_zero.mpr hsingle] at hle ⊢
    omega

/-- **Logs are changed line by line, except where a location goes over the end of a line.** Let no
file name have a line feed. Two parts of a log, with a line feed between them, are changed as they
would be on their own iff no location that is replaced goes over that line feed. A log never gets
more lines, and keeps all that it has iff no location goes over the end of any of them. -/
theorem remap_append_iff_not_spans (named : ∀ chunk ∈ chunks, '\n' ∉ chunk.file) :
    (∀ first second, remap chunks (first ++ '\n' :: second) =
        remap chunks first ++ '\n' :: remap chunks second ↔ ¬ Spans chunks true first second) ∧
      ∀ log, (remap chunks log).count '\n' ≤ log.count '\n' ∧
        ((remap chunks log).count '\n' = log.count '\n' ↔
          ∀ first second, log = first ++ '\n' :: second → ¬ Spans chunks true first second) := by
  have hless {first second : Text} (spans : Spans chunks true first second) :
      (remap chunks (first ++ '\n' :: second)).count '\n' <
        (remap chunks first ++ '\n' :: remap chunks second).count '\n' :=
    count_lt_of_spans named spans
  refine ⟨fun first second => ⟨fun same spans => ?_, remap_append_of_not_spans named⟩,
    fun log => ⟨(onePass_remap named log).count_le named, ?_, count_remap_of_apart named⟩⟩
  · exact Nat.lt_irrefl _ (same ▸ hless spans)
  · rintro hsame first second rfl spans
    have hfirst := (onePass_remap named first).count_le named
    have hsecond := (onePass_remap named second).count_le named
    have hless := hless spans
    rw [hsame] at hless
    simp only [List.count_append, List.count_cons] at hless
    omega

/-- The white space behind a location in brackets goes over the end of the line. -/
theorem remap_append_iff_not_spans_oneChunk :
    (∀ chunk ∈ oneChunk, '\n' ∉ chunk.file) ∧ Spans oneChunk true "0(1)".toList "foo".toList ∧
      remap oneChunk "0(1)\nfoo".toList = "main.glsl(4) foo".toList ∧
      remap oneChunk "0(1)".toList ++ '\n' :: remap oneChunk "foo".toList =
        "main.glsl(4) \nfoo".toList ∧
      ¬ Spans oneChunk true "ERROR: 0:1".toList "0(2) x".toList := by
  have hnamed : ∀ chunk ∈ oneChunk, '\n' ∉ chunk.file := by decide
  obtain ⟨hlines, -⟩ := remap_append_iff_not_spans hnamed
  refine ⟨hnamed, ?_, by rfl, by rfl, (hlines _ _).mp (by rfl)⟩
  by_contra hapart
  exact absurd ((hlines _ _).mpr hapart) (by decide)

end InfoLog

end ShaderTemplate
