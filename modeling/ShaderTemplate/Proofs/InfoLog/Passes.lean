import ShaderTemplate.InfoLog.Remap
import ShaderTemplate.Proofs.InfoLog.Location

/-!
# The two passes over a log

`InfoLog.remap` goes through a log twice, once for each way of writing a location, and the second
pass reads what the first one has written. Here both are followed through a log together, from a
place in it to the next: `remapFrom_of_replaced` goes over a location that means a line of a file,
and `remapFrom_cons` over any other character.

## Shape of the argument

A line that starts within a location starts in its white space or right behind that, where no other
location can start (`Location.Labelled.not_within`, `Location.Bracketed.not_within`). So a location
that means nothing is copied as if it were copied character by character, although each pass skips
it (`replaceAtStarts_cons_of_same`).

The passes do not meet either. What the first one writes is in one line and begins with a label, so
the second finds nothing in it. No character of a location in brackets is the first letter of a
label, so the first pass copies all of it, and it ends where it did, since the first pass leaves the
character behind it alone (`head?_replaceAtStarts`).
-/

namespace ShaderTemplate

namespace InfoLog

/-! ## Starts of lines -/

/-- Whether a line starts behind a text that itself starts a line or not. -/
def startsBehind (atStart : Bool) (text : Text) : Bool :=
  text.foldl (fun _ c => c == '\n') atStart

section StartsBehind

variable {atStart : Bool} {part rest : Text}

@[simp]
theorem startsBehind_nil : startsBehind atStart [] = atStart := rfl

@[simp]
theorem startsBehind_cons {c : Char} :
    startsBehind atStart (c :: rest) = startsBehind (c == '\n') rest := rfl

@[simp]
theorem startsBehind_append :
    startsBehind atStart (part ++ rest) = startsBehind (startsBehind atStart part) rest := by
  simp [startsBehind]

/-- A line starts behind a text that is empty at the start of one, or that ends with a line feed. -/
theorem startsBehind_eq_true_iff :
    startsBehind atStart part = true ↔
      (part = [] ∧ atStart = true) ∨ ∃ front, part = front ++ ['\n'] := by
  induction part using List.reverseRecOn with
  | nil => simp
  | append_singleton front c _ =>
    rw [startsBehind_append, startsBehind_cons, startsBehind_nil, beq_iff_eq]
    constructor
    · rintro rfl
      exact .inr ⟨front, rfl⟩
    · rintro (⟨hnil, -⟩ | ⟨_, hfront⟩)
      · simp at hnil
      · exact List.singleton_inj.mp (List.append_inj' hfront rfl).2

theorem startsBehind_of_single (single : '\n' ∉ part) (nonempty : part ≠ []) :
    startsBehind atStart part = false := by
  by_contra hstarts
  obtain ⟨hnil, -⟩ | ⟨front, rfl⟩ := startsBehind_eq_true_iff.mp (Bool.of_not_eq_false hstarts)
  · exact nonempty hnil
  · exact single (by simp)

end StartsBehind

/-! ## What is replaced -/

/-- A location that means a line of a file covers these characters, and this is put in its place. -/
inductive Replaced (chunks : List Chunk) (covered after : Text) : Text → Prop
  | labelled {label index line place : Text}
      (location : Location.Labelled label index line covered after)
      (means : Location.Means chunks index line place) :
      Replaced chunks covered after (label ++ ':' :: ' ' :: place)
  | bracketed {index line place : Text} (location : Location.Bracketed index line covered after)
      (means : Location.Means chunks index line place) :
      Replaced chunks covered after (place ++ [' '])

/-- No location that a text starts with is replaced. -/
def NoneReplaced (chunks : List Chunk) (text : Text) : Prop :=
  ∀ covered after replacement, text = covered ++ after → ¬ Replaced chunks covered after replacement

/-- At the start of a line, a text starts with a location that is replaced or with none. -/
theorem noneReplaced_or (chunks : List Chunk) (atStart : Bool) (text : Text) :
    (atStart = true → NoneReplaced chunks text) ∨
      atStart = true ∧ ∃ covered after replacement, text = covered ++ after ∧
        Replaced chunks covered after replacement := by
  by_cases hnone : atStart = true → NoneReplaced chunks text
  · exact .inl hnone
  · simp only [NoneReplaced, Classical.not_imp, not_forall, not_not] at hnone
    obtain ⟨hstart, covered, after, replacement, htext, here⟩ := hnone
    exact .inr ⟨hstart, covered, after, replacement, htext, here⟩

theorem Replaced.nonempty {chunks : List Chunk} {covered after replacement : Text}
    (here : Replaced chunks covered after replacement) : covered ≠ [] := by
  cases here with
  | labelled location => exact location.nonempty
  | bracketed location => exact location.nonempty

/-! ## One pass over a text in parts -/

section Parts

variable {replace? : Text → Option Replacement} {atStart : Bool} {part rest : Text}

/-- Skipping a part leads to what is behind it. -/
theorem replaceAtStarts_append_skip :
    replaceAtStarts replace? part.length atStart (part ++ rest) =
      replaceAtStarts replace? 0 (startsBehind atStart part) rest := by
  induction part generalizing atStart with
  | nil => rfl
  | cons c part ih => exact ih

/-- What is found at the start of a line is replaced. -/
theorem replaceAtStarts_append_of_some {replacement : Text} (nonempty : part ≠ [])
    (found : replace? (part ++ rest) = some ⟨part.length, replacement⟩) :
    replaceAtStarts replace? 0 true (part ++ rest) =
      replacement ++ replaceAtStarts replace? 0 (startsBehind true part) rest := by
  obtain ⟨c, part, rfl⟩ := List.exists_cons_of_ne_nil nonempty
  rw [List.cons_append] at found ⊢
  rw [replaceAtStarts, if_pos rfl, found]
  exact congrArg (replacement ++ ·) replaceAtStarts_append_skip

theorem replaceAtStarts_cons_of_none {c : Char}
    (none : atStart = true → replace? (c :: rest) = none) :
    replaceAtStarts replace? 0 atStart (c :: rest) =
      c :: replaceAtStarts replace? 0 (c == '\n') rest := by
  rw [replaceAtStarts]
  cases atStart with
  | false => rfl
  | true => rw [if_pos rfl, none rfl]

/-- A part is copied if nothing is found where a line starts in it. -/
theorem replaceAtStarts_append_of_none
    (quiet : ∀ front c back, part = front ++ c :: back → startsBehind atStart front = true →
      replace? (c :: (back ++ rest)) = none) :
    replaceAtStarts replace? 0 atStart (part ++ rest) =
      part ++ replaceAtStarts replace? 0 (startsBehind atStart part) rest := by
  induction part generalizing atStart with
  | nil => rfl
  | cons c part ih =>
    have hrest := @ih (c == '\n') fun front c' back hpart hstart =>
      quiet (c :: front) c' back (by rw [hpart, List.cons_append]) hstart
    have hhere : atStart = true → replace? (c :: (part ++ rest)) = none := quiet [] c part rfl
    rw [List.cons_append, replaceAtStarts_cons_of_none hhere, hrest]
    rfl

/-- A location that is left as it is can be copied, if nothing is found where a line starts in
it. -/
theorem replaceAtStarts_cons_of_same {c : Char}
    (found : replace? (c :: (part ++ rest)) = some ⟨(c :: part).length, c :: part⟩)
    (quiet : ∀ front back, c :: part = front ++ '\n' :: back → back ≠ [] →
      replace? (back ++ rest) = none) :
    replaceAtStarts replace? 0 true (c :: (part ++ rest)) =
      c :: replaceAtStarts replace? 0 (c == '\n') (part ++ rest) := by
  -- the location is followed by the same in both: once it is skipped, and once it is copied
  have hskip := @replaceAtStarts_append_of_some replace? (c :: part) rest _ (by simp) found
  have hcopy := @replaceAtStarts_append_of_none replace? (c == '\n') part rest ?_
  · rw [hcopy]
    exact hskip
  · rintro front c' back rfl hstart
    obtain ⟨rfl, hfeed⟩ | ⟨front, rfl⟩ := startsBehind_eq_true_iff.mp hstart
    · exact quiet [] (c' :: back) (by simp [beq_iff_eq.mp hfeed]) (by simp)
    · exact quiet (c :: front) (c' :: back) (by simp) (by simp)

end Parts

/-! ## What each pass replaces -/

section Passes

variable {chunks : List Chunk} {atStart : Bool} {label index line covered after : Text}

theorem replaceLabelled?_of_location
    (location : Location.Labelled label index line covered after) :
    replaceLabelled? chunks (covered ++ after) =
      some ⟨covered.length, (Location.inFile? chunks ⟨index, line, covered.length⟩).elim covered
        fun place => label ++ ':' :: ' ' :: place⟩ := by
  have hfound := Location.labelled?_eq_some_iff.mpr ⟨covered, after, rfl, rfl, location⟩
  simp [replaceLabelled?, hfound]

theorem replaceBracketed?_of_location (location : Location.Bracketed index line covered after) :
    replaceBracketed? chunks (covered ++ after) =
      some ⟨covered.length, (Location.inFile? chunks ⟨index, line, covered.length⟩).elim covered
        fun place => place ++ [' ']⟩ := by
  have hfound := Location.bracketed?_eq_some_iff.mpr ⟨covered, after, rfl, rfl, location⟩
  simp [replaceBracketed?, hfound]

theorem replaceLabelled?_of_none {text : Text} (none : Location.labelled? text = none) :
    replaceLabelled? chunks text = .none := by
  rw [replaceLabelled?, none]
  rfl

theorem replaceBracketed?_of_none {text : Text} (none : Location.bracketed? text = none) :
    replaceBracketed? chunks text = .none := by
  rw [replaceBracketed?, none]
  rfl

/-- A location with a label begins with a letter, and ends with a digit. -/
theorem startsBehind_labelled (location : Location.Labelled label index line covered after) :
    startsBehind true covered = false := by
  obtain ⟨blanks, -, rfl⟩ := location.covers
  simp [startsBehind_of_single location.lineDigits.single location.lineDigits.nonempty]

/-! ## The first pass and locations in brackets -/

theorem replaceLabelled?_of_not_letter {c : Char} (letter : c ≠ 'E' ∧ c ≠ 'W') (rest : Text) :
    replaceLabelled? chunks (c :: rest) = none := by
  refine replaceLabelled?_of_none (Location.labelled?_eq_none_of_head ?_)
  rintro _ ⟨⟩
  exact letter

/-- The first pass leaves the first character of a text alone. -/
theorem head?_replaceAtStarts (text : Text) :
    (replaceAtStarts (replaceLabelled? chunks) 0 atStart text).head? = text.head? := by
  cases text with
  | nil => rfl
  | cons c rest =>
    rcases hfound : Location.labelled? (c :: rest) with _ | ⟨label, index, line, length⟩
    · rw [replaceAtStarts_cons_of_none fun _ => replaceLabelled?_of_none hfound]
      rfl
    · cases atStart with
      | false =>
        rw [replaceAtStarts_cons_of_none (by simp)]
        rfl
      | true =>
        obtain ⟨covered, after, htext, -, hlocation⟩ := Location.labelled?_eq_some_iff.mp hfound
        rw [htext, replaceAtStarts_append_of_some hlocation.nonempty
          (replaceLabelled?_of_location hlocation)]
        obtain ⟨blanks, -, rfl⟩ := hlocation.covers
        rcases hlocation.known with rfl | rfl <;>
          cases Location.inFile? chunks _ <;> rfl

/-- What has no letter that a label begins with is copied by the first pass. -/
theorem replaceAtStarts_append_of_not_letter (letters : ∀ c ∈ covered, c ≠ 'E' ∧ c ≠ 'W') :
    replaceAtStarts (replaceLabelled? chunks) 0 atStart (covered ++ after) =
      covered ++ replaceAtStarts (replaceLabelled? chunks) 0 (startsBehind atStart covered) after :=
  replaceAtStarts_append_of_none fun front c back hcovered _ =>
    replaceLabelled?_of_not_letter (letters c (by simp [hcovered])) _

/-- Where the first pass has written no letter that a label begins with, it has copied. -/
theorem exists_of_replaceAtStarts_eq_append {text : Text}
    (letters : ∀ c ∈ covered, c ≠ 'E' ∧ c ≠ 'W')
    (written : replaceAtStarts (replaceLabelled? chunks) 0 atStart text = covered ++ after) :
    ∃ behind, text = covered ++ behind ∧
      replaceAtStarts (replaceLabelled? chunks) 0 (startsBehind atStart covered) behind =
        after := by
  induction covered generalizing atStart text with
  | nil => exact ⟨text, rfl, written⟩
  | cons c covered ih =>
    obtain ⟨hletter, hletters⟩ := List.forall_mem_cons.mp letters
    have hhead := @head?_replaceAtStarts chunks atStart text
    rw [written, List.cons_append, List.head?_cons] at hhead
    obtain ⟨rest, rfl⟩ := List.head?_eq_some_iff.mp hhead.symm
    have hnone := @replaceLabelled?_of_not_letter chunks c hletter rest
    rw [replaceAtStarts_cons_of_none fun _ => hnone] at written
    obtain ⟨behind, rfl, hbehind⟩ := ih hletters (List.cons.inj written).2
    exact ⟨behind, rfl, hbehind⟩

/-! ## Both passes -/

/-- Both passes over what is left of a log. -/
def remapFrom (chunks : List Chunk) (atStart : Bool) (log : Text) : Text :=
  replaceAtStarts (replaceBracketed? chunks) 0 atStart
    (replaceAtStarts (replaceLabelled? chunks) 0 atStart log)

@[simp]
theorem remapFrom_nil : remapFrom chunks atStart [] = [] := by
  simp [remapFrom, replaceAtStarts]

/-- The second pass copies a line that does not begin with a digit. -/
theorem replaceAtStarts_append_of_single {c : Char} {part rest : Text}
    (letter : Text.isDecimalDigit c = false) (single : '\n' ∉ c :: part) :
    replaceAtStarts (replaceBracketed? chunks) 0 true (c :: part ++ rest) =
      c :: part ++ replaceAtStarts (replaceBracketed? chunks) 0 false rest := by
  have hbehind : startsBehind true (c :: part) = false := startsBehind_of_single single (by simp)
  rw [replaceAtStarts_append_of_none, hbehind]
  intro front c' back hfront hstart
  obtain ⟨rfl, -⟩ | ⟨front, rfl⟩ := startsBehind_eq_true_iff.mp hstart
  · obtain ⟨rfl, -⟩ := List.cons.inj hfront
    exact replaceBracketed?_of_none (Location.bracketed?_eq_none letter)
  · rw [hfront] at single
    exact absurd (by simp) single

/-- A location with a label is replaced by the first pass. What is put in its place is in one line,
and the second pass copies all of it. -/
theorem remapFrom_of_labelled {place : Text}
    (location : Location.Labelled label index line covered after)
    (means : Location.Means chunks index line place) (single : '\n' ∉ place) :
    remapFrom chunks true (covered ++ after) =
      (label ++ ':' :: ' ' :: place) ++ remapFrom chunks (startsBehind true covered) after := by
  have hfirst := @replaceLabelled?_of_location chunks _ _ _ _ _ location
  rw [Location.inFile?_eq_some_iff.mpr means] at hfirst
  have hletter : ∃ letter tail, label = letter :: tail ∧
      Text.isDecimalDigit letter = false ∧ '\n' ∉ label := by
    rcases location.known with rfl | rfl
    · exact ⟨'E', _, rfl, by decide, by decide⟩
    · exact ⟨'W', _, rfl, by decide, by decide⟩
  obtain ⟨letter, tail, rfl, hletter, hlabel⟩ := hletter
  have hsingle : '\n' ∉ letter :: tail ++ ':' :: ' ' :: place := by
    rw [List.mem_append, not_or]
    exact ⟨hlabel, by simp [single]⟩
  rw [remapFrom, replaceAtStarts_append_of_some location.nonempty hfirst,
    startsBehind_labelled location]
  exact replaceAtStarts_append_of_single hletter hsingle

/-- The first pass copies a location in brackets, and the second one replaces it. -/
theorem remapFrom_of_bracketed {place : Text}
    (location : Location.Bracketed index line covered after)
    (means : Location.Means chunks index line place) :
    remapFrom chunks true (covered ++ after) =
      (place ++ [' ']) ++ remapFrom chunks (startsBehind true covered) after := by
  set behind := replaceAtStarts (replaceLabelled? chunks) 0 (startsBehind true covered) after
    with hbehind
  have hcopied : Location.Bracketed index line covered behind :=
    { location with ends := by rw [hbehind, head?_replaceAtStarts]; exact location.ends }
  have hsecond := @replaceBracketed?_of_location chunks _ _ _ _ hcopied
  rw [Location.inFile?_eq_some_iff.mpr means] at hsecond
  rw [remapFrom, replaceAtStarts_append_of_not_letter location.not_letter,
    ← hbehind, replaceAtStarts_append_of_some location.nonempty hsecond]
  rfl

section Copied

theorem NoneReplaced.inFile?_of_labelled (none : NoneReplaced chunks (covered ++ after))
    (location : Location.Labelled label index line covered after) (length : Nat) :
    Location.inFile? chunks ⟨index, line, length⟩ = .none := by
  by_contra hsome
  obtain ⟨place, hplace⟩ := Option.ne_none_iff_exists'.mp hsome
  exact none _ _ _ rfl (.labelled location (Location.inFile?_eq_some_iff.mp hplace))

theorem NoneReplaced.inFile?_of_bracketed (none : NoneReplaced chunks (covered ++ after))
    (location : Location.Bracketed index line covered after) (length : Nat) :
    Location.inFile? chunks ⟨index, line, length⟩ = .none := by
  by_contra hsome
  obtain ⟨place, hplace⟩ := Option.ne_none_iff_exists'.mp hsome
  exact none _ _ _ rfl (.bracketed location (Location.inFile?_eq_some_iff.mp hplace))

variable {c : Char} {log : Text}

/-- The first pass copies a character where no location is replaced. -/
theorem replaceAtStarts_labelled_cons (none : atStart = true → NoneReplaced chunks (c :: log)) :
    replaceAtStarts (replaceLabelled? chunks) 0 atStart (c :: log) =
      c :: replaceAtStarts (replaceLabelled? chunks) 0 (c == '\n') log := by
  rcases hfound : Location.labelled? (c :: log) with _ | ⟨label, index, line, length⟩
  · exact replaceAtStarts_cons_of_none fun _ => replaceLabelled?_of_none hfound
  cases atStart with
  | false => exact replaceAtStarts_cons_of_none (by simp)
  | true =>
    obtain ⟨covered, after, htext, -, hlocation⟩ := Location.labelled?_eq_some_iff.mp hfound
    have hnone := none rfl
    rw [htext] at hnone
    have hsame := @replaceLabelled?_of_location chunks _ _ _ _ _ hlocation
    rw [hnone.inFile?_of_labelled hlocation] at hsame
    obtain ⟨first, part, rfl⟩ := List.exists_cons_of_ne_nil hlocation.nonempty
    obtain ⟨rfl, rfl⟩ := List.cons.inj htext
    refine replaceAtStarts_cons_of_same hsame fun front back hback _ => ?_
    rw [hback] at hlocation
    exact replaceLabelled?_of_none hlocation.not_within.1

/-- A location in brackets that the second pass meets stands in the log. -/
theorem exists_of_bracketed (location : Location.Bracketed index line covered after)
    (written : replaceAtStarts (replaceLabelled? chunks) 0 atStart log = covered ++ after) :
    ∃ behind, log = covered ++ behind ∧ Location.Bracketed index line covered behind := by
  obtain ⟨behind, rfl, rfl⟩ := exists_of_replaceAtStarts_eq_append location.not_letter written
  have hends := location.ends
  rw [head?_replaceAtStarts] at hends
  exact ⟨behind, rfl, { location with ends := hends }⟩

/-- The second pass copies a character where no location is replaced. -/
theorem replaceAtStarts_bracketed_cons (none : atStart = true → NoneReplaced chunks (c :: log)) :
    let text := replaceAtStarts (replaceLabelled? chunks) 0 (c == '\n') log
    replaceAtStarts (replaceBracketed? chunks) 0 atStart (c :: text) =
      c :: replaceAtStarts (replaceBracketed? chunks) 0 (c == '\n') text := by
  intro text
  rcases hfound : Location.bracketed? (c :: text) with _ | ⟨index, line, length⟩
  · exact replaceAtStarts_cons_of_none fun _ => replaceBracketed?_of_none hfound
  cases atStart with
  | false => exact replaceAtStarts_cons_of_none (by simp)
  | true =>
    obtain ⟨covered, after, htext, -, hlocation⟩ := Location.bracketed?_eq_some_iff.mp hfound
    -- what is not replaced is said of the log, and the second pass reads what the first has written
    obtain ⟨behind, hlog, hread⟩ :=
      exists_of_bracketed hlocation ((replaceAtStarts_labelled_cons none).trans htext)
    have hnone := none rfl
    rw [hlog] at hnone
    have hsame := @replaceBracketed?_of_location chunks _ _ _ _ hlocation
    rw [hnone.inFile?_of_bracketed hread] at hsame
    obtain ⟨first, part, rfl⟩ := List.exists_cons_of_ne_nil hlocation.nonempty
    obtain ⟨rfl, hpart⟩ := List.cons.inj htext
    rw [hpart]
    refine replaceAtStarts_cons_of_same hsame fun front back hback hinside => ?_
    rw [hback] at hlocation
    exact replaceBracketed?_of_none (hlocation.not_within hinside).2

theorem remapFrom_cons (none : atStart = true → NoneReplaced chunks (c :: log)) :
    remapFrom chunks atStart (c :: log) = c :: remapFrom chunks (c == '\n') log := by
  rw [remapFrom, replaceAtStarts_labelled_cons none]
  exact replaceAtStarts_bracketed_cons none

end Copied

/-- What is replaced is replaced by the two passes together. -/
theorem remapFrom_of_replaced (named : ∀ chunk ∈ chunks, '\n' ∉ chunk.file) {replacement : Text}
    (here : Replaced chunks covered after replacement) :
    remapFrom chunks true (covered ++ after) =
      replacement ++ remapFrom chunks (startsBehind true covered) after := by
  cases here with
  | labelled location means => exact remapFrom_of_labelled location means (means.single named)
  | bracketed location means => exact remapFrom_of_bracketed location means

end Passes

end InfoLog

end ShaderTemplate
