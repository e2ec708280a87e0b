import ShaderTemplate.InfoLog.Location
import ShaderTemplate.Proofs.Text.Parts

/-!
# How locations are spelled

`Location.Labelled` and `Location.Bracketed` say without a search which characters of a text make
up a location, in terms of its parts. `labelled?_eq_some_iff` and `bracketed?_eq_some_iff` say that
these are the locations that the recognisers find.

Digits, white space and the other characters of a location are apart, so there is one way at most to
cut a text into the parts of a location: no part can end earlier or later than it does.
A location may go over several lines, but no other one starts at a line start within it
(`Labelled.not_within`, `Bracketed.not_within`).
-/

namespace ShaderTemplate

/-! ## Digits and white space -/

namespace Text

theorem exists_range {ranges : List (Nat × Nat)} {n : Nat} (h : inRanges ranges n = true) :
    ∃ range ∈ ranges, range.1 ≤ n ∧ n ≤ range.2 := by
  induction ranges with
  | nil => cases h
  | cons range ranges ih =>
    obtain ⟨first, last⟩ := range
    rw [inRanges] at h
    split at h
    · cases h
    · split at h
      · exact ⟨(first, last), List.mem_cons_self, by omega, by assumption⟩
      · obtain ⟨other, hother, hin⟩ := ih h
        exact ⟨other, List.mem_cons_of_mem _ hother, hin⟩

/-- No decimal digit is white space. -/
theorem isBlank_of_isDecimalDigit {c : Char} (digit : isDecimalDigit c = true) :
    isBlank c = false := by
  have happart : ∀ digits ∈ decimalDigitRanges, ∀ blanks ∈ blankRanges,
      digits.2 < blanks.1 ∨ blanks.2 < digits.1 := by decide +kernel
  obtain ⟨digits, hdigits, hlow, hhigh⟩ := exists_range digit
  by_contra hblank
  obtain ⟨blanks, hblanks, hfirst, hlast⟩ := exists_range (Bool.of_not_eq_false hblank)
  have := happart digits hdigits blanks hblanks
  omega

end Text

namespace Location

/-- A number in the digits of any script. -/
structure Digits (text : Text) : Prop where
  nonempty : text ≠ []
  digit : ∀ c ∈ text, Text.isDecimalDigit c = true

/-- A location behind a label covers these characters, in front of a text that does not go on with a
digit. -/
structure Labelled (label index line covered after : Text) : Prop where
  known : label = "ERROR".toList ∨ label = "WARNING".toList
  indexDigits : Digits index
  lineDigits : Digits line
  covers : ∃ blanks, (∀ c ∈ blanks, Text.isBlank c = true) ∧
    covered = label ++ ':' :: (blanks ++ (index ++ ':' :: line))
  ends : ∀ c ∈ after.head?, Text.isDecimalDigit c = false

/-- A location in brackets covers these characters, in front of a text that does not go on with
white space. -/
structure Bracketed (index line covered after : Text) : Prop where
  indexDigits : Digits index
  lineDigits : Digits line
  covers : ∃ blanks, (∀ c ∈ blanks, Text.isBlank c = true) ∧
    covered = index ++ '(' :: (line ++ ')' :: blanks)
  ends : ∀ c ∈ after.head?, Text.isBlank c = false

/-! ## First letters of labels -/

theorem not_letter_of_isBlank {c : Char} (blank : Text.isBlank c = true) : c ≠ 'E' ∧ c ≠ 'W' := by
  constructor
  · rintro rfl
    exact absurd blank (by decide)
  · rintro rfl
    exact absurd blank (by decide)

theorem not_letter_of_isDecimalDigit {c : Char} (digit : Text.isDecimalDigit c = true) :
    c ≠ 'E' ∧ c ≠ 'W' := by
  constructor
  · rintro rfl
    exact absurd digit (by decide)
  · rintro rfl
    exact absurd digit (by decide)

/-! ## What is recognised -/

section Recognised

variable {text label index line : Text} {length : Nat}

theorem digits?_eq_some_iff {digits rest : Text} :
    digits? text = some (digits, rest) ↔
      Digits digits ∧ text = digits ++ rest ∧
        ∀ c ∈ rest.head?, Text.isDecimalDigit c = false := by
  constructor
  · intro h
    have hsplit := @List.takeWhile_append_dropWhile _ Text.isDecimalDigit text
    have hall : ∀ c ∈ text.takeWhile Text.isDecimalDigit, Text.isDecimalDigit c = true :=
      fun c hc => List.mem_takeWhile_imp hc
    unfold digits? at h
    split at h
    · cases h
    · rename_i htake
      cases h
      exact ⟨⟨htake, hall⟩, hsplit.symm, Text.head?_dropWhile text⟩
  · rintro ⟨hdigits, rfl, hends⟩
    rw [digits?, Text.takeWhile_append_of_ends hdigits.digit hends,
      Text.dropWhile_append_of_ends hdigits.digit hends]
    cases hcases : digits with
    | nil => exact absurd hcases hdigits.nonempty
    | cons c digits => rfl

theorem after?_eq_some_iff {mark : Char} {rest : Text} :
    after? mark text = some rest ↔ text = mark :: rest := by
  cases text with
  | nil => simp [after?]
  | cons c text =>
    rw [after?]
    split <;> simp_all

/-- What ends in front of a mark that is no digit. -/
theorem ends_mark {mark : Char} (mark_not_digit : Text.isDecimalDigit mark = false) (rest : Text) :
    ∀ c ∈ (mark :: rest).head?, Text.isDecimalDigit c = false := by
  rintro c ⟨⟩
  exact mark_not_digit

theorem Digits.not_blank {digits : Text} (number : Digits digits) (rest : Text) :
    ∀ c ∈ (digits ++ rest).head?, Text.isBlank c = false := by
  intro c hc
  cases hcases : digits with
  | nil => exact absurd hcases number.nonempty
  | cons first digits =>
    rw [hcases] at hc
    cases hc
    exact Text.isBlank_of_isDecimalDigit (number.digit c (hcases ▸ List.mem_cons_self))

theorem colonPair?_eq_some_iff :
    colonPair? text = some ⟨index, line, length⟩ ↔
      Digits index ∧ Digits line ∧ ∃ blanks after, (∀ c ∈ blanks, Text.isBlank c = true) ∧
        (∀ c ∈ after.head?, Text.isDecimalDigit c = false) ∧
        text = blanks ++ (index ++ ':' :: (line ++ after)) ∧
        length = (blanks ++ (index ++ ':' :: line)).length := by
  constructor
  · intro h
    simp only [colonPair?, Option.bind_eq_bind, Option.bind_eq_some_iff, Prod.exists,
      digits?_eq_some_iff, after?_eq_some_iff] at h
    obtain ⟨index, rest, ⟨hindex, htrim, -⟩, _, rfl, line, after, ⟨hline, rfl, hends⟩, hfound⟩ := h
    cases hfound
    have htext : text = Text.indentation text ++ (index ++ ':' :: (line ++ after)) := by
      rw [← htrim]
      exact List.takeWhile_append_dropWhile.symm
    refine ⟨hindex, hline, Text.indentation text, after,
      fun c hc => List.mem_takeWhile_imp hc, hends, htext, ?_⟩
    have hlength := congrArg List.length htext
    simp only [List.length_append, List.length_cons] at hlength ⊢
    omega
  · rintro ⟨hindex, hline, blanks, after, hblanks, hends, rfl, rfl⟩
    have htrim : Text.trimStart (blanks ++ (index ++ ':' :: (line ++ after))) =
        index ++ ':' :: (line ++ after) :=
      Text.dropWhile_append_of_ends hblanks (hindex.not_blank _)
    have hindexRead := digits?_eq_some_iff.mpr
      ⟨hindex, rfl, ends_mark (by decide : Text.isDecimalDigit ':' = false) (line ++ after)⟩
    have hlineRead := digits?_eq_some_iff.mpr ⟨hline, rfl, hends⟩
    simp only [colonPair?, htrim, hindexRead, after?, if_true, hlineRead, Option.bind_eq_bind,
      Option.bind_some, Option.pure_def, Option.some.injEq, Location.mk.injEq, true_and]
    simp only [List.length_append, List.length_cons]
    omega

/-- The locations that are recognised behind a label. -/
theorem labelled?_eq_some_iff :
    labelled? text = some (label, ⟨index, line, length⟩) ↔
      ∃ covered after, text = covered ++ after ∧ length = covered.length ∧
        Labelled label index line covered after := by
  -- one label at a time
  have hbehind (known : Text) :
      (do
        let rest ← after? ':' (← known.isPrefixOf? text)
        let location ← colonPair? rest
        return (known, { location with length := known.length + 1 + location.length })) =
          some (label, ⟨index, line, length⟩) ↔
        label = known ∧ ∃ covered after, text = covered ++ after ∧ length = covered.length ∧
          Digits index ∧ Digits line ∧
          (∃ blanks, (∀ c ∈ blanks, Text.isBlank c = true) ∧
            covered = known ++ ':' :: (blanks ++ (index ++ ':' :: line))) ∧
          ∀ c ∈ after.head?, Text.isDecimalDigit c = false := by
    simp only [Option.bind_eq_bind, Option.bind_eq_some_iff, after?_eq_some_iff,
      List.isPrefixOf?_eq_some_iff_append_eq]
    constructor
    · rintro ⟨_, rfl, _, rfl, ⟨index, line, pair⟩, hpair, hfound⟩
      obtain ⟨hindex, hline, blanks, after, hblanks, hends, rfl, rfl⟩ :=
        colonPair?_eq_some_iff.mp hpair
      cases hfound
      refine ⟨rfl, _, after, ?_, ?_, hindex, hline, ⟨blanks, hblanks, rfl⟩, hends⟩
      · simp
      · simp only [List.length_append, List.length_cons]
        omega
    · rintro ⟨rfl, _, after, rfl, rfl, hindex, hline, ⟨blanks, hblanks, rfl⟩, hends⟩
      have hpair := colonPair?_eq_some_iff.mpr
        ⟨hindex, hline, blanks, after, hblanks, hends, rfl, rfl⟩
      refine ⟨_, ?_, _, rfl, _, hpair, ?_⟩
      · simp
      · simp only [Option.pure_def, List.length_append, List.length_cons, Option.some.injEq,
          Prod.mk.injEq, Location.mk.injEq, true_and]
        omega
  have hlabelled (first second : Option (Text × Location)) (found : Text × Location) :
      (first <|> second) = some found ↔
        first = some found ∨ first = none ∧ second = some found := by
    rw [Option.orElse_eq_orElse, Option.orElse_eq_or, Option.or_eq_some_iff]
  unfold labelled?
  dsimp only
  rw [hlabelled, hbehind, hbehind]
  constructor
  · rintro (⟨rfl, covered, after, htext, hlength, hindex, hline, hcovers, hends⟩ |
      ⟨-, rfl, covered, after, htext, hlength, hindex, hline, hcovers, hends⟩)
    · exact ⟨covered, after, htext, hlength, .inl rfl, hindex, hline, hcovers, hends⟩
    · exact ⟨covered, after, htext, hlength, .inr rfl, hindex, hline, hcovers, hends⟩
  · rintro ⟨covered, after, htext, hlength, rfl | rfl, hindex, hline, hcovers, hends⟩
    · exact .inl ⟨rfl, covered, after, htext, hlength, hindex, hline, hcovers, hends⟩
    · refine .inr ⟨?_, rfl, covered, after, htext, hlength, hindex, hline, hcovers, hends⟩
      obtain ⟨blanks, -, rfl⟩ := hcovers
      rw [htext]
      rfl

/-- The locations that are recognised in brackets. -/
theorem bracketed?_eq_some_iff :
    bracketed? text = some ⟨index, line, length⟩ ↔
      ∃ covered after, text = covered ++ after ∧ length = covered.length ∧
        Bracketed index line covered after := by
  constructor
  · intro h
    simp only [bracketed?, Option.bind_eq_bind, Option.bind_eq_some_iff, Prod.exists,
      digits?_eq_some_iff, after?_eq_some_iff] at h
    obtain ⟨index, _, ⟨hindex, rfl, -⟩, _, rfl, line, _, ⟨hline, rfl, -⟩, rest, rfl, hfound⟩ := h
    cases hfound
    have hrest : Text.indentation rest ++ Text.trimStart rest = rest :=
      List.takeWhile_append_dropWhile
    refine ⟨index ++ '(' :: (line ++ ')' :: Text.indentation rest), Text.trimStart rest, ?_, ?_,
      hindex, hline, ⟨_, fun c hc => List.mem_takeWhile_imp hc, rfl⟩, Text.head?_dropWhile rest⟩
    · simp [hrest]
    · have hlength := congrArg List.length hrest
      simp only [List.length_append, List.length_cons] at hlength ⊢
      omega
  · rintro ⟨_, after, rfl, rfl, hindex, hline, ⟨blanks, hblanks, rfl⟩, hends⟩
    have htrim : Text.trimStart (blanks ++ after) = after :=
      Text.dropWhile_append_of_ends hblanks hends
    have hindexRead := digits?_eq_some_iff.mpr
      ⟨hindex, rfl, ends_mark (by decide : Text.isDecimalDigit '(' = false)
        (line ++ ')' :: (blanks ++ after))⟩
    have hlineRead := digits?_eq_some_iff.mpr
      ⟨hline, rfl, ends_mark (by decide : Text.isDecimalDigit ')' = false) (blanks ++ after)⟩
    simp only [bracketed?, List.append_assoc, List.cons_append, hindexRead, after?, if_true,
      hlineRead, htrim, Option.bind_eq_bind, Option.bind_some, Option.pure_def,
      Option.some.injEq, Location.mk.injEq, true_and]
    simp only [List.length_append, List.length_cons]
    omega

/-- A text that starts with neither letter has no label. -/
theorem labelled?_eq_none_of_head (letters : ∀ c ∈ text.head?, c ≠ 'E' ∧ c ≠ 'W') :
    labelled? text = none := by
  by_contra hsome
  obtain ⟨⟨label, index, line, length⟩, hfound⟩ := Option.ne_none_iff_exists'.mp hsome
  obtain ⟨covered, after, rfl, -, hlabelled⟩ := labelled?_eq_some_iff.mp hfound
  obtain ⟨blanks, -, rfl⟩ := hlabelled.covers
  rcases hlabelled.known with rfl | rfl
  · exact (letters 'E' rfl).1 rfl
  · exact (letters 'W' rfl).2 rfl

theorem labelled?_eq_none_of_digit {c : Char} (digit : Text.isDecimalDigit c = true)
    (rest : Text) : labelled? (c :: rest) = none := by
  refine labelled?_eq_none_of_head ?_
  rintro _ ⟨⟩
  exact not_letter_of_isDecimalDigit digit

/-- A text that starts with a label has no location in brackets. -/
theorem bracketed?_eq_none {c : Char} {text : Text} (letter : Text.isDecimalDigit c = false) :
    bracketed? (c :: text) = none := by
  have hdigits : digits? (c :: text) = none := by
    rw [digits?, List.takeWhile_cons_of_neg (by simp [letter])]
  rw [bracketed?, hdigits]
  rfl

end Recognised

/-! ## Lines that start within a location -/

section Within

variable {label index line covered front back after : Text}

theorem Digits.single {digits : Text} (number : Digits digits) : '\n' ∉ digits :=
  fun hmem => absurd (number.digit '\n' hmem) (by decide)

/-- Nothing is recognised where white space stands. -/
theorem none_of_blank {c : Char} (blank : Text.isBlank c = true) (rest : Text) :
    labelled? (c :: rest) = none ∧ bracketed? (c :: rest) = none := by
  refine ⟨labelled?_eq_none_of_head ?_, bracketed?_eq_none ?_⟩
  · rintro _ ⟨⟩
    exact not_letter_of_isBlank blank
  · by_contra hdigit
    rw [Text.isBlank_of_isDecimalDigit (Bool.of_not_eq_false hdigit)] at blank
    cases blank

/-- Nothing is recognised where the numbers behind a label stand. -/
theorem none_of_colonPair (number : Digits index) (rest : Text) :
    labelled? (index ++ ':' :: rest) = none ∧ bracketed? (index ++ ':' :: rest) = none := by
  constructor
  · obtain ⟨c, digits, rfl⟩ := List.exists_cons_of_ne_nil number.nonempty
    exact labelled?_eq_none_of_digit (number.digit c List.mem_cons_self) _
  · have hdigits := digits?_eq_some_iff.mpr
      ⟨number, rfl, ends_mark (by decide : Text.isDecimalDigit ':' = false) rest⟩
    simp [bracketed?, hdigits, after?]

/-- Behind a line feed in a location with a label, there is white space and the numbers. -/
theorem Labelled.behind_lineFeed
    (location : Labelled label index line (front ++ '\n' :: back) after) :
    ∃ blanks, (∀ c ∈ blanks, Text.isBlank c = true) ∧ back = blanks ++ (index ++ ':' :: line) := by
  obtain ⟨blanks, hblanks, hcovers⟩ := location.covers
  have hlabel : '\n' ∉ label ++ [':'] := by
    rcases location.known with rfl | rfl <;> decide
  have hnumbers : '\n' ∉ index ++ ':' :: line := by
    simp [location.indexDigits.single, location.lineDigits.single]
  obtain ⟨between, -, hbetween⟩ :=
    Text.behind_of_not_mem (hcovers.trans (List.append_cons ..)) hlabel
  obtain ⟨rest, rfl, rfl⟩ := Text.before_of_not_mem hbetween.symm hnumbers
  exact ⟨rest, fun c hc => hblanks c (by simp [hc]), rfl⟩

/-- Behind a line feed in a location in brackets, there is white space. -/
theorem Bracketed.behind_lineFeed (location : Bracketed index line (front ++ '\n' :: back) after) :
    ∀ c ∈ back, Text.isBlank c = true := by
  obtain ⟨blanks, hblanks, hcovers⟩ := location.covers
  have hnumbers : '\n' ∉ index ++ '(' :: (line ++ [')']) := by
    simp [location.indexDigits.single, location.lineDigits.single]
  have hcovers : front ++ '\n' :: back = (index ++ '(' :: (line ++ [')'])) ++ blanks := by
    simp [hcovers]
  obtain ⟨between, -, rfl⟩ := Text.behind_of_not_mem hcovers hnumbers
  exact fun c hc => hblanks c (by simp [hc])

/-- No location starts at a line start within a location with a label. -/
theorem Labelled.not_within (location : Labelled label index line (front ++ '\n' :: back) after) :
    labelled? (back ++ after) = none ∧ bracketed? (back ++ after) = none := by
  obtain ⟨blanks, hblanks, rfl⟩ := location.behind_lineFeed
  cases blanks with
  | nil => simpa using none_of_colonPair location.indexDigits (line ++ after)
  | cons c blanks => exact none_of_blank (hblanks c List.mem_cons_self) _

/-- No location starts at a line start within a location in brackets. -/
theorem Bracketed.not_within (location : Bracketed index line (front ++ '\n' :: back) after)
    (inside : back ≠ []) :
    labelled? (back ++ after) = none ∧ bracketed? (back ++ after) = none := by
  obtain ⟨c, rest, rfl⟩ := List.exists_cons_of_ne_nil inside
  exact none_of_blank (location.behind_lineFeed c List.mem_cons_self) _

theorem Labelled.nonempty (location : Labelled label index line covered after) : covered ≠ [] := by
  obtain ⟨blanks, -, rfl⟩ := location.covers
  simp

theorem Bracketed.nonempty (location : Bracketed index line covered after) : covered ≠ [] := by
  obtain ⟨blanks, -, rfl⟩ := location.covers
  simp

/-- No character of a location in brackets is one that a label begins with. -/
theorem Bracketed.not_letter (location : Bracketed index line covered after) :
    ∀ c ∈ covered, c ≠ 'E' ∧ c ≠ 'W' := by
  obtain ⟨blanks, hblanks, rfl⟩ := location.covers
  intro c hc
  simp only [List.mem_append, List.mem_cons] at hc
  rcases hc with hc | rfl | hc | rfl | hc
  · exact not_letter_of_isDecimalDigit (location.indexDigits.digit c hc)
  · decide
  · exact not_letter_of_isDecimalDigit (location.lineDigits.digit c hc)
  · decide
  · exact not_letter_of_isBlank (hblanks c hc)

end Within

end Location

end ShaderTemplate
