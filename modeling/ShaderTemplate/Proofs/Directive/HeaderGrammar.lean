import ShaderTemplate.Directive.LoopHeader
import ShaderTemplate.Proofs.Text.Parts

/-!
# The grammar of loop headers

`LoopHeader.Spelling` is a header as it is written: a key, a comma, a value, the word `in` and a
reference, with white space around them. `LoopHeader.parse_follows_grammar` says that these are the
texts that are read, that no text is spelled in two ways, and what the others are refused for.

## Shape of the argument

`Reads` puts a text into one of five classes, by its first comma and the words behind it: one class
for each fault, and one for the spellings. Every text is in a class (`exists_reads`), and in each
class it is clear what `parse` does (`parse_of_reads`). So the classes are those of `parse`
(`parse_eq_iff`), and a result of `parse` can be traced back to the text without following its
searches.
-/

namespace ShaderTemplate

theorem LoopFault.reason_injective : Function.Injective LoopFault.reason := by
  intro fault other same
  cases fault <;> cases other <;> first | rfl | exact absurd same (by decide)

namespace LoopHeader

/-! ## Spellings -/

/-- The names that a header can have. -/
structure Proper (header : LoopHeader) : Prop where
  key_nonempty : header.key ≠ []
  key_trimmed : Text.Trimmed header.key
  key_single : ',' ∉ header.key
  value_word : Text.IsWord header.value
  reference_nonempty : header.reference ≠ []
  reference_trimmed : Text.Trimmed header.reference

/-- A header as it is written, with the white space around its names. There may be none, but the
word `in` has to be a word. -/
@[ext]
structure Spelling where
  header : LoopHeader
  beforeKey : Text
  afterKey : Text
  beforeValue : Text
  afterValue : Text
  beforeReference : Text
  afterReference : Text
  proper : header.Proper
  blank : ∀ gap ∈ [beforeKey, afterKey, beforeValue, afterValue, beforeReference, afterReference],
    Text.Blank gap
  afterValue_nonempty : afterValue ≠ []
  beforeReference_nonempty : beforeReference ≠ []

namespace Spelling

variable (spelling : Spelling)

/-- What is written before the comma. -/
def front : Text :=
  spelling.beforeKey ++ spelling.header.key ++ spelling.afterKey

/-- What is written behind the word `in`. -/
def back : Text :=
  spelling.beforeReference ++ spelling.header.reference ++ spelling.afterReference

/-- The header as it is written. -/
def text : Text :=
  spelling.front ++ ',' ::
    (spelling.beforeValue ++ spelling.header.value ++
      (spelling.afterValue ++ "in".toList ++ spelling.back))

theorem comma_not_mem_front : ',' ∉ spelling.front := by
  have hblank {gap : Text} (h : Text.Blank gap) : ',' ∉ gap := fun hmem =>
    absurd (h ',' hmem) (by decide)
  simp only [front, List.mem_append, not_or]
  exact ⟨⟨hblank (spelling.blank _ (by simp)), spelling.proper.key_single⟩,
    hblank (spelling.blank _ (by simp))⟩

theorem trim_front : Text.trim spelling.front = spelling.header.key :=
  Text.trim_eq_iff.mpr ⟨spelling.proper.key_trimmed, _, _, spelling.blank _ (by simp),
    spelling.blank _ (by simp), rfl⟩

theorem trim_back : Text.trim spelling.back = spelling.header.reference :=
  Text.trim_eq_iff.mpr ⟨spelling.proper.reference_trimmed, _, _, spelling.blank _ (by simp),
    spelling.blank _ (by simp), rfl⟩

end Spelling

/-! ## Classes of texts -/

/-- What a text is read as, by its first comma and the words behind it. -/
inductive Reads : Text → Except LoopFault LoopHeader → Prop
  | missingComma {argument : Text} (absent : ',' ∉ argument) :
    Reads argument (.error .missingComma)
  | missingName {before after : Text} (first : ',' ∉ before)
      (unnamed : Text.Blank before ∨ Text.words after = []) :
    Reads (before ++ ',' :: after) (.error .missingName)
  | missingIn {before after value : Text} {more : List Text} (first : ',' ∉ before)
      (named : ¬ Text.Blank before) (words : Text.words after = value :: more)
      (other : more.head? ≠ some "in".toList) :
    Reads (before ++ ',' :: after) (.error .missingIn)
  | missingReference {before after value : Text} (first : ',' ∉ before)
      (named : ¬ Text.Blank before) (words : Text.words after = [value, "in".toList]) :
    Reads (before ++ ',' :: after) (.error .missingReference)
  | spelled (spelling : Spelling) : Reads spelling.text (.ok spelling.header)

theorem isWord_in : Text.IsWord "in".toList :=
  ⟨by decide, List.forall_mem_cons.mpr ⟨by decide, List.forall_mem_singleton.mpr (by decide)⟩⟩

/-- A text whose second word is `in` is a header, or lacks a reference. -/
theorem reads_of_in {before after value : Text} {more : List Text} (first : ',' ∉ before)
    (named : ¬ Text.Blank before) (words : Text.words after = value :: "in".toList :: more) :
    ∃ result, Reads (before ++ ',' :: after) result := by
  cases more with
  | nil => exact ⟨_, .missingReference first named words⟩
  | cons word more =>
    obtain ⟨beforeValue, rest, hbeforeValue, hvalue, hends, rfl, hrest⟩ :=
      Text.words_eq_cons_iff.mp words
    obtain ⟨afterValue, back, hafterValue, -, hinEnds, rfl, hback⟩ :=
      Text.words_eq_cons_iff.mp hrest
    obtain ⟨key, hkey⟩ : ∃ key, Text.trim before = key := ⟨_, rfl⟩
    have hkeyNonempty : key ≠ [] := hkey ▸ mt Text.trim_eq_nil_iff.mp named
    obtain ⟨reference, hreference⟩ : ∃ reference, Text.trim back = reference := ⟨_, rfl⟩
    have hreferenceNonempty : reference ≠ [] := by
      rintro rfl
      rw [Text.words_eq_nil_iff.mpr (Text.trim_eq_nil_iff.mp hreference)] at hback
      cases hback
    obtain ⟨hkeyTrimmed, beforeKey, afterKey, hbeforeKey, hafterKey, rfl⟩ :=
      Text.trim_eq_iff.mp hkey
    obtain ⟨hreferenceTrimmed, beforeReference, afterReference, hbeforeReference, hafterReference,
      rfl⟩ := Text.trim_eq_iff.mp hreference
    -- the words end where white space begins, so there is some on both sides of `in`
    have hafterNonempty : afterValue ≠ [] := by
      rintro rfl
      exact absurd (hends 'i' rfl) (by decide)
    have hbeforeNonempty : beforeReference ≠ [] := by
      rintro rfl
      obtain ⟨c, rest, rfl⟩ := List.exists_cons_of_ne_nil hreferenceNonempty
      have hblank := hinEnds c rfl
      rw [hreferenceTrimmed.start c rfl] at hblank
      cases hblank
    have hcomma : ',' ∉ key := fun h => first (by simp [h])
    let spelling : Spelling :=
      { header := ⟨key, value, reference⟩
        beforeKey, afterKey, beforeValue, afterValue, beforeReference, afterReference
        proper := ⟨hkeyNonempty, hkeyTrimmed, hcomma, hvalue, hreferenceNonempty, hreferenceTrimmed⟩
        blank := by simp [*]
        afterValue_nonempty := hafterNonempty
        beforeReference_nonempty := hbeforeNonempty }
    exact ⟨_, .spelled spelling⟩

/-- Every text is in a class. -/
theorem exists_reads (argument : Text) : ∃ result, Reads argument result := by
  by_cases hcomma : ',' ∈ argument
  · obtain ⟨before, after, rfl, hfirst⟩ := List.eq_append_cons_of_mem hcomma
    by_cases hnamed : Text.Blank before
    · exact ⟨_, .missingName hfirst (.inl hnamed)⟩
    · cases hwords : Text.words after with
      | nil => exact ⟨_, .missingName hfirst (.inr hwords)⟩
      | cons value more =>
        by_cases hin : more.head? = some "in".toList
        · obtain ⟨more, rfl⟩ := List.head?_eq_some_iff.mp hin
          exact reads_of_in hfirst hnamed hwords
        · exact ⟨_, .missingIn hfirst hnamed hwords hin⟩
  · exact ⟨_, .missingComma hcomma⟩

/-! ## What is read in each class -/

/-- The word `in` is found where it is the first word. -/
theorem afterIn?_append {word rest : Text} (h : Text.IsWord word)
    (ends : ∀ c ∈ rest.head?, Text.isBlank c = true) :
    afterIn? (word ++ rest) = if word = "in".toList then some rest else none := by
  split
  · rename_i hin
    rw [hin]
    exact if_pos (by simpa [Option.all_eq_true] using ends)
  · rename_i hin
    unfold afterIn?
    split
    · rename_i behind hword
      refine if_neg fun hends => hin ?_
      have hsame : word ++ rest = "in".toList ++ behind := hword
      exact (Text.append_inj_of_ends (p := (!Text.isBlank ·)) hsame (by simpa using h.solid)
        (by simpa using ends) (by simpa using isWord_in.solid)
        (by simpa [Option.all_eq_true] using hends)).1
    · rfl

/-- Behind a key and a comma, the first word is the value. -/
theorem parse_append {before blank value rest : Text} (first : ',' ∉ before)
    (named : ¬ Text.Blank before) (hblank : Text.Blank blank) (hvalue : Text.IsWord value)
    (ends : ∀ c ∈ rest.head?, Text.isBlank c = true) :
    parse (before ++ ',' :: (blank ++ value ++ rest)) =
      match afterIn? (Text.trimStart rest) with
      | none => .error .missingIn
      | some back =>
        if (Text.trim back).isEmpty then .error .missingReference
        else .ok ⟨Text.trim before, value, Text.trim back⟩ := by
  have hkey : Text.trim before ≠ [] := mt Text.trim_eq_nil_iff.mp named
  have hwords : Text.trimStart (blank ++ value ++ rest) = value ++ rest := by
    rw [List.append_assoc, Text.trimStart_append hblank, hvalue.trimStart_append]
  have hsolid : ∀ c ∈ value, (!Text.isBlank c) = true := by simpa using hvalue.solid
  have hstop : ∀ c ∈ rest.head?, (!Text.isBlank c) = false := by simpa using ends
  unfold parse
  simp only [Text.cut?_append first, hwords, Text.takeWhile_append_of_ends hsolid hstop,
    Text.dropWhile_append_of_ends hsolid hstop]
  exact if_neg (by simp [hkey, hvalue.nonempty])

theorem afterIn?_trimStart_of_words {rest : Text}
    (other : (Text.words rest).head? ≠ some "in".toList) :
    afterIn? (Text.trimStart rest) = none := by
  by_cases hblank : Text.Blank rest
  · rw [Text.trimStart_eq_nil_iff.mpr hblank]
    rfl
  · obtain ⟨blank, word, after, hb, hword, hends, rfl⟩ := Text.exists_word hblank
    rw [List.append_assoc, Text.words_blank_append hb, hword.words_append hends] at other
    rw [List.append_assoc, Text.trimStart_append hb, hword.trimStart_append,
      afterIn?_append hword hends, if_neg (by simpa using other)]

theorem afterIn?_trimStart {blank back : Text} (hblank : Text.Blank blank)
    (ends : ∀ c ∈ back.head?, Text.isBlank c = true) :
    afterIn? (Text.trimStart (blank ++ "in".toList ++ back)) = some back := by
  rw [List.append_assoc, Text.trimStart_append hblank, isWord_in.trimStart_append,
    afterIn?_append isWord_in ends, if_pos rfl]

/-- What is read in each class. -/
theorem parse_of_reads {argument : Text} {result : Except LoopFault LoopHeader}
    (h : Reads argument result) : parse argument = result := by
  cases h with
  | missingComma absent =>
    unfold parse
    rw [Text.cut?_eq_none_iff.mpr absent]
  | missingName first unnamed =>
    rename_i before after
    unfold parse
    rw [Text.cut?_append first]
    refine if_pos ?_
    rcases unnamed with hblank | hwords
    · simp [Text.trim_eq_nil_iff.mpr hblank]
    · simp [Text.trimStart_eq_nil_iff.mpr (Text.words_eq_nil_iff.mp hwords)]
  | missingIn first named words other =>
    obtain ⟨blank, rest, hblank, hvalue, hends, rfl, rfl⟩ := Text.words_eq_cons_iff.mp words
    rw [parse_append first named hblank hvalue hends, afterIn?_trimStart_of_words other]
  | missingReference first named words =>
    obtain ⟨blank, rest, hblank, hvalue, hends, rfl, hrest⟩ := Text.words_eq_cons_iff.mp words
    obtain ⟨gap, back, hgap, -, hinEnds, rfl, hback⟩ := Text.words_eq_cons_iff.mp hrest
    have hnothing : Text.trim back = [] := Text.trim_eq_nil_iff.mpr (Text.words_eq_nil_iff.mp hback)
    rw [parse_append first named hblank hvalue hends, afterIn?_trimStart hgap hinEnds]
    simp [hnothing]
  | spelled spelling =>
    have hnamed : ¬ Text.Blank spelling.front := by
      rw [← Text.trim_eq_nil_iff, spelling.trim_front]
      exact spelling.proper.key_nonempty
    have hends : ∀ c ∈ (spelling.afterValue ++ "in".toList ++ spelling.back).head?,
        Text.isBlank c = true := by
      rw [List.append_assoc]
      exact Text.Blank.head?_append (spelling.blank _ (by simp)) spelling.afterValue_nonempty _
    have hinEnds : ∀ c ∈ spelling.back.head?, Text.isBlank c = true := by
      rw [Spelling.back, List.append_assoc]
      exact Text.Blank.head?_append (spelling.blank _ (by simp)) spelling.beforeReference_nonempty _
    rw [Spelling.text, parse_append spelling.comma_not_mem_front hnamed
      (spelling.blank _ (by simp)) spelling.proper.value_word hends,
      afterIn?_trimStart (spelling.blank _ (by simp)) hinEnds]
    simp [spelling.trim_front, spelling.trim_back, spelling.proper.reference_nonempty]

theorem parse_eq_iff {argument : Text} {result : Except LoopFault LoopHeader} :
    parse argument = result ↔ Reads argument result := by
  constructor
  · rintro rfl
    obtain ⟨result, h⟩ := exists_reads argument
    exact (parse_of_reads h).symm ▸ h
  · exact parse_of_reads

/-- No text is spelled in two ways. -/
theorem Spelling.text_injective : Function.Injective Spelling.text := by
  intro spelling other same
  have hheader : spelling.header = other.header := by
    have hread := parse_of_reads (.spelled spelling)
    rw [same, parse_of_reads (.spelled other)] at hread
    exact (Except.ok.inj hread).symm
  have hcut := congrArg (Text.cut? ',') same
  rw [text, text, Text.cut?_append spelling.comma_not_mem_front,
    Text.cut?_append other.comma_not_mem_front, Option.some.injEq, Prod.mk.injEq] at hcut
  obtain ⟨hfront, hafter⟩ := hcut
  rw [front, front, hheader] at hfront
  rw [hheader] at hafter
  obtain ⟨hbeforeKey, hafterKey⟩ := Text.Blank.append_inj (spelling.blank _ (by simp))
    (other.blank _ (by simp)) other.proper.key_nonempty other.proper.key_trimmed hfront
  have hvalue := other.proper.value_word
  obtain ⟨hbeforeValue, hrest⟩ := Text.Blank.append_inj (spelling.blank _ (by simp))
    (other.blank _ (by simp)) hvalue.nonempty hvalue.trimmed hafter
  obtain ⟨hafterValue, hback⟩ := Text.Blank.append_inj (spelling.blank _ (by simp))
    (other.blank _ (by simp)) isWord_in.nonempty isWord_in.trimmed hrest
  rw [back, back, hheader] at hback
  obtain ⟨hbeforeReference, hafterReference⟩ := Text.Blank.append_inj (spelling.blank _ (by simp))
    (other.blank _ (by simp)) other.proper.reference_nonempty other.proper.reference_trimmed hback
  exact Spelling.ext hheader hbeforeKey hafterKey hbeforeValue hafterValue hbeforeReference
    hafterReference

/-! ## The grammar -/

section Messages

variable {argument : Text}

theorem mapError_eq_ok_iff {header : LoopHeader} :
    (parse argument).mapError LoopFault.reason = .ok header ↔ Reads argument (.ok header) := by
  rw [← parse_eq_iff]
  cases parse argument <;> simp [Except.mapError]

theorem mapError_eq_error_iff (fault : LoopFault) :
    (parse argument).mapError LoopFault.reason = .error fault.reason ↔
      Reads argument (.error fault) := by
  rw [← parse_eq_iff]
  cases parse argument <;> simp [Except.mapError, LoopFault.reason_injective.eq_iff]

end Messages

/-- **Headers follow a grammar.** A text is read as a header iff it is a spelling of that header,
and it is the spelling of one header, in one way. All other texts are refused, with the message for
the first thing they lack: a comma, a key before the first comma and a word behind it, the word `in`
as the next word, or a dictionary behind that. -/
theorem parse_follows_grammar :
    Function.Injective Spelling.text ∧
      ∀ argument : Text,
        let read := (parse argument).mapError LoopFault.reason
        (∀ header, read = .ok header ↔
            ∃ spelling : Spelling, spelling.header = header ∧ spelling.text = argument) ∧
          (read = .error "expected ','".toList ↔ ',' ∉ argument) ∧
          (read = .error "expected key and value names".toList ↔
            ∃ before after, argument = before ++ ',' :: after ∧ ',' ∉ before ∧
              (Text.Blank before ∨ Text.words after = [])) ∧
          (read = .error "expected 'in'".toList ↔
            ∃ before after value more, argument = before ++ ',' :: after ∧ ',' ∉ before ∧
              ¬ Text.Blank before ∧ Text.words after = value :: more ∧
              more.head? ≠ some "in".toList) ∧
          (read = .error "expected dictionary".toList ↔
            ∃ before after value, argument = before ++ ',' :: after ∧ ',' ∉ before ∧
              ¬ Text.Blank before ∧ Text.words after = [value, "in".toList]) := by
  refine ⟨Spelling.text_injective, ?_⟩
  intro argument read
  refine ⟨fun header => ?_, ?_, ?_, ?_, ?_⟩
  · refine mapError_eq_ok_iff.trans ⟨fun h => ?_, ?_⟩
    · cases h with
      | spelled spelling => exact ⟨spelling, rfl, rfl⟩
    · rintro ⟨spelling, rfl, rfl⟩
      exact .spelled spelling
  · refine (mapError_eq_error_iff .missingComma).trans ⟨fun h => ?_, .missingComma⟩
    cases h with
    | missingComma absent => exact absent
  · refine (mapError_eq_error_iff .missingName).trans ⟨fun h => ?_, ?_⟩
    · cases h with
      | missingName first unnamed => exact ⟨_, _, rfl, first, unnamed⟩
    · rintro ⟨before, after, rfl, first, unnamed⟩
      exact .missingName first unnamed
  · refine (mapError_eq_error_iff .missingIn).trans ⟨fun h => ?_, ?_⟩
    · cases h with
      | missingIn first named words other => exact ⟨_, _, _, _, rfl, first, named, words, other⟩
    · rintro ⟨before, after, value, more, rfl, first, named, words, other⟩
      exact .missingIn first named words other
  · refine (mapError_eq_error_iff .missingReference).trans ⟨fun h => ?_, ?_⟩
    · cases h with
      | missingReference first named words => exact ⟨_, _, _, rfl, first, named, words⟩
    · rintro ⟨before, after, value, rfl, first, named, words⟩
      exact .missingReference first named words

end LoopHeader

end ShaderTemplate
