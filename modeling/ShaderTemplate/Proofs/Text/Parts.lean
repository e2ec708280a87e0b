import Mathlib.Data.List.DropRight
import Mathlib.Data.List.Infix
import Mathlib.Data.List.TakeWhile
import ShaderTemplate.Text.Blank

/-!
# Parts of a text

What is read from a text is a part of it: a run of characters of one kind, the text before a mark,
what is left between white space, or a word. This module says of each of them which part it is,
without the search that finds it: `cut?_append` for the text before a mark, `trim_eq_iff` for the
text between white space, and `words_eq_cons_iff` for the words.
-/

namespace ShaderTemplate.Text

/-! ## Runs of characters -/

section Runs

variable {p : Char → Bool} {part rest : Text}

/-- A run of characters ends at the first one that does not belong to it. -/
theorem takeWhile_append_of_ends (all : ∀ c ∈ part, p c = true)
    (ends : ∀ c ∈ rest.head?, p c = false) : (part ++ rest).takeWhile p = part := by
  rw [List.takeWhile_append_of_pos all]
  cases rest with
  | nil => simp
  | cons c rest => simp [ends c rfl]

theorem dropWhile_append_of_ends (all : ∀ c ∈ part, p c = true)
    (ends : ∀ c ∈ rest.head?, p c = false) : (part ++ rest).dropWhile p = rest := by
  rw [List.dropWhile_append_of_pos all]
  cases rest with
  | nil => rfl
  | cons c rest => simp [ends c rfl]

/-- There is one way at most to cut a text behind a run that it starts with. -/
theorem append_inj_of_ends {part' rest' : Text} (same : part ++ rest = part' ++ rest')
    (all : ∀ c ∈ part, p c = true) (ends : ∀ c ∈ rest.head?, p c = false)
    (all' : ∀ c ∈ part', p c = true) (ends' : ∀ c ∈ rest'.head?, p c = false) :
    part = part' ∧ rest = rest' := by
  constructor
  · rw [← takeWhile_append_of_ends all ends, same, takeWhile_append_of_ends all' ends']
  · rw [← dropWhile_append_of_ends all ends, same, dropWhile_append_of_ends all' ends']

theorem head?_dropWhile (text : Text) : ∀ c ∈ (text.dropWhile p).head?, p c = false := by
  intro c hc
  have hnot := List.head?_dropWhile_not p text
  rw [Option.mem_def.mp hc] at hnot
  simpa using hnot

/-- A character that a part of a text does not have is behind it. -/
theorem behind_of_not_mem {front back : Text} {mark : Char}
    (same : front ++ mark :: back = part ++ rest) (absent : mark ∉ part) :
    ∃ between, front = part ++ between ∧ rest = between ++ mark :: back := by
  obtain ⟨between, rfl, hrest⟩ | ⟨between, rfl, hrest⟩ := List.append_eq_append_iff.mp same
  · cases between with
    | nil => exact ⟨[], by simp, by simpa using hrest.symm⟩
    | cons c between =>
      obtain ⟨rfl, -⟩ := List.cons.inj hrest
      exact absurd (by simp) absent
  · exact ⟨between, rfl, hrest⟩

/-- A character that a part of a text does not have is in front of it. -/
theorem before_of_not_mem {front back : Text} {mark : Char}
    (same : front ++ mark :: back = part ++ rest) (absent : mark ∉ rest) :
    ∃ between, part = front ++ mark :: between ∧ back = between ++ rest := by
  obtain ⟨between, rfl, hrest⟩ | ⟨between, rfl, rfl⟩ := List.append_eq_append_iff.mp same
  · cases between with
    | nil =>
      obtain rfl : mark :: back = rest := hrest
      exact absurd List.mem_cons_self absent
    | cons c between =>
      obtain ⟨rfl, rfl⟩ := List.cons.inj hrest
      exact ⟨between, rfl, rfl⟩
  · exact absurd (by simp) absent

end Runs

/-! ## The text before a mark -/

section Marks

variable {mark : Char} {text before after : Text}

theorem cut?_append (first : mark ∉ before) (after : Text) :
    cut? mark (before ++ mark :: after) = some (before, after) := by
  induction before with
  | nil => simp [cut?]
  | cons c before ih =>
    rw [List.mem_cons, not_or] at first
    rw [List.cons_append, cut?, if_neg (Ne.symm first.1), ih first.2]
    rfl

theorem cut?_eq_none_iff : cut? mark text = none ↔ mark ∉ text := by
  induction text with
  | nil => simp [cut?]
  | cons c text ih =>
    rw [cut?, List.mem_cons, not_or]
    by_cases h : c = mark
    · simp [h]
    · simp [h, ih, Ne.symm h]

end Marks

/-! ## White space at the ends -/

/-- A text of white space, or none. -/
def Blank (text : Text) : Prop :=
  ∀ c ∈ text, isBlank c = true

/-- A text that neither starts nor ends with white space. -/
structure Trimmed (text : Text) : Prop where
  start : ∀ c ∈ text.head?, isBlank c = false
  stop : ∀ c ∈ text.getLast?, isBlank c = false

variable {text core blank : Text}

theorem trimStart_append (h : Blank blank) (text : Text) :
    trimStart (blank ++ text) = trimStart text :=
  List.dropWhile_append_of_pos h

theorem trimEnd_append (h : Blank blank) (text : Text) :
    trimEnd (text ++ blank) = trimEnd text := by
  rw [trimEnd, List.reverse_append,
    List.dropWhile_append_of_pos fun c hc => h c (by simpa using hc)]
  rfl

/-- White space is taken away up to the last character that is none. -/
theorem trimEnd_append_of_not_blank (h : ¬ Blank text) (before : Text) :
    trimEnd (before ++ text) = before ++ trimEnd text := by
  have hne : ¬ (text.reverse.dropWhile isBlank).isEmpty = true := by
    rw [List.isEmpty_iff, List.dropWhile_eq_nil_iff]
    exact fun all => h fun c hc => all c (List.mem_reverse.mpr hc)
  rw [trimEnd, List.reverse_append, List.dropWhile_append, if_neg hne, List.reverse_append,
    List.reverse_reverse]
  rfl

theorem trimStart_eq_nil_iff : trimStart text = [] ↔ Blank text :=
  List.dropWhile_eq_nil_iff

theorem Trimmed.trimStart_append (trimmed : Trimmed core) (nonempty : core ≠ []) (rest : Text) :
    trimStart (core ++ rest) = core ++ rest := by
  cases core with
  | nil => exact absurd rfl nonempty
  | cons c core => exact List.dropWhile_cons_of_neg (by simp [trimmed.start c rfl])

theorem Trimmed.trimEnd_eq (trimmed : Trimmed core) : trimEnd core = core := by
  refine List.rdropWhile_eq_self_iff.mpr fun hne => ?_
  simp [trimmed.stop _ (List.getLast?_eq_some_getLast hne)]

/-- What is left after trimming, and what is taken away. -/
theorem trim_eq_iff :
    trim text = core ↔
      Trimmed core ∧ ∃ before after, Blank before ∧ Blank after ∧
        text = before ++ core ++ after := by
  constructor
  · rintro rfl
    have hsplit : trim text ++ (trimStart text).rtakeWhile isBlank = trimStart text :=
      List.rdropWhile_append_rtakeWhile
    refine ⟨⟨fun c hc => ?_, fun c hc => ?_⟩, indentation text,
      (trimStart text).rtakeWhile isBlank, fun c hc => List.mem_takeWhile_imp hc,
      fun c hc => List.mem_rtakeWhile_imp hc, ?_⟩
    · apply head?_dropWhile text c
      change c ∈ (trimStart text).head?
      rw [← hsplit, List.head?_append, Option.mem_def.mp hc]
      rfl
    · have hne : trim text ≠ [] := by
        intro h
        rw [h] at hc
        cases hc
      have hlast := List.rdropWhile_last_not isBlank (trimStart text) hne
      rw [List.getLast?_eq_some_getLast hne] at hc
      cases hc
      exact Bool.eq_false_iff.mpr hlast
    · rw [List.append_assoc, hsplit]
      exact List.takeWhile_append_dropWhile.symm
  · rintro ⟨trimmed, before, after, hbefore, hafter, rfl⟩
    rw [trim, List.append_assoc, trimStart_append hbefore]
    by_cases hne : core = []
    · rw [hne, List.nil_append, trimStart_eq_nil_iff.mpr hafter]
      rfl
    · rw [trimmed.trimStart_append hne, trimEnd_append hafter, trimmed.trimEnd_eq]

theorem trim_append_of_blank (h : Blank blank) (text : Text) :
    trim (text ++ blank) = trim text := by
  obtain ⟨trimmed, before, after, hbefore, hafter, htext⟩ := trim_eq_iff.mp (Eq.refl (trim text))
  have hspace : Blank (after ++ blank) := List.forall_mem_append.mpr ⟨hafter, h⟩
  refine trim_eq_iff.mpr ⟨trimmed, before, after ++ blank, hbefore, hspace, ?_⟩
  calc text ++ blank = before ++ trim text ++ after ++ blank := congrArg (· ++ blank) htext
    _ = before ++ trim text ++ (after ++ blank) := List.append_assoc ..

/-- White space in front of a part that starts with none ends where the part starts. -/
theorem Blank.append_inj {blank' part rest rest' : Text} (h : Blank blank) (h' : Blank blank')
    (nonempty : part ≠ []) (trimmed : Trimmed part)
    (same : blank ++ part ++ rest = blank' ++ part ++ rest') : blank = blank' ∧ rest = rest' := by
  have hends (rest : Text) : ∀ c ∈ (part ++ rest).head?, isBlank c = false := by
    rw [List.head?_append_of_ne_nil _ nonempty]
    exact trimmed.start
  rw [List.append_assoc, List.append_assoc] at same
  obtain ⟨hblank, hpart⟩ := append_inj_of_ends same h (hends rest) h' (hends rest')
  exact ⟨hblank, List.append_cancel_left hpart⟩

theorem Blank.head?_append (h : Blank blank) (nonempty : blank ≠ []) (rest : Text) :
    ∀ c ∈ (blank ++ rest).head?, isBlank c = true := by
  rw [List.head?_append_of_ne_nil _ nonempty]
  exact fun c hc => h c (List.mem_of_head? hc)

theorem trim_eq_nil_iff : trim text = [] ↔ Blank text := by
  rw [trim_eq_iff]
  constructor
  · rintro ⟨-, before, after, hbefore, hafter, rfl⟩
    simpa [Blank, or_imp, forall_and] using ⟨hbefore, hafter⟩
  · intro h
    exact ⟨⟨nofun, nofun⟩, text, [], h, nofun, by simp⟩

/-! ## Words -/

/-- The words of a text: what is left between white space. -/
def words (text : Text) : List Text :=
  (text.splitOnP isBlank).filter (!·.isEmpty)

theorem words_append_cons {c : Char} (h : isBlank c = true) (before after : Text) :
    words (before ++ c :: after) = words before ++ words after := by
  rw [words, List.splitOnP_append_cons before after h, List.filter_append]
  rfl

theorem words_blank_append (h : Blank blank) (text : Text) :
    words (blank ++ text) = words text := by
  induction blank with
  | nil => rfl
  | cons c blank ih =>
    obtain ⟨hc, hblank⟩ := List.forall_mem_cons.mp h
    have hwords : words (c :: (blank ++ text)) = words [] ++ words (blank ++ text) :=
      words_append_cons hc [] _
    rw [List.cons_append, hwords, ih hblank]
    rfl

/-- A text that is one word. -/
structure IsWord (word : Text) : Prop where
  nonempty : word ≠ []
  solid : ∀ c ∈ word, isBlank c = false

theorem IsWord.trimmed {word : Text} (h : IsWord word) : Trimmed word :=
  ⟨fun c hc => h.solid c (List.mem_of_head? hc), fun c hc => h.solid c (List.mem_of_getLast? hc)⟩

theorem IsWord.trimStart_append {word : Text} (h : IsWord word) (rest : Text) :
    trimStart (word ++ rest) = word ++ rest :=
  h.trimmed.trimStart_append h.nonempty rest

/-- The first word of a text ends at the next white space. -/
theorem IsWord.words_append {word rest : Text} (h : IsWord word)
    (ends : ∀ c ∈ rest.head?, isBlank c = true) : words (word ++ rest) = word :: words rest := by
  have hword : words word = [word] := by
    rw [words, List.splitOnP_eq_singleton h.solid]
    simp [h.nonempty]
  cases rest with
  | nil => rw [List.append_nil, hword]; rfl
  | cons c rest =>
    have hc : isBlank c = true := ends c rfl
    have hblank : Blank [c] := by simpa [Blank] using hc
    rw [words_append_cons hc, hword, ← words_blank_append hblank rest]
    rfl

/-- A text that is not blank has a first word. -/
theorem exists_word (h : ¬ Blank text) :
    ∃ blank word rest, Blank blank ∧ IsWord word ∧ (∀ c ∈ rest.head?, isBlank c = true) ∧
      text = blank ++ word ++ rest := by
  have hne : trimStart text ≠ [] := mt trimStart_eq_nil_iff.mp h
  refine ⟨indentation text, (trimStart text).takeWhile (!isBlank ·),
    (trimStart text).dropWhile (!isBlank ·), fun c hc => List.mem_takeWhile_imp hc,
    ⟨?_, fun c hc => ?_⟩, fun c hc => ?_, ?_⟩
  · obtain ⟨c, rest, htext⟩ := List.exists_cons_of_ne_nil hne
    have hc : isBlank c = false := head?_dropWhile text c (by rw [← trimStart, htext]; rfl)
    rw [htext, List.takeWhile_cons_of_pos (by rw [hc]; rfl)]
    exact List.cons_ne_nil _ _
  · simpa using List.mem_takeWhile_imp hc
  · simpa using head?_dropWhile (trimStart text) c hc
  · rw [List.append_assoc, List.takeWhile_append_dropWhile]
    exact List.takeWhile_append_dropWhile.symm

theorem words_eq_nil_iff : words text = [] ↔ Blank text := by
  constructor
  · intro h
    by_contra hblank
    obtain ⟨blank, word, rest, hb, hword, hends, rfl⟩ := exists_word hblank
    rw [List.append_assoc, words_blank_append hb, hword.words_append hends] at h
    cases h
  · intro h
    rw [← List.append_nil text, words_blank_append h]
    rfl

/-- Where the first word of a text stands. -/
theorem words_eq_cons_iff {word : Text} {more : List Text} :
    words text = word :: more ↔
      ∃ blank rest, Blank blank ∧ IsWord word ∧ (∀ c ∈ rest.head?, isBlank c = true) ∧
        text = blank ++ word ++ rest ∧ words rest = more := by
  constructor
  · intro h
    have hblank : ¬ Blank text := fun hblank => by simp [words_eq_nil_iff.mpr hblank] at h
    obtain ⟨blank, first, rest, hb, hfirst, hends, rfl⟩ := exists_word hblank
    rw [List.append_assoc, words_blank_append hb, hfirst.words_append hends] at h
    cases h
    exact ⟨blank, rest, hb, hfirst, hends, rfl, rfl⟩
  · rintro ⟨blank, rest, hb, hword, hends, rfl, rfl⟩
    rw [List.append_assoc, words_blank_append hb, hword.words_append hends]

end ShaderTemplate.Text
