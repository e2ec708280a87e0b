import Mathlib.Data.List.Basic
import ShaderTemplate.Proofs.Text.Parts

/-!
# Lines of composed texts

A text that consists of whole lines leaves the lines of what follows it as they are
(`lines_append`), so the lines of a text can be read off its parts. `Spot` is a line of a text with
what stands before and after it; replacing the line by others replaces it among the lines too
(`Spot.lines_replaced`).

What is done with a line depends on its indentation and on the line without the white space at its
ends. Further white space in front of it makes the indentation longer, and a carriage return at its
end makes no difference if there is anything else on the line.
-/

namespace ShaderTemplate.Text

/-! ## Cutting -/

theorem segments_append (mark : Char) (text rest : Text) :
    segments mark (text ++ mark :: rest) = segments mark text ++ segments mark rest := by
  induction text with
  | nil => simp [segments]
  | cons c text ih =>
    by_cases h : c = mark
    · simp [segments, h, ih]
    · simp only [List.cons_append, segments, h, if_false, ih]
      cases hs : segments mark text with
      | nil => exact absurd hs (segments_ne_nil mark text)
      | cons first others => simp

theorem segments_injective (mark : Char) : Function.Injective (segments mark) :=
  Function.LeftInverse.injective (joined_segments mark)

theorem length_segments (mark : Char) (text : Text) :
    (segments mark text).length = text.count mark + 1 := by
  induction text with
  | nil => rfl
  | cons c text ih =>
    by_cases h : c = mark
    · simp [segments, h, ih]
    · simp only [segments, h, if_false, List.count_cons, beq_iff_eq, Nat.add_zero, ← ih]
      cases hs : segments mark text with
      | nil => exact absurd hs (segments_ne_nil mark text)
      | cons first others => simp

theorem segments_of_not_mem {mark : Char} {text : Text} (h : mark ∉ text) :
    segments mark text = [text] := by
  induction text with
  | nil => rfl
  | cons c text ih =>
    rw [List.mem_cons, not_or] at h
    rw [segments, if_neg (Ne.symm h.1), ih h.2]

/-- There is no mark between two marks. -/
theorem not_mem_of_mem_segments {mark : Char} {text piece : Text}
    (h : piece ∈ segments mark text) : mark ∉ piece := by
  induction text generalizing piece with
  | nil =>
    rw [List.mem_singleton.mp h]
    exact List.not_mem_nil
  | cons c text ih =>
    rw [segments] at h
    split at h
    · rcases List.mem_cons.mp h with rfl | h
      · exact List.not_mem_nil
      · exact ih h
    · rename_i hc
      split at h
      · rw [List.mem_singleton.mp h, List.mem_singleton]
        exact Ne.symm hc
      · rename_i first others hs
        rcases List.mem_cons.mp h with rfl | h
        · rw [List.mem_cons, not_or]
          exact ⟨Ne.symm hc, ih (hs ▸ List.mem_cons_self)⟩
        · exact ih (hs ▸ List.mem_cons_of_mem _ h)

/-- Pieces without a mark in them are what the text is cut into again that they are joined to. -/
theorem segments_joined {mark : Char} {pieces : List Text} (nonempty : pieces ≠ [])
    (unmarked : ∀ piece ∈ pieces, mark ∉ piece) : segments mark (joined mark pieces) = pieces := by
  induction pieces with
  | nil => exact absurd rfl nonempty
  | cons first others ih =>
    obtain ⟨hfirst, hothers⟩ := List.forall_mem_cons.mp unmarked
    cases others with
    | nil => exact segments_of_not_mem hfirst
    | cons second others =>
      have hrest := ih (List.cons_ne_nil _ _) hothers
      rw [joined, segments_append, segments_of_not_mem hfirst, hrest, List.singleton_append]
      exact List.cons_ne_nil _ _

/-! ## Lines -/

/-- Where a text consists of whole lines: it ends with a line feed, if it is not empty. -/
def Whole (text : Text) : Prop :=
  ∀ c ∈ text.getLast?, c = '\n'

theorem Whole.cases {text : Text} (whole : text.Whole) :
    text = [] ∨ ∃ init, text = init ++ ['\n'] := by
  rcases List.eq_nil_or_concat' text with h | ⟨init, c, rfl⟩
  · exact .inl h
  · have hc : c = '\n' := whole c (by simp)
    exact .inr ⟨init, by rw [hc]⟩

/-- Whole lines leave the lines of what follows them as they are. -/
theorem lines_append {text : Text} (whole : text.Whole) (rest : Text) :
    lines (text ++ rest) = lines text ++ lines rest := by
  rcases whole.cases with rfl | ⟨init, rfl⟩
  · rfl
  · have hsegments : segments '\n' (init ++ ['\n']) = segments '\n' init ++ [[]] :=
      segments_append '\n' init []
    have hne := segments_ne_nil '\n' rest
    have htext : lines (init ++ ['\n']) = (segments '\n' init).map dropCarriageReturn := by
      simp [lines, hsegments]
    rw [htext, List.append_assoc, List.singleton_append, lines, lines, segments_append,
      List.dropLast_append_of_ne_nil hne, List.map_append, List.getLast?_append_of_ne_nil _ hne]
    split <;> simp

/-- A line that ends with a line feed. -/
theorem lines_single {line : Text} (single : '\n' ∉ line) :
    lines (line ++ ['\n']) = [dropCarriageReturn line] := by
  simp [lines, segments_append, segments_of_not_mem single, segments]

/-- A last line without a line feed. -/
theorem lines_last {line : Text} (single : '\n' ∉ line) (nonempty : line ≠ []) :
    lines line = [line] := by
  rw [lines, segments_of_not_mem single]
  cases line with
  | nil => exact absurd rfl nonempty
  | cons c line => rfl

theorem whole_concat (line : Text) : Whole (line ++ ['\n']) := by
  simp [Whole]

/-- The lines that a text is put together from. -/
theorem lines_flatMap {parts : List Text} (single : ∀ part ∈ parts, '\n' ∉ part) :
    lines (parts.flatMap (· ++ ['\n'])) = parts.map dropCarriageReturn := by
  induction parts with
  | nil => rfl
  | cons part parts ih =>
    obtain ⟨hpart, hparts⟩ := List.forall_mem_cons.mp single
    rw [List.flatMap_cons, lines_append (whole_concat part), lines_single hpart, ih hparts]
    rfl

theorem mem_of_mem_dropCarriageReturn {line : Text} {c : Char} (h : c ∈ dropCarriageReturn line) :
    c ∈ line := by
  unfold dropCarriageReturn at h
  split at h
  · exact List.dropLast_subset _ h
  · exact h

/-- There is no line feed in a line. -/
theorem not_mem_of_mem_lines {text line : Text} (h : line ∈ lines text) : '\n' ∉ line := by
  have hended : line ∈ (segments '\n' text).dropLast.map dropCarriageReturn → '\n' ∉ line := by
    intro hline hmem
    obtain ⟨piece, hpiece, rfl⟩ := List.mem_map.mp hline
    exact not_mem_of_mem_segments (List.dropLast_subset _ hpiece)
      (mem_of_mem_dropCarriageReturn hmem)
  unfold lines at h
  dsimp only at h
  split at h
  · exact hended h
  · exact hended h
  · rename_i last _ hlast
    rcases List.mem_append.mp h with h | h
    · exact hended h
    · rw [List.mem_singleton.mp h]
      exact not_mem_of_mem_segments (List.mem_of_getLast? hlast)

/-! ## White space -/

theorem isBlank_of_mem_indentation {text : Text} {c : Char} (h : c ∈ indentation text) :
    isBlank c = true :=
  List.mem_takeWhile_imp h

/-- White space in front of a line makes its indentation longer. -/
theorem indentation_append {blank : Text} (h : ∀ c ∈ blank, isBlank c = true) (line : Text) :
    indentation (blank ++ line) = blank ++ indentation line := by
  rw [indentation, indentation, List.takeWhile_append_of_pos h]

theorem trim_append {blank : Text} (h : ∀ c ∈ blank, isBlank c = true) (line : Text) :
    trim (blank ++ line) = trim line := by
  rw [trim, trim, trimStart, trimStart, List.dropWhile_append_of_pos h]

/-- What is left after trimming stands in the text as it is. -/
theorem trim_infix (text : Text) : trim text <:+: text := by
  have hend : trimEnd (trimStart text) <+: trimStart text := by
    rw [trimEnd, ← List.reverse_suffix, List.reverse_reverse]
    exact List.dropWhile_suffix _
  exact hend.isInfix.trans (List.dropWhile_suffix _).isInfix

theorem dropCarriageReturn_of_ne {line : Text} (h : line.getLast? ≠ some '\r') :
    dropCarriageReturn line = line :=
  if_neg h

theorem dropCarriageReturn_cases (line : Text) :
    dropCarriageReturn line = line ∨ line = dropCarriageReturn line ++ ['\r'] := by
  unfold dropCarriageReturn
  split
  · rename_i h
    exact .inr (List.dropLast_append_getLast? '\r' h).symm
  · exact .inl rfl

theorem trim_dropCarriageReturn (line : Text) : trim (dropCarriageReturn line) = trim line := by
  rcases dropCarriageReturn_cases line with h | h
  · rw [h]
  · conv_rhs => rw [h]
    exact (trim_append_of_blank (List.forall_mem_singleton.mpr (by decide)) _).symm

theorem indentation_dropCarriageReturn {line : Text} (nonblank : trim line ≠ []) :
    indentation (dropCarriageReturn line) = indentation line := by
  rcases dropCarriageReturn_cases line with h | h
  · rw [h]
  · have hne : trimStart (dropCarriageReturn line) ≠ [] := by
      intro hstart
      rw [← trim_dropCarriageReturn, trim, hstart] at nonblank
      exact nonblank rfl
    conv_rhs => rw [h]
    rw [indentation, indentation, List.takeWhile_append, if_neg]
    intro hlength
    refine hne (List.eq_nil_of_length_eq_zero ?_)
    have hsum := congrArg List.length
      (List.takeWhile_append_dropWhile (p := isBlank) (l := dropCarriageReturn line))
    rw [List.length_append] at hsum
    rw [trimStart]
    omega

/-! ## A line of a text -/

/-- A line of a text, with what stands before and after it. The last line may lack its line feed. -/
structure Spot where
  /-- the lines before the line -/
  before : Text
  /-- the line, without its line feed -/
  line : Text
  /-- the text after the line feed of the line, if it has one -/
  after? : Option Text
  whole : before.Whole
  single : '\n' ∉ line

namespace Spot

variable (spot : Spot)

/-- The text in which the line stands. -/
def text : Text :=
  spot.before ++ spot.line ++ spot.after?.elim [] ('\n' :: ·)

/-- The text with other lines in place of the line. -/
def replaced (parts : List Text) : Text :=
  spot.before ++ parts.flatMap (· ++ ['\n']) ++ spot.after?.getD []

/-- The lines of a text around one of them. -/
theorem lines_text (nonblank : trim spot.line ≠ []) :
    ∃ raw, lines spot.text = lines spot.before ++ raw :: lines (spot.after?.getD []) ∧
      trim raw = trim spot.line ∧ indentation raw = indentation spot.line := by
  have hne : spot.line ≠ [] := fun h => nonblank (by rw [h]; rfl)
  unfold text
  cases spot.after? with
  | none =>
    refine ⟨spot.line, ?_, rfl, rfl⟩
    rw [List.append_assoc, lines_append spot.whole, Option.elim_none, List.append_nil,
      lines_last spot.single hne]
    rfl
  | some rest =>
    refine ⟨dropCarriageReturn spot.line, ?_, trim_dropCarriageReturn _,
      indentation_dropCarriageReturn nonblank⟩
    rw [List.append_assoc, lines_append spot.whole, Option.elim_some, ← List.singleton_append,
      ← List.append_assoc, lines_append (whole_concat _), lines_single spot.single]
    rfl

/-- Replacing a line by others replaces it among the lines of the text. -/
theorem lines_replaced {parts : List Text} (single : ∀ part ∈ parts, '\n' ∉ part)
    (returns : ∀ part ∈ parts, part.getLast? ≠ some '\r') :
    lines (spot.replaced parts) =
      lines spot.before ++ parts ++ lines (spot.after?.getD []) := by
  have hwhole : Whole (parts.flatMap (· ++ ['\n'])) := by
    rcases List.eq_nil_or_concat' parts with rfl | ⟨init, part, rfl⟩
    · simp [Whole]
    · rw [List.flatMap_append, List.flatMap_singleton, ← List.append_assoc]
      exact whole_concat _
  have hparts : parts.map dropCarriageReturn = parts :=
    (List.map_congr_left fun part hpart => dropCarriageReturn_of_ne (returns part hpart)).trans
      (List.map_id parts)
  rw [replaced, List.append_assoc, lines_append spot.whole, lines_append hwhole,
    lines_flatMap single, hparts, List.append_assoc]

end Spot

end ShaderTemplate.Text
