import Mathlib.Data.List.Forall2
import ShaderTemplate.Proofs.Expansion.Transition
import ShaderTemplate.Proofs.Names.Resolution

/-!
# Lines and their holes

`HoledLine` is a line that has been taken apart: texts that open no hole, with a name in braces
between each of them and the next, and perhaps an opening at the end that is never closed. Every
line can be taken apart, in one way only. `State.holes_filled_in_order` says this, and what comes of
the line when its holes are filled.

## Shape of the argument

A holed line written out is read back as its own template (`HoledLine.parse_text`). The template
determines its parts, so no line is taken apart in two ways. That there is a way is shown along the
line, which is cut at its first `#{` and then at the next `}`. What filling does is shown by
induction over the holes; a text that is filled in belongs to the result, and is not part of what
the induction goes over.
-/

namespace ShaderTemplate

/-! ## Lines that are taken apart -/

/-- A line that has been taken apart at its holes. -/
@[ext]
structure HoledLine where
  /-- the text up to the first hole -/
  first : Text
  /-- the name in each hole, with the text up to the next one -/
  holes : List (Text × Text)
  /-- what follows an opening that is never closed, if there is one -/
  tail? : Option Text
  literal_first : ¬ ['#', '\x7b'] <:+: first
  literal_after : ∀ hole ∈ holes, ¬ ['#', '\x7b'] <:+: hole.2
  closed : ∀ hole ∈ holes, '\x7d' ∉ hole.1
  unclosed : ∀ tail ∈ tail?, '\x7d' ∉ tail

namespace HoledLine

/-- A line without its first text, as it is written: the holes, each with the text after it, and
then the opening that is never closed. -/
def holesText (holes : List (Text × Text)) (tail? : Option Text) : Text :=
  holes.flatMap (fun hole => '#' :: '\x7b' :: (hole.1 ++ '\x7d' :: hole.2)) ++
    tail?.elim [] fun tail => '#' :: '\x7b' :: tail

/-- A line as it is written. -/
def text (line : HoledLine) : Text :=
  line.first ++ holesText line.holes line.tail?

/-- A line with these texts in place of its holes. -/
def filled (line : HoledLine) (values : List Text) : Text :=
  line.first ++ (List.zipWith (fun hole value => value ++ hole.2) line.holes values).flatten

/-- A line behind one more hole. -/
def behind (line : HoledLine) {before name : Text} (literal : ¬ ['#', '\x7b'] <:+: before)
    (closed : '\x7d' ∉ name) : HoledLine where
  first := before
  holes := (name, line.first) :: line.holes
  tail? := line.tail?
  literal_first := literal
  literal_after := List.forall_mem_cons.mpr ⟨line.literal_first, line.literal_after⟩
  closed := List.forall_mem_cons.mpr ⟨closed, line.closed⟩
  unclosed := line.unclosed

theorem text_behind (line : HoledLine) {before name : Text} (literal : ¬ ['#', '\x7b'] <:+: before)
    (closed : '\x7d' ∉ name) :
    (line.behind literal closed).text =
      before ++ '#' :: '\x7b' :: (name ++ '\x7d' :: line.text) := by
  simp [text, holesText, behind]

/-! ## The template of a line -/

/-- The template with this text, these holes and this tail. -/
def template (tail? : Option Text) : Text → List (Text × Text) → Template
  | first, [] => tail?.elim (.plain first) (.unclosed first)
  | first, (name, after) :: holes => .hole first name (template tail? after holes)

/-- The parts of a template can be told from it. -/
theorem template_inj {tail? tail?' : Option Text} {first first' : Text}
    {holes holes' : List (Text × Text)}
    (h : template tail? first holes = template tail?' first' holes') :
    first = first' ∧ holes = holes' ∧ tail? = tail?' := by
  induction holes generalizing first first' holes' with
  | nil =>
    cases holes' with
    | nil => cases tail? <;> cases tail?' <;> cases h <;> exact ⟨rfl, rfl, rfl⟩
    | cons hole holes' => cases tail? <;> cases h
  | cons hole holes ih =>
    cases holes' with
    | nil => cases tail?' <;> cases h
    | cons hole' holes' =>
      obtain ⟨hfirst, hname, hrest⟩ := Template.hole.inj h
      obtain ⟨hafter, hholes, htail⟩ := ih hrest
      exact ⟨hfirst, List.cons_eq_cons.mpr ⟨Prod.ext hname hafter, hholes⟩, htail⟩

/-- A line that is written out is read as its template. -/
theorem parse_text (line : HoledLine) :
    Template.parse line.text = template line.tail? line.first line.holes := by
  obtain ⟨first, holes, tail?, literal, literal_after, closed, unclosed⟩ := line
  rw [text]
  dsimp only
  induction holes generalizing first with
  | nil =>
    cases tail? with
    | none =>
      rw [holesText, List.flatMap_nil, List.nil_append, Option.elim_none, List.append_nil]
      exact Template.parse_eq_plain literal
    | some tail => exact Template.parse_unclosed literal (unclosed tail rfl)
  | cons hole holes ih =>
    obtain ⟨hafter, hothers⟩ := List.forall_mem_cons.mp literal_after
    obtain ⟨hname, hclosed⟩ := List.forall_mem_cons.mp closed
    have hparse := Template.parse_hole literal hname (hole.2 ++ holesText holes tail?)
    rw [ih hole.2 hafter hothers hclosed] at hparse
    simpa [holesText, template] using hparse

theorem text_injective : Function.Injective text := by
  intro line other same
  have htemplate : template line.tail? line.first line.holes =
      template other.tail? other.first other.holes := by
    rw [← parse_text, ← parse_text, same]
  obtain ⟨hfirst, hholes, htail⟩ := template_inj htemplate
  exact HoledLine.ext hfirst hholes htail

/-! ## Taking a line apart -/

/-- A line that opens a hole has a first opening. -/
theorem exists_first_opening {line : Text} (h : ['#', '\x7b'] <:+: line) :
    ∃ before rest, line = before ++ '#' :: '\x7b' :: rest ∧ ¬ ['#', '\x7b'] <:+: before := by
  induction line with
  | nil => exact absurd h (by simp)
  | cons c line ih =>
    by_cases hhead : ['#', '\x7b'] <+: c :: line
    · obtain ⟨rest, hrest⟩ := hhead
      exact ⟨[], rest, hrest.symm, by simp⟩
    · obtain ⟨before, rest, rfl, hbefore⟩ := ih ((List.infix_cons_iff.mp h).resolve_left hhead)
      refine ⟨c :: before, rest, rfl, fun hinfix => ?_⟩
      rcases List.infix_cons_iff.mp hinfix with hstart | hinfix
      · exact hhead (List.IsPrefix.trans hstart (List.prefix_append (c :: before) _))
      · exact hbefore hinfix

theorem text_surjective : Function.Surjective text := by
  intro line
  induction hlength : line.length using Nat.strongRecOn generalizing line with
  | ind length ih =>
    by_cases hopening : ['#', '\x7b'] <:+: line
    · obtain ⟨before, rest, rfl, hbefore⟩ := exists_first_opening hopening
      by_cases hclosed : '\x7d' ∈ rest
      · obtain ⟨name, after, rfl, hname⟩ := List.eq_append_cons_of_mem hclosed
        have hshorter : after.length < length := by
          rw [← hlength]
          simp only [List.length_append, List.length_cons]
          omega
        obtain ⟨holed, rfl⟩ := ih after.length hshorter after rfl
        exact ⟨holed.behind hbefore hname, text_behind holed hbefore hname⟩
      · exact ⟨⟨before, [], some rest, hbefore, nofun, nofun, by simpa using hclosed⟩, rfl⟩
    · exact ⟨⟨line, [], none, hopening, nofun, nofun, nofun⟩, List.append_nil line⟩

/-! ## Filling a line -/

section Fill

variable {ε : Type} {textOf : Text → Except ε Text} {onUnclosed : ε} {tail? : Option Text}
  {first : Text} {holes : List (Text × Text)}

/-- A template is filled when nothing is unclosed and every name has a text, and then with the texts
of the names. -/
theorem fill_template_eq_ok_iff {result : Text} :
    (template tail? first holes).fill textOf onUnclosed = .ok result ↔
      tail? = none ∧ ∃ values,
        List.Forall₂ (fun hole value => textOf hole.1 = .ok value) holes values ∧
          result =
            first ++ (List.zipWith (fun hole value => value ++ hole.2) holes values).flatten := by
  induction holes generalizing first result with
  | nil => cases tail? <;> simp [template, Template.fill, eq_comm]
  | cons hole holes ih =>
    rw [template, Template.fill_hole_eq_ok_iff]
    constructor
    · rintro ⟨value, after, hvalue, hafter, rfl⟩
      obtain ⟨htail, values, hvalues, rfl⟩ := ih.mp hafter
      exact ⟨htail, value :: values, .cons hvalue hvalues, by simp⟩
    · rintro ⟨htail, values, hvalues, rfl⟩
      cases hvalues with
      | @cons _ value _ values hvalue hvalues =>
        exact ⟨value, _, hvalue, ih.mpr ⟨htail, values, hvalues, rfl⟩, by simp⟩

/-- Filling fails for the first name without a text, or else for what is unclosed. -/
theorem fill_template_eq_error_iff {failure : ε} :
    (template tail? first holes).fill textOf onUnclosed = .error failure ↔
      (∃ before hole after, holes = before ++ hole :: after ∧
          (∀ earlier ∈ before, ∃ value, textOf earlier.1 = .ok value) ∧
          textOf hole.1 = .error failure) ∨
        (∀ hole ∈ holes, ∃ value, textOf hole.1 = .ok value) ∧ tail? ≠ none ∧
          failure = onUnclosed := by
  induction holes generalizing first with
  | nil => cases tail? <;> simp [template, Template.fill, eq_comm]
  | cons hole holes ih =>
    rw [template, Template.fill_hole_eq_error_iff, ih, List.forall_mem_cons]
    constructor
    · rintro (hfailed | ⟨hvalue, ⟨before, failed, after, rfl, hbefore, hfailed⟩ |
        ⟨hvalues, hunclosed⟩⟩)
      · exact .inl ⟨[], hole, holes, rfl, List.forall_mem_nil _, hfailed⟩
      · exact .inl ⟨hole :: before, failed, after, rfl,
          List.forall_mem_cons.mpr ⟨hvalue, hbefore⟩, hfailed⟩
      · exact .inr ⟨⟨hvalue, hvalues⟩, hunclosed⟩
    · rintro (⟨before, failed, after, hholes, hbefore, hfailed⟩ | ⟨⟨hvalue, hvalues⟩, hunclosed⟩)
      · cases before with
        | nil =>
          obtain ⟨rfl, rfl⟩ := List.cons.inj hholes
          exact .inl hfailed
        | cons earlier before =>
          obtain ⟨rfl, rfl⟩ := List.cons.inj hholes
          obtain ⟨hvalue, hbefore⟩ := List.forall_mem_cons.mp hbefore
          exact .inr ⟨hvalue, .inl ⟨before, failed, after, rfl, hbefore, hfailed⟩⟩
      · exact .inr ⟨hvalue, .inr ⟨hvalues, hunclosed⟩⟩

end Fill

end HoledLine

/-- **Holes are filled in one pass, from left to right.** Every line is taken apart at its holes in
exactly one way. In any state of an expansion it can be filled iff each of its names, without the
white space around it, has a text and no opening is left unclosed, and the result has the texts in
place of the holes. Otherwise the filling fails as the first name without a text does, and for an
unclosed opening only if every name has a text. -/
theorem State.holes_filled_in_order :
    Function.Bijective HoledLine.text ∧
      ∀ (env : Environment) (state : State) (line : HoledLine),
        let textOf (name : Text) := (state.names env).textOf state.place (Text.trim name)
        (∀ result, state.fillLine env line.text = .ok result ↔
          line.tail? = none ∧ ∃ values,
            List.Forall₂ (fun hole value => textOf hole.1 = .ok value) line.holes values ∧
              result = line.filled values) ∧
        ∀ failure, state.fillLine env line.text = .error failure ↔
          (∃ before hole after, line.holes = before ++ hole :: after ∧
              (∀ earlier ∈ before, ∃ value, textOf earlier.1 = .ok value) ∧
              textOf hole.1 = .error failure) ∨
            (∀ hole ∈ line.holes, ∃ value, textOf hole.1 = .ok value) ∧ line.tail? ≠ none ∧
              failure = .unterminatedSubstitution state.place := by
  refine ⟨⟨HoledLine.text_injective, HoledLine.text_surjective⟩, ?_⟩
  intro env state line textOf
  rw [State.fillLine, HoledLine.parse_text]
  exact ⟨fun result => HoledLine.fill_template_eq_ok_iff,
    fun failure => HoledLine.fill_template_eq_error_iff⟩

end ShaderTemplate
