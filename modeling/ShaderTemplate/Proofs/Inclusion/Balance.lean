import Mathlib.Data.List.Count
import Mathlib.Data.List.Infix
import ShaderTemplate.Proofs.Expansion.Run
import ShaderTemplate.Proofs.Text.Lines

/-!
# Balanced lines in a skipped body

While the body of a loop is skipped its lines are not expanded, and only the loops in it are
counted, by the words that the lines start with. `Text.Balanced` lines have as many headers as ends
of loops and no end too early, so they are skipped as a whole (`State.skip_balanced`): after them as
many loops are open as before.
-/

namespace ShaderTemplate

/-! ## Directives on a line -/

namespace Directive

theorem word_prefix_of_argument? {directive : Directive} {line argument : Text}
    (h : directive.argument? line = some argument) : directive.word <+: line := by
  obtain ⟨hword, -⟩ := Option.filter_eq_some_iff.mp h
  exact ⟨argument, List.isPrefixOf?_eq_some_iff_append_eq.mp hword⟩

/-- No line is two directives. -/
theorem argument?_eq_none {directive other : Directive} {line argument : Text}
    (h : directive.argument? line = some argument) (ne : other ≠ directive) :
    other.argument? line = none := by
  cases hother : other.argument? line with
  | none => rfl
  | some rest =>
    have hwords := List.prefix_or_prefix_of_prefix (word_prefix_of_argument? hother)
      (word_prefix_of_argument? h)
    exfalso
    revert ne hwords
    clear h hother
    cases directive <;> cases other <;> decide

theorem isOn_eq_false {directive other : Directive} {line argument : Text}
    (h : directive.argument? line = some argument) (ne : other ≠ directive) :
    other.isOn line = false := by
  rw [isOn, argument?_eq_none h ne]
  rfl

/-- Whether a line of a file is a directive as it stands. -/
def begins (directive : Directive) (line : Text) : Bool :=
  directive.isOn (Text.trim line)

theorem begins_append (directive : Directive) {blank : Text}
    (h : ∀ c ∈ blank, Text.isBlank c = true) (line : Text) :
    directive.begins (blank ++ line) = directive.begins line := by
  rw [begins, begins, Text.trim_append h]

theorem forLoop_of_endFor {line : Text} (h : endFor.begins line = true) :
    forLoop.begins line = false := by
  obtain ⟨argument, hargument⟩ := Option.isSome_iff_exists.mp h
  exact isOn_eq_false hargument (by decide)

end Directive

/-- Lines that have as many headers as ends of loops, and no end without a header before it. -/
structure Text.Balanced (lines : List Text) : Prop where
  total : lines.countP Directive.endFor.begins = lines.countP Directive.forLoop.begins
  starts : ∀ start, start <+: lines →
    start.countP Directive.endFor.begins ≤ start.countP Directive.forLoop.begins

instance (lines : List Text) : Decidable (Text.Balanced lines) :=
  decidable_of_iff
    (lines.countP Directive.endFor.begins = lines.countP Directive.forLoop.begins ∧
      ∀ start ∈ lines.inits,
        start.countP Directive.endFor.begins ≤ start.countP Directive.forLoop.begins)
    ⟨fun h => ⟨h.1, fun start hstart => h.2 start ((List.mem_inits start lines).mpr hstart)⟩,
      fun h => ⟨h.total,
        fun start hstart => h.starts start ((List.mem_inits start lines).mp hstart)⟩⟩

/-- Indented lines are balanced like the lines. -/
theorem Text.Balanced.indent {lines : List Text} (balanced : Balanced lines) {blank : Text}
    (h : ∀ c ∈ blank, isBlank c = true) : Balanced (lines.map (blank ++ ·)) := by
  have hcount (directive : Directive) (lines : List Text) :
      (lines.map (blank ++ ·)).countP directive.begins = lines.countP directive.begins := by
    rw [List.countP_map]
    congr 1
    exact funext fun line => directive.begins_append h line
  refine ⟨?_, fun start hstart => ?_⟩
  · rw [hcount, hcount]
    exact balanced.total
  · rw [List.prefix_iff_eq_take.mp hstart, ← List.map_take, hcount, hcount]
    exact balanced.starts _ (List.take_prefix _ _)

/-! ## Skipping lines -/

namespace State

variable {env : Environment}

/-- One line of a skipped body. -/
theorem skip_line {state : State} {raw : Text} {loop : Loop} {outer : List Loop} {nested : Nat}
    (loops : state.loops = loop :: outer) (depth : loop.depth = state.inputs.length)
    (phase : loop.phase = .skipping nested) (later : Nat)
    (count : later + (if Directive.endFor.begins raw then 1 else 0) =
      nested + if Directive.forLoop.begins raw then 1 else 0) :
    LineMove env raw state
      { state with loops := { loop with phase := .skipping later } :: outer } := by
  cases hend : Directive.endFor.begins raw with
  | true =>
    rw [hend, Directive.forLoop_of_endFor hend] at count
    obtain rfl : nested = later + 1 := by simpa using count.symm
    exact .nestedEnd hend loops depth phase
  | false =>
    cases hheader : Directive.forLoop.begins raw with
    | true =>
      rw [hend, hheader] at count
      obtain rfl : later = nested + 1 := by simpa using count
      exact .nestedHeader hend loops phase hheader
    | false =>
      rw [hend, hheader] at count
      obtain rfl : later = nested := by simpa using count
      have hsame : state =
          { state with loops := { loop with phase := .skipping later } :: outer } := by
        rw [← phase, ← loops]
      have hmove : LineMove env raw state state := .skipped hend loops phase hheader
      rwa [← hsame]

/-- Lines of a skipped body, in which no end comes before the loop it ends. -/
theorem skip_lines {parts : List Text} {state : State} {input : Input} {rest : List Input}
    {loop : Loop} {outer : List Loop} {nested later : Nat}
    (inputs : state.inputs = input :: rest)
    (next : ∀ index (h : index < parts.length),
      input.lines[input.line + index]? = some parts[index])
    (loops : state.loops = loop :: outer) (depth : loop.depth = state.inputs.length)
    (phase : loop.phase = .skipping nested)
    (starts : ∀ start, start <+: parts → start.countP Directive.endFor.begins ≤
      nested + start.countP Directive.forLoop.begins)
    (count : later + parts.countP Directive.endFor.begins =
      nested + parts.countP Directive.forLoop.begins) :
    Transitions env state { state with
      inputs := { input with line := input.line + parts.length } :: rest
      loops := { loop with phase := .skipping later } :: outer } := by
  induction parts generalizing state input loop nested with
  | nil =>
    obtain rfl : later = nested := by simpa using count
    have hsame : { state with
        inputs := { input with line := input.line + 0 } :: rest
        loops := { loop with phase := .skipping later } :: outer } = state := by
      rw [← phase, ← loops, Nat.add_zero, ← inputs]
    rw [List.length_nil, hsame]
  | cons raw parts ih =>
    obtain ⟨read, hread⟩ : ∃ read : Input, read = { input with line := input.line + 1 } := ⟨_, rfl⟩
    have hnext : input.next? = some (raw, read) := by
      have hraw : input.lines[input.line]? = some raw := next 0 (Nat.succ_pos _)
      rw [Input.next?, hraw, hread]
      rfl
    have hfirst := starts [raw] (by simp)
    obtain ⟨between, hbetween⟩ : ∃ between,
        between + (if Directive.endFor.begins raw then 1 else 0) =
          nested + if Directive.forLoop.begins raw then 1 else 0 :=
      ⟨_, Nat.sub_add_cancel (by simpa [List.countP_cons] using hfirst)⟩
    have hdepth : loop.depth = (read :: rest).length := by
      rw [depth, inputs]
      rfl
    have hmove := @skip_line env { state with inputs := read :: rest } raw loop outer nested loops
      hdepth phase between hbetween
    have hrest := @ih
      { state with
        inputs := read :: rest
        loops := { loop with phase := .skipping between } :: outer }
      read { loop with phase := .skipping between } between rfl ?_ rfl hdepth rfl ?_ ?_
    · refine .head (.line inputs hnext hmove) ?_
      rw [hread] at hrest ⊢
      simpa [Nat.add_assoc, Nat.add_comm 1] using hrest
    · intro index hindex
      have hpart := next (index + 1) (Nat.succ_lt_succ hindex)
      rw [hread]
      simpa [Nat.add_assoc, Nat.add_comm 1] using hpart
    · intro start hstart
      have hcount := starts (raw :: start) (List.cons_prefix_cons.mpr ⟨rfl, hstart⟩)
      rw [List.countP_cons, List.countP_cons] at hcount
      omega
    · rw [List.countP_cons, List.countP_cons] at count
      omega

/-- Balanced lines of a skipped body are skipped as a whole. -/
theorem skip_balanced {parts : List Text} {state : State} {input : Input} {rest : List Input}
    {loop : Loop} {outer : List Loop} {nested : Nat} (balanced : Text.Balanced parts)
    (inputs : state.inputs = input :: rest)
    (next : ∀ index (h : index < parts.length),
      input.lines[input.line + index]? = some parts[index])
    (loops : state.loops = loop :: outer) (depth : loop.depth = state.inputs.length)
    (phase : loop.phase = .skipping nested) :
    Transitions env state
      { state with inputs := { input with line := input.line + parts.length } :: rest } := by
  have hskip : Transitions env state { state with
      inputs := { input with line := input.line + parts.length } :: rest
      loops := { loop with phase := .skipping nested } :: outer } :=
    skip_lines inputs next loops depth phase
    (fun start hstart => Nat.le_add_left_of_le (balanced.starts start hstart))
    (by rw [balanced.total])
  rwa [← phase, ← loops] at hskip

end State

end ShaderTemplate
