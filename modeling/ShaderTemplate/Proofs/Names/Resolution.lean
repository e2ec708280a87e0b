import ShaderTemplate.Names
import ShaderTemplate.Template

/-!
# What comes of names

`Names.textOf` and `Names.levelOf` are told the place of a name only to put it into a failure. So
what they find does not depend on the place (`textOf_of_ok`, `levelOf_of_ok`), and neither does the
text of a line whose holes are filled (`Template.fill_of_ok`). When they fail, it is with a failure
of their own kind, at the place they were told.
-/

namespace ShaderTemplate

namespace Names

variable {names : Names} {place : Place}

/-- What a loop header refers to is a dictionary, and the loop gets its keys. -/
theorem levelOf_eq_ok_iff {reference resolved : Text} {keys : List Text} :
    names.levelOf place reference = .ok (resolved, keys) ↔
      names.resolve? reference = some resolved ∧
        ∃ level, names.dictionary.get? resolved = some (.dictionary level) ∧
          keys = level.topKeys := by
  unfold levelOf
  cases hresolve : names.resolve? reference with
  | none => simp
  | some found =>
    dsimp only
    split
    · rename_i level hget
      constructor
      · intro h
        cases h
        exact ⟨rfl, level, hget, rfl⟩
      · rintro ⟨hfound, level', hlevel, rfl⟩
        cases hfound
        rw [hget] at hlevel
        cases hlevel
        rfl
    · rename_i hother
      constructor
      · intro h
        cases h
      · rintro ⟨hfound, level, hlevel, -⟩
        cases hfound
        exact absurd hlevel (hother level)

theorem levelOf_of_ok {reference : Text} {found : Text × List Text} (other : Place)
    (h : names.levelOf place reference = .ok found) : names.levelOf other reference = .ok found :=
  levelOf_eq_ok_iff.mpr (levelOf_eq_ok_iff.mp h)

/-- A reference that is no dictionary leads to nothing, or to something else. -/
theorem levelOf_eq_error {reference : Text} {failure : Failure}
    (h : names.levelOf place reference = .error failure) :
    failure = .unresolvedName reference place ∨
      ∃ resolved actual, failure = .notADictionary resolved actual place := by
  unfold levelOf at h
  split at h
  · cases h
    exact .inl rfl
  · split at h
    · cases h
    · cases h
      exact .inr ⟨_, _, rfl⟩

theorem textOf_of_ok {name text : Text} (other : Place) (h : names.textOf place name = .ok text) :
    names.textOf other name = .ok text := by
  unfold textOf at h ⊢
  cases hresolve : names.resolve? name with
  | none =>
    rw [hresolve] at h
    cases h
  | some resolved =>
    rw [hresolve] at h
    cases hliteral : Text.unquote? resolved with
    | some literal => simpa only [hliteral] using h
    | none =>
      simp only [hliteral] at h ⊢
      split
      · rename_i string hget
        simpa only [hget] using h
      · rename_i hother
        split at h
        · rename_i string hget
          exact absurd hget (hother string)
        · cases h

/-- A name without a text stands for nothing, or for something that is no string. -/
theorem textOf_eq_error {name : Text} {failure : Failure}
    (h : names.textOf place name = .error failure) :
    failure = .unresolvedName name place ∨
      ∃ resolved actual, failure = .notAString name resolved actual place := by
  unfold textOf at h
  split at h
  · cases h
    exact .inl rfl
  · split at h
    · cases h
    · split at h
      · cases h
      · cases h
        exact .inr ⟨_, _, rfl⟩

end Names

namespace Template

variable {ε : Type} {textOf textOf' : Text → Except ε Text} {onUnclosed onUnclosed' : ε}

/-- A line in which no hole is opened is plain. -/
theorem parse_eq_plain {line : Text} (literal : ¬ ['#', '\x7b'] <:+: line) :
    parse line = plain line := by
  unfold parse
  generalize hmode : false = inHole
  fun_induction scan inHole line with
  | case1 => rfl
  | case2 => cases hmode
  | case3 rest => exact absurd ⟨[], rest, rfl⟩ literal
  | case4 c rest _ ih =>
    rw [ih (fun h => literal (h.trans (List.suffix_cons c rest).isInfix)) rfl]
    rfl
  | case5 => cases hmode
  | case6 => cases hmode

/-- A name lasts until the first brace that closes its hole. -/
theorem scan_name {name : Text} (closed : '\x7d' ∉ name) (after : Text) :
    scan true (name ++ '\x7d' :: after) = hole [] name (parse after) := by
  induction name with
  | nil => rfl
  | cons c name ih =>
    obtain ⟨hc, hname⟩ := not_or.mp (mt List.mem_cons.mpr closed)
    rw [List.cons_append, scan.eq_6 _ _ (fun h => hc h.symm), ih hname]
    rfl

/-- A name in a hole that is never closed lasts until the end of the line. -/
theorem scan_tail {tail : Text} (unclosed : '\x7d' ∉ tail) :
    scan true tail = .unclosed [] tail := by
  induction tail with
  | nil => rfl
  | cons c tail ih =>
    obtain ⟨hc, htail⟩ := not_or.mp (mt List.mem_cons.mpr unclosed)
    rw [scan.eq_6 _ _ (fun h => hc h.symm), ih htail]
    rfl

/-- Behind a text that opens no hole, a hole is read by itself. -/
theorem parse_opening {before : Text} (literal : ¬ ['#', '\x7b'] <:+: before) (rest : Text) :
    parse (before ++ '#' :: '\x7b' :: rest) = before.foldr prepend (scan true rest) := by
  induction before with
  | nil => rfl
  | cons c before ih =>
    have hbefore : ¬ ['#', '\x7b'] <:+: before :=
      fun h => literal (h.trans (List.suffix_cons c before).isInfix)
    have hplain : ∀ after, c = '#' →
        before ++ '#' :: '\x7b' :: rest = '\x7b' :: after → False := by
      rintro after rfl hafter
      cases before with
      | nil => simp at hafter
      | cons next before =>
        obtain ⟨rfl, -⟩ := List.cons.inj hafter
        exact literal ⟨[], before, rfl⟩
    rw [parse, List.cons_append, scan.eq_4 _ _ hplain, ← parse, ih hbefore]
    rfl

theorem foldr_prepend_hole (before name : Text) (rest : Template) :
    before.foldr prepend (hole [] name rest) = hole before name rest := by
  induction before with
  | nil => rfl
  | cons c before ih => rw [List.foldr_cons, ih, prepend]

theorem foldr_prepend_unclosed (before tail : Text) :
    before.foldr prepend (unclosed [] tail) = unclosed before tail := by
  induction before with
  | nil => rfl
  | cons c before ih => rw [List.foldr_cons, ih, prepend]

theorem parse_hole {before name : Text} (literal : ¬ ['#', '\x7b'] <:+: before)
    (closed : '\x7d' ∉ name) (after : Text) :
    parse (before ++ '#' :: '\x7b' :: (name ++ '\x7d' :: after)) =
      hole before name (parse after) := by
  rw [parse_opening literal, scan_name closed, foldr_prepend_hole]

theorem parse_unclosed {before tail : Text} (literal : ¬ ['#', '\x7b'] <:+: before)
    (unclosed : '\x7d' ∉ tail) :
    parse (before ++ '#' :: '\x7b' :: tail) = .unclosed before tail := by
  rw [parse_opening literal, scan_tail unclosed, foldr_prepend_unclosed]

/-- A hole with a text is filled, and then the rest of the line. -/
theorem fill_hole_of_ok {before name value : Text} {rest : Template} (h : textOf name = .ok value) :
    (hole before name rest).fill textOf onUnclosed =
      (rest.fill textOf onUnclosed).map fun after => before ++ value ++ after := by
  rw [fill, h]
  cases rest.fill textOf onUnclosed <;> rfl

theorem fill_hole_of_error {before name : Text} {rest : Template} {failure : ε}
    (h : textOf name = .error failure) :
    (hole before name rest).fill textOf onUnclosed = .error failure := by
  rw [fill, h]
  rfl

theorem fill_hole_eq_ok_iff {before name filled : Text} {rest : Template} :
    (hole before name rest).fill textOf onUnclosed = .ok filled ↔
      ∃ value after, textOf name = .ok value ∧ rest.fill textOf onUnclosed = .ok after ∧
        filled = before ++ value ++ after := by
  cases hname : textOf name with
  | error failure => simp [fill_hole_of_error hname]
  | ok value =>
    rw [fill_hole_of_ok hname]
    cases rest.fill textOf onUnclosed with
    | error failure => simp [Except.map]
    | ok after => simp [Except.map, eq_comm]

theorem fill_hole_eq_error_iff {before name : Text} {rest : Template} {failure : ε} :
    (hole before name rest).fill textOf onUnclosed = .error failure ↔
      textOf name = .error failure ∨
        (∃ value, textOf name = .ok value) ∧ rest.fill textOf onUnclosed = .error failure := by
  cases hname : textOf name with
  | error other => simp [fill_hole_of_error hname]
  | ok value =>
    rw [fill_hole_of_ok hname]
    cases rest.fill textOf onUnclosed <;> simp [Except.map]

/-- A line that can be filled is filled alike wherever its names have the same texts. -/
theorem fill_of_ok {template : Template} {filled : Text}
    (same : ∀ name text, textOf name = .ok text → textOf' name = .ok text)
    (h : template.fill textOf onUnclosed = .ok filled) :
    template.fill textOf' onUnclosed' = .ok filled := by
  induction template generalizing filled with
  | plain text => exact h
  | unclosed before tail => cases h
  | hole before name rest ih =>
    obtain ⟨value, after, hvalue, hafter, rfl⟩ := fill_hole_eq_ok_iff.mp h
    exact fill_hole_eq_ok_iff.mpr ⟨value, after, same name value hvalue, ih hafter, rfl⟩

/-- Filling fails for a hole that is not closed, or for a name without a text. -/
theorem fill_eq_error {template : Template} {failure : ε}
    (h : template.fill textOf onUnclosed = .error failure) :
    failure = onUnclosed ∨ ∃ name, textOf name = .error failure := by
  induction template with
  | plain text => cases h
  | unclosed before tail =>
    cases h
    exact .inl rfl
  | hole before name rest ih =>
    rcases fill_hole_eq_error_iff.mp h with hname | ⟨-, hrest⟩
    · exact .inr ⟨name, hname⟩
    · exact ih hrest

end Template

end ShaderTemplate
