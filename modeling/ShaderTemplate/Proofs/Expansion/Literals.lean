import ShaderTemplate.Proofs.Expansion.LoopNames

/-!
# Texts in quotes

A hole may hold a text in quotes instead of a name, as in `#{"literal"}`.
`Environment.quoted_text_stands_iff` says when the text comes out of it: always if the text has no
dot, and otherwise only if the dictionary happens to have a value at the quoted text, read as a
path.

## Shape of the argument

A name is cut at its first dot before anything is said about quotes. Without a dot all of the quoted
text is its head, which is recognised as a text in quotes. With a dot the closing quote is behind
it, so the head is not a text in quotes and the whole is taken for a path. If that path leads
anywhere, the whole is looked at again, now for its quotes.
-/

namespace ShaderTemplate

theorem Text.trim_enquote (text : Text) : trim (enquote text) = enquote text := by
  have hquote : isBlank '"' = false := by decide
  have hstart : trimStart (enquote text) = enquote text :=
    List.dropWhile_cons_of_neg (by simp [hquote])
  have hreverse : (enquote text).reverse = '"' :: (text.reverse ++ ['"']) := by simp [enquote]
  rw [trim, hstart, trimEnd, hreverse, List.dropWhile_cons_of_neg (by simp [hquote]), ← hreverse,
    List.reverse_reverse]

namespace Names

variable {names : Names} {place : Place} {text : Text}

theorem dot_mem_enquote : '.' ∈ Text.enquote text ↔ '.' ∈ text := by
  simp [Text.enquote]

/-- There is a tail iff there is a dot. -/
theorem tail_eq_nil_iff {name : Text} : tail name = [] ↔ '.' ∉ name := by
  constructor
  · intro htail hdot
    have hne := List.dropWhile_eq_nil_iff.mp htail '.' hdot
    simp at hne
  · exact tail_of_dotless

/-- A quoted text whose head is not bound stands for the text if it has no dot or is a path into the
dictionary, and else for nothing. -/
theorem textOf_enquote (free : names.alias? (head (Text.enquote text)) = none) :
    names.textOf place (Text.enquote text) =
      if '.' ∉ text ∨ names.dictionary.contains (Text.enquote text) then .ok text
      else .error (.unresolvedName (Text.enquote text) place) := by
  have hwhole : head (Text.enquote text) ++ tail (Text.enquote text) = Text.enquote text :=
    List.takeWhile_append_dropWhile
  have hresolve : names.resolve? (Text.enquote text) =
      if '.' ∉ text ∨ names.dictionary.contains (Text.enquote text) then some (Text.enquote text)
      else none := by
    unfold resolve?
    simp only [free, Option.getD_none, hwhole]
    by_cases hdot : '.' ∈ text
    · have htail : tail (Text.enquote text) ≠ [] :=
        fun h => tail_eq_nil_iff.mp h (dot_mem_enquote.mpr hdot)
      simp [htail, hdot]
    · have hdotless : '.' ∉ Text.enquote text := fun h => hdot (dot_mem_enquote.mp h)
      simp [head_of_dotless hdotless, tail_of_dotless hdotless, Text.unquote?_enquote, hdot]
  by_cases hstands : '.' ∉ text ∨ names.dictionary.contains (Text.enquote text) = true
  · rw [if_pos hstands] at hresolve ⊢
    simp only [textOf, hresolve, Text.unquote?_enquote]
  · rw [if_neg hstands] at hresolve ⊢
    simp only [textOf, hresolve]

end Names

/-- A name that no open loop binds stands for itself. -/
theorem Reachable.alias?_eq_none {env : Environment} {path : Path} {state : State} {name : Text}
    (reachable : Reachable env path state) (free : ∀ loop ∈ state.loops, ¬ loop.Binds name) :
    (state.names env).alias? name = none := by
  have hfree : ∀ frame ∈ state.loops.map Loop.bindings, name ∉ frame.map Prod.fst := by
    simpa [Loop.Binds] using free
  calc (state.names env).alias? name
      = Scopes.lookUp (state.loops.map Loop.bindings) name := by
        rw [State.names, reachable.looping.scopes, Scopes.resolve?_ofFrames]
    _ = Scopes.lookUp (state.loops.map Loop.bindings ++ []) name := by rw [List.append_nil]
    _ = none := Scopes.lookUp_append_of_not_mem hfree

/-- A hole in a line is filled before what follows it. -/
theorem State.fillLine_hole {env : Environment} {state : State} {before name after : Text}
    (literal : ¬ ['#', '\x7b'] <:+: before) (closed : '\x7d' ∉ name) :
    state.fillLine env (before ++ '#' :: '\x7b' :: (name ++ '\x7d' :: after)) = (do
      let value ← (state.names env).textOf state.place (Text.trim name)
      let filled ← state.fillLine env after
      return before ++ value ++ filled) := by
  rw [fillLine, Template.parse_hole literal closed]
  rfl

/-- **A text in quotes stands for itself, unless it has a dot.** Let no open loop bind the quoted
text. Then a hole with it is filled with the text, whatever the text and the dictionary hold, if the
text has no dot. A text with a dot is cut in two, and its first part might be bound. If it is not,
the hole is filled with the text iff the dictionary has a value at the quoted text, and stands for
nothing otherwise. -/
theorem Environment.quoted_text_stands_iff (env : Environment) (path : Path) (state : State)
    (reachable : Reachable env path state) (before text after : Text)
    (literal : ¬ ['#', '\x7b'] <:+: before) (closed : '\x7d' ∉ text) :
    let line := before ++ '#' :: '\x7b' :: (Text.enquote text ++ '\x7d' :: after)
    let filled := (before ++ text ++ ·) <$> state.fillLine env after
    ('.' ∉ text → (∀ loop ∈ state.loops, ¬ loop.Binds (Text.enquote text)) →
        state.fillLine env line = filled) ∧
      ('.' ∈ text → (∀ loop ∈ state.loops, ¬ loop.Binds (Names.head (Text.enquote text))) →
        state.fillLine env line =
          if env.dictionary.contains (Text.enquote text) then filled
          else .error (.unresolvedName (Text.enquote text) state.place)) := by
  intro line filled
  have hclosed : '\x7d' ∉ Text.enquote text := by simpa [Text.enquote] using closed
  have hline := @State.fillLine_hole env state before _ after literal hclosed
  rw [Text.trim_enquote] at hline
  constructor
  · intro dotless free
    have hdotless : '.' ∉ Text.enquote text := fun h => dotless (Names.dot_mem_enquote.mp h)
    have hfree : (state.names env).alias? (Names.head (Text.enquote text)) = none := by
      rw [Names.head_of_dotless hdotless]
      exact reachable.alias?_eq_none free
    rw [hline, Names.textOf_enquote hfree, if_pos (.inl dotless)]
    rfl
  · intro dotted free
    have htext : (state.names env).textOf state.place (Text.enquote text) =
        if '.' ∉ text ∨ env.dictionary.contains (Text.enquote text) then .ok text
        else .error (.unresolvedName (Text.enquote text) state.place) :=
      Names.textOf_enquote (reachable.alias?_eq_none free)
    rw [hline, htext]
    by_cases hcontains : env.dictionary.contains (Text.enquote text) = true
    · rw [if_pos (.inr hcontains), if_pos hcontains]
      rfl
    · rw [if_neg (not_or.mpr ⟨not_not_intro dotted, hcontains⟩), if_neg hcontains]
      rfl

/-- A dictionary with a value at the path `"a.b"`, quotes included. -/
def Environment.quotedPath : Environment where
  provider := (FileStore.empty.write ⟨"/main".toList⟩ (.text []) none).memory
  dictionary := .ofPaths [("\"a.b\"".toList, .string "x".toList)]
  config := { lineMarkers := false, loopMarkers := false }

/-- The state in which the only file is open. -/
def State.quotedPath : State where
  inputs := [Input.start ⟨"/main".toList⟩ [] []]
  loops := []
  scopes := Scopes.empty
  pieces := []
  opened := [⟨"/main".toList⟩]
  journal := [.opened ⟨"/main".toList⟩]

theorem Environment.quoted_text_stands_iff_quotedPath :
    Reachable .quotedPath ⟨"/main".toList⟩ .quotedPath ∧
      State.quotedPath.fillLine .quotedPath "<#\x7b\"é \"b\"\x7d>".toList =
        .ok "<é \"b>".toList ∧
      State.quotedPath.fillLine .quotedPath "#\x7b\"a.b\"\x7d".toList = .ok "a.b".toList ∧
      State.quotedPath.fillLine .quotedPath "#\x7b\"c.d\"\x7d".toList =
        .error (.unresolvedName "\"c.d\"".toList ⟨"/main".toList, 0⟩) := by
  have hreachable : Reachable .quotedPath ⟨"/main".toList⟩ .quotedPath := .opened (by rfl)
  have hfree (name : Text) : ∀ loop ∈ State.quotedPath.loops, ¬ loop.Binds name := by
    intro loop hloop
    cases hloop
  have htext :=
    Environment.quoted_text_stands_iff .quotedPath ⟨"/main".toList⟩ .quotedPath hreachable
  obtain ⟨hplain, -⟩ := htext "<".toList "é \"b".toList ">".toList (by decide) (by decide)
  obtain ⟨-, hpath⟩ := htext [] "a.b".toList [] (by decide) (by decide)
  obtain ⟨-, hnothing⟩ := htext [] "c.d".toList [] (by decide) (by decide)
  exact ⟨hreachable, hplain (by decide) (hfree _), hpath (by decide) (hfree _),
    hnothing (by decide) (hfree _)⟩

end ShaderTemplate
