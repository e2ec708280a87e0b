import ShaderTemplate.Proofs.Path.Canonical

/-!
# Where folded paths lead

A path is a way through directories: `Path.walk` takes it from a starting directory, component by
component. Folding is meant to shorten the way and keep where it leads.

It does for all paths that climb out of their start at most once, and for absolute paths, since the
root is its own parent. A second `..` at the start of a relative path takes the first one away, so
`../..` is folded to the empty path, which leads nowhere; and `/..`, which leads to the root, is not
folded to `/`. `Path.course` counts the climbs, and `normalize_leads_iff` says what becomes of them:
an even number of climbs is forgotten, and of an odd number one is left.

## Shape of the argument

The course of a path says all of it in two parts, the climbs and the names below them. A walk is
read off the course (`walk_eq`), and so is the folded path (`components_normalize_eq`), which keeps
the names and the parity of the climbs.
-/

namespace ShaderTemplate.Path

/-- A directory, by the names that lead to it from the root, the last one first. -/
abbrev Location := List Text

/-- One step from a directory. The root is its own parent. -/
def Component.follow (location : Location) : Component → Location
  | .root => []
  | .current => location
  | .parent => location.tail
  | .name text => text :: location

/-- The directory that a path leads to from a directory. -/
def walk (start : Location) (path : Path) : Location :=
  path.components.foldl Component.follow start

/-- What a way comes to: so many steps up from where it starts, and then down along these names, the
last one first. -/
structure Course where
  climbs : Nat
  names : List Text

namespace Course

/-- The course after one more step. A step up takes the last name back, if there is one. -/
def extend (course : Course) : Component → Course
  | .root => ⟨0, []⟩
  | .current => course
  | .name text => { course with names := text :: course.names }
  | .parent =>
    match course.names with
    | [] => { course with climbs := course.climbs + 1 }
    | _ :: outer => { course with names := outer }

/-- The directory that a course leads to from a directory. -/
def leadFrom (course : Course) (start : Location) : Location :=
  course.names ++ start.drop course.climbs

/-- The folded components of a course, the last one first: of the climbs their parity is left. -/
def folded (course : Course) (anchor : List Component) : List Component :=
  course.names.map .name ++ (List.replicate (course.climbs % 2) .parent ++ anchor)

end Course

/-- The course of a path. -/
def course (path : Path) : Course :=
  path.components.foldl Course.extend ⟨0, []⟩

/-- The root, for a path that starts there. -/
def anchor (path : Path) : List Component :=
  if path.isAbsolute then [.root] else []

/-! ## The steps after the root -/

/-- The root is at most the first step of a path. -/
theorem exists_components_eq (path : Path) :
    ∃ body, path.components = path.anchor ++ body ∧ ∀ step ∈ body, step ≠ .root := by
  obtain ⟨text⟩ := path
  have hsteps (text : Text) : ∀ step ∈ steps text, step ≠ .root :=
    fun step hstep => (step_of_mem hstep).1
  by_cases hopens : Opens text
  · cases hopens with
    | root rest => exact ⟨steps rest, rfl, hsteps rest⟩
    | here => exact ⟨[.current], rfl, by simp⟩
    | current rest => exact ⟨.current :: steps rest, rfl, by simpa using hsteps rest⟩
  · have hcomponents := components_relative hopens
    have hrelative : isAbsolute ⟨text⟩ = false := by
      rw [← Bool.not_eq_true, isAbsolute_iff, hcomponents]
      exact fun hroot => hsteps text .root (List.mem_of_mem_head? hroot) rfl
    refine ⟨steps text, ?_, hsteps text⟩
    rw [hcomponents, anchor, hrelative]
    rfl

theorem follow_leadFrom (course : Course) (start : Location) {step : Component}
    (below : step ≠ .root) :
    Component.follow (course.leadFrom start) step = (course.extend step).leadFrom start := by
  obtain ⟨climbs, names⟩ := course
  cases step with
  | root => exact absurd rfl below
  | current | name => rfl
  | parent =>
    cases names with
    | nil => simp [Component.follow, Course.leadFrom, Course.extend]
    | cons last outer => rfl

/-- A walk is read off the course of its steps. -/
theorem foldl_follow (steps : List Component) (below : ∀ step ∈ steps, step ≠ .root)
    (course : Course) (start : Location) :
    steps.foldl Component.follow (course.leadFrom start) =
      (steps.foldl Course.extend course).leadFrom start := by
  induction steps generalizing course with
  | nil => rfl
  | cons step steps ih =>
    obtain ⟨hstep, hsteps⟩ := List.forall_mem_cons.mp below
    rw [List.foldl_cons, List.foldl_cons, follow_leadFrom course start hstep]
    exact ih hsteps _

theorem foldComponent_folded (course : Course) {anchor : List Component}
    (start : anchor = [] ∨ anchor = [.root]) {step : Component} (below : step ≠ .root) :
    foldComponent (course.folded anchor) step = (course.extend step).folded anchor := by
  obtain ⟨climbs, names⟩ := course
  cases step with
  | root => exact absurd rfl below
  | current | name => rfl
  | parent =>
    cases names with
    | cons last outer => simp [Course.folded, Course.extend, foldComponent]
    | nil =>
      -- a climb is kept where none is, and taken away where one is
      have hparity : climbs % 2 = 0 ∧ (climbs + 1) % 2 = 1 ∨
          climbs % 2 = 1 ∧ (climbs + 1) % 2 = 0 := by omega
      rcases hparity with ⟨heven, hodd⟩ | ⟨hodd, heven⟩ <;> rcases start with rfl | rfl <;>
        simp [Course.folded, Course.extend, foldComponent, heven, hodd]

/-- The folded components are read off the course of the steps. -/
theorem foldl_foldComponent (steps : List Component) (below : ∀ step ∈ steps, step ≠ .root)
    (course : Course) {anchor : List Component} (start : anchor = [] ∨ anchor = [.root]) :
    steps.foldl foldComponent (course.folded anchor) =
      (steps.foldl Course.extend course).folded anchor := by
  induction steps generalizing course with
  | nil => rfl
  | cons step steps ih =>
    obtain ⟨hstep, hsteps⟩ := List.forall_mem_cons.mp below
    rw [List.foldl_cons, List.foldl_cons, foldComponent_folded course start hstep]
    exact ih hsteps _

/-! ## Paths -/

theorem anchor_cases (path : Path) :
    path.isAbsolute = false ∧ path.anchor = [] ∨
      path.isAbsolute = true ∧ path.anchor = [.root] := by
  cases h : path.isAbsolute <;> simp [anchor, h]

/-- The course of a path is that of its steps after the root. -/
theorem course_eq {path : Path} {body : List Component}
    (components : path.components = path.anchor ++ body) :
    path.course = body.foldl Course.extend ⟨0, []⟩ := by
  rw [course, components, List.foldl_append]
  rcases path.anchor_cases with ⟨-, hanchor⟩ | ⟨-, hanchor⟩ <;> rw [hanchor] <;> rfl

/-- An absolute path leads to the same directory from everywhere. -/
theorem walk_eq (start : Location) (path : Path) :
    walk start path = path.course.leadFrom (if path.isAbsolute then [] else start) := by
  obtain ⟨body, hcomponents, hbody⟩ := path.exists_components_eq
  rw [walk, course_eq hcomponents, hcomponents, List.foldl_append]
  rcases path.anchor_cases with ⟨hrelative, hanchor⟩ | ⟨habsolute, hanchor⟩
  · rw [hanchor, hrelative]
    exact foldl_follow body hbody ⟨0, []⟩ start
  · rw [hanchor, habsolute]
    exact foldl_follow body hbody ⟨0, []⟩ []

/-- A folded path has one `..` at most, after the root or at the start, and only names after it. -/
theorem components_normalize_eq (path : Path) :
    path.normalize.components =
      path.anchor ++ (List.replicate (path.course.climbs % 2) .parent ++
        path.course.names.reverse.map .name) := by
  obtain ⟨body, hcomponents, hbody⟩ := path.exists_components_eq
  have hfold : path.components.foldl foldComponent [] = path.course.folded path.anchor := by
    rw [course_eq hcomponents, hcomponents, List.foldl_append]
    rcases path.anchor_cases with ⟨-, hanchor⟩ | ⟨-, hanchor⟩
    · rw [hanchor]
      exact foldl_foldComponent body hbody ⟨0, []⟩ (.inl rfl)
    · rw [hanchor]
      exact foldl_foldComponent body hbody ⟨0, []⟩ (.inr rfl)
  have hanchor : path.anchor.reverse = path.anchor := by
    rcases path.anchor_cases with ⟨-, h⟩ | ⟨-, h⟩ <;> rw [h] <;> rfl
  rw [components_normalize, foldComponents, hfold, Course.folded, List.reverse_append,
    List.reverse_append, hanchor, List.reverse_replicate, List.append_assoc, List.map_reverse]

@[simp] theorem isAbsolute_normalize (path : Path) :
    path.normalize.isAbsolute = path.isAbsolute := by
  rw [Bool.eq_iff_iff, isAbsolute_iff, components_normalize_eq]
  rcases path.anchor_cases with ⟨hrelative, hanchor⟩ | ⟨habsolute, hanchor⟩
  · rw [hanchor, hrelative]
    rcases Nat.mod_two_eq_zero_or_one path.course.climbs with h | h <;> rw [h]
    · cases path.course.names.reverse <;> simp
    · simp
  · simp [hanchor, habsolute]

theorem foldl_extend_names (course : Course) (names : List Text) :
    (names.map Component.name).foldl Course.extend course =
      { course with names := names.reverse ++ course.names } := by
  induction names generalizing course with
  | nil => rfl
  | cons name names ih =>
    rw [List.map_cons, List.foldl_cons, ih]
    simp [Course.extend]

/-- Folding keeps the names of a course, and of the climbs their parity. -/
theorem course_normalize (path : Path) :
    path.normalize.course = ⟨path.course.climbs % 2, path.course.names⟩ := by
  have hcomponents := path.components_normalize_eq
  have hanchor : path.normalize.anchor = path.anchor := by rw [anchor, anchor, isAbsolute_normalize]
  rw [← hanchor] at hcomponents
  rw [course_eq hcomponents, List.foldl_append, foldl_extend_names, List.reverse_reverse]
  rcases Nat.mod_two_eq_zero_or_one path.course.climbs with h | h <;> rw [h] <;>
    simp [Course.extend]

/-- Courses lead to the same directories if they have the same names and climb as high. -/
theorem leadFrom_eq_iff {names : List Text} {climbs climbs' : Nat} :
    (∀ start, Course.leadFrom ⟨climbs, names⟩ start = Course.leadFrom ⟨climbs', names⟩ start) ↔
      climbs = climbs' := by
  constructor
  · intro h
    -- a start deep enough for both tells them apart
    have hlength := congrArg List.length (h (List.replicate (climbs + climbs') []))
    simp only [Course.leadFrom, List.length_append, List.length_drop, List.length_replicate]
      at hlength
    omega
  · rintro rfl start
    rfl

/-- Folded paths are equal if they start alike and have the same names and the same parity of
climbs. -/
theorem normalize_eq_iff {path other : Path} :
    path.normalize = other.normalize ↔
      path.isAbsolute = other.isAbsolute ∧ path.course.names = other.course.names ∧
        path.course.climbs % 2 = other.course.climbs % 2 := by
  constructor
  · intro h
    have habsolute := congrArg isAbsolute h
    have hcourse := congrArg course h
    rw [isAbsolute_normalize, isAbsolute_normalize] at habsolute
    rw [course_normalize, course_normalize, Course.mk.injEq] at hcourse
    exact ⟨habsolute, hcourse.2, hcourse.1⟩
  · rintro ⟨habsolute, hnames, hclimbs⟩
    apply normalize_eq_of_beq
    rw [beq_iff, components_normalize_eq, components_normalize_eq, anchor, anchor, habsolute,
      hnames, hclimbs]

/-- **Where folded paths lead.** A folded path is the root, if the path is absolute, then a `..` if
the path climbs an odd number of times, and then names. So it has no `.`, and no `..` but one that
leads it.

It leads from every directory to where the path leads, if and only if the path is absolute or climbs
at most once. An absolute path is folded to one without `..` if and only if its climbs are even in
number, and two absolute paths that lead to the same directory are folded alike if and only if their
climbs are both even or both odd. -/
theorem normalize_leads_iff (path : Path) :
    (path.normalize.components =
      path.anchor ++ (List.replicate (path.course.climbs % 2) .parent ++
        path.course.names.reverse.map .name)) ∧
    ((∀ start, walk start path.normalize = walk start path) ↔
      path.isAbsolute = true ∨ path.course.climbs ≤ 1) ∧
    (.parent ∉ path.normalize.components ↔ path.course.climbs % 2 = 0) ∧
    ∀ other : Path, path.isAbsolute = true → other.isAbsolute = true →
      (∀ start, walk start path = walk start other) →
      (path.normalize = other.normalize ↔
        path.course.climbs % 2 = other.course.climbs % 2) := by
  refine ⟨path.components_normalize_eq, ?_, ?_, ?_⟩
  · cases habsolute : path.isAbsolute with
    | true =>
      simp [walk_eq, habsolute, course_normalize, Course.leadFrom]
    | false =>
      have hwalks : (∀ start, walk start path.normalize = walk start path) ↔
          path.course.climbs % 2 = path.course.climbs := by
        simp only [walk_eq, isAbsolute_normalize, habsolute, course_normalize, Bool.false_eq_true,
          if_false]
        exact leadFrom_eq_iff
      rw [hwalks]
      simp only [Bool.false_eq_true, false_or]
      omega
  · rw [components_normalize_eq]
    rcases path.anchor_cases with ⟨-, hanchor⟩ | ⟨-, hanchor⟩ <;>
      rcases Nat.mod_two_eq_zero_or_one path.course.climbs with h | h <;> simp [hanchor, h]
  · intro other habsolute habsolute' hwalk
    have hnames : path.course.names = other.course.names := by
      have hroot := hwalk []
      simpa [walk_eq, habsolute, habsolute', Course.leadFrom] using hroot
    rw [normalize_eq_iff, habsolute, habsolute', hnames]
    simp

/-- Three climbs are folded to one, and the way is lost; behind the root they should have been
folded to none. -/
theorem not_normalize_leads_threeClimbs :
    let relative : Path := ⟨"../../..".toList⟩
    let absolute : Path := ⟨"/../../..".toList⟩
    let root : Path := ⟨"/".toList⟩
    (¬ ∀ start, walk start relative.normalize = walk start relative) ∧
      .parent ∈ absolute.normalize.components ∧
      (∀ start, walk start absolute = walk start root) ∧ absolute.normalize ≠ root.normalize := by
  intro relative absolute root
  obtain ⟨-, hleads, -⟩ := normalize_leads_iff relative
  obtain ⟨-, -, hparent, halike⟩ := normalize_leads_iff absolute
  have hsame : ∀ start, walk start absolute = walk start root := fun start => rfl
  refine ⟨fun h => absurd (hleads.mp h) (by decide), ?_, hsame, fun h => ?_⟩
  · exact Decidable.not_not.mp fun h => absurd (hparent.mp h) (by decide)
  · exact absurd ((halike root rfl rfl hsame).mp h) (by decide)

end ShaderTemplate.Path
