import Mathlib.Data.List.Basic
import ShaderTemplate.Disk
import ShaderTemplate.Proofs.Path.Walk

/-!
# Folding and joining

A folded path is a normal form: folding it again changes nothing (`normalize_normalize`), and a
directory may be folded or not before a path is joined to it, if only the result is folded
(`normalize_join`). A file that is known under a path on a disk is therefore known under the same
path when it is asked for by that path.

## Shape of the argument

The fold can be resumed. What it has kept of a directory is all it needs to go on with the steps of
a path that is joined to the directory (`foldl_join`), and of a folded path it keeps everything
(`foldl_normalize`). It does not matter whether a `..` that was kept is taken away later on, since
this happens in both folds alike.
-/

namespace ShaderTemplate

namespace Path

/-- There is nothing left to fold in a folded path. -/
theorem normalize_normalize (path : Path) : path.normalize.normalize = path.normalize := by
  have hcourse := path.course_normalize
  refine normalize_eq_iff.mpr ⟨path.isAbsolute_normalize, ?_, ?_⟩
  · rw [hcourse]
  · rw [hcourse]
    exact Nat.mod_mod _ 2

/-! ## Resuming the fold -/

/-- A `.` makes no difference to the fold. -/
theorem foldl_filter_current (steps folded : List Component) :
    (steps.filter (· ≠ .current)).foldl foldComponent folded =
      steps.foldl foldComponent folded := by
  induction steps generalizing folded with
  | nil => rfl
  | cons step steps ih =>
    by_cases h : step = .current
    · subst h
      exact ih folded
    · rw [List.filter_cons_of_pos (by simpa using h), List.foldl_cons, List.foldl_cons, ih]

theorem join_of_absolute (base : Path) {path : Path} (absolute : path.isAbsolute = true) :
    base.join path = path := by
  rw [join, absolute, if_pos rfl]

/-- The fold of a joined path goes on where the fold of the directory ends. -/
theorem foldl_join (base : Path) {path : Path} (relative : path.isAbsolute = false) :
    (base.join path).components.foldl foldComponent [] =
      path.components.foldl foldComponent (base.components.foldl foldComponent []) := by
  by_cases hbase : base.components = []
  · have htext : base.text = [] := components_eq_nil_iff.mp hbase
    rw [join_relative relative, htext, hbase]
    rfl
  · rw [components_join relative hbase, List.foldl_append, foldl_filter_current]

theorem foldl_normalize (path : Path) :
    path.normalize.components.foldl foldComponent [] = path.components.foldl foldComponent [] := by
  have hfixed : foldComponents path.normalize.components = foldComponents path.components := by
    rw [← components_normalize, normalize_normalize, components_normalize]
  exact List.reverse_injective hfixed

/-- Folding a directory first does not change what a path joined to it is folded to. -/
theorem normalize_join (base path : Path) :
    (base.normalize.join path).normalize = (base.join path).normalize := by
  cases h : path.isAbsolute with
  | true => rw [join_of_absolute _ h, join_of_absolute _ h]
  | false =>
    have hfold : foldComponents (base.normalize.join path).components =
        foldComponents (base.join path).components := by
      rw [foldComponents, foldComponents, foldl_join _ h, foldl_join _ h, foldl_normalize]
    exact congrArg ofComponents hfold

/-! ## Paths under a root -/

theorem isAbsolute_join (base path : Path) :
    (base.join path).isAbsolute = (path.isAbsolute || base.isAbsolute) := by
  cases h : path.isAbsolute with
  | true => rw [join_of_absolute _ h, h, Bool.true_or]
  | false =>
    rw [join_relative h, Bool.false_or]
    obtain ⟨text⟩ := base
    cases text with
    | nil => exact h
    | cons c text =>
      dsimp only [glued]
      split <;> rfl

theorem isAbsolute_resolve (base path : Path) :
    (base.resolve path).isAbsolute = (path.isAbsolute || base.isAbsolute) := by
  rw [resolve, isAbsolute_normalize, isAbsolute_join]

/-- An absolute path is known under its folded form, wherever relative paths start. -/
theorem resolve_of_absolute (base : Path) {path : Path} (absolute : path.isAbsolute = true) :
    base.resolve path = path.normalize := by
  rw [resolve, join_of_absolute base absolute]

/-- An absolute path that a path was resolved to is resolved to itself, from everywhere. -/
theorem resolve_resolve (base other : Path) {path : Path}
    (absolute : (base.resolve path).isAbsolute = true) :
    other.resolve (base.resolve path) = base.resolve path := by
  rw [resolve_of_absolute other absolute, resolve, normalize_normalize]

end Path

/-- **Folded paths are normal forms, and folding goes with joining.** Folding twice is folding once,
and a path may be joined to a directory or to the folded directory, to the same end. So on a disk
with an absolute root, and for absolute paths on any disk, the path that a file is known under is
absolute, and it is known under the same path when it is asked for by that one. -/
theorem Disk.folded_paths_settle (disk : Disk) (a b : Path) :
    a.normalize.normalize = a.normalize ∧
    (a.join b).normalize = (a.normalize.join b).normalize ∧
    ∀ path : Path, disk.root.isAbsolute = true ∨ path.isAbsolute = true →
      (disk.provider.absolute path).isAbsolute = true ∧
      disk.provider.absolute (disk.provider.absolute path) = disk.provider.absolute path := by
  refine ⟨a.normalize_normalize, (a.normalize_join b).symm, fun path h => ?_⟩
  have habsolute : (disk.root.resolve path).isAbsolute = true := by
    rw [Path.isAbsolute_resolve, Bool.or_eq_true]
    exact h.symm
  exact ⟨habsolute, Path.resolve_resolve disk.root disk.root habsolute⟩

/-- A `..` that the folded directory has kept is taken away by one of the path that is joined to it,
and a path that climbs above the root of the disk is settled like any other. -/
theorem Disk.folded_paths_settle_climbs :
    let disk := Disk.start ⟨"/srv".toList⟩
    let a : Path := ⟨"x/../..".toList⟩
    let b : Path := ⟨"./../y/".toList⟩
    let path : Path := ⟨"../../s".toList⟩
    a.normalize = ⟨"..".toList⟩ ∧ (a.join b).normalize = ⟨"y".toList⟩ ∧
      a.normalize.normalize = a.normalize ∧
      (a.join b).normalize = (a.normalize.join b).normalize ∧
      disk.root.isAbsolute = true ∧ disk.provider.absolute path = ⟨"/../s".toList⟩ ∧
      (disk.provider.absolute path).isAbsolute = true ∧
      disk.provider.absolute (disk.provider.absolute path) = disk.provider.absolute path := by
  intro disk a b path
  obtain ⟨hfixed, hjoin, hsettled⟩ := Disk.folded_paths_settle disk a b
  exact ⟨by decide, by decide, hfixed, hjoin, rfl, by decide, hsettled path (.inl rfl)⟩

end ShaderTemplate
