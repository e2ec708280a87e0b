import ShaderTemplate.FileStore

/-!
# Providers that list their files

A provider that lists every file it can read has finitely many files, up to the spelling of their
paths. `Provider.unread` measures those that are not open: a file that is opened takes its lines
off this measure (`unread_cons_le`), since the same file is not opened twice at a time.

The memory provider of a store lists all its files (`listsAll_memory`).
-/

namespace ShaderTemplate

/-- Whatever can be read is listed, maybe under a path that is spelled differently. -/
def Provider.ListsAll (provider : Provider) : Prop :=
  ∀ path text, provider.read path = .ok text →
    ∃ file ∈ provider.files, (file == path) = true ∧ provider.read file = .ok text

/-- The number of lines of the listed files that are not open, with two more for each file. -/
def Provider.unread (provider : Provider) (opened : List Path) : Nat :=
  provider.linesOf (provider.files.filter fun file => !opened.any (· == file))

theorem Provider.unread_nil (provider : Provider) :
    provider.unread [] = provider.linesOf provider.files := by
  have hall : provider.files.filter (fun file => !([] : List Path).any (· == file)) =
      provider.files := List.filter_eq_self.mpr fun _ _ => rfl
  rw [unread, hall]

@[simp] theorem Provider.linesOf_nil (provider : Provider) : provider.linesOf [] = 0 := rfl

@[simp] theorem Provider.linesOf_cons (provider : Provider) (file : Path) (files : List Path) :
    provider.linesOf (file :: files) = provider.lineCount file + 2 + provider.linesOf files := rfl

theorem Provider.linesOf_filter_le (provider : Provider) {keep keepLess : Path → Bool}
    (less : ∀ file, keepLess file = true → keep file = true) (files : List Path) :
    provider.linesOf (files.filter keepLess) ≤ provider.linesOf (files.filter keep) := by
  induction files with
  | nil => simp
  | cons file files ih =>
    by_cases hless : keepLess file = true
    · simp [hless, less file hless, ih]
    · by_cases hkeep : keep file = true <;> simp [hless, hkeep] <;> omega

/-- What a filter leaves out is missing from the lines. -/
theorem Provider.linesOf_filter_add_le (provider : Provider) {keep keepLess : Path → Bool}
    (less : ∀ file, keepLess file = true → keep file = true) {files : List Path} {file : Path}
    (mem : file ∈ files) (kept : keep file = true) (dropped : keepLess file = false) :
    provider.linesOf (files.filter keepLess) + (provider.lineCount file + 2) ≤
      provider.linesOf (files.filter keep) := by
  induction files with
  | nil => simp at mem
  | cons other files ih =>
    rcases List.mem_cons.mp mem with rfl | mem
    · have := provider.linesOf_filter_le less files
      simp [kept, dropped]
      omega
    · have := ih mem
      by_cases hless : keepLess other = true
      · simp [hless, less other hless]
        omega
      · by_cases hkeep : keep other = true <;> simp [hless, hkeep] <;> omega

theorem Provider.unread_cons_le {provider : Provider} (lists : provider.ListsAll)
    {opened : List Path} {path : Path} {text : Text}
    (closed : opened.any (· == path) = false) (readable : provider.read path = .ok text) :
    provider.unread (path :: opened) + ((Text.lines text).length + 2) ≤ provider.unread opened := by
  obtain ⟨file, hfile, hsame, hread⟩ := lists path text readable
  have hcount : provider.lineCount file = (Text.lines text).length := by
    rw [lineCount, hread]
  have hclosed : opened.any (· == file) = false := by
    rw [List.any_eq_false] at closed ⊢
    exact fun other hother h => closed other hother (BEq.trans h hsame)
  rw [← hcount]
  refine provider.linesOf_filter_add_le (fun other h => ?_) hfile ?_ ?_
  · simp only [List.any_cons, Bool.not_or, Bool.and_eq_true] at h
    exact h.2
  · simp [hclosed]
  · simp [List.any_cons, BEq.symm hsame]

/-- Look-ups agree on paths that are the same. -/
theorem Path.lookup_congr {α : Type} {a b : Path} (same : (a == b) = true)
    (rows : List (Path × α)) : rows.lookup a = rows.lookup b := by
  have hkey (key : Path) : (a == key) = (b == key) :=
    Bool.eq_iff_iff.mpr ⟨fun h => BEq.trans (BEq.symm same) h, fun h => BEq.trans same h⟩
  simp only [List.lookup_eq_findSome?, hkey]

/-- A path that is not in a list is not the same as one that is. -/
theorem Path.ne_of_contains {a b : Path} {paths : List Path} (absent : paths.contains a = false)
    (present : paths.contains b = true) : (a == b) = false := by
  rw [← Bool.not_eq_true]
  intro hsame
  rw [List.contains_congr hsame, present] at absent
  cases absent

theorem FileStore.read_congr (store : FileStore) {a b : Path} (same : (a == b) = true) :
    store.read a = store.read b := by
  rw [read, read, Path.lookup_congr same, Path.lookup_congr same]

theorem FileStore.listsAll_memory (store : FileStore) : store.memory.ListsAll := by
  intro path text readable
  have hread : store.read path = .ok text := readable
  have hfound : (store.contents.lookup path).isSome := by
    unfold read at hread
    split at hread <;> simp_all
  obtain ⟨row, hrow, hsame⟩ := List.lookup_isSome_iff.mp hfound
  refine ⟨row.1, List.mem_map_of_mem hrow, BEq.symm hsame, ?_⟩
  exact (store.read_congr hsame).symm.trans hread

end ShaderTemplate
