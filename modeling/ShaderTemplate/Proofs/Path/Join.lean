import ShaderTemplate.Path.Normalize
import ShaderTemplate.Proofs.Text.Lines

/-!
# Joining paths

Two paths that take the same steps may be spelled differently, but what they are joined to takes the
same steps again (`join_congr`), and once it is folded it is spelled alike (`resolve_congr`). So it
does not matter how the directory is spelled in which a file is looked for.

The steps of a joined path are those of its parts (`components_join`), where a leading `.` is lost
from the second part. `steps` are those of a path without its opening.
-/

namespace ShaderTemplate.Path

/-- The steps that the segments of a text stand for. -/
def steps (text : Text) : List Component :=
  (Text.segments '/' text).filterMap Component.ofSegment?

theorem steps_append (text rest : Text) :
    steps (text ++ '/' :: rest) = steps text ++ steps rest := by
  rw [steps, Text.segments_append, List.filterMap_append]
  rfl

/-- A segment is a name or the parent directory. -/
theorem step_of_mem {text : Text} {step : Component} (h : step ∈ steps text) :
    step ≠ .root ∧ step ≠ .current := by
  obtain ⟨segment, -, hsegment⟩ := List.mem_filterMap.mp h
  unfold Component.ofSegment? at hsegment
  split at hsegment <;> cases hsegment <;> simp

/-! ## The opening and the body -/

theorem components_absolute (rest : Text) : components ⟨'/' :: rest⟩ = .root :: steps rest := rfl

theorem components_current (rest : Text) :
    components ⟨'.' :: '/' :: rest⟩ = .current :: steps rest := rfl

/-- Where a path opens with the root or with a leading `.`. -/
inductive Opens : Text → Prop
  | root (rest : Text) : Opens ('/' :: rest)
  | here : Opens ['.']
  | current (rest : Text) : Opens ('.' :: '/' :: rest)

theorem components_relative {text : Text} (h : ¬ Opens text) : components ⟨text⟩ = steps text := by
  unfold components opening body
  dsimp only
  split
  · exact absurd (.root _) h
  · exact absurd .here h
  · exact absurd (.current _) h
  · rfl

theorem idle_cases {segment : Text} (h : Component.ofSegment? segment = none) :
    segment = [] ∨ segment = ['.'] := by
  unfold Component.ofSegment? at h
  split at h
  · exact .inl rfl
  · exact .inr rfl
  · cases h
  · cases h

/-- A text that begins with an idle segment is empty or has an opening. -/
theorem eq_nil_of_steps {text : Text} (relative : ¬ Opens text) (h : steps text = []) :
    text = [] := by
  have hjoined := Text.joined_segments '/' text
  cases hsegments : Text.segments '/' text with
  | nil => exact absurd hsegments (Text.segments_ne_nil '/' text)
  | cons first others =>
    rw [steps, hsegments, List.filterMap_eq_nil_iff] at h
    rw [hsegments] at hjoined
    rw [← hjoined] at relative ⊢
    rcases idle_cases (h first List.mem_cons_self) with rfl | rfl
    · cases others with
      | nil => rfl
      | cons second others => exact absurd (.root _) relative
    · cases others with
      | nil => exact absurd .here relative
      | cons second others => exact absurd (.current _) relative

/-- Only the empty path takes no step. -/
theorem components_eq_nil_iff {path : Path} : path.components = [] ↔ path.text = [] := by
  obtain ⟨text⟩ := path
  constructor
  · intro h
    by_cases hopens : Opens text
    · cases hopens <;> simp [components, opening] at h
    · rw [components_relative hopens] at h
      exact eq_nil_of_steps hopens h
  · intro h
    cases h
    rfl

/-- A path is absolute if its first step is the root. -/
theorem isAbsolute_iff {path : Path} :
    path.isAbsolute = true ↔ path.components.head? = some .root := by
  obtain ⟨text⟩ := path
  by_cases hopens : Opens text
  · cases hopens <;> simp [isAbsolute, components, opening]
  · rw [components_relative hopens]
    constructor
    · intro h
      cases text with
      | nil => cases h
      | cons c rest =>
        have hc : c = '/' := by simpa [isAbsolute] using h
        exact absurd (hc ▸ .root rest) hopens
    · intro h
      exact absurd rfl (step_of_mem (List.mem_of_mem_head? h)).1

/-- The steps of a relative path without a leading `.` are those of its segments. -/
theorem filter_components {path : Path} (relative : path.isAbsolute = false) :
    path.components.filter (· ≠ .current) = steps path.text := by
  obtain ⟨text⟩ := path
  have hsteps (text : Text) : (steps text).filter (· ≠ .current) = steps text :=
    List.filter_eq_self.mpr fun step hstep => decide_eq_true (step_of_mem hstep).2
  by_cases hopens : Opens text
  · cases hopens with
    | root rest => cases relative
    | here => rfl
    | current rest =>
      rw [components_current, List.filter_cons_of_neg (by simp), hsteps,
        ← List.nil_append ('.' :: _)]
      rfl
  · rw [components_relative hopens, hsteps]

/-! ## Joining -/

/-- Two texts with one slash between them, if the first is not empty. -/
def glued (text rest : Text) : Text :=
  match text.getLast? with
  | none | some '/' => text ++ rest
  | some _ => text ++ '/' :: rest

theorem join_relative {base path : Path} (relative : path.isAbsolute = false) :
    base.join path = ⟨glued base.text path.text⟩ := by
  unfold join glued
  rw [relative, if_neg Bool.false_ne_true]
  split <;> simp_all

theorem glued_slash (text rest : Text) : glued ('/' :: text) rest = '/' :: glued text rest := by
  unfold glued
  cases text with
  | nil => rfl
  | cons c text =>
    rw [List.getLast?_cons_cons]
    split <;> rfl

theorem glued_current (text rest : Text) :
    glued ('.' :: '/' :: text) rest = '.' :: '/' :: glued text rest := by
  have hcons : glued ('.' :: '/' :: text) rest = '.' :: glued ('/' :: text) rest := by
    unfold glued
    rw [List.getLast?_cons_cons]
    split <;> rfl
  rw [hcons, glued_slash]

theorem steps_glued (text rest : Text) : steps (glued text rest) = steps text ++ steps rest := by
  unfold glued
  split
  · rename_i h
    rw [List.getLast?_eq_none_iff.mp h]
    rfl
  · rename_i h
    have htext : text = text.dropLast ++ '/' :: [] := (List.dropLast_append_getLast? '/' h).symm
    rw [htext, List.append_assoc, List.cons_append, List.nil_append, steps_append, steps_append,
      List.append_assoc]
    rfl
  · exact steps_append text rest

/-- What a text that is not empty opens with does not change when something is glued to it. -/
theorem not_opens_glued {text : Text} (relative : ¬ Opens text) (nonempty : text ≠ [])
    (rest : Text) : ¬ Opens (glued text rest) := by
  intro hopens
  obtain ⟨tail, htail⟩ : ∃ tail, glued text rest = text ++ tail := by
    unfold glued
    split <;> exact ⟨_, rfl⟩
  rw [htail] at hopens
  match text with
  | [] => exact nonempty rfl
  | [c] =>
    cases hopens with
    | root => exact relative (.root [])
    | here => exact relative .here
    | current => exact relative .here
  | c :: d :: text =>
    cases hopens with
    | root => exact relative (.root _)
    | current => exact relative (.current _)

/-- The steps of a joined path are those of its parts, where a leading `.` of the second is lost. -/
theorem components_join {base path : Path} (relative : path.isAbsolute = false)
    (nonempty : base.components ≠ []) :
    (base.join path).components = base.components ++ path.components.filter (· ≠ .current) := by
  have hbase : base.text ≠ [] := fun h => nonempty (components_eq_nil_iff.mpr h)
  rw [join_relative relative, filter_components relative]
  obtain ⟨text⟩ := base
  by_cases hopens : Opens text
  · cases hopens with
    | root rest => rw [glued_slash, components_absolute, components_absolute, steps_glued]; rfl
    | here => rfl
    | current rest => rw [glued_current, components_current, components_current, steps_glued]; rfl
  · rw [components_relative (not_opens_glued hopens hbase _), components_relative hopens,
      steps_glued]

theorem join_congr {base base' path path' : Path} (base_eq : (base == base') = true)
    (path_eq : (path == path') = true) : (base.join path == base'.join path') = true := by
  rw [beq_iff] at base_eq path_eq ⊢
  have habsolute : path.isAbsolute = path'.isAbsolute := by
    rw [Bool.eq_iff_iff, isAbsolute_iff, isAbsolute_iff, path_eq]
  cases h : path.isAbsolute with
  | true =>
    rw [join, join, ← habsolute, h, if_pos rfl, if_pos rfl, path_eq]
  | false =>
    by_cases hbase : base.components = []
    · have htext : base.text = [] := components_eq_nil_iff.mp hbase
      have htext' : base'.text = [] := components_eq_nil_iff.mp (base_eq ▸ hbase)
      rw [join_relative h, join_relative (habsolute ▸ h), htext, htext']
      exact path_eq
    · rw [components_join h hbase, components_join (habsolute ▸ h) (base_eq ▸ hbase), base_eq,
        path_eq]

/-- Folding forgets how a path was spelled. -/
theorem resolve_congr (base : Path) {path path' : Path} (same : (path == path') = true) :
    base.resolve path = base.resolve path' := by
  have hjoin := beq_iff.mp (join_congr (BEq.refl base) same)
  rw [resolve, resolve, normalize, normalize, hjoin]

end ShaderTemplate.Path
