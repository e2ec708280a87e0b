import ShaderTemplate.Proofs.Path.Join

/-!
# The spelling of folded paths

A folded path is written out from its steps, with one slash between neighbours. Reading it again
gives the same steps (`components_normalize`), so two folded paths that are the same are spelled
alike (`normalize_eq_of_beq`). Files are known under folded paths, hence each under one text.
-/

namespace ShaderTemplate

namespace Path

/-- A step that a segment of a text stands for. -/
structure Component.Written (step : Component) : Prop where
  segment : Component.ofSegment? step.text = some step
  unmarked : '/' ∉ step.text

theorem written_of_mem_steps {text : Text} {step : Component} (h : step ∈ steps text) :
    step.Written := by
  obtain ⟨segment, hmem, hsegment⟩ := List.mem_filterMap.mp h
  have hunmarked := Text.not_mem_of_mem_segments hmem
  unfold Component.ofSegment? at hsegment
  split at hsegment
  · cases hsegment
  · cases hsegment
  · cases hsegment
    exact ⟨rfl, by decide⟩
  · rename_i hdot hparent hempty
    cases hsegment
    refine ⟨?_, hunmarked⟩
    unfold Component.ofSegment? Component.text
    split <;> simp_all

/-- Each step of a path is an opening or stands for a segment. -/
theorem step_cases {path : Path} {step : Component} (h : step ∈ path.components) :
    step = .root ∨ step = .current ∨ step.Written := by
  obtain ⟨text⟩ := path
  by_cases hopens : Opens text
  · cases hopens with
    | root rest =>
      rw [components_absolute] at h
      rcases List.mem_cons.mp h with rfl | h
      · exact .inl rfl
      · exact .inr (.inr (written_of_mem_steps h))
    | here => exact .inr (.inl (List.mem_singleton.mp h))
    | current rest =>
      rw [components_current] at h
      rcases List.mem_cons.mp h with rfl | h
      · exact .inr (.inl rfl)
      · exact .inr (.inr (written_of_mem_steps h))
  · rw [components_relative hopens] at h
    exact .inr (.inr (written_of_mem_steps h))

theorem segments_joined_text {first : Component} {rest : List Component}
    (written : ∀ step ∈ first :: rest, step.Written) :
    Text.segments '/' (Text.joined '/' ((first :: rest).map Component.text)) =
      (first :: rest).map Component.text := by
  refine Text.segments_joined (by simp) fun piece hpiece => ?_
  obtain ⟨step, hstep, rfl⟩ := List.mem_map.mp hpiece
  exact (written step hstep).unmarked

/-- Written steps are read again from the text that they are joined to. -/
theorem steps_joined {body : List Component} (written : ∀ step ∈ body, step.Written) :
    steps (Text.joined '/' (body.map Component.text)) = body := by
  cases body with
  | nil => rfl
  | cons first rest =>
    rw [steps, segments_joined_text written, List.filterMap_map]
    exact (List.filterMap_congr fun step h => (written step h).segment).trans List.filterMap_some

/-- A text with an opening begins with a segment that is no step. -/
theorem Opens.idle_head {text : Text} (opens : Opens text) :
    ∃ idle others, Text.segments '/' text = idle :: others ∧
      Component.ofSegment? idle = none := by
  cases opens with
  | root rest => exact ⟨[], _, rfl, rfl⟩
  | here => exact ⟨['.'], [], rfl, rfl⟩
  | current rest => exact ⟨['.'], Text.segments '/' rest, rfl, rfl⟩

/-- Written steps are joined to a text without an opening. -/
theorem not_opens_joined {body : List Component} (written : ∀ step ∈ body, step.Written) :
    ¬ Opens (Text.joined '/' (body.map Component.text)) := by
  intro hopens
  cases body with
  | nil => cases hopens
  | cons first rest =>
    obtain ⟨idle, others, hsegments, hidle⟩ := hopens.idle_head
    rw [segments_joined_text written, List.map_cons] at hsegments
    obtain ⟨rfl, -⟩ := List.cons.inj hsegments
    rw [(written first List.mem_cons_self).segment] at hidle
    cases hidle

/-! ## The shape of folded steps -/

/-- The root may stand first, and all other steps are written as segments. -/
def Canonical (steps : List Component) : Prop :=
  ∃ start body, (start = [] ∨ start = [.root]) ∧ (∀ step ∈ body, step.Written) ∧
    steps = start ++ body

theorem canonical_foldComponent {folded : List Component} {step : Component}
    (canonical : Canonical folded.reverse)
    (cases : step = .root ∨ step = .current ∨ step.Written) :
    Canonical (foldComponent folded step).reverse := by
  obtain ⟨start, body, hstart, hwritten, hfolded⟩ := canonical
  have happend {step : Component} (written : step.Written) :
      Canonical (step :: folded).reverse := by
    refine ⟨start, body ++ [step], hstart, ?_, ?_⟩
    · exact List.forall_mem_append.mpr ⟨hwritten, by simpa using written⟩
    · rw [List.reverse_cons, hfolded, List.append_assoc]
  cases step with
  | root => exact ⟨[.root], [], .inr rfl, by simp, rfl⟩
  | current => exact ⟨start, body, hstart, hwritten, hfolded⟩
  | name text => exact happend (by simpa using cases)
  | parent =>
    have hparent : Component.parent.Written := ⟨rfl, by decide⟩
    unfold foldComponent
    dsimp only
    split
    · exact happend hparent
    · exact happend hparent
    · rename_i last outer hroot
      -- the step that is taken away is not the root
      rcases List.eq_nil_or_concat' body with rfl | ⟨init, step, rfl⟩
      · rcases hstart with rfl | rfl
        · simp at hfolded
        · rw [List.reverse_cons] at hfolded
          obtain ⟨houter, hlast⟩ := List.append_inj' (hfolded.trans (List.nil_append _).symm) rfl
          exact absurd (List.reverse_eq_nil_iff.mp houter) (hroot (by simpa using hlast))
      · rw [List.reverse_cons, ← List.append_assoc] at hfolded
        exact ⟨start, init, hstart, (List.forall_mem_append.mp hwritten).1,
          (List.append_inj' hfolded rfl).1⟩

theorem canonical_foldComponents (path : Path) : Canonical (foldComponents path.components) := by
  have hfold (components folded : List Component) (canonical : Canonical folded.reverse)
      (cases : ∀ step ∈ components, step = .root ∨ step = .current ∨ step.Written) :
      Canonical (components.foldl foldComponent folded).reverse := by
    induction components generalizing folded with
    | nil => exact canonical
    | cons step components ih =>
      obtain ⟨hstep, hrest⟩ := List.forall_mem_cons.mp cases
      exact ih _ (canonical_foldComponent canonical hstep) hrest
  exact hfold _ [] ⟨[], [], .inl rfl, by simp, rfl⟩ fun step h => step_cases h

theorem components_ofComponents {steps : List Component} (canonical : Canonical steps) :
    (ofComponents steps).components = steps := by
  obtain ⟨start, rest, hstart, hwritten, rfl⟩ := canonical
  rcases hstart with rfl | rfl
  · have hrelative : ofComponents rest = ⟨Text.joined '/' (rest.map Component.text)⟩ := by
      unfold ofComponents
      split
      · have hroot := (hwritten .root List.mem_cons_self).segment
        cases hroot
      · rfl
    rw [List.nil_append, hrelative, components_relative (not_opens_joined hwritten),
      steps_joined hwritten]
  · have habsolute : ofComponents (.root :: rest) =
        ⟨'/' :: Text.joined '/' (rest.map Component.text)⟩ := rfl
    rw [List.singleton_append, habsolute, components_absolute, steps_joined hwritten]

/-- A folded path takes the steps that are left of the path. -/
theorem components_normalize (path : Path) :
    path.normalize.components = foldComponents path.components :=
  components_ofComponents (canonical_foldComponents path)

/-- There is one spelling of a folded path. -/
theorem normalize_eq_of_beq {a b : Path} (same : (a.normalize == b.normalize) = true) :
    a.normalize = b.normalize := by
  rw [beq_iff, components_normalize, components_normalize] at same
  rw [normalize, normalize, same]

end Path

end ShaderTemplate
