import ShaderTemplate.Proofs.Expansion.Run

/-!
# The nesting of loops and files

Files and loops are opened within each other, and what is opened last is closed first. So an inner
loop was begun with at least as many files open as an outer one, and no loop with more than are open
now: a file in which a loop was begun cannot be closed before the loop is over.
-/

namespace ShaderTemplate

/-- Loops lie within the loops outside them, and within the open files. -/
structure State.Nested (state : State) : Prop where
  sorted : state.loops.Pairwise fun inner outer => outer.depth ≤ inner.depth
  within : ∀ loop ∈ state.loops, loop.depth ≤ state.inputs.length

namespace State.Nested

variable {env : Environment} {state after : State}

/-- Nesting looks at the depths of the loops and the number of files only. -/
theorem of_depths (nested : state.Nested)
    (loops : after.loops.map Loop.depth = state.loops.map Loop.depth)
    (inputs : state.inputs.length ≤ after.inputs.length) : after.Nested := by
  refine ⟨?_, fun loop hloop => ?_⟩
  · have hpairs := (List.pairwise_map (f := Loop.depth) (R := fun a b => b ≤ a)).mpr nested.sorted
    rw [← loops] at hpairs
    exact List.pairwise_map.mp hpairs
  · have hmem : loop.depth ∈ state.loops.map Loop.depth := loops ▸ List.mem_map_of_mem hloop
    obtain ⟨other, hother, hdepth⟩ := List.mem_map.mp hmem
    have := nested.within other hother
    omega

/-- The loops around the innermost one are nested too. -/
theorem leaveLoop (nested : state.Nested) {loop : Loop} {outer : List Loop}
    (loops : state.loops = loop :: outer) : (state.leaveLoop outer).Nested := by
  have hsorted := nested.sorted
  rw [loops] at hsorted
  exact ⟨(List.pairwise_cons.mp hsorted).2,
    fun other hother => nested.within other (loops ▸ List.mem_cons_of_mem _ hother)⟩

/-- A loop may begin in the file that is read. -/
theorem enterLoop (nested : state.Nested) (loop : Loop) (depth : loop.depth = state.inputs.length) :
    (state.enterLoop loop).Nested := by
  refine ⟨List.pairwise_cons.mpr ⟨fun other hother => ?_, nested.sorted⟩, fun other hother => ?_⟩
  · rw [depth]
    exact nested.within other hother
  · rcases List.mem_cons.mp hother with rfl | hother
    · exact Nat.le_of_eq depth
    · exact nested.within other hother

theorem move {raw : Text} (nested : state.Nested) (move : LineMove env raw state after) :
    after.Nested := by
  cases move with
  | nestedEnd word loops | nestedHeader word loops =>
    exact nested.of_depths (by simp [loops]) (Nat.le_refl _)
  | @nextKey loop outer key next word loops depth more =>
    obtain ⟨index, -, -, rfl⟩ := Loop.next?_eq_some more
    have henter := (nested.leaveLoop loops).enterLoop
      { loop with phase := .iteration (index + 1) } depth
    exact henter.of_depths (by simp) (by simp)
  | lastEnd word loops => exact (nested.leaveLoop loops).of_depths (by simp) (by simp)
  | skipped | code => exact nested.of_depths (by simp) (by simp)
  | openFile => exact nested.of_depths (by simp [foldl_record]) (by simp [foldl_record])
  | @beginLoop filled argument reference key header keys =>
    have henter := nested.enterLoop
      (state.loopOf header reference (key :: keys) (.iteration 0)) rfl
    exact henter.of_depths (by simp) (by simp)
  | @beginEmpty filled argument reference header =>
    have henter := nested.enterLoop (state.loopOf header reference [] (.skipping 0)) rfl
    exact henter.of_depths (by simp) (by simp)

theorem transition (nested : state.Nested) (transition : Transition env state after) :
    after.Nested := by
  cases transition with
  | @close input outer inputs atEnd above =>
    -- the innermost loop lies outside the closed file, and so do the others
    have hwithin : ∀ loop ∈ state.loops, loop.depth ≤ outer.length := by
      intro loop hloop
      cases hloops : state.loops with
      | nil => simp [hloops] at hloop
      | cons first rest =>
        have hfirst := above first (by simp [hloops])
        have hsorted := nested.sorted
        rw [hloops] at hsorted hloop
        rw [inputs, List.length_cons] at hfirst
        rcases List.mem_cons.mp hloop with rfl | hloop
        · omega
        · have := (List.pairwise_cons.mp hsorted).1 loop hloop
          omega
    exact ⟨by simpa using nested.sorted, by simpa using hwithin⟩
  | @line _ input read outer raw inputs next move =>
    have hread : State.Nested { state with inputs := read :: outer } :=
      nested.of_depths rfl (by simp [inputs])
    exact hread.move move

theorem opened (path : Path) (text : Text) : (initial.afterOpen env path text []).Nested :=
  ⟨by simp [initial], by simp [initial]⟩

end State.Nested

end ShaderTemplate
