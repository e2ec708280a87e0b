import Mathlib.Logic.Relation
import ShaderTemplate.Proofs.Expansion.Faults

/-!
# Runs of an expansion

A run goes from one reachable state to the next until a step halts. `halted_of_run` gives the state
in which a run has halted, and `settled_of_within` what is known of it after a success: no file, no
loop and no scope is open any more, and the pass shows what the state has collected.
-/

namespace ShaderTemplate

/-- The states that the expansion of a file goes through, between two lines. -/
inductive Reachable (env : Environment) (path : Path) : State → Prop
  | opened {state : State} (opens : State.initial.openFile env path [] = .running state) :
    Reachable env path state
  | step {state after : State} (reachable : Reachable env path state)
      (step : state.step env = .running after) : Reachable env path after

/-- What every file that is opened first has, and every transition keeps, holds in all states of a
run. -/
theorem Reachable.invariant {env : Environment} {path : Path} {holds : State → Prop}
    (opened : ∀ text, State.initial.Opens env path text →
      holds (State.initial.afterOpen env path text []))
    (kept : ∀ state after, holds state → Transition env state after → holds after)
    {state : State} (reachable : Reachable env path state) : holds state := by
  induction reachable with
  | opened opens =>
    obtain ⟨text, hopens, rfl⟩ := State.openFile_running opens
    exact opened text hopens
  | step _ step ih => exact kept _ _ ih (State.transition_of_step step)

/-- What some transitions lead to. -/
abbrev Transitions (env : Environment) : State → State → Prop :=
  Relation.ReflTransGen (Transition env)

theorem Reachable.transitions {env : Environment} {path : Path} {state after : State}
    (reachable : Reachable env path state) (transitions : Transitions env state after) :
    Reachable env path after := by
  induction transitions with
  | refl => exact reachable
  | tail _ last ih => exact .step ih (State.step_of_transition last)

namespace Progress

variable {env : Environment}

/-- A run that has halted stays as it is when it is given more steps. -/
theorem run_mono {steps more : Nat} {progress : Progress} {halted : Except Failure Unit × State}
    (h : progress.run env steps = some halted) (le : steps ≤ more) :
    progress.run env more = some halted := by
  induction steps generalizing progress more with
  | zero =>
    cases progress with
    | running state => simp [run] at h
    | halted result state => simpa [run] using h
  | succ steps ih =>
    cases progress with
    | running state =>
      obtain ⟨more, rfl⟩ : ∃ n, more = n + 1 := ⟨more - 1, by omega⟩
      rw [run] at h ⊢
      exact ih h (by omega)
    | halted result state => simpa [run] using h

/-- Two runs from one point halt alike. -/
theorem run_unique {steps steps' : Nat} {progress : Progress}
    {halted halted' : Except Failure Unit × State} (h : progress.run env steps = some halted)
    (h' : progress.run env steps' = some halted') : halted = halted' := by
  rcases Nat.le_total steps steps' with le | le
  · exact Option.some.inj ((run_mono h le).symm.trans h')
  · exact Option.some.inj (h.symm.trans (run_mono h' le))

/-- A quantity that goes down with every step bounds the number of steps. -/
theorem run_isSome_of_decreasing {holds : State → Prop} {measure : State → Nat}
    (kept : ∀ state after, holds state → Transition env state after → holds after)
    (decreases : ∀ state after, holds state → Transition env state after →
      measure after < measure state)
    {state : State} (start : holds state) {steps : Nat} (enough : measure state < steps) :
    ((Progress.running state).run env steps).isSome := by
  induction steps generalizing state with
  | zero => omega
  | succ steps ih =>
    rw [run]
    cases hstep : state.step env with
    | halted result final => simp [run]
    | running after =>
      have htransition := State.transition_of_step hstep
      have hlt := decreases _ _ start htransition
      exact ih (kept _ _ start htransition) (by omega)

/-- A run that has halted did so at its opening, or with a step from a reachable state. -/
theorem halted_of_run {path : Path} {steps : Nat} {progress : Progress}
    {result : Except Failure Unit} {final : State}
    (reachable : ∀ state, progress = .running state → Reachable env path state)
    (h : progress.run env steps = some (result, final)) :
    progress = .halted result final ∨
      ∃ state, Reachable env path state ∧ state.step env = .halted result final := by
  induction steps generalizing progress with
  | zero =>
    cases progress with
    | running state => simp [run] at h
    | halted result state => exact .inl (by simpa [run] using h)
  | succ steps ih =>
    cases progress with
    | halted result state => exact .inl (by simpa [run] using h)
    | running state =>
      have hstate := reachable state rfl
      rw [run] at h
      rcases ih (fun after hafter => .step hstate hafter) h with hhalt | ⟨state', h', hhalt⟩
      · exact .inr ⟨state, hstate, hhalt⟩
      · exact .inr ⟨state', h', hhalt⟩

end Progress

/-- What a run comes to from one of its states, it comes to from its start. -/
theorem Reachable.run_of_state {env : Environment} {path : Path} {state : State}
    (reachable : Reachable env path state) {steps : Nat} {halted : Except Failure Unit × State}
    (h : (Progress.running state).run env steps = some halted) :
    ∃ steps, (State.initial.openFile env path []).run env steps = some halted := by
  induction reachable generalizing steps with
  | opened opens => exact ⟨steps, opens ▸ h⟩
  | @step state after _ step ih =>
    have hrun : (Progress.running state).run env (steps + 1) = some halted := by
      rw [Progress.run, step]
      exact h
    exact ih hrun

namespace Pass

variable {env : Environment} {shader : Path}

/-- The pass of a run that halts after one of its states. -/
theorem within?_of_step {state final : State} {result : Except Failure Unit}
    (reachable : Reachable env (env.provider.absolute shader) state)
    (isFile : env.provider.isFile (env.provider.absolute shader) = true)
    (h : state.step env = .halted result final) :
    ∃ steps, within? steps env shader = some (ofHalted (result, final)) := by
  have hrun : (Progress.running state).run env 1 = some (result, final) := by
    rw [Progress.run, h]
    rfl
  obtain ⟨steps, hsteps⟩ := reachable.run_of_state hrun
  refine ⟨steps, ?_⟩
  unfold within?
  dsimp only
  rw [if_pos isFile, hsteps]
  rfl

/-- A pass does not depend on how many steps it may take, if they are enough. -/
theorem within?_unique {steps steps' : Nat} {pass pass' : Pass}
    (h : within? steps env shader = some pass) (h' : within? steps' env shader = some pass') :
    pass = pass' := by
  unfold within? at h h'
  dsimp only at h h'
  split at h
  · rename_i hfile
    rw [if_pos hfile] at h'
    obtain ⟨halted, hrun, rfl⟩ := Option.map_eq_some_iff.mp h
    obtain ⟨halted', hrun', rfl⟩ := Option.map_eq_some_iff.mp h'
    rw [Progress.run_unique hrun hrun']
  · rename_i hfile
    rw [if_neg hfile] at h'
    exact Option.some.inj (h.symm.trans h')

end Pass

/-! ## Success -/

/-- An expansion succeeds where nothing is open any more. -/
theorem State.settled_of_step {env : Environment} {state final : State}
    (h : state.step env = .halted (.ok ()) final) :
    final = state ∧ state.inputs = [] ∧ state.loops = [] ∧ state.scopes.depth = 0 := by
  rcases halted_of_step h with ⟨-, hsettled⟩ | ⟨failure, hresult, -⟩
  · exact hsettled
  · cases hresult

/-- A success comes from a reachable state in which nothing is open. -/
theorem settled_of_within {env : Environment} {shader : Path} {steps : Nat} {pass : Pass}
    {expanded : Expanded} (run : Pass.within? steps env shader = some pass)
    (ok : pass.result = .ok expanded) :
    ∃ state, Reachable env (env.provider.absolute shader) state ∧ state.inputs = [] ∧
      state.loops = [] ∧ state.scopes.depth = 0 ∧
      pass = Pass.ofHalted (.ok (), state) ∧ expanded.pieces = state.pieces.reverse := by
  unfold Pass.within? at run
  dsimp only at run
  split at run
  · obtain ⟨⟨result, final⟩, hrun, rfl⟩ := Option.map_eq_some_iff.mp run
    cases result with
    | error failure => simp [Pass.ofHalted] at ok
    | ok value =>
      rcases Progress.halted_of_run (fun state => .opened) hrun with h | ⟨state, hstate, h⟩
      · obtain ⟨failure, hresult, -⟩ := State.openFile_halted h
        cases hresult
      · obtain ⟨rfl, hinputs, hloops, hdepth⟩ := State.settled_of_step h
        simp only [Pass.ofHalted, Except.ok.injEq] at ok
        exact ⟨final, hstate, hinputs, hloops, hdepth, rfl, by rw [← ok]⟩
  · cases run
    simp at ok

end ShaderTemplate
