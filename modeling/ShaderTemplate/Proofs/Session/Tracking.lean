import ShaderTemplate.Proofs.Expansion.Growth
import ShaderTemplate.Proofs.Expansion.Termination
import ShaderTemplate.Session

/-!
# What a session tracks

A session tracks what its last pass has opened (`trackedPaths_of_process?`), whether the pass has
succeeded or not.
-/

namespace ShaderTemplate

/-- A pass within so many steps is the pass within the budget, if that is enough. -/
theorem Pass.run?_of_within {env : Environment} {shader : Path} {steps : Nat} {pass : Pass}
    (lists : env.provider.ListsAll) (run : within? steps env shader = some pass) :
    run? env shader = some pass := by
  obtain ⟨other, hother⟩ := Option.isSome_iff_exists.mp (run?_isSome lists shader)
  rw [hother, within?_unique hother run]

namespace Session

variable {α : Type} {session after : Session α} {provider : Provider} {pass : Pass}

/-- A session goes through a pass and then tracks the opened files. -/
theorem process?_eq_some (processed : session.process? provider = some (pass, after)) :
    Pass.run? ⟨provider, session.dictionary, session.config⟩ session.shader = some pass ∧
      after = { session with
        tracked := pass.opened.map fun path => ⟨path, provider.modified path⟩ } := by
  obtain ⟨found, hrun, hfound⟩ := Option.map_eq_some_iff.mp processed
  cases hfound
  exact ⟨hrun, rfl⟩

theorem trackedPaths_of_process? (processed : session.process? provider = some (pass, after)) :
    after.trackedPaths = pass.opened := by
  obtain ⟨-, rfl⟩ := process?_eq_some processed
  simp [trackedPaths, Function.comp_def]

/-- A pass that ends within some number of steps is the pass of the session. -/
theorem process?_of_within {steps : Nat} (lists : provider.ListsAll)
    (run : Pass.within? steps ⟨provider, session.dictionary, session.config⟩ session.shader =
      some pass) : ∃ after, session.process? provider = some (pass, after) :=
  ⟨_, Option.map_eq_some_iff.mpr ⟨pass, Pass.run?_of_within lists run, rfl⟩⟩

/-- A session gets through its pass over a provider that lists its files. -/
theorem exists_process? (lists : provider.ListsAll) (session : Session α) :
    ∃ pass after, session.process? provider = some (pass, after) := by
  obtain ⟨pass, hpass⟩ := Option.isSome_iff_exists.mp <|
    @Pass.run?_isSome ⟨provider, session.dictionary, session.config⟩ lists session.shader
  obtain ⟨after, processed⟩ := process?_of_within lists hpass
  exact ⟨pass, after, processed⟩

end Session

end ShaderTemplate
