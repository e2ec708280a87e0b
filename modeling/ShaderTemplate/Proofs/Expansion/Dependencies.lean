import ShaderTemplate.Proofs.Provider.Writing
import ShaderTemplate.Proofs.Session.Tracking

/-!
# What an expansion depends on

The files that a pass has opened are all that it depends on, apart from which files there are. A
pass over another provider with the same files comes to the same if the two agree on the contents
of the opened files, and of the file that the pass could not read, if it has ended with that
(`Session.depends_on_tracked`). So whoever watches the opened files misses no change of the result.

## Shape of the argument

`Environment.rereadBy` exchanges what the files hold and nothing else. Contents are asked for in one
place only, where a file is opened; all other parts of a step are the same function in both
environments. A file that is read is then among the opened ones, or the failure names it
(`Progress.HasRead`), and it stays so until the expansion halts, since opened files are not
forgotten. So a file on which the two environments differ is read at no step.
-/

namespace ShaderTemplate

/-- The environment with the same files under the same paths, the contents of which another provider
reads. -/
def Environment.rereadBy (env : Environment) (other : Provider) : Environment :=
  { env with
    provider := { other with absolute := env.provider.absolute, isFile := env.provider.isFile } }

namespace Environment

variable (env : Environment) (other : Provider)

@[simp] theorem rereadBy_absolute :
    (env.rereadBy other).provider.absolute = env.provider.absolute := rfl

@[simp] theorem rereadBy_isFile :
    (env.rereadBy other).provider.isFile = env.provider.isFile := rfl

@[simp] theorem rereadBy_read : (env.rereadBy other).provider.read = other.read := rfl

end Environment

/-- Whether a file was read up to here: it was opened, or it is the one that could not be read. -/
def Progress.HasRead (path : Path) : Progress → Prop
  | running state => state.opened.contains path = true
  | halted result state =>
    state.opened.contains path = true ∨ ∃ cause, result = .error (.unreadable path.text cause)

theorem Progress.hasRead_of_opened {path : Path} {progress : Progress}
    (h : progress.state.opened.contains path = true) : progress.HasRead path := by
  cases progress with
  | running state => exact h
  | halted result state => exact .inl h

/-- What was read is not forgotten. -/
theorem Progress.HasRead.of_run {env : Environment} {path : Path} {steps : Nat}
    {progress : Progress} {result : Except Failure Unit} {final : State}
    (read : progress.HasRead path) (h : progress.run env steps = some (result, final)) :
    (halted result final).HasRead path := by
  cases progress with
  | running state => exact hasRead_of_opened ((run_grows h).contains_opened read)
  | halted result state =>
    cases steps <;> cases h <;> exact read

/-! ## Steps -/

namespace State

variable {env : Environment} {other : Provider} {state : State}

theorem openFile_rereadBy {path : Path} {indentation : Text}
    (agree : ∀ file, (state.openFile env path indentation).HasRead file →
      other.read file = env.provider.read file) :
    state.openFile (env.rereadBy other) path indentation = state.openFile env path indentation := by
  unfold openFile at agree ⊢
  split
  · rfl
  · rename_i hclosed
    rw [if_neg hclosed] at agree
    have hread : other.read path = env.provider.read path := by
      apply agree
      cases env.provider.read path with
      | error cause => exact .inr ⟨cause, rfl⟩
      | ok text =>
        refine Progress.hasRead_of_opened ?_
        simp only [Progress.state, markLine_opened]
        exact contains_noteOpened path _
    rw [Environment.rereadBy_read, hread]
    rfl

theorem includeFile_rereadBy {indentation argument : Text}
    (agree : ∀ file, (state.includeFile env indentation argument).HasRead file →
      other.read file = env.provider.read file) :
    state.includeFile (env.rereadBy other) indentation argument =
      state.includeFile env indentation argument := by
  have hlocate (target : IncludeTarget) :
      state.locate (env.rereadBy other) target = state.locate env target := by
    cases target with
    | near target => exact search_congr rfl rfl
    | fixed target => rfl
  unfold includeFile at agree ⊢
  cases hparse : IncludeTarget.parse argument with
  | error fault => rfl
  | ok target =>
    simp only [hparse] at agree
    dsimp only
    rw [hlocate]
    generalize state.locate env target = located at agree
    obtain ⟨events, found⟩ := located
    cases found with
    | none => rfl
    | some path => exact openFile_rereadBy agree

theorem expandLine_rereadBy {indentation line : Text}
    (agree : ∀ file, (state.expandLine env indentation line).HasRead file →
      other.read file = env.provider.read file) :
    state.expandLine (env.rereadBy other) indentation line =
      state.expandLine env indentation line := by
  have hfill : state.fillLine (env.rereadBy other) line = state.fillLine env line := rfl
  rw [expandLine_eq] at agree ⊢
  rw [expandLine_eq, hfill]
  cases hline : state.fillLine env line with
  | error failure => rfl
  | ok filled =>
    simp only [hline] at agree
    dsimp only
    split
    · rename_i argument _ hdirective
      simp only [hdirective] at agree
      exact includeFile_rereadBy agree
    · rfl
    · rfl

theorem readLine_rereadBy {raw : Text}
    (agree : ∀ file, (state.readLine env raw).HasRead file →
      other.read file = env.provider.read file) :
    state.readLine (env.rereadBy other) raw = state.readLine env raw := by
  cases word : Directive.endFor.isOn (Text.trim raw) with
  | true =>
    rw [readLine_endFor word, readLine_endFor word]
    rfl
  | false =>
    by_cases expanding : state.Expanding
    · rw [readLine_expanding word expanding] at agree ⊢
      rw [readLine_expanding word expanding]
      exact expandLine_rereadBy agree
    · -- a line of a skipped body is not looked into
      unfold Expanding at expanding
      push Not at expanding
      obtain ⟨loop, hloop, nested, hphase⟩ := expanding
      obtain ⟨outer, hloops⟩ := List.head?_eq_some_iff.mp hloop
      rw [readLine_skipping word hloops hphase, readLine_skipping word hloops hphase]

theorem step_rereadBy
    (agree : ∀ file, (state.step env).HasRead file → other.read file = env.provider.read file) :
    state.step (env.rereadBy other) = state.step env := by
  cases hinputs : state.inputs with
  | nil =>
    unfold step
    rw [hinputs]
  | cons input outer =>
    cases hnext : input.next? with
    | none =>
      rw [step_of_end hinputs hnext, step_of_end hinputs hnext]
      rfl
    | some line =>
      obtain ⟨raw, read⟩ := line
      rw [step_of_line hinputs hnext] at agree ⊢
      rw [step_of_line hinputs hnext]
      exact readLine_rereadBy agree

end State

/-! ## Runs and passes -/

theorem Progress.run_rereadBy {env : Environment} {other : Provider} {steps : Nat}
    {progress : Progress} {result : Except Failure Unit} {final : State}
    (h : progress.run env steps = some (result, final))
    (agree : ∀ file, (halted result final).HasRead file →
      other.read file = env.provider.read file) :
    progress.run (env.rereadBy other) steps = some (result, final) := by
  induction steps generalizing progress with
  | zero =>
    cases progress with
    | running => simp [run] at h
    | halted => exact h
  | succ steps ih =>
    cases progress with
    | halted => exact h
    | running state =>
      rw [run] at h ⊢
      rw [State.step_rereadBy fun file hread => agree file (hread.of_run h)]
      exact ih h

/-- A file that the pass has read: one that it has opened, or the one that it could not read. -/
def Pass.HasRead (pass : Pass) (path : Path) : Prop :=
  pass.opened.contains path = true ∨ ∃ cause, pass.result = .error (.unreadable path.text cause)

theorem Pass.within?_rereadBy {env : Environment} {other : Provider} {shader : Path} {steps : Nat}
    {pass : Pass} (run : within? steps env shader = some pass)
    (agree : ∀ file, pass.HasRead file → other.read file = env.provider.read file) :
    within? steps (env.rereadBy other) shader = some pass := by
  unfold within? at run ⊢
  rw [Environment.rereadBy_absolute, Environment.rereadBy_isFile]
  dsimp only at run ⊢
  split at run
  · rename_i hfile
    rw [if_pos hfile]
    obtain ⟨⟨result, final⟩, hrun, rfl⟩ := Option.map_eq_some_iff.mp run
    have hagree : ∀ file, (Progress.halted result final).HasRead file →
        other.read file = env.provider.read file := by
      intro file hread
      apply agree
      cases result with
      | ok value => exact hread.imp_right fun ⟨cause, hcause⟩ => nomatch hcause
      | error failure =>
        exact hread.imp_right fun ⟨cause, hcause⟩ => ⟨cause, by cases hcause; rfl⟩
    have hopen := State.openFile_rereadBy fun file hread => hagree file (hread.of_run hrun)
    refine Option.map_eq_some_iff.mpr ⟨(result, final), ?_, rfl⟩
    exact (congrArg (Progress.run _ steps) hopen).trans (Progress.run_rereadBy hrun hagree)
  · rename_i hfile
    rw [if_neg hfile]
    exact run

/-- Providers that agree on what was read lead to the same pass. -/
theorem Pass.within?_of_agree {provider other : Provider} {dictionary : Dictionary}
    {config : Config} {shader : Path} {steps : Nat} {pass : Pass}
    (absolute : other.absolute = provider.absolute) (isFile : other.isFile = provider.isFile)
    (run : within? steps ⟨provider, dictionary, config⟩ shader = some pass)
    (agree : ∀ file, pass.HasRead file → other.read file = provider.read file) :
    within? steps ⟨other, dictionary, config⟩ shader = some pass := by
  have henv : (⟨other, dictionary, config⟩ : Environment) =
      Environment.rereadBy ⟨provider, dictionary, config⟩ other := by
    rw [Environment.rereadBy, ← absolute, ← isFile]
  rw [henv]
  exact within?_rereadBy run agree

/-- **A pass depends on the files that it opens.** Take two providers that know the same files under
the same paths. If they agree on the contents of all files that a pass over the first has opened, in
whatever spelling, and of the file that it could not read, if that was its failure, then the pass
over the second is the same: the result, the opened files and the journal.

So after a pass over a store that did not end with an unreadable file, whatever is done to a file
that is there but is not tracked leaves the next pass as it is, with the same files tracked. -/
theorem Session.depends_on_tracked {α : Type} :
    (∀ (provider other : Provider) (dictionary : Dictionary) (config : Config) (shader : Path)
      (steps : Nat) (pass : Pass),
      other.absolute = provider.absolute → other.isFile = provider.isFile →
      Pass.within? steps ⟨provider, dictionary, config⟩ shader = some pass →
      (∀ path, pass.opened.contains path = true → other.read path = provider.read path) →
      (∀ path cause, pass.result = .error (.unreadable path.text cause) →
        other.read path = provider.read path) →
      Pass.within? steps ⟨other, dictionary, config⟩ shader = some pass) ∧
    ∀ (session after : Session α) (store rewritten : FileStore) (pass : Pass) (path : Path),
      session.process? store.memory = some (pass, after) →
      (∀ file cause, pass.result ≠ .error (.unreadable file cause)) →
      store.isFile path = true → after.trackedPaths.contains path = false →
      FileStore.Rewrites path store rewritten →
      ∃ again, session.process? rewritten.memory = some (pass, again) ∧
        again.trackedPaths = after.trackedPaths := by
  constructor
  · intro provider other dictionary config shader steps pass absolute isFile run tracked named
    refine Pass.within?_of_agree absolute isFile run fun file read => ?_
    rcases read with hopened | ⟨cause, hcause⟩
    · exact tracked file hopened
    · exact named file cause hcause
  · intro session after store rewritten pass path processed readable there untracked rewrites
    obtain ⟨hrun, -⟩ := process?_eq_some processed
    rw [trackedPaths_of_process? processed] at untracked ⊢
    have hagree : ∀ file, pass.HasRead file → rewritten.read file = store.read file := by
      intro file read
      rcases read with hopened | ⟨cause, hcause⟩
      · exact rewrites.read_of_ne (Path.ne_of_contains untracked hopened)
      · exact absurd hcause (readable _ _)
    have habsolute : rewritten.memory.absolute = store.memory.absolute := rfl
    have hisFile : rewritten.memory.isFile = store.memory.isFile := rewrites.isFile_eq there
    obtain ⟨again, hagain⟩ := process?_of_within rewritten.listsAll_memory
      (Pass.within?_of_agree habsolute hisFile hrun hagree)
    exact ⟨again, hagain, trackedPaths_of_process? hagain⟩

/-- A file that includes another one, and a third file besides. -/
def FileStore.spareFile : FileStore :=
  (((FileStore.empty.write ⟨"/main".toList⟩ (.text "#include \"lib\"\nend\n".toList) none).write
    ⟨"/lib".toList⟩ (.text "x\n".toList) none).write ⟨"/spare".toList⟩ (.text "y\n".toList) none)

/-- The pass over these files, which does not open the third one. -/
def Pass.spareFile : Pass where
  result := .ok
    { pieces :=
        [.code ⟨⟨"/lib".toList⟩, 1, "x\n".toList⟩, .code ⟨⟨"/main".toList⟩, 2, "end\n".toList⟩] }
  opened := [⟨"/main".toList⟩, ⟨"/lib".toList⟩]
  journal :=
    [.opened ⟨"/main".toList⟩, .tried "lib".toList ⟨"/lib".toList⟩ true, .opened ⟨"/lib".toList⟩]

/-- The session that expands the first of these files. -/
def Session.spareFile : Session Unit :=
  .start ⟨"main".toList⟩ .empty { lineMarkers := false }

theorem Session.depends_on_tracked_spareFile :
    let rewritten := FileStore.spareFile.deny ⟨"/spare".toList⟩ "no".toList
    rewritten.read ⟨"/spare".toList⟩ ≠ FileStore.spareFile.read ⟨"/spare".toList⟩ ∧
      Pass.within? 8 ⟨rewritten.memory, .empty, { lineMarkers := false }⟩ ⟨"main".toList⟩ =
        some .spareFile ∧
      ∃ again, Session.spareFile.process? rewritten.memory = some (.spareFile, again) ∧
        again.trackedPaths = [⟨"/main".toList⟩, ⟨"/lib".toList⟩] := by
  intro rewritten
  have hrun : Pass.within? 8 ⟨FileStore.spareFile.memory, .empty, { lineMarkers := false }⟩
      ⟨"main".toList⟩ = some .spareFile := by rfl
  obtain ⟨after, hprocess⟩ := @Session.process?_of_within Unit Session.spareFile _ _ 8
    FileStore.spareFile.listsAll_memory hrun
  have hspare : Pass.spareFile.opened.contains ⟨"/spare".toList⟩ = false := by rfl
  have huntracked : after.trackedPaths.contains ⟨"/spare".toList⟩ = false := by
    rw [Session.trackedPaths_of_process? hprocess]
    exact hspare
  have hread : ∀ file, Pass.spareFile.opened.contains file = true →
      rewritten.read file = FileStore.spareFile.read file := by
    intro file hopened
    exact (FileStore.Rewrites.deny _).read_of_ne (Path.ne_of_contains hspare hopened)
  obtain ⟨hother, hsession⟩ := @Session.depends_on_tracked Unit
  refine ⟨by decide, ?_, ?_⟩
  · exact hother FileStore.spareFile.memory rewritten.memory _ _ _ 8 .spareFile rfl rfl hrun hread
      (by rintro path cause ⟨⟩)
  · obtain ⟨again, hagain, -⟩ := hsession _ _ _ rewritten .spareFile ⟨"/spare".toList⟩ hprocess
      (by rintro file cause ⟨⟩) rfl huntracked (.deny _)
    exact ⟨again, hagain, Session.trackedPaths_of_process? hagain⟩

end ShaderTemplate
