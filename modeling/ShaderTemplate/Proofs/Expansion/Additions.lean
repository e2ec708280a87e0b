import ShaderTemplate.Proofs.Dictionary.Lookup
import ShaderTemplate.Proofs.Session.Tracking

/-!
# What is added beside

A pass that succeeds does not notice what is added to its dictionary under new keys, or to its
include paths after the others (`Session.additions_keep_success`): everything that it has asked for
was there already, and is still found first.

This holds of a success only. A name that stands for nothing may stand for something when a key is
added, and an include that is not found may be found in a further directory.

## Shape of the argument

`Environment.enlarge` makes both additions at once. A look-up that has found something finds the
same in a dictionary with more keys (`Dictionary.Extends`), and a search that has found a file finds
it with more directories behind. So each transition is a transition in the enlarged environment too
(`Transition.enlarge`), with the same state after it.
-/

namespace ShaderTemplate

/-! ## Dictionaries with more keys -/

/-- Whether a dictionary has all entries of the top level of another one. -/
def Dictionary.Extends (d larger : Dictionary) : Prop :=
  ∀ key value, d.entry? key = some value → larger.entry? key = some value

/-- The dictionaries that come of a dictionary by storing values under new keys of the top level. -/
inductive Dictionary.Enlarged (d : Dictionary) : Dictionary → Prop
  | same : Enlarged d d
  | add {larger : Dictionary} (enlarged : Enlarged d larger) {key : Text} (value : Value)
      (create : Bool) (dotless : '.' ∉ key) (fresh : key ∉ larger.topKeys) :
      Enlarged d (larger.set key value create).1

theorem Entry.weightOfAll_append (entries more : List Entry) :
    Entry.weightOfAll (entries ++ more) =
      Entry.weightOfAll entries + Entry.weightOfAll more := by
  induction entries with
  | nil => simp [Entry.weightOfAll]
  | cons entry entries ih =>
    rw [List.cons_append, Entry.weightOfAll, Entry.weightOfAll, ih]
    omega

namespace Dictionary

variable {d larger : Dictionary}

theorem Enlarged.extends (enlarged : d.Enlarged larger) : d.Extends larger := by
  induction enlarged with
  | same => exact fun _ _ h => h
  | @add larger enlarged key value create dotless fresh ih =>
    intro other found hfound
    have hlarger := ih other found hfound
    have hne : other ≠ key := by
      rintro rfl
      rw [(larger.entry?_eq_none_iff).mpr fresh] at hlarger
      cases hlarger
    rw [set_of_not_mem larger dotless, entry?_put, if_neg hne]
    exact hlarger

theorem Enlarged.weight_le (enlarged : d.Enlarged larger) : d.weight ≤ larger.weight := by
  induction enlarged with
  | same => exact Nat.le_refl _
  | @add larger enlarged key value create dotless fresh ih =>
    rw [set_of_not_mem larger dotless, put_of_not_mem larger fresh]
    obtain ⟨entries⟩ := larger
    simp only [Dictionary.weight, Entry.weightOfAll_append] at ih ⊢
    omega

/-- Only the first key of a path is looked up on the top level. -/
theorem Extends.get? (extension : d.Extends larger) {path : Text} {value : Value}
    (found : d.get? path = some value) : larger.get? path = some value := by
  unfold Dictionary.get? at found ⊢
  cases hkeys : Text.segments '.' path with
  | nil => exact absurd hkeys (Text.segments_ne_nil '.' path)
  | cons key rest =>
    rw [hkeys] at found
    obtain ⟨inner, hentry, hrest⟩ := Option.bind_eq_some_iff.mp found
    exact Option.bind_eq_some_iff.mpr ⟨inner, extension key inner hentry, hrest⟩

end Dictionary

namespace Names

variable {names : Names} {larger : Dictionary} {place : Place}

theorem resolve?_of_extends (extension : names.dictionary.Extends larger) {name resolved : Text}
    (h : names.resolve? name = some resolved) :
    resolve? { names with dictionary := larger } name = some resolved := by
  unfold resolve? at h ⊢
  dsimp only at h ⊢
  split at h
  · rename_i hfound
    rw [← h, if_pos]
    rcases Bool.or_eq_true_iff.mp hfound with hliteral | hcontained
    · exact Bool.or_eq_true_iff.mpr (.inl hliteral)
    · obtain ⟨value, hvalue⟩ := Option.isSome_iff_exists.mp hcontained
      refine Bool.or_eq_true_iff.mpr (.inr ?_)
      exact Option.isSome_iff_exists.mpr ⟨value, extension.get? hvalue⟩
  · cases h

theorem levelOf_of_extends (extension : names.dictionary.Extends larger) {reference : Text}
    {found : Text × List Text} (h : names.levelOf place reference = .ok found) :
    levelOf { names with dictionary := larger } place reference = .ok found := by
  obtain ⟨resolved, keys⟩ := found
  obtain ⟨hresolve, level, hlevel, hkeys⟩ := levelOf_eq_ok_iff.mp h
  exact levelOf_eq_ok_iff.mpr
    ⟨resolve?_of_extends extension hresolve, level, extension.get? hlevel, hkeys⟩

theorem textOf_of_extends (extension : names.dictionary.Extends larger) {name text : Text}
    (h : names.textOf place name = .ok text) :
    textOf { names with dictionary := larger } place name = .ok text := by
  unfold textOf at h ⊢
  cases hresolve : names.resolve? name with
  | none =>
    rw [hresolve] at h
    cases h
  | some resolved =>
    rw [hresolve] at h
    rw [resolve?_of_extends extension hresolve]
    dsimp only at h ⊢
    cases hliteral : Text.unquote? resolved with
    | some literal => simpa only [hliteral] using h
    | none =>
      simp only [hliteral] at h ⊢
      split at h
      · rename_i string hget
        rw [extension.get? hget]
        exact h
      · cases h

end Names

/-! ## Steps -/

/-- The environment with another dictionary, and with further directories to search after the
others. -/
def Environment.enlarge (env : Environment) (larger : Dictionary) (directories : List Path) :
    Environment :=
  { env with
    dictionary := larger
    config := { env.config with includePaths := env.config.includePaths ++ directories } }

variable {env : Environment} {larger : Dictionary} {directories : List Path}

namespace State

variable {state : State}

theorem search_append {provider : Provider} {target : Text} {searched : List Path}
    {events : List Event} {path : Path}
    (h : search provider target searched = (events, some path)) (more : List Path) :
    search provider target (searched ++ more) = (events, some path) := by
  induction searched generalizing events with
  | nil => cases h
  | cons directory others ih =>
    rw [List.cons_append]
    unfold search at h ⊢
    dsimp only at h ⊢
    split at h
    · rename_i hfile
      rw [if_pos hfile]
      exact h
    · rename_i hfile
      obtain ⟨hevents, hfound⟩ := Prod.mk.inj h
      have hothers := ih (Prod.ext rfl hfound)
      rw [if_neg hfile, hothers]
      exact congrArg (·, some path) hevents

theorem locate_enlarge {target : IncludeTarget} {events : List Event} {path : Path}
    (h : state.locate env target = (events, some path)) :
    state.locate (env.enlarge larger directories) target = (events, some path) := by
  cases target with
  | near target => exact search_append h directories
  | fixed target => exact h

theorem fillLine_enlarge (extension : env.dictionary.Extends larger) {line filled : Text}
    (h : state.fillLine env line = .ok filled) :
    state.fillLine (env.enlarge larger directories) line = .ok filled := by
  have hnames : (state.names env).dictionary.Extends larger := extension
  exact Template.fill_of_ok (fun _ _ => Names.textOf_of_extends hnames) h

end State

/-- What is done with a line is done in the enlarged environment too. -/
theorem LineMove.enlarge (extension : env.dictionary.Extends larger) {raw : Text}
    {state after : State} (move : LineMove env raw state after) :
    LineMove (env.enlarge larger directories) raw state after := by
  have hfill {filled : Text} (fill : state.fillLine env (Text.trim raw) = .ok filled) :
      state.fillLine (env.enlarge larger directories) (Text.trim raw) = .ok filled :=
    State.fillLine_enlarge extension fill
  have hnames : (state.names env).dictionary.Extends larger := extension
  have hlevel {reference : Text} {found : Text × List Text}
      (level : (state.names env).levelOf state.place reference = .ok found) :
      (state.names (env.enlarge larger directories)).levelOf state.place reference = .ok found :=
    Names.levelOf_of_extends hnames level
  cases move with
  | nestedEnd word loops depth phase => exact .nestedEnd word loops depth phase
  | nextKey word loops depth more => exact .nextKey word loops depth more
  | lastEnd word loops depth phase done => exact .lastEnd word loops depth phase done
  | nestedHeader word loops phase header => exact .nestedHeader word loops phase header
  | skipped word loops phase header => exact .skipped word loops phase header
  | openFile word expanding fill directive parse located opens =>
    exact .openFile word expanding (hfill fill) directive parse (State.locate_enlarge located)
      ⟨opens.closed, opens.readable⟩
  | beginLoop word expanding fill noInclude directive parse level =>
    exact .beginLoop word expanding (hfill fill) noInclude directive parse (hlevel level)
  | beginEmpty word expanding fill noInclude directive parse level =>
    exact .beginEmpty word expanding (hfill fill) noInclude directive parse (hlevel level)
  | code word expanding fill noInclude noLoop =>
    exact .code word expanding (hfill fill) noInclude noLoop

theorem Transition.enlarge (extension : env.dictionary.Extends larger) {state after : State}
    (transition : Transition env state after) :
    Transition (env.enlarge larger directories) state after := by
  cases transition with
  | close inputs atEnd nested => exact .close inputs atEnd nested
  | line inputs next move => exact .line inputs next (move.enlarge extension)

/-! ## Runs and passes -/

theorem Progress.run_enlarge (extension : env.dictionary.Extends larger) {steps : Nat}
    {progress : Progress} {final : State} (h : progress.run env steps = some (.ok (), final)) :
    progress.run (env.enlarge larger directories) steps = some (.ok (), final) := by
  induction steps generalizing progress with
  | zero =>
    cases progress with
    | running => simp [run] at h
    | halted => exact h
  | succ steps ih =>
    cases progress with
    | halted => exact h
    | running state =>
      rw [run] at h ⊢
      cases hstep : state.step env with
      | running after =>
        have htransition : Transition (env.enlarge larger directories) state after :=
          (State.transition_of_step hstep).enlarge extension
        rw [State.step_of_transition htransition]
        rw [hstep] at h
        exact ih h
      | halted result last =>
        rw [hstep] at h
        obtain ⟨rfl, rfl⟩ : result = .ok () ∧ last = final := by
          cases steps <;> simpa [run] using h
        -- nothing is open any more, and the environment is not asked
        obtain ⟨-, hinputs, -, -⟩ := State.settled_of_step hstep
        have hsettle : state.step (env.enlarge larger directories) = state.step env := by
          unfold State.step
          rw [hinputs]
        rw [hsettle, hstep]
        cases steps <;> rfl

namespace Pass

variable {shader : Path} {pass : Pass} {expanded : Expanded}

theorem within?_enlarge (extension : env.dictionary.Extends larger) {steps : Nat}
    (run : within? steps env shader = some pass) (ok : pass.result = .ok expanded) :
    within? steps (env.enlarge larger directories) shader = some pass := by
  unfold within? at run ⊢
  dsimp only at run
  split at run
  · rename_i hfile
    obtain ⟨⟨result, final⟩, hrun, rfl⟩ := Option.map_eq_some_iff.mp run
    cases result with
    | error failure => simp [ofHalted] at ok
    | ok value =>
      have hopen : State.initial.openFile (env.enlarge larger directories)
          (env.provider.absolute shader) [] =
            State.initial.openFile env (env.provider.absolute shader) [] := rfl
      refine (if_pos hfile).trans (Option.map_eq_some_iff.mpr ⟨(.ok (), final), ?_, rfl⟩)
      exact (congrArg (Progress.run _ steps) hopen).trans (Progress.run_enlarge extension hrun)
  · cases run
    cases ok

/-- A pass that halts within some number of steps is the same with more steps. -/
theorem within?_mono {steps more : Nat} (run : within? steps env shader = some pass)
    (le : steps ≤ more) : within? more env shader = some pass := by
  unfold within? at run ⊢
  dsimp only at run ⊢
  split at run
  · rename_i hfile
    obtain ⟨halted, hrun, hpass⟩ := Option.map_eq_some_iff.mp run
    rw [if_pos hfile, Progress.run_mono hrun le, Option.map_some, hpass]
  · rename_i hfile
    rw [if_neg hfile]
    exact run

/-- The budget does not get smaller with a larger dictionary. -/
theorem run?_enlarge (enlarged : env.dictionary.Enlarged larger)
    (run : run? env shader = some pass) (ok : pass.result = .ok expanded) :
    run? (env.enlarge larger directories) shader = some pass := by
  refine within?_mono (within?_enlarge enlarged.extends run ok) ?_
  exact Nat.pow_le_pow_left (Nat.add_le_add_right enlarged.weight_le 2) _

end Pass

/-! ## Sessions -/

theorem Session.config_addIncludePaths {α : Type} (session : Session α) (directories : List Path) :
    directories.foldl addIncludePath session =
      { session with
        config := { session.config with
          includePaths := session.config.includePaths ++ directories } } := by
  induction directories generalizing session with
  | nil => simp
  | cons directory directories ih =>
    rw [List.foldl_cons, ih]
    simp [addIncludePath, Config.addIncludePath]

/-- **What is added beside changes no success.** Take a session whose pass succeeds. Store values of
any kind under keys that the top level of the dictionary does not have, or add directories to the
include paths, or do both. The pass of the session is then the same: the expanded file with its
chunks and origins, the opened files and the journal. The session tracks the same files, with the
same stamps. -/
theorem Session.additions_keep_success {α : Type} (session after : Session α) (provider : Provider)
    (pass : Pass) (expanded : Expanded) (larger : Dictionary) (directories : List Path)
    (processed : session.process? provider = some (pass, after))
    (ok : pass.result = .ok expanded) (enlarged : session.dictionary.Enlarged larger) :
    ∃ again,
      (directories.foldl addIncludePath { session with dictionary := larger }).process? provider =
          some (pass, again) ∧
        again.tracked = after.tracked := by
  obtain ⟨hrun, rfl⟩ := process?_eq_some processed
  rw [config_addIncludePaths]
  refine ⟨_, Option.map_eq_some_iff.mpr ⟨pass, ?_, rfl⟩, rfl⟩
  exact Pass.run?_enlarge enlarged hrun ok

/-- A file that includes another one, which is in two directories. -/
def FileStore.twoCopies : FileStore :=
  let main := "#include \"lib\"\n#\x7bt\x7d\n".toList
  ((FileStore.empty.write ⟨"/main".toList⟩ (.text main) none).write
    ⟨"/inc/lib".toList⟩ (.text "y\n".toList) none).write
      ⟨"/more/lib".toList⟩ (.text "z\n".toList) none

/-- The pass over these files that looks for the included one in the first directory. -/
def Pass.twoCopies : Pass where
  result := .ok
    { pieces :=
        [.code ⟨⟨"/inc/lib".toList⟩, 1, "y\n".toList⟩, .code ⟨⟨"/main".toList⟩, 2, "x\n".toList⟩] }
  opened := [⟨"/main".toList⟩, ⟨"/inc/lib".toList⟩]
  journal :=
    [.opened ⟨"/main".toList⟩, .tried "lib".toList ⟨"/lib".toList⟩ false,
      .tried "lib".toList ⟨"/inc/lib".toList⟩ true, .opened ⟨"/inc/lib".toList⟩]

/-- The session that expands the first of these files. -/
def Session.twoCopies : Session Unit :=
  .start ⟨"main".toList⟩ (.ofList [("t".toList, .string "x".toList)])
    { includePaths := [⟨"/inc".toList⟩], lineMarkers := false }

theorem Session.additions_keep_success_twoCopies :
    let larger := (Session.twoCopies.dictionary.set "u".toList (.dictionary .empty) false).1
    ∃ after again,
      Session.twoCopies.process? FileStore.twoCopies.memory = some (.twoCopies, after) ∧
        Session.process? ([⟨"/more".toList⟩].foldl Session.addIncludePath
          { Session.twoCopies with dictionary := larger }) FileStore.twoCopies.memory =
            some (.twoCopies, again) ∧
        again.tracked = after.tracked := by
  intro larger
  have hrun : Pass.within? 8 ⟨FileStore.twoCopies.memory, Session.twoCopies.dictionary,
      Session.twoCopies.config⟩ ⟨"main".toList⟩ = some .twoCopies := by rfl
  obtain ⟨after, hprocess⟩ := @Session.process?_of_within Unit Session.twoCopies _ _ 8
    FileStore.twoCopies.listsAll_memory hrun
  have henlarged : Session.twoCopies.dictionary.Enlarged larger :=
    .add .same _ _ (by decide) (by decide)
  obtain ⟨again, hagain, htracked⟩ := Session.additions_keep_success Session.twoCopies after _ _ _
    larger [⟨"/more".toList⟩] hprocess rfl henlarged
  exact ⟨after, again, hprocess, hagain, htracked⟩

end ShaderTemplate
