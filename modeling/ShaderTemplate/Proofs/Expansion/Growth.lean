import ShaderTemplate.Proofs.Expansion.Run

/-!
# What only grows

Two fields of a state are reported after every expansion, a failed one too: the files that were
opened and the journal. No step takes anything away from them. `State.Grows` says what a step may
add: files that can be read, each of them once, and events that are no failures.

It holds of every step, whether the expansion goes on or halts (`State.step_grows`), and so of every
run (`Progress.run_grows`). `Pass.Recorded` is what follows for a pass: the only failure in its
journal is the one it has ended with, as the last event.
-/

namespace ShaderTemplate

/-- A file that an expansion can open: its path was resolved, and it can be read. -/
structure Environment.CanOpen (env : Environment) (path : Path) : Prop where
  resolved : ∃ written, path = env.provider.absolute written
  readable : ∃ text, env.provider.read path = .ok text

/-- Whether no file is listed twice, in whatever spelling. -/
def Path.Distinct (paths : List Path) : Prop :=
  paths.Pairwise fun first second => (first == second) = false

/-- Whether an event is no failure. -/
def Event.IsQuiet (event : Event) : Prop :=
  event.severity ≠ .error

@[simp] theorem Event.isQuiet_iff {event : Event} :
    event.IsQuiet ↔ ∀ failure, event ≠ .failed failure := by
  unfold IsQuiet
  cases event <;> simp [severity, Failure.diagnostic]

/-- What has been opened stays opened and what has happened stays in the journal. What comes to them
is in order. -/
structure State.Grows (env : Environment) (before after : State) : Prop where
  opened : ∃ more, after.opened = before.opened ++ more ∧ ∀ path ∈ more, env.CanOpen path
  distinct : Path.Distinct before.opened → Path.Distinct after.opened
  journal : ∃ events, after.journal = events ++ before.journal ∧ ∀ event ∈ events, event.IsQuiet

/-- The state that an expansion has got to. -/
def Progress.state : Progress → State
  | running state => state
  | halted _ state => state

namespace State

variable {env : Environment} {state before middle after : State}

namespace Grows

theorem of_same (opened : after.opened = before.opened) (journal : after.journal = before.journal) :
    Grows env before after :=
  ⟨⟨[], by simp [opened], by simp⟩, fun distinct => by rwa [opened],
    ⟨[], by simp [journal], by simp⟩⟩

theorem refl (state : State) : Grows env state state :=
  of_same rfl rfl

theorem trans (first : Grows env before middle) (second : Grows env middle after) :
    Grows env before after := by
  obtain ⟨more, hmore, hopens⟩ := first.opened
  obtain ⟨more', hmore', hopens'⟩ := second.opened
  obtain ⟨events, hevents, hquiet⟩ := first.journal
  obtain ⟨events', hevents', hquiet'⟩ := second.journal
  refine ⟨⟨more ++ more', by rw [hmore', hmore, List.append_assoc], ?_⟩,
    fun distinct => second.distinct (first.distinct distinct),
    ⟨events' ++ events, by rw [hevents', hevents, List.append_assoc], ?_⟩⟩
  · exact List.forall_mem_append.mpr ⟨hopens, hopens'⟩
  · exact List.forall_mem_append.mpr ⟨hquiet', hquiet⟩

/-- What has been opened is still known to be. -/
theorem contains_opened (grows : Grows env before after) {path : Path}
    (h : before.opened.contains path = true) : after.opened.contains path = true := by
  obtain ⟨more, hmore, -⟩ := grows.opened
  simp only [hmore, List.contains_eq_any_beq, List.any_append, Bool.or_eq_true] at h ⊢
  exact .inl h

theorem record {event : Event} (quiet : event.IsQuiet) : Grows env state (state.record event) :=
  ⟨⟨[], by simp, by simp⟩, id, ⟨[event], rfl, by simpa using quiet⟩⟩

theorem foldl_record {events : List Event} (quiet : ∀ event ∈ events, event.IsQuiet) :
    Grows env state (events.foldl State.record state) := by
  rw [State.foldl_record]
  exact ⟨⟨[], by simp, by simp⟩, id, ⟨events.reverse, rfl, by simpa using quiet⟩⟩

theorem noteOpened {path : Path} (opens : env.CanOpen path) :
    Grows env state (state.noteOpened path) := by
  unfold State.noteOpened
  split
  · exact refl state
  · rename_i hnew
    refine ⟨⟨[path], rfl, by simpa using opens⟩, fun distinct => ?_, ⟨[], rfl, by simp⟩⟩
    refine List.pairwise_append.mpr ⟨distinct, List.pairwise_singleton _ _, ?_⟩
    intro other hother added hadded
    rw [List.mem_singleton.mp hadded, ← Bool.not_eq_true]
    intro hsame
    exact hnew (List.contains_iff_exists_mem_beq.mpr ⟨other, hother, BEq.symm hsame⟩)

end Grows

/-! ## Files -/

theorem openFile_grows {path : Path} (resolved : ∃ written, path = env.provider.absolute written)
    (indentation : Text) : Grows env state (state.openFile env path indentation).state := by
  unfold openFile
  split
  · exact .refl state
  · split
    · exact .refl state
    · rename_i text hread
      have hrecord : Grows env state (state.record (.opened path)) := .record (by simp)
      refine (hrecord.trans (.noteOpened ⟨resolved, text, hread⟩)).trans (.of_same ?_ ?_) <;>
        simp [Progress.state]

theorem closeFile_grows : Grows env state (state.closeFile env).state := by
  unfold closeFile
  split
  · split
    · exact .refl state
    · exact .of_same (by simp [Progress.state]) (by simp [Progress.state])
  · exact .of_same (by simp [Progress.state]) (by simp [Progress.state])

/-- A search finds resolved paths. -/
theorem resolved_of_mem_search {provider : Provider} {target : Text} {directories : List Path}
    {path : Path} (h : path ∈ (search provider target directories).2) :
    ∃ written, path = provider.absolute written := by
  induction directories with
  | nil => cases h
  | cons directory others ih =>
    unfold search at h
    dsimp only at h
    split at h
    · cases h
      exact ⟨_, rfl⟩
    · exact ih h

/-- Whatever an include names, looking for it is no failure, and what is found is resolved. -/
theorem locate_spec (env : Environment) (state : State) (target : IncludeTarget) :
    (∀ event ∈ (state.locate env target).1, event.IsQuiet) ∧
      ∀ path ∈ (state.locate env target).2, ∃ written, path = env.provider.absolute written := by
  cases target with
  | near target =>
    refine ⟨fun event hevent => ?_, fun path hpath => resolved_of_mem_search hpath⟩
    obtain ⟨candidate, found, rfl⟩ := tried_of_mem_search hevent
    simp
  | fixed target =>
    unfold locate
    dsimp only
    split
    · exact ⟨by simp, by rintro path ⟨⟩; exact ⟨_, rfl⟩⟩
    · simp

theorem includeFile_grows (indentation argument : Text) :
    Grows env state (state.includeFile env indentation argument).state := by
  unfold includeFile
  split
  · exact .refl state
  · rename_i target hparse
    obtain ⟨hquiet, hresolved⟩ := locate_spec env state target
    generalize state.locate env target = located at hquiet hresolved
    obtain ⟨events, found⟩ := located
    have hrecord : Grows env state (events.foldl record state) := .foldl_record hquiet
    cases found with
    | none => exact hrecord
    | some path => exact hrecord.trans (openFile_grows (hresolved path rfl) _)

/-! ## Loops -/

theorem beginWith_grows (header : LoopHeader) (reference : Text) (keys : List Text) :
    Grows env state (state.beginWith env header reference keys) := by
  cases keys with
  | nil =>
    have hrecord : Grows env state (state.record (.loopEmpty reference)) := .record (by simp)
    exact hrecord.trans (.of_same (by simp) (by simp [beginWith, enterLoop]))
  | cons key keys =>
    have hrecord : Grows env state (state.record (.loopBegun reference key)) := .record (by simp)
    exact hrecord.trans (.of_same (by simp) (by simp [beginWith, enterLoop]))

theorem beginLoop_grows (argument : Text) :
    Grows env state (state.beginLoop env argument).state := by
  rw [beginLoop_eq]
  split
  · exact .refl state
  · split
    · exact .refl state
    · exact beginWith_grows _ _ _

theorem endLoop_grows : Grows env state (state.endLoop env).state := by
  unfold endLoop
  split
  · exact .refl state
  · rename_i loop outer hloops
    split
    · exact .refl state
    · split
      · exact .of_same rfl rfl
      · cases loop.next? with
        | none => exact .of_same (by simp [Progress.state]) (by simp [Progress.state])
        | some found =>
          obtain ⟨key, next⟩ := found
          have hrecord : Grows env state (state.record (.loopKey loop.reference key)) :=
            .record (by simp)
          exact hrecord.trans (.of_same (by simp [Progress.state])
            (by simp [Progress.state, record]))

/-! ## Lines -/

theorem expandLine_grows (indentation line : Text) :
    Grows env state (state.expandLine env indentation line).state := by
  rw [expandLine_eq]
  split
  · exact .refl state
  · split
    · exact includeFile_grows _ _
    · exact beginLoop_grows _
    · exact .of_same (by simp [Progress.state]) (by simp [Progress.state])

theorem readLine_grows (raw : Text) : Grows env state (state.readLine env raw).state := by
  unfold readLine
  dsimp only
  split
  · exact endLoop_grows
  · split
    · split
      · split <;> exact .of_same rfl rfl
      · exact expandLine_grows _ _
    · exact expandLine_grows _ _

theorem step_grows (env : Environment) (state : State) :
    Grows env state (state.step env).state := by
  unfold step
  split
  · unfold settle
    split
    · exact .refl state
    · split <;> exact .refl state
  · rename_i input outer hinputs
    split
    · exact closeFile_grows
    · rename_i raw read hnext
      have hread : Grows env state { state with inputs := read :: outer } := .of_same rfl rfl
      exact hread.trans (readLine_grows raw)

end State

/-! ## Runs and passes -/

theorem Progress.run_grows {env : Environment} {steps : Nat} {progress : Progress}
    {result : Except Failure Unit} {final : State}
    (h : progress.run env steps = some (result, final)) :
    State.Grows env progress.state final := by
  induction steps generalizing progress with
  | zero =>
    cases progress with
    | running => simp [run] at h
    | halted =>
      cases h
      exact .refl _
  | succ steps ih =>
    cases progress with
    | halted =>
      cases h
      exact .refl _
    | running state =>
      rw [run] at h
      exact (State.step_grows env state).trans (ih h)

/-- What a pass reports besides its result: the files that it has opened, each of them once, and a
journal without any failure but the one that the pass has ended with. -/
structure Pass.Recorded (env : Environment) (pass : Pass) : Prop where
  opened : ∀ path ∈ pass.opened, env.CanOpen path
  distinct : Path.Distinct pass.opened
  journal : ∃ events, (∀ event ∈ events, event.IsQuiet) ∧
    pass.journal = events ++
      match pass.result with
      | .ok _ => []
      | .error failure => [.failed failure]

theorem Pass.recorded_ofHalted {env : Environment} {result : Except Failure Unit} {final : State}
    (grows : State.Grows env State.initial final) :
    (ofHalted (result, final)).Recorded env := by
  obtain ⟨opened, hopened, hopens⟩ := grows.opened
  obtain ⟨events, hevents, hquiet⟩ := grows.journal
  have hopened : final.opened = opened := hopened
  have hevents : final.journal = events := hevents.trans (List.append_nil events)
  have hopens : ∀ path ∈ final.opened, env.CanOpen path := hopened ▸ hopens
  have hdistinct : Path.Distinct final.opened := grows.distinct List.Pairwise.nil
  have hreverse : ∀ event ∈ final.journal.reverse, event.IsQuiet := by
    rw [hevents]
    exact fun event hevent => hquiet event (List.mem_reverse.mp hevent)
  cases result with
  | ok value => exact ⟨hopens, hdistinct, _, hreverse, (List.append_nil _).symm⟩
  | error failure => exact ⟨hopens, hdistinct, _, hreverse, rfl⟩

theorem Pass.recorded_of_within {env : Environment} {shader : Path} {steps : Nat} {pass : Pass}
    (run : within? steps env shader = some pass) : pass.Recorded env := by
  unfold within? at run
  dsimp only at run
  split at run
  · obtain ⟨⟨result, final⟩, hrun, rfl⟩ := Option.map_eq_some_iff.mp run
    have hopen := @State.openFile_grows env State.initial _ ⟨shader, rfl⟩ []
    exact recorded_ofHalted (hopen.trans (Progress.run_grows hrun))
  · cases run
    exact ⟨by simp, List.Pairwise.nil, [], by simp, rfl⟩

end ShaderTemplate
