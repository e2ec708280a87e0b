import Mathlib.Data.List.DropRight
import ShaderTemplate.Proofs.Session.Tracking

/-!
# Polls between two passes

After a pass a session is polled, while files change and its parts are exchanged. A poll reports the
tracked files whose stamps differ from those at the last look, which was the last poll or the pass
itself (`Session.polls_report_changes`). So no change is lost, and none is reported twice.

## Shape of the argument

The state of a session between two passes is what it remembers of its files. `Session.Watches` says
that these are the stamps of some earlier world. A poll replaces that world by the present one, and
no other action touches it, so along a list of actions it is the world of the last poll.
-/

namespace ShaderTemplate

/-- What may happen between two passes of a session that looks at some world of files. -/
inductive Session.Action (World α : Type) where
  /-- files are written, touched, removed or denied -/
  | edit (change : World → World)
  | poll
  | setCallback (onChange : Path → α)
  | setShader (shader : Path)
  | setDictionary (dictionary : Dictionary)
  | addIncludePath (path : Path)

namespace Session

/-- The callback that an action sets. -/
def Action.callback? {World α : Type} : Action World α → Option (Path → α)
  | setCallback onChange => some onChange
  | _ => none

def Action.isPoll {World α : Type} : Action World α → Bool
  | poll => true
  | _ => false

variable {World α : Type} {view : World → Provider} {session : Session α} {paths : List Path}
  {modified : Path → Option Stamp}

/-- What an action makes of the world and of the session, which sees the world as a provider. -/
def act (view : World → Provider) : World × Session α → Action World α → World × Session α
  | (world, session), .edit change => (change world, session)
  | (world, session), .poll => (world, (session.poll (view world)).2)
  | (world, session), .setCallback onChange => (world, session.setCallback onChange)
  | (world, session), .setShader shader => (world, { session with shader })
  | (world, session), .setDictionary dictionary => (world, { session with dictionary })
  | (world, session), .addIncludePath path => (world, session.addIncludePath path)

/-- What a list of actions makes of the world and of the session. -/
def actAll (view : World → Provider) (start : World × Session α) (actions : List (Action World α)) :
    World × Session α :=
  actions.foldl (act view) start

/-- The actions up to the last poll, which are none if there is no poll. -/
def upToPoll (actions : List (Action World α)) : List (Action World α) :=
  actions.rdropWhile fun action => !action.isPoll

/-- The callback that is set last by these actions, or was set before. -/
def lastCallback (onChange : Option (Path → α)) (actions : List (Action World α)) :
    Option (Path → α) :=
  (actions.filterMap Action.callback?).getLast?.or onChange

/-- Whether a session watches these files, which had these stamps at its last look. -/
def Watches (paths : List Path) (modified : Path → Option Stamp) (session : Session α) : Prop :=
  session.tracked = paths.map fun path => ⟨path, modified path⟩

/-! ## Single actions -/

theorem Watches.trackedPaths (watches : session.Watches paths modified) :
    session.trackedPaths = paths := by
  unfold Watches at watches
  simp [Session.trackedPaths, watches, Function.comp_def]

theorem watches_of_process? {provider : Provider} {start : Session α} {pass : Pass}
    (processed : start.process? provider = some (pass, session)) :
    session.Watches pass.opened provider.modified ∧ session.onChange = start.onChange := by
  obtain ⟨-, rfl⟩ := process?_eq_some processed
  exact ⟨rfl, rfl⟩

/-- A poll finds the files whose stamps are not those of the last look, and looks at all of them. -/
theorem Watches.poll (watches : session.Watches paths modified) (provider : Provider) :
    let stale := paths.filter fun path => provider.modified path ≠ modified path
    (session.poll provider).1 =
        ⟨!stale.isEmpty, session.onChange.elim [] stale.map, stale.map .changed⟩ ∧
      (session.poll provider).2.Watches paths provider.modified := by
  intro stale
  have hstale : (session.tracked.filter fun file => provider.modified file.path ≠ file.modified).map
      Tracked.path = stale := by
    rw [watches, List.filter_map, List.map_map]
    exact List.map_id _
  refine ⟨?_, ?_⟩
  · simp only [Session.poll, hstale]
  · unfold Watches at watches ⊢
    simp [Session.poll, watches, Function.comp_def]

/-- A poll right after a look finds nothing. -/
theorem Watches.poll_again {provider : Provider}
    (watches : session.Watches paths provider.modified) :
    (session.poll provider).1 = ⟨false, [], []⟩ := by
  have hnone : paths.filter (fun path => provider.modified path ≠ provider.modified path) = [] := by
    simp
  rw [(watches.poll provider).1, hnone]
  cases session.onChange <;> rfl

/-- A poll remembers the stamps that it sees, and no other action changes what is remembered. -/
theorem Watches.act {world : World} (watches : session.Watches paths modified)
    (action : Action World α) :
    (Session.act view (world, session) action).2.Watches paths
      (if action.isPoll then (view world).modified else modified) := by
  cases action with
  | poll => exact (watches.poll _).2
  | edit | setCallback | setShader | setDictionary | addIncludePath => exact watches

/-- The world is not changed by a look at it. -/
theorem world_act_of_isPoll {start : World × Session α} {action : Action World α}
    (poll : action.isPoll = true) : (act view start action).1 = start.1 := by
  cases action with
  | poll => rfl
  | edit | setCallback | setShader | setDictionary | addIncludePath => cases poll

theorem onChange_act {world : World} (action : Action World α) :
    (act view (world, session) action).2.onChange = action.callback?.or session.onChange := by
  cases action <;> rfl

/-! ## Lists of actions -/

variable {start : World × Session α} {actions : List (Action World α)}

theorem actAll_concat (action : Action World α) :
    actAll view start (actions ++ [action]) = act view (actAll view start actions) action := by
  rw [actAll, List.foldl_append]
  rfl

theorem upToPoll_concat (action : Action World α) :
    upToPoll (actions ++ [action]) =
      if action.isPoll then actions ++ [action] else upToPoll actions := by
  rw [upToPoll, List.rdropWhile_concat]
  cases action.isPoll <;> rfl

theorem onChange_actAll :
    (actAll view start actions).2.onChange = lastCallback start.2.onChange actions := by
  induction actions using List.reverseRecOn with
  | nil => rfl
  | append_singleton actions action ih =>
    rw [actAll_concat, onChange_act, ih, lastCallback, lastCallback, List.filterMap_append]
    cases hcallback : action.callback? <;> simp [hcallback]

/-- A session remembers the stamps at the last poll, or at its start if there was none since. -/
theorem Watches.actAll (watches : start.2.Watches paths (view start.1).modified)
    (actions : List (Action World α)) :
    (Session.actAll view start actions).2.Watches paths
      (view (Session.actAll view start (upToPoll actions)).1).modified := by
  induction actions using List.reverseRecOn with
  | nil => exact watches
  | append_singleton actions action ih =>
    have hact : (Session.act view (Session.actAll view start actions) action).2.Watches paths
        (if action.isPoll then (view (Session.actAll view start actions).1).modified
          else (view (Session.actAll view start (upToPoll actions)).1).modified) := ih.act action
    rw [upToPoll_concat]
    cases hpoll : action.isPoll with
    | false =>
      rw [hpoll] at hact
      rw [actAll_concat]
      exact hact
    | true =>
      rw [hpoll] at hact
      rw [if_pos rfl, actAll_concat, world_act_of_isPoll hpoll]
      exact hact

/-- **Polls lose no change and report none twice.** A session goes through a pass, successful or
not, and then through any actions. A poll at this point reports the tracked files whose stamps
differ from those at the last look, which was the last poll before or the pass itself: it says
whether there are any, and calls the callback that was set last for each of them, once and in the
order in which they are tracked. The tracked files are those of the pass all along, each of them
once. Another poll right after it finds nothing, and neither does one right after the pass. -/
theorem polls_report_changes (view : World → Provider) (world : World) (before session : Session α)
    (pass : Pass) (processed : before.process? (view world) = some (pass, session))
    (actions : List (Action World α)) :
    let last := (actAll view (world, session) (upToPoll actions)).1
    let (now, current) := actAll view (world, session) actions
    let (report, after) := current.poll (view now)
    let stale := pass.opened.filter fun path =>
      (view now).modified path ≠ (view last).modified path
    (report.changed = true ↔
        ∃ path ∈ pass.opened, (view now).modified path ≠ (view last).modified path) ∧
      report.calls = (lastCallback before.onChange actions).elim [] stale.map ∧
      report.journal = stale.map .changed ∧
      Path.Distinct pass.opened ∧
      current.trackedPaths = pass.opened ∧ after.trackedPaths = pass.opened ∧
      (after.poll (view now)).1 = ⟨false, [], []⟩ ∧
      (session.poll (view world)).1 = ⟨false, [], []⟩ := by
  intro last
  obtain ⟨hwatches, hcallback⟩ := watches_of_process? processed
  obtain ⟨hrun, -⟩ := process?_eq_some processed
  have hcurrent : (actAll view (world, session) actions).2.Watches pass.opened
      (view last).modified := hwatches.actAll actions
  have honChange : (actAll view (world, session) actions).2.onChange =
      lastCallback before.onChange actions := hcallback ▸ onChange_actAll
  generalize actAll view (world, session) actions = reached at hcurrent honChange
  obtain ⟨now, current⟩ := reached
  obtain ⟨hreport, hafter⟩ := hcurrent.poll (view now)
  dsimp only at hreport honChange ⊢
  rw [hreport, honChange]
  refine ⟨?_, rfl, rfl, (Pass.recorded_of_within hrun).distinct, hcurrent.trackedPaths,
    hafter.trackedPaths, hafter.poll_again, hwatches.poll_again⟩
  simp

end Session

/-- A file that includes another one, and then ends a loop that was not begun. -/
def FileStore.brokenMain : FileStore :=
  (FileStore.empty.write ⟨"/main".toList⟩ (.text "#include \"lib\"\n#endfor\n".toList) none).write
    ⟨"/lib".toList⟩ (.text "x\n".toList) none

/-- The pass over these files. -/
def Pass.brokenMain : Pass where
  result := .error (.unexpectedEndFor ⟨"/main".toList, 2⟩)
  opened := [⟨"/main".toList⟩, ⟨"/lib".toList⟩]
  journal :=
    [.opened ⟨"/main".toList⟩, .tried "lib".toList ⟨"/lib".toList⟩ true, .opened ⟨"/lib".toList⟩,
      .failed (.unexpectedEndFor ⟨"/main".toList, 2⟩)]

/-- The session that expands these files. -/
def Session.brokenMain : Session Path :=
  .start ⟨"main".toList⟩ .empty { lineMarkers := false }

/-- The included file vanishes before a poll and is there again after it. The other file is denied,
which does not change its stamp. -/
def Session.brokenMainActions : List (Session.Action FileStore Path) :=
  [.edit fun store => store.remove ⟨"/lib".toList⟩, .poll,
    .edit fun store => store.write ⟨"/lib".toList⟩ (.text []) none, .setCallback id,
    .edit fun store => store.deny ⟨"/main".toList⟩ "no".toList]

theorem Session.polls_report_changes_brokenMain :
    ∃ session,
      Session.brokenMain.process? FileStore.brokenMain.memory = some (.brokenMain, session) ∧
        let (now, current) :=
          actAll FileStore.memory (FileStore.brokenMain, session) Session.brokenMainActions
        let (report, after) := current.poll now.memory
        report.changed = true ∧ report.calls = [⟨"/lib".toList⟩] ∧
          after.trackedPaths = [⟨"/main".toList⟩, ⟨"/lib".toList⟩] ∧
          (after.poll now.memory).1 = ⟨false, [], []⟩ := by
  have hrun : Pass.within? 8 ⟨FileStore.brokenMain.memory, .empty, { lineMarkers := false }⟩
      ⟨"main".toList⟩ = some .brokenMain := by rfl
  obtain ⟨session, hprocess⟩ :=
    @process?_of_within _ Session.brokenMain _ _ 8 FileStore.brokenMain.listsAll_memory hrun
  obtain ⟨hchanged, hcalls, -, -, -, htracked, hagain, -⟩ :=
    polls_report_changes FileStore.memory FileStore.brokenMain .brokenMain session .brokenMain
      hprocess Session.brokenMainActions
  refine ⟨session, hprocess, ?_, ?_, htracked, hagain⟩
  · -- the stamp of the file is 1 now and was missing at the poll
    exact hchanged.mpr ⟨⟨"/lib".toList⟩, List.mem_cons_of_mem _ List.mem_cons_self,
      Option.some_ne_none (Stamp.file 1)⟩
  · exact hcalls.trans (by rfl)

end ShaderTemplate
