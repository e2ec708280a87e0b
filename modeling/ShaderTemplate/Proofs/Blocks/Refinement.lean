import ShaderTemplate.Proofs.Blocks.Setting
import ShaderTemplate.Proofs.Expansion.Termination

/-!
# The machine expands by blocks

`State.step` keeps stacks of files, loops and scopes, and reads the body of a loop again by moving a
cursor back. `FileStore.expansion_eq_expand` says that this comes to the same pass as the recursion
`Blocks.expand`: the same pieces of output, opened files and journal, and the same success or
failure.

## Shape of the simulation

The proof goes along the recursion of the evaluator. `yields_readBlock` says: if what the evaluator
reports on a block leads to a pass, provided that the machine gets there from the end of the block,
then the machine gets there from where the block goes on. So the rest of the run is a hypothesis,
and a loop or an include is dealt with by handing over the rest of the block.
-/

namespace ShaderTemplate

namespace Blocks

variable {env : Environment} {pass : Pass}

/-! ## Skipped bodies -/

namespace Setting

variable {scene : Scene} {here : List Frame}

/-- A loop over no keys, whose body is skipped. -/
def skipping (setting : Setting scene here) (place : Place) (header : LoopHeader)
    (reference : Text) (nested : Nat) : Loop :=
  ⟨setting.outer.length + 1, place, header, reference, [], .skipping nested⟩

variable (setting : Setting scene here) {place : Place} {header : LoopHeader} {reference : Text}

/-- The header of a loop without keys leads to its body, which is skipped. -/
theorem beginWith_nil {line : Nat} {trace : Trace} :
    (setting.state line trace).beginWith env header reference [] =
      (setting.state line
        ((trace.note [.loopEmpty reference]).write (loopMark env .empty))).enterLoop
        (setting.skipping ⟨scene.path.text, line⟩ header reference 0) := by
  have hempty : (setting.state line trace).record (.loopEmpty reference) =
      setting.state line (trace.note [.loopEmpty reference]) :=
    Trace.record_state (by simp)
  simp only [State.beginWith, hempty]
  unfold state
  rw [Trace.markLoop_state]
  rfl

theorem loops_skipping {line nested : Nat} {trace : Trace} :
    ((setting.state line trace).enterLoop
      (setting.skipping place header reference nested)).loops =
        setting.skipping place header reference nested :: (setting.own ++ setting.around) := rfl

/-- Leaving a skipped body closes a scope that binds nothing. -/
theorem leaveLoop_skipping {line nested : Nat} {trace : Trace} :
    ((setting.state line trace).enterLoop
      (setting.skipping place header reference nested)).leaveLoop (setting.own ++ setting.around) =
        setting.state line trace := by
  have hpop : ((scopesOf (here ++ scene.around)).push []).pop = scopesOf (here ++ scene.around) :=
    Scopes.pop_push (Scopes.filled_ofFrames _) []
  unfold state
  rw [← hpop]
  rfl

/-- What the machine comes to from the end of a skipped body, so many lines after `line`, or from
the end of the file, for want of an `#endfor`. -/
def AfterSkip (env : Environment) (pass : Pass) (place : Place) (reference : Text) (trace : Trace)
    (line : Nat) : Option Nat → Prop
  | some skipped =>
    (Progress.running <| setting.state (line + skipped + 1)
      ((trace.write (loopMark env (.ended reference))).write
        (lineMark env scene (line + skipped + 1)))).Yields env pass
  | none => pass = trace.pass (.error (.unterminatedFor place scene.path.text))

theorem afterSkip_map_succ {trace : Trace} {line : Nat} {found : Option Nat} :
    setting.AfterSkip env pass place reference trace line (found.map (· + 1)) ↔
      setting.AfterSkip env pass place reference trace (line + 1) found := by
  cases found with
  | none => rfl
  | some skipped =>
    have hline : line + (skipped + 1) + 1 = line + 1 + skipped + 1 := by omega
    simp only [Option.map_some, AfterSkip, hline]

/-- A skipped body ends where the text says. -/
theorem yields_skip {nested line : Nat} {trace : Trace}
    (h : setting.AfterSkip env pass place reference trace line
      (skip? nested (scene.lines.toList.drop line))) :
    (Progress.running <| (setting.state line trace).enterLoop
      (setting.skipping place header reference nested)).Yields env pass := by
  generalize hrest : scene.lines.toList.drop line = rest at h
  induction rest generalizing nested line with
  | nil =>
    have hend : scene.lines[line]? = none := by
      have hlength := List.drop_eq_nil_iff.mp hrest
      simpa using hlength
    refine Progress.yields_of_step ?_
    rw [State.step_of_end rfl (scene.next?_input_none hend)]
    unfold State.closeFile
    simp only [State.enterLoop, state, Trace.state, skipping, List.length_cons, ge_iff_le,
      Nat.le_refl, if_true]
    exact Trace.yields_fail h
  | cons raw rest ih =>
    have hraw : scene.lines[line]? = some raw := by
      have hhead := congrArg List.head? hrest
      simpa [List.head?_drop] using hhead
    have hdrop : scene.lines.toList.drop (line + 1) = rest := by
      rw [← List.tail_drop, hrest, List.tail_cons]
    refine Progress.yields_of_step ?_
    rw [State.step_of_line rfl (scene.next?_input hraw)]
    show (State.readLine env raw ((setting.state (line + 1) trace).enterLoop
      (setting.skipping place header reference nested))).Yields env pass
    unfold skip? at h
    split at h
    · rename_i word
      rw [State.readLine_endFor word, State.endLoop_skipping setting.loops_skipping rfl rfl]
      cases nested with
      | zero =>
        dsimp only
        rw [leaveLoop_skipping, markLoop_markLine_state]
        exact h
      | succ nested => exact ih hdrop (setting.afterSkip_map_succ.mp h)
    · rename_i word
      rw [State.readLine_skipping (by simpa using word) rfl rfl]
      split at h
      · rename_i hheader
        rw [if_pos hheader]
        exact ih hdrop (setting.afterSkip_map_succ.mp h)
      · rename_i hheader
        rw [if_neg hheader]
        exact ih hdrop (setting.afterSkip_map_succ.mp h)

end Setting

/-! ## Blocks -/

open Setting

mutual

/-- From within a block the machine comes to what the evaluator reports on the rest of the block, if
it does so from where the block stops. -/
theorem yields_readBlock (lists : env.provider.ListsAll) {scene : Scene} {here : List Frame}
    (setting : Setting scene here) (line : Nat) {trace : Trace}
    (h : (readBlock env lists scene here line).Leads trace pass fun stop trace =>
      Stops scene here stop → (Progress.running (setting.state stop trace)).Yields env pass) :
    (Progress.running (setting.state line trace)).Yields env pass := by
  unfold readBlock at h
  split at h
  · rename_i hend
    cases here with
    -- the file is over and takes no step here: what follows is the closing of the file
    | nil => exact h hend
    | cons frame frames =>
      simp only [Report.leads_fail] at h
      refine Progress.yields_of_step ?_
      rw [setting.step_unterminated hend]
      exact Trace.yields_fail h
  · rename_i raw hraw
    have hlt : line < scene.lines.size := lt_of_line hraw
    dsimp only at h
    split at h
    · rename_i word
      cases here with
      -- the `#endfor` is left to the loop whose body ends with it
      | cons frame frames => exact h ⟨raw, hraw, word⟩
      | nil =>
        refine Progress.yields_of_step ?_
        rw [setting.step_mismatched hraw word]
        cases haround : scene.around with
        | nil =>
          simp only [haround, Report.leads_fail] at h
          exact Trace.yields_fail h
        | cons frame frames =>
          simp only [haround, Report.leads_fail] at h
          exact Trace.yields_fail h
    · rename_i word
      simp only [Report.leads_bind] at h
      refine Progress.yields_of_step ?_
      rw [setting.step_state hraw,
        State.readLine_expanding (by simpa using word) (setting.expanding _ _)]
      apply setting.yields_expandLine
      refine h.mono fun instruction trace h => ?_
      cases instruction with
      | code text =>
        simp only [Report.leads_bind, Report.leads_write, Report.leads_pure] at h
        exact yields_readBlock lists setting (line + 1) h
      | inclusion path =>
        simp only [Report.leads_bind, Report.leads_write, Report.leads_pure] at h
        -- within the included file the loops of this one are those around it
        refine yields_readFile lists (congrArg (scene.path :: ·) setting.paths) setting.runs
          (fun loop => setting.depth_le) rfl (h.mono fun _ trace h => ?_)
        rw [markLine_state]
        exact yields_readBlock lists setting (line + 1) h
      | loop header reference keys =>
        cases keys with
        | nil =>
          simp only [Report.leads_bind, Report.leads_write, Report.leads_note] at h
          show (Progress.running <| (setting.state (line + 1) trace).beginWith env header
            reference []).Yields env pass
          rw [setting.beginWith_nil]
          refine setting.yields_skip ?_
          split at h
          · rename_i hskip
            simp only [Report.leads_fail] at h
            rw [hskip]
            exact h
          · rename_i skipped hskip
            simp only [Report.leads_bind, Report.leads_write, Report.leads_pure] at h
            rw [hskip]
            exact yields_readBlock lists setting (line + 1 + skipped + 1) h
        | cons key keys =>
          simp only [Report.leads_bind, Report.leads_write, Report.leads_note,
            Report.leads_pure] at h
          show (Progress.running <| (setting.state (line + 1) trace).beginWith env header
            reference (key :: keys)).Yields env pass
          rw [setting.beginWith_cons]
          refine yields_iterate lists setting rfl rfl (h.mono fun after trace h => ?_)
          exact yields_readBlock lists setting after h
termination_by
  (env.provider.unread (scene.path :: scene.outer), scene.lines.size - line, 0)
decreasing_by
  all_goals exact .right _ (.left _ _ (by omega))

/-- From within an iteration the machine comes to what the evaluator reports on the rest of the
loop, if it does so from where the loop is over. -/
theorem yields_iterate (lists : env.provider.ListsAll) {scene : Scene} {here : List Frame}
    (setting : Setting scene here) {place : Place} {header : LoopHeader} {reference key : Text}
    {all keys : List Text} {index line : Nat} (hkeys : all.drop index = key :: keys)
    (hline : place.line = line) {trace : Trace}
    (h : (iterate env lists scene here place header reference key keys line).Leads trace pass
      fun stop trace => (Progress.running (setting.state stop trace)).Yields env pass) :
    (Progress.running
      ((setting.enter place header reference all index key).state line trace)).Yields env pass := by
  have hnext : all[index + 1]? = keys.head? := by
    rw [← List.head?_drop, ← List.tail_drop, hkeys, List.tail_cons]
  unfold iterate at h
  simp only [Report.leads_bind] at h
  refine yields_readBlock lists (setting.enter place header reference all index key) line
    (h.mono fun stop trace h => ?_)
  -- the body has stopped at the `#endfor` of this loop, wherever the iteration has met it
  intro hstops
  obtain ⟨raw, hraw, word⟩ := hstops
  refine Progress.yields_of_step ?_
  rw [step_endFor _ hraw word]
  cases hcons : keys with
  | nil =>
    simp only [hcons, Report.leads_bind, Report.leads_write, Report.leads_pure] at h
    rw [setting.endLoop_last (by rw [hnext, hcons]; rfl)]
    exact h
  | cons next rest =>
    simp only [hcons, Report.leads_bind, Report.leads_write, Report.leads_note] at h
    have hlt : rest.length < keys.length := by simp [hcons]
    have hrest : all.drop (index + 1) = next :: rest := by
      rw [← List.tail_drop, hkeys, List.tail_cons, hcons]
    rw [setting.endLoop_next (by rw [hnext, hcons]; rfl), hline]
    exact yields_iterate lists setting hrest hline h
termination_by
  (env.provider.unread (scene.path :: scene.outer), scene.lines.size - line, keys.length + 1)
decreasing_by
  all_goals exact .right _ (.right _ (by omega))

/-- From the opening of a file the machine comes to what the evaluator reports on the file, if it
does so from where the file is closed. -/
theorem yields_readFile (lists : env.provider.ListsAll) {path : Path} {indentation : Text}
    {outer : List Path} {around : List Frame} {place : Place} {inputs : List Input}
    {loops : List Loop} {trace : Trace} (paths : inputs.map Input.path = outer)
    (runs : List.Forall₂ Runs loops around) (depth : ∀ loop ∈ loops, loop.depth ≤ inputs.length)
    (hplace : (trace.state inputs loops (scopesOf around)).place = place)
    (h : (readFile env lists path indentation outer around place).Leads trace pass fun _ trace =>
      (Progress.running
        (State.markLine env (trace.state inputs loops (scopesOf around)))).Yields env pass) :
    ((trace.state inputs loops (scopesOf around)).openFile env path indentation).Yields
      env pass := by
  have hopen : (trace.state inputs loops (scopesOf around)).inputs.any (·.path == path) =
      outer.any (· == path) := by
    rw [← paths, List.any_map]
    rfl
  unfold readFile at h
  split at h
  · rename_i hrecursive
    simp only [Report.leads_fail] at h
    rw [State.openFile, hopen, if_pos hrecursive, hplace]
    exact Trace.yields_fail h
  · rename_i hclosed
    split at h
    · rename_i cause hread
      simp only [Report.leads_fail] at h
      rw [State.openFile, hopen, if_neg hclosed, hread]
      exact Trace.yields_fail h
    · rename_i text hread
      have hlt : env.provider.unread (path :: outer) < env.provider.unread outer := by
        have := Provider.unread_cons_le lists (by simpa using hclosed) hread
        omega
      have hopens : State.Opens env (trace.state inputs loops (scopesOf around)) path text :=
        ⟨hopen.trans (by simpa using hclosed), hread⟩
      simp only [Report.leads_bind, Report.leads_write, Report.leads_note, Report.leads_pure] at h
      -- no loop has begun in the file yet, and all those that are open were begun around it
      let scene : Scene := ⟨path, (Text.lines text).toArray, indentation, outer, around⟩
      let setting : Setting scene [] := ⟨inputs, [], loops, paths, .nil, runs, by simp, depth⟩
      rw [State.openFile_of_opens hopens, setting.afterOpen_state rfl]
      refine yields_readBlock lists setting 0 (h.mono fun stop trace h hend => ?_)
      refine Progress.yields_of_step ?_
      rw [setting.step_close hend]
      exact h
termination_by (env.provider.unread outer, 0, 0)
decreasing_by
  exact .left _ _ hlt

end

/-- The machine comes to what the evaluator reports on a whole file. -/
theorem yields_expand (lists : env.provider.ListsAll) (path : Path) :
    (State.initial.openFile env path []).Yields env (expand env lists path).pass := by
  have hreport := Report.leads_pass (expand env lists path)
  have hsettled (trace : Trace) (h : (expand env lists path).pass = trace.pass (.ok ())) :
      (Progress.running (State.markLine env (trace.state [] [] (scopesOf [])))).Yields env
        (expand env lists path).pass := by
    have hmark : State.markLine env (trace.state [] [] (scopesOf [])) =
        trace.state [] [] (scopesOf []) := by
      unfold State.markLine
      split
      · rename_i hinputs
        cases hinputs
      · rfl
    rw [hmark, h]
    exact Progress.yields_of_step (Progress.yields_halted _ _)
  have hopen : ((Trace.empty.state [] [] (scopesOf [])).openFile env path []).Yields env
      (expand env lists path).pass :=
    yields_readFile lists rfl .nil (by simp) rfl (hreport.mono fun _ => hsettled)
  exact hopen

end Blocks

/-- For every store of files, dictionary, configuration and file, the machine succeeds or fails as
the recursion over blocks does, with the same output, the same opened files and the same journal. -/
theorem FileStore.expansion_eq_expand (store : FileStore) (dictionary : Dictionary)
    (config : Config) (path : Path) :
    let env : Environment := ⟨store.memory, dictionary, config⟩
    ((State.initial.openFile env path []).run env env.stepBudget).map Pass.ofHalted =
      some (Blocks.expand env store.listsAll_memory path).pass := by
  intro env
  have lists : env.provider.ListsAll := store.listsAll_memory
  obtain ⟨steps, halted, hrun, hpass⟩ := Blocks.yields_expand lists path
  obtain ⟨halted', hrun'⟩ := Option.isSome_iff_exists.mp (Progress.run_stepBudget_isSome lists path)
  have hsame : halted' = halted := Progress.run_unique hrun' hrun
  rw [hrun', Option.map_some, hsame, hpass]

end ShaderTemplate
