import Mathlib.Algebra.Order.Ring.Nat
import ShaderTemplate.Proofs.Expansion.Nesting
import ShaderTemplate.Proofs.Provider.Listing

/-!
# Termination of an expansion

The cursor of a file moves back at the end of each iteration of a loop, and an include reads a file
from its start again, so no counter of lines goes down with each step. What goes down is
`State.potential`, an upper bound of the steps that are left. It starts below
`Environment.stepBudget`, so within the budget every expansion halts that reads listed files.

## Shape of the potential

To read a file on from one of its lines, and all that it includes, takes at most `Environment.work`
steps. This is a power: its base is by two more than the largest number of keys, and its exponent
counts the lines that are left in the file and those of all files that may still be included.

* A line read lowers the exponent by one. So the steps of the line before are enough for the rest
  of the file as often as there are keys, and once more.
* A file included has its lines taken out of `Provider.unread`, so what it may do is less than the
  rest of the including file may.

The potential of a state is the sum of the work in each open file from its current line, and of the
work from its header for each further key of each open loop.
-/

namespace ShaderTemplate

/-! ## The number of keys -/

theorem Entry.weight_le_of_mem {entry : Entry} {entries : List Entry} (h : entry ∈ entries) :
    entry.weight ≤ Entry.weightOfAll entries := by
  induction entries with
  | nil => simp at h
  | cons first rest ih =>
    rw [Entry.weightOfAll]
    rcases List.mem_cons.mp h with rfl | h
    · omega
    · have := ih h
      omega

theorem Dictionary.length_topKeys_le (d : Dictionary) : d.topKeys.length ≤ d.weight := by
  obtain ⟨entries⟩ := d
  rw [Dictionary.weight, topKeys, List.length_map]
  induction entries with
  | nil => simp
  | cons entry rest ih =>
    obtain ⟨key, value⟩ := entry
    rw [List.length_cons, Entry.weightOfAll, Entry.weight]
    simp only at ih
    omega

theorem Value.weight_le_of_at? {value inner : Value} {keys : List Text}
    (h : value.at? keys = some inner) : inner.weight ≤ value.weight := by
  induction keys generalizing value with
  | nil =>
    cases h
    exact Nat.le_refl _
  | cons key rest ih =>
    cases value with
    | dictionary level =>
      obtain ⟨found, hentry, hat⟩ := Option.bind_eq_some_iff.mp h
      obtain ⟨entry, hfind, rfl⟩ := Option.map_eq_some_iff.mp hentry
      have hinner := ih hat
      have hentry := Entry.weight_le_of_mem (List.mem_of_find?_eq_some hfind)
      obtain ⟨key, value⟩ := entry
      obtain ⟨entries⟩ := level
      rw [Entry.weight] at hentry
      rw [Value.weight, Dictionary.weight]
      simp only at hinner hentry
      omega
    | _ => simp [Value.at?] at h

/-- A loop has at most as many keys as the dictionary has entries. -/
theorem Names.length_keys_le {names : Names} {place : Place} {reference resolved : Text}
    {keys : List Text} (h : names.levelOf place reference = .ok (resolved, keys)) :
    keys.length ≤ names.dictionary.weight := by
  obtain ⟨-, level, hget, rfl⟩ := levelOf_eq_ok_iff.mp h
  have hlevel := Value.weight_le_of_at? hget
  have hkeys := level.length_topKeys_le
  rw [Value.weight, Value.weight] at hlevel
  omega

/-! ## The potential -/

/-- The steps it takes at most to read on in the first of these files, the others being open around
it, when so many of its lines are read. -/
def Environment.work (env : Environment) (line : Nat) : List Input → Nat
  | [] => 0
  | input :: outer =>
    (env.dictionary.weight + 2) ^
      (env.provider.unread ((input :: outer).map Input.path) + (input.lines.size + 1 - line))

/-- The keys of a loop that are still to come. -/
def Loop.pending (loop : Loop) : Nat :=
  match loop.phase with
  | .iteration index => loop.keys.length - (index + 1)
  | .skipping _ => 0

theorem Loop.pending_next {loop next : Loop} {key : Text} (h : loop.next? = some (key, next)) :
    loop.pending = next.pending + 1 := by
  obtain ⟨index, hphase, hkey, rfl⟩ := Loop.next?_eq_some h
  obtain ⟨hlt, -⟩ := List.getElem?_eq_some_iff.mp hkey
  simp only [pending, hphase]
  omega

/-- The steps in the open files from their current lines. -/
def Environment.workOfInputs (env : Environment) : List Input → Nat
  | [] => 0
  | input :: outer => env.work input.line (input :: outer) + env.workOfInputs outer

/-- The steps in the further iterations of a loop, which begin after its header again, in the file
that was read when it began. -/
def Environment.workOfLoop (env : Environment) (inputs : List Input) (loop : Loop) : Nat :=
  loop.pending * env.work loop.place.line (inputs.drop (inputs.length - loop.depth))

/-- A bound of the steps that are left with these files and loops open. -/
def Environment.potential (env : Environment) (inputs : List Input) (loops : List Loop) : Nat :=
  env.workOfInputs inputs + (loops.map (env.workOfLoop inputs)).sum

/-- A bound of the steps that are left. -/
def State.potential (env : Environment) (state : State) : Nat :=
  env.potential state.inputs state.loops

namespace Environment

variable {env : Environment} {input : Input} {inputs outer : List Input} {loop : Loop}

theorem work_pos (line : Nat) : 0 < env.work line (input :: outer) :=
  Nat.pow_pos (by omega)

/-- The line that a file has been read to does not matter for the work in it from another line. -/
theorem work_congr {read : Input} (path : read.path = input.path) (lines : read.lines = input.lines)
    (line : Nat) : env.work line (read :: outer) = env.work line (input :: outer) := by
  simp [work, path, lines]

/-- The work before a line makes up for all iterations of a loop that begins there, and more. -/
theorem work_succ {line : Nat} (h : line < input.lines.size) :
    env.work line (input :: outer) =
      env.work (line + 1) (input :: outer) * (env.dictionary.weight + 2) := by
  rw [work, work, ← Nat.pow_succ]
  congr 1
  omega

theorem workOfLoop_congr {read : Input} (path : read.path = input.path)
    (lines : read.lines = input.lines) :
    env.workOfLoop (read :: outer) loop = env.workOfLoop (input :: outer) loop := by
  rw [workOfLoop, workOfLoop, List.length_cons, List.length_cons]
  cases outer.length + 1 - loop.depth with
  | zero => rw [List.drop_zero, List.drop_zero, work_congr path lines]
  | succ n => rfl

/-- The work of a loop is not changed by files opened after it. -/
theorem workOfLoop_cons (h : loop.depth ≤ inputs.length) :
    env.workOfLoop (input :: inputs) loop = env.workOfLoop inputs loop := by
  rw [workOfLoop, workOfLoop, List.length_cons, Nat.succ_sub h, List.drop_succ_cons]

theorem workOfLoop_of_depth_eq (h : loop.depth = inputs.length) :
    env.workOfLoop inputs loop = loop.pending * env.work loop.place.line inputs := by
  rw [workOfLoop, h, Nat.sub_self, List.drop_zero]

/-- A file that is opened does less than the files around it may still do from their line on. -/
theorem work_start_lt (lists : env.provider.ListsAll) {path : Path} {text indentation : Text}
    {line : Nat} (closed : (input :: outer).any (·.path == path) = false)
    (readable : env.provider.read path = .ok text) :
    env.work 0 (Input.start path text indentation :: input :: outer) <
      env.work line (input :: outer) := by
  have hclosed : ((input :: outer).map Input.path).any (· == path) = false := by
    simpa [List.any_map] using closed
  have hunread := Provider.unread_cons_le lists hclosed readable
  rw [work, work]
  refine Nat.pow_lt_pow_right (by omega) ?_
  simp only [Input.start, List.size_toArray, List.map_cons] at hunread ⊢
  omega

theorem potential_cons_loop (loops : List Loop) :
    env.potential inputs (loop :: loops) =
      env.workOfLoop inputs loop + env.potential inputs loops := by
  rw [potential, potential, List.map_cons, List.sum_cons]
  omega

/-- A file adds its own work to what the loops outside it leave to do. -/
theorem potential_cons_input {loops : List Loop} (h : ∀ loop ∈ loops, loop.depth ≤ inputs.length) :
    env.potential (input :: inputs) loops =
      env.work input.line (input :: inputs) + env.potential inputs loops := by
  have hloops : loops.map (env.workOfLoop (input :: inputs)) =
      loops.map (env.workOfLoop inputs) :=
    List.map_congr_left fun loop hloop => workOfLoop_cons (h loop hloop)
  rw [potential, potential, workOfInputs, hloops, Nat.add_assoc]

/-- Another current line exchanges one summand of the potential. -/
theorem potential_setLine (line : Nat) (loops : List Loop) :
    env.potential ({ input with line } :: outer) loops + env.work input.line (input :: outer) =
      env.potential (input :: outer) loops + env.work line (input :: outer) := by
  have hloops : env.workOfLoop ({ input with line } :: outer) =
      env.workOfLoop (input :: outer) := funext fun loop => workOfLoop_congr rfl rfl
  have hwork : env.work line ({ input with line } :: outer) = env.work line (input :: outer) :=
    work_congr rfl rfl line
  rw [potential, potential, workOfInputs, workOfInputs, hloops, hwork]
  omega

/-- Going on with the next key exchanges the work for that key, which the loop has left, for work in
the file, which is read on from the header of the loop. -/
theorem potential_nextKey {next : Loop} {key : Text} {rest : List Loop}
    (more : loop.next? = some (key, next)) (depth : loop.depth = outer.length + 1) :
    env.potential ({ input with line := loop.place.line } :: outer) (next :: rest) +
        env.work input.line (input :: outer) =
      env.potential (input :: outer) (loop :: rest) := by
  have hpending := Loop.pending_next more
  obtain ⟨index, -, -, hnext⟩ := Loop.next?_eq_some more
  have hline : next.place.line = loop.place.line := by rw [hnext]
  have hloop : env.workOfLoop (input :: outer) loop =
      loop.pending * env.work loop.place.line (input :: outer) := workOfLoop_of_depth_eq depth
  have hlater : env.workOfLoop ({ input with line := loop.place.line } :: outer) next =
      next.pending * env.work loop.place.line (input :: outer) := by
    rw [← hline, ← work_congr rfl rfl]
    refine workOfLoop_of_depth_eq ?_
    rw [hnext]
    exact depth
  have hset := @potential_setLine env input outer loop.place.line rest
  rw [potential_cons_loop, potential_cons_loop, hloop, hlater, hpending, Nat.add_mul, Nat.one_mul]
  omega

/-- A line read lowers the potential by the work after it as many times as there can be keys, and
once more. -/
theorem potential_next {raw : Text} {read : Input} (next : input.next? = some (raw, read))
    (loops : List Loop) :
    env.potential (input :: outer) loops =
      env.potential (read :: outer) loops +
        (env.dictionary.weight + 1) * env.work read.line (read :: outer) := by
  obtain ⟨text, htext, hread⟩ := Option.map_eq_some_iff.mp next
  cases hread
  obtain ⟨hlt, -⟩ := Array.getElem?_eq_some_iff.mp htext
  have hset := @potential_setLine env input outer (input.line + 1) loops
  have hsame : env.work (input.line + 1) ({ input with line := input.line + 1 } :: outer) =
      env.work (input.line + 1) (input :: outer) := work_congr rfl rfl _
  rw [work_succ hlt, Nat.mul_comm, Nat.add_mul] at hset
  rw [hsame, Nat.add_mul]
  omega

end Environment

/-! ## Each transition lowers the potential -/

namespace State

variable {env : Environment} {state after : State} {read : Input} {outer : List Input}

/-- What is done with a line takes no more than the potential that reading it has freed. -/
theorem potential_move_lt (lists : env.provider.ListsAll) {raw : Text}
    (inputs : state.inputs = read :: outer) (nested : state.Nested)
    (move : LineMove env raw state after) :
    after.potential env <
      state.potential env + (env.dictionary.weight + 1) * env.work read.line (read :: outer) := by
  have hpos : 0 < env.work read.line (read :: outer) := Environment.work_pos _
  have hle : env.work read.line (read :: outer) ≤
      (env.dictionary.weight + 1) * env.work read.line (read :: outer) :=
    Nat.le_mul_of_pos_left _ (by omega)
  cases move with
  | @nestedEnd loop rest nested _ loops _ phase =>
    have hwork : env.workOfLoop state.inputs { loop with phase := .skipping nested } =
        env.workOfLoop state.inputs loop := by
      simp [Environment.workOfLoop, Loop.pending, phase]
    simp only [potential, loops, Environment.potential_cons_loop, hwork]
    omega
  | @nestedHeader loop rest nested _ loops phase =>
    have hwork : env.workOfLoop state.inputs { loop with phase := .skipping (nested + 1) } =
        env.workOfLoop state.inputs loop := by
      simp [Environment.workOfLoop, Loop.pending, phase]
    simp only [potential, loops, Environment.potential_cons_loop, hwork]
    omega
  | @nextKey loop rest key next _ loops depth more =>
    have hdepth : loop.depth = outer.length + 1 := by rw [depth, inputs, List.length_cons]
    have hback := @Environment.potential_nextKey env read outer loop next key rest more hdepth
    simp only [potential, markLine_inputs, markLine_loops, rewind, markLoop_inputs,
      markLoop_loops, enterLoop_inputs, enterLoop_loops, record_inputs, record_loops,
      leaveLoop_inputs, leaveLoop_loops, inputs, loops]
    omega
  | @lastEnd loop rest _ loops =>
    simp only [potential, markLine_inputs, markLoop_inputs, leaveLoop_inputs, markLine_loops,
      markLoop_loops, leaveLoop_loops, loops, Environment.potential_cons_loop]
    omega
  | skipped | code =>
    simp only [potential, writeCode_inputs, writeCode_loops]
    omega
  | @openFile _ _ text _ _ path _ _ _ _ _ _ opens =>
    have hclosed := opens.closed
    rw [inputs] at hclosed
    have hstart (indentation : Text) :=
      @Environment.work_start_lt env read outer lists path text indentation read.line hclosed
        opens.readable
    have hfile (indentation : Text) :=
      @Environment.potential_cons_input env (Input.start path text indentation) state.inputs
        state.loops nested.within
    -- the included file takes less than the work after the line, which the line has freed once more
    simp only [potential, afterOpen_inputs, afterOpen_loops, foldl_record, hfile]
    rw [inputs]
    exact Nat.lt_of_lt_of_le (Nat.add_lt_add_right (hstart _) _) (by omega)
  | @beginLoop _ _ reference key header keys _ _ _ _ _ _ level =>
    have hkeys : keys.length + 1 ≤ env.dictionary.weight := Names.length_keys_le level
    have hloop : env.workOfLoop (read :: outer)
        (state.loopOf header reference (key :: keys) (.iteration 0)) =
          keys.length * env.work read.line (read :: outer) := by
      have hplace : state.place.line = read.line := by simp [place, inputs, Input.place]
      rw [← hplace]
      exact Environment.workOfLoop_of_depth_eq (congrArg List.length inputs)
    have hlt : keys.length * env.work read.line (read :: outer) <
        (env.dictionary.weight + 1) * env.work read.line (read :: outer) :=
      Nat.mul_lt_mul_of_pos_right (by omega) hpos
    simp only [potential, beginWith_inputs, beginWith_cons_loops, inputs,
      Environment.potential_cons_loop, hloop]
    omega
  | @beginEmpty _ _ reference header =>
    have hloop : env.workOfLoop state.inputs (state.loopOf header reference [] (.skipping 0)) = 0 :=
      Nat.zero_mul _
    simp only [potential, beginWith_inputs, beginWith_nil_loops, Environment.potential_cons_loop,
      hloop]
    omega

theorem potential_transition_lt (lists : env.provider.ListsAll) (nested : state.Nested)
    (transition : Transition env state after) : after.potential env < state.potential env := by
  cases transition with
  | @close input outer inputs atEnd above =>
    have hwithin : ∀ loop ∈ state.loops, loop.depth ≤ outer.length := by
      have hclose : Transition env state _ := .close inputs atEnd above
      simpa using (nested.transition hclose).within
    have hpos : 0 < env.work input.line (input :: outer) := Environment.work_pos _
    simp only [potential, markLine_inputs, markLine_loops, inputs,
      Environment.potential_cons_input hwithin]
    omega
  | @line _ input read outer raw inputs next move =>
    have hread : State.Nested { state with inputs := read :: outer } :=
      nested.of_depths rfl (by simp [inputs])
    have hbefore : state.potential env =
        State.potential env { state with inputs := read :: outer } +
          (env.dictionary.weight + 1) * env.work read.line (read :: outer) := by
      rw [potential, inputs, Environment.potential_next next]
      rfl
    rw [hbefore]
    exact potential_move_lt lists rfl hread move

/-- The first file starts within the budget. -/
theorem potential_opened_lt (lists : env.provider.ListsAll) {path : Path} {text : Text}
    (readable : env.provider.read path = .ok text) :
    (initial.afterOpen env path text []).potential env < env.stepBudget := by
  have hunread : env.provider.unread [path] + ((Text.lines text).length + 2) ≤
      env.provider.unread [] := Provider.unread_cons_le lists rfl readable
  have hwork : (initial.afterOpen env path text []).potential env =
      env.work 0 [Input.start path text []] := by
    simp [potential, Environment.potential, Environment.workOfInputs, initial, Input.start]
  rw [hwork, Environment.work, Environment.stepBudget, Nat.pow_eq, ← Provider.unread_nil]
  refine Nat.pow_lt_pow_right (by omega) ?_
  simp only [Input.start, List.size_toArray, List.map_cons, List.map_nil]
  omega

end State

/-- If the provider lists the files it can read, every expansion halts within the budget. -/
theorem Progress.run_stepBudget_isSome {env : Environment} (lists : env.provider.ListsAll)
    (path : Path) :
    ((State.initial.openFile env path []).run env env.stepBudget).isSome := by
  cases hopen : State.initial.openFile env path [] with
  | halted result state => simp [run]
  | running state =>
    obtain ⟨text, hopens, rfl⟩ := State.openFile_running hopen
    exact run_isSome_of_decreasing (fun _ _ h => h.transition)
      (fun _ _ h => State.potential_transition_lt lists h) (State.Nested.opened path text)
      (State.potential_opened_lt lists hopens.readable)

/-- If the provider lists the files it can read, every pass has a result. -/
theorem Pass.run?_isSome {env : Environment} (lists : env.provider.ListsAll) (shader : Path) :
    (run? env shader).isSome := by
  unfold run? within?
  dsimp only
  split
  · rw [Option.isSome_map]
    exact Progress.run_stepBudget_isSome lists _
  · rfl

/-- **Every expansion over a store halts**, with a success or a failure, within a number of steps
that is known beforehand. Hence a pass over a store always has a result. -/
theorem FileStore.expansion_halts (store : FileStore) (dictionary : Dictionary) (config : Config)
    (path : Path) :
    (∃ result final,
        (State.initial.openFile ⟨store.memory, dictionary, config⟩ path []).run
          ⟨store.memory, dictionary, config⟩
          (Environment.stepBudget ⟨store.memory, dictionary, config⟩) = some (result, final)) ∧
      ∃ pass, Pass.run? ⟨store.memory, dictionary, config⟩ path = some pass := by
  have hrun (path : Path) := Option.isSome_iff_exists.mp <|
    @Progress.run_stepBudget_isSome ⟨store.memory, dictionary, config⟩ store.listsAll_memory path
  refine ⟨?_, ?_⟩
  · obtain ⟨⟨result, final⟩, h⟩ := hrun path
    exact ⟨result, final, h⟩
  · obtain ⟨halted, h⟩ := hrun (store.memory.absolute path)
    rw [Pass.run?, Pass.within?]
    dsimp only
    split
    · exact ⟨_, by rw [h]; rfl⟩
    · exact ⟨_, rfl⟩

end ShaderTemplate
