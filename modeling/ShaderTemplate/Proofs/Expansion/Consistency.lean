import ShaderTemplate.Proofs.Expansion.Loops
import ShaderTemplate.Proofs.Expansion.Positions
import ShaderTemplate.Proofs.Output.Chunks

/-!
# The stacks agree

Files, loops and scopes are kept on three stacks, which are pushed and popped at different places
of a step. `Environment.stacks_agree` says that they match in every state that an expansion goes
through. So nothing is left open when the last file is closed, and nothing that is counted from one
of the stacks is counted wrongly (`State.InRange`).
-/

namespace ShaderTemplate

/-- The three stacks match each other, and the loops match the dictionary. -/
structure State.Consistent (env : Environment) (state : State) : Prop where
  looping : state.Looping env
  nested : state.Nested
  placed : state.Placed

/-- The output of an expansion so far. -/
def State.output (state : State) : Expanded where
  pieces := state.pieces.reverse

/-- All that is counted is there: the key of each iteration, the lines before each header and each
code line, and the chunk that each line of code has been added to. -/
structure State.InRange (state : State) : Prop where
  key : ∀ loop ∈ state.loops, ∀ index, loop.phase = .iteration index → index < loop.keys.length
  header : ∀ loop ∈ state.loops, 0 < loop.depth ∧ loop.depth ≤ state.inputs.length
  line : ∀ code ∈ state.output.codeLines, 0 < code.line
  chunk : ∀ origin ∈ state.output.lineOrigins.reduceOption,
    origin.chunk < state.output.chunks.length

namespace State.Consistent

variable {env : Environment} {state : State}

/-- When all files are closed, so are all loops. -/
theorem loops_eq_nil (consistent : state.Consistent env) (inputs : state.inputs = []) :
    state.loops = [] := by
  refine List.eq_nil_iff_forall_not_mem.mpr fun loop hloop => ?_
  have hlies := consistent.placed.header loop hloop
  have hpos := hlies.1
  have hle := hlies.depth_le
  rw [inputs, List.length_nil] at hle
  omega

/-- There is a scope for each loop. -/
theorem depth_eq (consistent : state.Consistent env) : state.scopes.depth = state.loops.length := by
  rw [consistent.looping.scopes]
  induction state.loops with
  | nil => rfl
  | cons loop loops ih => exact congrArg (· + 1) ih

/-- When all files are closed, the expansion succeeds. -/
theorem step_of_closed (consistent : state.Consistent env) (inputs : state.inputs = []) :
    state.step env = .halted (.ok ()) state := by
  have hloops := consistent.loops_eq_nil inputs
  have hdepth : state.scopes.depth = 0 := by rw [consistent.depth_eq, hloops, List.length_nil]
  unfold step settle
  simp only [inputs, hloops]
  rw [if_neg (by omega)]

end State.Consistent

/-- The origins of the output so far lie in its chunks. -/
theorem Expanded.chunk_lt {expanded : Expanded} {origin : Origin}
    (h : origin ∈ expanded.lineOrigins.reduceOption) : origin.chunk < expanded.chunks.length := by
  rw [lineOrigins, Origin.reduceOption_ofPieces] at h
  change origin ∈ Origin.ofCode 0 none expanded.codeLines at h
  rw [Origin.ofCode_eq_ofRuns] at h
  have hlt := (Origin.chunk_of_mem_ofRuns h).2
  rw [chunks, Chunk.length_ofLines]
  omega

namespace Reachable

variable {env : Environment} {path : Path} {state : State}

theorem consistent (reachable : Reachable env path state) : state.Consistent env :=
  ⟨reachable.looping, reachable.nested, reachable.placed⟩

theorem inRange (reachable : Reachable env path state) : state.InRange where
  key loop hloop index hphase := by
    have hsound := (reachable.looping.sound loop hloop).phase
    rwa [hphase] at hsound
  header loop hloop := by
    have hlies := reachable.placed.header loop hloop
    exact ⟨hlies.1, hlies.depth_le⟩
  line code hcode := by
    obtain ⟨piece, hpiece, hsome⟩ := List.mem_filterMap.mp hcode
    cases piece with
    | code line =>
      cases hsome
      exact (reachable.comesFrom code (by simpa [State.output] using hpiece)).one_le_line
    | lineMarker | loopMarker => cases hsome
  chunk origin horigin := Expanded.chunk_lt horigin

/-- A run does not stop for a scope that is left open. -/
theorem ne_openScopes (reachable : Reachable env path state) {final : State} {failure : Failure}
    (h : state.step env = .halted (.error failure) final) (count : Nat) :
    failure ≠ .openScopes count := by
  rcases State.halted_of_step h with ⟨hresult, -⟩ | ⟨failure', hresult, hfault⟩
  · cases hresult
  · cases hresult
    cases hfault with
    | line inputs next fault => exact fault.ne_openScopes count
    | unterminated | openLoop => simp
    | openScopes inputs loops depth =>
      rw [reachable.consistent.depth_eq, loops, List.length_nil] at depth
      exact absurd depth (Nat.lt_irrefl 0)

end Reachable

/-- **The stacks agree.** In every state that an expansion goes through between two lines, the open
scopes are those of the open loops, no file is open twice, the loops lie in the open files in their
order, and they run through the keys of the dictionaries they refer to, or skip their bodies if
there are none. All that is counted from the stacks is in range, and so is the cut of a line into
its indentation and the rest. When all files are closed the expansion succeeds, and no expansion
fails for a scope that is left open. -/
theorem Environment.stacks_agree (env : Environment) (shader : Path) :
    (∀ state, Reachable env (env.provider.absolute shader) state →
      state.Consistent env ∧ state.scopes.depth = state.loops.length ∧ state.InRange ∧
        (state.inputs = [] → state.step env = .halted (.ok ()) state)) ∧
      (∀ raw : Text, Text.indentation raw ++ Text.trimStart raw = raw) ∧
      ∀ steps pass count, Pass.within? steps env shader = some pass →
        pass.result ≠ .error (.openScopes count) := by
  refine ⟨fun state reachable => ?_, fun raw => ?_, fun steps pass count run => ?_⟩
  · have hconsistent := reachable.consistent
    exact ⟨hconsistent, hconsistent.depth_eq, reachable.inRange, hconsistent.step_of_closed⟩
  · exact List.takeWhile_append_dropWhile
  · unfold Pass.within? at run
    dsimp only at run
    split at run
    · obtain ⟨⟨result, final⟩, hrun, rfl⟩ := Option.map_eq_some_iff.mp run
      cases result with
      | ok value => simp [Pass.ofHalted]
      | error failure =>
        have hne : failure ≠ .openScopes count := by
          rcases Progress.halted_of_run (fun state => .opened) hrun with h | ⟨state, hstate, h⟩
          · obtain ⟨failure', hresult, hfault⟩ := State.openFile_halted h
            cases hresult
            cases hfault <;> simp
          · exact hstate.ne_openScopes h count
        simpa [Pass.ofHalted] using hne
    · cases run
      simp

end ShaderTemplate
