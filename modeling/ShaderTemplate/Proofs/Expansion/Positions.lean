import ShaderTemplate.Proofs.Expansion.Nesting

/-!
# Positions in the open files

No file is open twice at a time, and each open loop has its header in one of the open files, at a
line that has been read. Of the loops in one file the inner ones have their headers further down: a
line is read only once in an iteration, and the cursor moves back only to the header of the
innermost loop.
-/

namespace ShaderTemplate

/-- A loop has its header in one of these files, at a line that has been read. -/
def Loop.LiesIn (loop : Loop) (inputs : List Input) : Prop :=
  0 < loop.depth ∧
    ∃ input, inputs.reverse[loop.depth - 1]? = some input ∧ loop.place.line ≤ input.line

namespace Loop.LiesIn

variable {loop : Loop} {input : Input} {inputs outer : List Input}

theorem depth_le (lies : loop.LiesIn inputs) : loop.depth ≤ inputs.length := by
  obtain ⟨hpos, file, hfile, -⟩ := lies
  obtain ⟨hlt, -⟩ := List.getElem?_eq_some_iff.mp hfile
  rw [List.length_reverse] at hlt
  omega

/-- A file that is opened after the header of a loop does not matter for it. -/
theorem cons_iff (depth : loop.depth ≤ outer.length) :
    loop.LiesIn (input :: outer) ↔ loop.LiesIn outer := by
  unfold LiesIn
  refine and_congr_right fun hpos => ?_
  have hlt : loop.depth - 1 < outer.reverse.length := by
    rw [List.length_reverse]
    omega
  rw [List.reverse_cons, List.getElem?_append_left hlt]

/-- A loop that was begun in the file that is read. -/
theorem top_iff (depth : loop.depth = outer.length + 1) :
    loop.LiesIn (input :: outer) ↔ loop.place.line ≤ input.line := by
  have hindex : loop.depth - 1 = outer.reverse.length := by
    rw [List.length_reverse]
    omega
  unfold LiesIn
  rw [List.reverse_cons, hindex, List.getElem?_concat_length]
  simp [depth]

/-- The cursor of a file may move, but not above the headers in it. -/
theorem setTop {other : Input} (lies : loop.LiesIn (input :: outer))
    (line : loop.depth = outer.length + 1 → loop.place.line ≤ other.line) :
    loop.LiesIn (other :: outer) := by
  have hdepth := lies.depth_le
  rw [List.length_cons] at hdepth
  by_cases htop : loop.depth = outer.length + 1
  · exact (top_iff htop).mpr (line htop)
  · exact (cons_iff (by omega)).mpr ((cons_iff (by omega)).mp lies)

end Loop.LiesIn

/-- The headers of loops in one file stand in the order in which the loops were begun. -/
def Loop.Ascend (loops : List Loop) : Prop :=
  loops.Pairwise fun inner outer => outer.depth = inner.depth → outer.place.line < inner.place.line

/-- A loop stands where it stood in a list with the same headers. -/
theorem Loop.exists_of_mem_same {loop : Loop} {loops others : List Loop}
    (same : loops.map (fun loop => (loop.depth, loop.place)) =
      others.map fun loop => (loop.depth, loop.place))
    (h : loop ∈ loops) : ∃ other ∈ others, other.depth = loop.depth ∧ other.place = loop.place := by
  have hmem : (loop.depth, loop.place) ∈ others.map fun loop => (loop.depth, loop.place) :=
    same ▸ List.mem_map_of_mem h
  obtain ⟨other, hother, hsame⟩ := List.mem_map.mp hmem
  obtain ⟨hdepth, hplace⟩ := Prod.mk.inj hsame
  exact ⟨other, hother, hdepth, hplace⟩

/-- Files are open once, with their cursors in them, and loops lie in them in their order. -/
structure State.Placed (state : State) : Prop where
  distinct : (state.inputs.map Input.path).Pairwise fun inner outer => (inner == outer) = false
  cursor : ∀ input ∈ state.inputs, input.line ≤ input.lines.size
  header : ∀ loop ∈ state.loops, loop.LiesIn state.inputs
  ascending : Loop.Ascend state.loops

namespace State.Placed

variable {env : Environment} {state after : State} {loop : Loop} {loops : List Loop}
  {input : Input} {outer : List Input}

/-- Nothing is displaced by a step that leaves the files and the headers alone. -/
theorem of_same (placed : state.Placed) (inputs : after.inputs = state.inputs)
    (loops : after.loops.map (fun loop => (loop.depth, loop.place)) =
      state.loops.map fun loop => (loop.depth, loop.place)) : after.Placed := by
  refine ⟨inputs ▸ placed.distinct, inputs ▸ placed.cursor, fun loop hloop => ?_, ?_⟩
  · obtain ⟨other, hother, hdepth, hplace⟩ := Loop.exists_of_mem_same loops hloop
    have hlies := placed.header other hother
    unfold Loop.LiesIn at hlies ⊢
    rwa [inputs, ← hdepth, ← hplace]
  · have hpairs := (List.pairwise_map (f := fun loop : Loop => (loop.depth, loop.place))
      (R := fun a b => b.1 = a.1 → b.2.line < a.2.line)).mpr placed.ascending
    rw [← loops] at hpairs
    exact List.pairwise_map.mp hpairs

theorem leaveLoop (placed : state.Placed) (hloops : state.loops = loop :: loops) :
    (state.leaveLoop loops).Placed := by
  have hascending := placed.ascending
  rw [hloops] at hascending
  exact ⟨placed.distinct, placed.cursor,
    fun other hother => placed.header other (hloops ▸ List.mem_cons_of_mem _ hother),
    (List.pairwise_cons.mp hascending).2⟩

/-- A loop is begun below all others of the file. -/
theorem enterLoop (placed : state.Placed) (lies : loop.LiesIn state.inputs)
    (below : ∀ other ∈ state.loops, other.depth = loop.depth → other.place.line < loop.place.line) :
    (state.enterLoop loop).Placed :=
  ⟨placed.distinct, placed.cursor, List.forall_mem_cons.mpr ⟨lies, placed.header⟩,
    List.pairwise_cons.mpr ⟨below, placed.ascending⟩⟩

/-- The cursor of the file that is read moves, but not above the headers in it. -/
theorem setTop (placed : state.Placed) (inputs : state.inputs = input :: outer) {line : Nat}
    (size : line ≤ input.lines.size)
    (below : ∀ loop ∈ state.loops, loop.depth = outer.length + 1 → loop.place.line ≤ line) :
    State.Placed { state with inputs := { input with line } :: outer } := by
  have hcursor := placed.cursor
  rw [inputs] at hcursor
  refine ⟨?_, List.forall_mem_cons.mpr ⟨size, (List.forall_mem_cons.mp hcursor).2⟩,
    fun loop hloop => ?_, placed.ascending⟩
  · have hdistinct := placed.distinct
    rw [inputs] at hdistinct
    exact hdistinct
  · have hlies := placed.header loop hloop
    rw [inputs] at hlies
    exact hlies.setTop (below loop hloop)

/-- The next iteration begins where the last one has begun, at the header of the loop. -/
theorem nextKey (placed : state.Placed) (hloops : state.loops = loop :: loops)
    (inputs : state.inputs = input :: outer) (depth : loop.depth = state.inputs.length) {key : Text}
    {next : Loop} (more : loop.next? = some (key, next)) :
    State.Placed { state with
      inputs := { input with line := loop.place.line } :: outer
      loops := next :: loops } := by
  obtain ⟨index, -, -, rfl⟩ := Loop.next?_eq_some more
  have hdepth : loop.depth = outer.length + 1 := by rw [depth, inputs, List.length_cons]
  have hcursor : input.line ≤ input.lines.size := placed.cursor input (by simp [inputs])
  have hline : loop.place.line ≤ input.line := by
    have hlies := placed.header loop (by simp [hloops])
    rw [inputs] at hlies
    exact (Loop.LiesIn.top_iff hdepth).mp hlies
  have hbelow : ∀ other ∈ loop :: loops, other.depth = outer.length + 1 →
      other.place.line ≤ loop.place.line := by
    have hascending := placed.ascending
    rw [hloops] at hascending
    refine List.forall_mem_cons.mpr ⟨fun _ => Nat.le_refl _, fun other hother hother' => ?_⟩
    exact Nat.le_of_lt ((List.pairwise_cons.mp hascending).1 other hother (by omega))
  rw [← hloops] at hbelow
  exact (placed.setTop inputs (Nat.le_trans hline hcursor) hbelow).of_same rfl (by simp [hloops])

/-- A file is opened that is not open yet, before its first line. -/
theorem afterOpen (placed : state.Placed) {path : Path} {text : Text} (indentation : Text)
    (closed : state.inputs.any (·.path == path) = false) :
    (state.afterOpen env path text indentation).Placed := by
  have hclosed : ∀ input ∈ state.inputs, (path == input.path) = false := by
    intro input hinput
    rw [BEq.comm]
    simpa using List.any_eq_false.mp closed input hinput
  refine ⟨?_, ?_, fun loop hloop => ?_, ?_⟩
  · rw [afterOpen_inputs, List.map_cons]
    refine List.pairwise_cons.mpr ⟨?_, placed.distinct⟩
    simpa [Input.start] using hclosed
  · rw [afterOpen_inputs]
    exact List.forall_mem_cons.mpr ⟨Nat.zero_le _, placed.cursor⟩
  · rw [afterOpen_loops] at hloop
    have hlies := placed.header loop hloop
    rw [afterOpen_inputs]
    exact (Loop.LiesIn.cons_iff hlies.depth_le).mpr hlies
  · rw [afterOpen_loops]
    exact placed.ascending

/-- A loop that begins with the line that is read lies below all others. -/
theorem beginLoop (placed : state.Placed) (inputs : state.inputs = input :: outer)
    (fresh : ∀ loop ∈ state.loops, loop.depth = state.inputs.length →
      loop.place.line < state.place.line)
    (header : LoopHeader) (reference : Text) (keys : List Text) (phase : Phase) :
    (state.enterLoop (state.loopOf header reference keys phase)).Placed := by
  refine placed.enterLoop ?_ fresh
  have hline : (state.loopOf header reference keys phase).place.line = input.line := by
    simp [loopOf, place, inputs, Input.place]
  rw [inputs]
  exact (Loop.LiesIn.top_iff (by simp [loopOf, inputs])).mpr (Nat.le_of_eq hline)

theorem move {raw : Text} (placed : state.Placed) (inputs : state.inputs = input :: outer)
    (fresh : ∀ loop ∈ state.loops, loop.depth = state.inputs.length →
      loop.place.line < state.place.line)
    (move : LineMove env raw state after) : after.Placed := by
  cases move with
  | nestedEnd word loops | nestedHeader word loops => exact placed.of_same rfl (by simp [loops])
  | skipped | code => exact placed.of_same (by simp) (by simp)
  | nextKey word loops depth more =>
    exact (placed.nextKey loops inputs depth more).of_same (by simp [rewind, inputs]) (by simp)
  | lastEnd word loops => exact (placed.leaveLoop loops).of_same (by simp) (by simp)
  | @openFile filled argument text target events path _ _ _ _ _ _ opens =>
    have hrecord : (events.foldl record state).Placed := by
      rw [foldl_record]
      exact placed.of_same rfl rfl
    refine hrecord.afterOpen _ ?_
    rw [foldl_record]
    exact opens.closed
  | @beginLoop filled argument reference key header keys =>
    exact (placed.beginLoop inputs fresh header reference (key :: keys) (.iteration 0)).of_same
      (by simp) (by simp)
  | @beginEmpty filled argument reference header =>
    exact (placed.beginLoop inputs fresh header reference [] (.skipping 0)).of_same
      (by simp) (by simp)

theorem transition (placed : state.Placed) (nested : state.Nested)
    (transition : Transition env state after) : after.Placed := by
  cases transition with
  | @close input outer inputs atEnd above =>
    have hwithin : ∀ loop ∈ state.loops, loop.depth ≤ outer.length := by
      simpa using (nested.transition (@Transition.close env _ _ _ inputs atEnd above)).within
    have hclosed : State.Placed { state with inputs := outer } := by
      have hdistinct := placed.distinct
      have hcursor := placed.cursor
      rw [inputs] at hdistinct hcursor
      refine ⟨(List.pairwise_cons.mp hdistinct).2, (List.forall_mem_cons.mp hcursor).2,
        fun loop hloop => ?_, placed.ascending⟩
      have hlies := placed.header loop hloop
      rw [inputs] at hlies
      exact (Loop.LiesIn.cons_iff (hwithin loop hloop)).mp hlies
    exact hclosed.of_same (by simp) (by simp)
  | @line _ input read outer raw inputs next move =>
    obtain ⟨text, htext, hread⟩ := Option.map_eq_some_iff.mp next
    cases hread
    obtain ⟨hlt, -⟩ := Array.getElem?_eq_some_iff.mp htext
    -- the headers in the file stand at lines that were read before this one
    have hread : ∀ loop ∈ state.loops, loop.depth = outer.length + 1 →
        loop.place.line ≤ input.line := by
      intro loop hloop hdepth
      have hlies := placed.header loop hloop
      rw [inputs] at hlies
      exact (Loop.LiesIn.top_iff hdepth).mp hlies
    have hplaced : State.Placed
        { state with inputs := { input with line := input.line + 1 } :: outer } :=
      placed.setTop inputs (by omega)
      fun loop hloop hdepth => Nat.le_succ_of_le (hread loop hloop hdepth)
    have hfresh : ∀ loop ∈ state.loops, loop.depth = outer.length + 1 →
        loop.place.line < input.line + 1 :=
      fun loop hloop hdepth => Nat.lt_succ_of_le (hread loop hloop hdepth)
    exact hplaced.move rfl hfresh move

end State.Placed

/-- Loops lie within the loops outside them, and within the open files, in all states of a run. -/
theorem Reachable.nested {env : Environment} {path : Path} {state : State}
    (reachable : Reachable env path state) : state.Nested :=
  reachable.invariant (fun text _ => State.Nested.opened path text) fun _ _ h => h.transition

/-- Files are open once and loops lie in them, in all states of a run. -/
theorem Reachable.placed {env : Environment} {path : Path} {state : State}
    (reachable : Reachable env path state) : state.Placed := by
  have hinitial : State.initial.Placed :=
    ⟨by simp [State.initial], by simp [State.initial], by simp [State.initial],
      List.Pairwise.nil⟩
  refine (@Reachable.invariant env path (fun state => state.Nested ∧ state.Placed)
    (fun text opens => ?_) (fun _ _ h move => ?_) state reachable).2
  · exact ⟨State.Nested.opened path text, hinitial.afterOpen [] opens.closed⟩
  · exact ⟨h.1.transition move, h.2.transition h.1 move⟩

end ShaderTemplate
