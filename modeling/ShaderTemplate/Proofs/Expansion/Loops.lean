import ShaderTemplate.Proofs.Expansion.Run
import ShaderTemplate.Proofs.Names.Resolution
import ShaderTemplate.Proofs.Scopes.Lexical

/-!
# Open loops and their scopes

Each open loop has opened a scope, which binds what the current key of the loop stands for. Going on
with the next key closes the scope and opens another, so the open scopes are at all times those of
the open loops (`State.Looping`).

Only the innermost loop may be one that skips its body, and only while the file it was begun in is
read: nothing is expanded within such a body, so no loop is begun and no file is opened.
-/

namespace ShaderTemplate

/-- What a loop remembers of its dictionary is so, and its phase fits its keys: there is a key for
the current iteration, and the body is skipped for want of keys alone. -/
structure Loop.Sound (env : Environment) (loop : Loop) : Prop where
  level : ∃ level, env.dictionary.get? loop.reference = some (.dictionary level) ∧
    loop.keys = level.topKeys
  phase :
    match loop.phase with
    | .iteration index => index < loop.keys.length
    | .skipping _ => loop.keys = []

/-- Whether a loop skips its body. -/
def Loop.Skips (loop : Loop) : Prop :=
  ∃ nested, loop.phase = .skipping nested

namespace Loop.Sound

variable {env : Environment} {loop : Loop}

theorem next {after : Loop} {key : Text} (sound : loop.Sound env)
    (more : loop.next? = some (key, after)) : after.Sound env := by
  obtain ⟨index, -, hkey, rfl⟩ := Loop.next?_eq_some more
  obtain ⟨hlt, -⟩ := List.getElem?_eq_some_iff.mp hkey
  exact ⟨sound.level, hlt⟩

/-- A loop may skip more loops of its body, or fewer. -/
theorem setNested (sound : loop.Sound env) {nested : Nat} (skips : loop.Skips) :
    Loop.Sound env { loop with phase := .skipping nested } := by
  obtain ⟨before, hphase⟩ := skips
  have hkeys := sound.phase
  rw [hphase] at hkeys
  exact ⟨sound.level, hkeys⟩

end Loop.Sound

/-- What is bound in a loop that skips its body. -/
theorem Loop.bindings_of_skips {loop : Loop} (skips : loop.Skips) : loop.bindings = [] := by
  obtain ⟨nested, hphase⟩ := skips
  simp [bindings, key?, hphase]

/-- The open loops are sound, the open scopes are theirs, and no loop but the innermost skips its
body, in the file that is read. -/
structure State.Looping (env : Environment) (state : State) : Prop where
  sound : ∀ loop ∈ state.loops, loop.Sound env
  scopes : state.scopes = Scopes.ofFrames (state.loops.map Loop.bindings)
  outer : ∀ loop ∈ state.loops.tail, ¬ loop.Skips
  innermost : ∀ loop ∈ state.loops.head?, loop.Skips → loop.depth = state.inputs.length

namespace State

theorem Expanding.not_skips {state : State} (expanding : state.Expanding) {loop : Loop}
    (h : loop ∈ state.loops.head?) : ¬ loop.Skips :=
  fun ⟨nested, hphase⟩ => expanding loop h nested hphase

namespace Looping

variable {env : Environment} {state after : State} {loop : Loop} {outer : List Loop}

/-- While lines are expanded, no loop skips its body. -/
theorem running (looping : state.Looping env) (expanding : state.Expanding) :
    ∀ loop ∈ state.loops, ¬ loop.Skips := by
  intro loop hloop
  cases hloops : state.loops with
  | nil => simp [hloops] at hloop
  | cons first rest =>
    rw [hloops] at hloop
    rcases List.mem_cons.mp hloop with rfl | hloop
    · exact expanding.not_skips (by simp [hloops])
    · exact looping.outer loop (by simp [hloops, hloop])

/-- Steps that leave the loops and scopes alone may open or close files if no body is skipped. -/
theorem of_same (looping : state.Looping env) (loops : after.loops = state.loops)
    (scopes : after.scopes = state.scopes)
    (inputs : after.inputs.length = state.inputs.length ∨
      ∀ loop ∈ state.loops.head?, ¬ loop.Skips) :
    after.Looping env := by
  refine ⟨loops ▸ looping.sound, ?_, loops ▸ looping.outer, fun loop hloop hskips => ?_⟩
  · rw [scopes, loops]
    exact looping.scopes
  · rw [loops] at hloop
    rcases inputs with hlength | hrunning
    · rw [hlength]
      exact looping.innermost loop hloop hskips
    · exact absurd hskips (hrunning loop hloop)

theorem setNested (looping : state.Looping env) (loops : state.loops = loop :: outer)
    (skips : loop.Skips) (nested : Nat) :
    State.Looping env
      { state with loops := { loop with phase := .skipping nested } :: outer } := by
  have hmem : loop ∈ state.loops := loops ▸ List.mem_cons_self
  refine ⟨List.forall_mem_cons.mpr ⟨(looping.sound loop hmem).setNested skips, ?_⟩, ?_, ?_, ?_⟩
  · exact fun other hother => looping.sound other (loops ▸ List.mem_cons_of_mem _ hother)
  · have hbindings : Loop.bindings { loop with phase := .skipping nested } = loop.bindings := by
      rw [Loop.bindings_of_skips skips, Loop.bindings_of_skips ⟨nested, rfl⟩]
    rw [looping.scopes, loops, List.map_cons, List.map_cons, hbindings]
  · simpa [loops] using looping.outer
  · rintro other ⟨⟩ -
    exact looping.innermost loop (by simp [loops]) skips

/-- Closing the scope of the innermost loop leaves those of the others. -/
theorem leaveLoop (looping : state.Looping env) (loops : state.loops = loop :: outer) :
    (state.leaveLoop outer).Looping env := by
  have houter : ∀ other ∈ outer, ¬ other.Skips := by simpa [loops] using looping.outer
  refine ⟨fun other hother => looping.sound other (loops ▸ List.mem_cons_of_mem _ hother), ?_,
    fun other hother => houter other (List.mem_of_mem_tail hother), ?_⟩
  · rw [leaveLoop_scopes, leaveLoop_loops, looping.scopes, loops, List.map_cons]
    exact Scopes.pop_ofFrames _ _
  · exact fun other hother hskips => absurd hskips (houter other (List.mem_of_mem_head? hother))

/-- A loop is begun within loops that all run an iteration. -/
theorem enterLoop (looping : state.Looping env) (running : ∀ loop ∈ state.loops, ¬ loop.Skips)
    (sound : loop.Sound env) (depth : loop.depth = state.inputs.length) :
    (state.enterLoop loop).Looping env := by
  refine ⟨List.forall_mem_cons.mpr ⟨sound, looping.sound⟩, ?_, running, ?_⟩
  · rw [enterLoop_scopes, enterLoop_loops, looping.scopes, List.map_cons]
    rfl
  · rintro other ⟨⟩ -
    exact depth

theorem move {raw : Text} (looping : state.Looping env) (move : LineMove env raw state after) :
    after.Looping env := by
  cases move with
  | @nestedEnd loop outer nested word loops depth phase =>
    exact looping.setNested loops ⟨_, phase⟩ nested
  | @nestedHeader loop outer nested word loops phase =>
    exact looping.setNested loops ⟨_, phase⟩ (nested + 1)
  | skipped => exact looping
  | @nextKey loop outer key next word loops depth more =>
    have hsound := (looping.sound loop (loops ▸ List.mem_cons_self)).next more
    have hrunning : ∀ other ∈ outer, ¬ other.Skips := by simpa [loops] using looping.outer
    have hdepth : next.depth = state.inputs.length := by
      obtain ⟨index, -, -, rfl⟩ := Loop.next?_eq_some more
      exact depth
    have hleave : ((state.leaveLoop outer).record (.loopKey loop.reference key)).Looping env :=
      (looping.leaveLoop loops).of_same rfl rfl (.inl rfl)
    exact (hleave.enterLoop hrunning hsound hdepth).of_same (by simp) (by simp) (.inl (by simp))
  | lastEnd word loops =>
    exact (looping.leaveLoop loops).of_same (by simp) (by simp) (.inl (by simp))
  | openFile word expanding =>
    exact looping.of_same (by simp [foldl_record]) (by simp [foldl_record])
      (.inr fun loop hloop => expanding.not_skips hloop)
  | @beginLoop filled argument reference key header keys word expanding _ _ _ _ level =>
    obtain ⟨-, hlevel⟩ := Names.levelOf_eq_ok_iff.mp level
    have hsound : (state.loopOf header reference (key :: keys) (.iteration 0)).Sound env :=
      ⟨hlevel, Nat.succ_pos _⟩
    exact (looping.enterLoop (looping.running expanding) hsound rfl).of_same (by simp) (by simp)
      (.inl (by simp))
  | @beginEmpty filled argument reference header word expanding _ _ _ _ level =>
    obtain ⟨-, hlevel⟩ := Names.levelOf_eq_ok_iff.mp level
    have hsound : (state.loopOf header reference [] (.skipping 0)).Sound env := ⟨hlevel, rfl⟩
    exact (looping.enterLoop (looping.running expanding) hsound rfl).of_same (by simp) (by simp)
      (.inl (by simp))
  | code => exact looping.of_same (by simp) (by simp) (.inl (by simp))

theorem transition (looping : state.Looping env) (transition : Transition env state after) :
    after.Looping env := by
  cases transition with
  | @close input outer inputs atEnd nested =>
    -- the loop of a skipped body would have kept its file open
    refine looping.of_same (by simp) (by simp) (.inr fun loop hloop hskips => ?_)
    have hdepth := looping.innermost loop hloop hskips
    have := nested loop hloop
    omega
  | @line _ input read outer raw inputs next move =>
    have hread : State.Looping env { state with inputs := read :: outer } :=
      looping.of_same rfl rfl (.inl (by simp [inputs]))
    exact hread.move move

end Looping

end State

/-- The open scopes are those of the open loops, in all states of a run. -/
theorem Reachable.looping {env : Environment} {path : Path} {state : State}
    (reachable : Reachable env path state) : state.Looping env := by
  refine reachable.invariant (fun text _ => ?_) fun _ _ h => h.transition
  exact ⟨by simp [State.initial], by simp [State.initial, Scopes.ofFrames],
    by simp [State.initial], by simp [State.initial]⟩

end ShaderTemplate
