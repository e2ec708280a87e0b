import ShaderTemplate.FileStore
import ShaderTemplate.Proofs.Dictionary.Keyed
import ShaderTemplate.Proofs.Expansion.Loops

/-!
# The names of a loop header

In an iteration of `#for k, v in r` the name `k` stands for the key of the iteration, and `v` for
the value under this key in the dictionary of the loop. `Environment.loop_names_mean_header` says so
for all holes that are filled while the iteration is open, in its file or in an included one, and
that after the loop all names mean what they meant before it.

## Shape of the argument

A scope binds texts and not values. So there are two texts to follow. The key is put in quotes and
taken out of them again. The path of the value is the path of the dictionary with the key at its
end, and possibly more keys behind it. It is cut at its dots again, so it leads to the value because
no key of a built dictionary has a dot.
-/

namespace ShaderTemplate

/-! ## What names are bound to -/

namespace Names

variable {names : Names} {place : Place} {name : Text}

theorem forall_ne_dot (dotless : '.' ∉ name) : ∀ c ∈ name, decide (c ≠ '.') = true :=
  fun _ hc => decide_eq_true fun h => dotless (h ▸ hc)

/-- The head of a name without dots is the name. -/
theorem head_of_dotless (dotless : '.' ∉ name) : head name = name :=
  List.takeWhile_eq_self_iff.mpr (forall_ne_dot dotless)

theorem tail_of_dotless (dotless : '.' ∉ name) : tail name = [] :=
  List.dropWhile_eq_nil_iff.mpr (forall_ne_dot dotless)

/-- Behind a name without dots the tail begins with the next dot. -/
theorem head_append (dotless : '.' ∉ name) (rest : Text) : head (name ++ '.' :: rest) = name := by
  rw [head, List.takeWhile_append_of_pos (forall_ne_dot dotless)]
  simp

theorem tail_append (dotless : '.' ∉ name) (rest : Text) :
    tail (name ++ '.' :: rest) = '.' :: rest := by
  rw [tail, List.dropWhile_append_of_pos (forall_ne_dot dotless)]
  simp

/-- What fills a hole whose name leads to `found` by a path. -/
def textFound (place : Place) (name path : Text) : Option Value → Except Failure Text
  | none => .error (.unresolvedName name place)
  | some (.string text) => .ok text
  | some other => .error (.notAString name path other.kind.name place)

/-- A name that is not bound to a text in quotes is looked up in the dictionary. -/
theorem textOf_of_path {path : Text}
    (replaced : (names.alias? (head name)).getD (head name) ++ tail name = path)
    (unquoted : path.head? ≠ some '"') :
    names.textOf place name = textFound place name path (names.dictionary.get? path) := by
  have hnone (text : Text) (h : text.head? ≠ some '"') : Text.unquote? text = none := by
    unfold Text.unquote?
    split
    · simp at h
    · rfl
  have hfirst : Text.unquote? ((names.alias? (head name)).getD (head name)) = none := by
    refine hnone _ fun h => unquoted ?_
    rw [← replaced, List.head?_append, h, Option.some_or]
  have hresolve : names.resolve? name =
      if names.dictionary.contains path then some path else none := by
    unfold resolve?
    simp only [hfirst, replaced, Option.isSome_none, Bool.and_false, Bool.false_or]
  unfold textOf
  rw [hresolve, Dictionary.contains]
  cases hget : names.dictionary.get? path with
  | none => rfl
  | some value =>
    simp only [Option.isSome_some, if_true, hnone path unquoted, hget]
    cases value <;> rfl

/-- Keys behind a path do not put it into quotes. -/
theorem unquoted_append {path : Text} (unquoted : path.head? ≠ some '"') (keys : Text) :
    (path ++ '.' :: keys).head? ≠ some '"' := by
  cases path with
  | nil => simp
  | cons c path => simpa using unquoted

/-- A name that is bound to a path stands for what is at the path. -/
theorem textOf_of_bound {path : Text} (dotless : '.' ∉ name)
    (bound : names.alias? name = some path) (unquoted : path.head? ≠ some '"') :
    names.textOf place name = textFound place name path (names.dictionary.get? path) := by
  refine textOf_of_path ?_ unquoted
  rw [head_of_dotless dotless, tail_of_dotless dotless, bound, Option.getD_some, List.append_nil]

/-- Keys behind a name that is bound to a path go behind the path. -/
theorem textOf_of_bound_append {path : Text} (dotless : '.' ∉ name)
    (bound : names.alias? name = some path) (unquoted : path.head? ≠ some '"') (keys : Text) :
    names.textOf place (name ++ '.' :: keys) =
      textFound place (name ++ '.' :: keys) (path ++ '.' :: keys)
        ((names.dictionary.get? path).bind fun value => value.at? (Text.segments '.' keys)) := by
  rw [← Dictionary.get?_append]
  refine textOf_of_path ?_ (unquoted_append unquoted keys)
  rw [head_append dotless, tail_append dotless, bound, Option.getD_some]

/-- A name that is bound to a text in quotes stands for the text. -/
theorem textOf_of_enquoted {text : Text} (dotless : '.' ∉ name)
    (bound : names.alias? name = some (Text.enquote text)) :
    names.textOf place name = .ok text := by
  have hresolve : names.resolve? name = some (Text.enquote text) := by
    unfold resolve?
    simp [head_of_dotless dotless, tail_of_dotless dotless, bound, Text.unquote?_enquote]
  unfold textOf
  simp only [hresolve, Text.unquote?_enquote]

end Names

/-! ## While an iteration is open -/

/-- Whether the scope of a loop binds a name. -/
def Loop.Binds (loop : Loop) (name : Text) : Prop :=
  name ∈ loop.bindings.map Prod.fst

instance (loop : Loop) (name : Text) : Decidable (loop.Binds name) :=
  inferInstanceAs (Decidable (name ∈ loop.bindings.map Prod.fst))

namespace Reachable

variable {env : Environment} {path : Path} {state : State} {inner outer : List Loop} {loop : Loop}

/-- Loops that do not bind a name are passed by. -/
theorem alias?_of_free (reachable : Reachable env path state)
    (loops : state.loops = inner ++ loop :: outer) {name text : Text}
    (free : ∀ other ∈ inner, ¬ other.Binds name)
    (bound : loop.bindings.reverse.lookup name = some text) :
    (state.names env).alias? name = some text := by
  have hfree : ∀ frame ∈ inner.map Loop.bindings, name ∉ frame.map Prod.fst := by
    simpa [Loop.Binds] using free
  have hresolve : state.scopes.resolve? = Scopes.lookUp (state.loops.map Loop.bindings) := by
    rw [reachable.looping.scopes, Scopes.resolve?_ofFrames]
  calc (state.names env).alias? name
      = Scopes.lookUp (state.loops.map Loop.bindings) name := congrFun hresolve name
    _ = Scopes.lookUp (loop.bindings :: outer.map Loop.bindings) name := by
      rw [loops, List.map_append, Scopes.lookUp_append_of_not_mem hfree, List.map_cons]
    _ = some text := by rw [Scopes.lookUp_cons, bound, Option.some_or]

/-- An open iteration has a key, which is the key of a value in the dictionary of its loop. -/
theorem level_of_iteration (reachable : Reachable env path state) (mem : loop ∈ state.loops)
    {index : Nat} (phase : loop.phase = .iteration index) :
    ∃ level key, env.dictionary.get? loop.reference = some (.dictionary level) ∧
      level.topKeys[index]? = some key ∧
      loop.bindings = [(loop.header.key, Text.enquote key),
        (loop.header.value, loop.reference ++ '.' :: key)] := by
  have hsound := reachable.looping.sound loop mem
  obtain ⟨level, hlevel, hkeys⟩ := hsound.level
  have hindex := hsound.phase
  rw [phase] at hindex
  have hkey : loop.keys[index]? = some loop.keys[index] := List.getElem?_eq_getElem hindex
  refine ⟨level, loop.keys[index], hlevel, ?_, ?_⟩
  · rw [← hkeys]
    exact hkey
  · simp only [Loop.bindings, Loop.key?, phase, hkey]

end Reachable

/-! ## After the loop -/

theorem LineMove.tail_suffix_loops {env : Environment} {state after : State} {raw : Text}
    (move : LineMove env raw state after) : state.loops.tail <:+ after.loops := by
  have htail : state.loops.tail <:+ state.loops := List.tail_suffix _
  cases move with
  | skipped | code => simpa using htail
  | openFile => simpa [State.foldl_record] using htail
  | beginLoop | beginEmpty => simpa using htail.trans (List.suffix_cons _ _)
  | nestedEnd word loops | nestedHeader word loops => simp [loops]
  | nextKey word loops | lastEnd word loops => simp [loops]

/-- A step keeps all loops open but the innermost. -/
theorem Transition.tail_suffix_loops {env : Environment} {state after : State}
    (transition : Transition env state after) : state.loops.tail <:+ after.loops := by
  cases transition with
  | close => simpa using List.tail_suffix _
  | line inputs next move => exact move.tail_suffix_loops

/-- A step that is taken within a loop keeps the loops around it. -/
theorem Transition.suffix_loops {env : Environment} {state after : State} {outer : List Loop}
    (transition : Transition env state after) (suffix : outer <:+ state.loops)
    (within : outer.length < state.loops.length) : outer <:+ after.loops := by
  cases hloops : state.loops with
  | nil => simp [hloops] at within
  | cons loop loops =>
    have htail := transition.tail_suffix_loops
    rw [hloops] at suffix within htail
    rcases List.suffix_cons_iff.mp suffix with rfl | hrest
    · exact absurd within (Nat.lt_irrefl _)
    · exact hrest.trans htail

/-- A step of an expansion at whose end more loops are open than so many. -/
def State.StepsWithin (env : Environment) (outer : Nat) (state after : State) : Prop :=
  state.step env = .running after ∧ outer < after.loops.length

/-- When a loop is over, the loops around it are those that were open before it. -/
theorem State.loops_of_stepsWithin {env : Environment} {state last after : State} {loop : Loop}
    {outer : List Loop} (loops : state.loops = loop :: outer)
    (steps : Relation.ReflTransGen (State.StepsWithin env outer.length) state last)
    (step : last.step env = .running after) (ended : after.loops.length ≤ outer.length) :
    after.loops = outer := by
  have hwithin : outer <:+ last.loops ∧ outer.length < last.loops.length := by
    clear step
    induction steps with
    | refl =>
      rw [loops]
      exact ⟨List.suffix_cons _ _, Nat.lt_succ_self _⟩
    | tail _ next ih =>
      obtain ⟨hnext, hlonger⟩ := next
      exact ⟨(State.transition_of_step hnext).suffix_loops ih.1 ih.2, hlonger⟩
  have hsuffix := (State.transition_of_step step).suffix_loops hwithin.1 hwithin.2
  exact (hsuffix.eq_of_length_le ended).symm

/-- In states with the same open loops all names mean the same. -/
theorem Reachable.names_eq {env : Environment} {path : Path} {state other : State}
    (reachable : Reachable env path state) (reachable' : Reachable env path other)
    (loops : other.loops = state.loops) : other.names env = state.names env := by
  unfold State.names
  rw [reachable.looping.scopes, reachable'.looping.scopes, loops]

/-! ## The main theorem -/

/-- **The names of a loop mean what its header says.** Take a dictionary that was built by storing
values. Let an iteration of a loop be open, whose key name and value name are different and without
dots, over a dictionary whose path is no text in quotes. As long as no inner loop binds the name
again, the key name stands for the key of the iteration, and the value name for the value under the
key, or for what is inside of the value if keys are put behind the name. When the loop is over, all
names mean again what they meant before the loop. -/
theorem Environment.loop_names_mean_header (env : Environment) (built : env.dictionary.Built)
    (path : Path) :
    (∀ (state : State) (inner outer : List Loop) (loop : Loop) (index : Nat),
      Reachable env path state → state.loops = inner ++ loop :: outer →
      loop.phase = .iteration index → loop.header.key ≠ loop.header.value →
      '.' ∉ loop.header.key → '.' ∉ loop.header.value → loop.reference.head? ≠ some '"' →
      ∃ level key, env.dictionary.get? loop.reference = some (.dictionary level) ∧
        level.topKeys[index]? = some key ∧
        ((∀ other ∈ inner, ¬ other.Binds loop.header.key) →
          ∀ place, (state.names env).textOf place loop.header.key = .ok key) ∧
        ((∀ other ∈ inner, ¬ other.Binds loop.header.value) →
          ∀ place,
            (state.names env).textOf place loop.header.value =
              Names.textFound place loop.header.value (loop.reference ++ '.' :: key)
                (level.entry? key) ∧
            ∀ keys, (state.names env).textOf place (loop.header.value ++ '.' :: keys) =
              Names.textFound place (loop.header.value ++ '.' :: keys)
                (loop.reference ++ '.' :: key ++ '.' :: keys)
                ((level.entry? key).bind fun value => value.at? (Text.segments '.' keys)))) ∧
    ∀ (before state last after : State) (loop : Loop),
      Reachable env path before → before.step env = .running state →
      state.loops = loop :: before.loops →
      Relation.ReflTransGen (State.StepsWithin env before.loops.length) state last →
      last.step env = .running after → after.loops.length ≤ before.loops.length →
      after.names env = before.names env := by
  constructor
  · intro state inner outer loop index reachable loops phase distinct keyDotless valueDotless
      unquoted
    have hmem : loop ∈ state.loops := by simp [loops]
    obtain ⟨level, key, hlevel, hkey, hbindings⟩ := reachable.level_of_iteration hmem phase
    have hdotless : '.' ∉ key :=
      built.keyed.dotless hlevel (List.mem_of_getElem? hkey)
    have hentry : (state.names env).dictionary.get? (loop.reference ++ '.' :: key) =
        level.entry? key := by
      change env.dictionary.get? (loop.reference ++ '.' :: key) = level.entry? key
      rw [Dictionary.get?_append, hlevel, Option.bind_some, Text.segments_of_not_mem hdotless,
        Value.at?_singleton]
    refine ⟨level, key, hlevel, hkey, fun free place => ?_, fun free place => ?_⟩
    · refine Names.textOf_of_enquoted keyDotless (reachable.alias?_of_free loops free ?_)
      simp [hbindings, List.lookup_cons, beq_false_of_ne distinct]
    · have halias : (state.names env).alias? loop.header.value =
          some (loop.reference ++ '.' :: key) :=
        reachable.alias?_of_free loops free (by simp [hbindings])
      have hunquoted := Names.unquoted_append unquoted key
      refine ⟨?_, fun keys => ?_⟩
      · rw [Names.textOf_of_bound valueDotless halias hunquoted, hentry]
      · rw [Names.textOf_of_bound_append valueDotless halias hunquoted, hentry]
  · intro before state last after loop reachable step loops steps lastStep ended
    have hstate : Reachable env path state := .step reachable step
    have htransitions : Transitions env state last :=
      Relation.ReflTransGen.mono (fun _ _ h => State.transition_of_step h.1) _ _ steps
    have hafter : Reachable env path after := .step (hstate.transitions htransitions) lastStep
    exact reachable.names_eq hafter (State.loops_of_stepsWithin loops steps lastStep ended)

/-- A loop, and in it a loop over the values of the outer one. -/
def Text.loopInLoop : Text :=
  "#for k, v in t\n#for i, j in v\n#endfor\n#endfor\n".toList

/-- A dictionary in a dictionary for the two loops. -/
def Dictionary.loopInLoop : Dictionary :=
  .ofList [("t".toList, .dictionary (.ofList [("a".toList, .dictionary
    (.ofList [("q".toList, .string "x".toList)]))]))]

/-- The two loops over this dictionary. -/
def Environment.loopInLoop : Environment :=
  ⟨(FileStore.empty.write ⟨"/main".toList⟩ (.text .loopInLoop) none).memory, .loopInLoop,
    [], false, false⟩

/-- The outer loop. -/
def Loop.outerLoop : Loop :=
  ⟨1, ⟨"/main".toList, 1⟩, ⟨"k".toList, "v".toList, "t".toList⟩, "t".toList, ["a".toList],
    .iteration 0⟩

/-- The inner loop. -/
def Loop.innerLoop : Loop :=
  ⟨1, ⟨"/main".toList, 2⟩, ⟨"i".toList, "j".toList, "v".toList⟩, "t.a".toList, ["q".toList],
    .iteration 0⟩

/-- The state after so many lines, with these loops open. -/
def State.loopInLoop (line : Nat) (loops : List Loop) (journal : List Event) : State where
  inputs := [{ Input.start ⟨"/main".toList⟩ .loopInLoop [] with line }]
  loops
  scopes := Scopes.ofFrames (loops.map Loop.bindings)
  pieces := []
  opened := [⟨"/main".toList⟩]
  journal

theorem Environment.loop_names_mean_header_loopInLoop :
    let opened := Event.opened ⟨"/main".toList⟩
    let begun := Event.loopBegun "t".toList "a".toList
    let both := [.loopBegun "t.a".toList "q".toList, begun, opened]
    let before := State.loopInLoop 0 [] [opened]
    let within := State.loopInLoop 2 [.innerLoop, .outerLoop] both
    let after := State.loopInLoop 4 [] both
    Dictionary.loopInLoop.Built ∧ Reachable .loopInLoop ⟨"/main".toList⟩ within ∧
      (∀ place, (within.names .loopInLoop).textOf place "k".toList = .ok "a".toList ∧
        (within.names .loopInLoop).textOf place "v".toList =
          .error (.notAString "v".toList "t.a".toList "dictionary".toList place) ∧
        (within.names .loopInLoop).textOf place "v.q".toList = .ok "x".toList ∧
        (within.names .loopInLoop).textOf place "v.r".toList =
          .error (.unresolvedName "v.r".toList place)) ∧
      after.names .loopInLoop = before.names .loopInLoop := by
  intro opened begun both before within after
  have hbuilt : Dictionary.loopInLoop.Built :=
    .ofList (List.forall_mem_singleton.mpr (.dictionary
      (.ofList (List.forall_mem_singleton.mpr (.dictionary
        (.ofList (List.forall_mem_singleton.mpr (.string _))))))))
  have hbefore : Reachable .loopInLoop ⟨"/main".toList⟩ before := .opened (by rfl)
  have hfirst : before.step .loopInLoop =
    .running (State.loopInLoop 1 [.outerLoop] [begun, opened]) := by rfl
  have hsecond : (State.loopInLoop 1 [.outerLoop] [begun, opened]).step .loopInLoop =
    .running within := by rfl
  have hthird : within.step .loopInLoop = .running (State.loopInLoop 3 [.outerLoop] both) := by rfl
  have hfourth : (State.loopInLoop 3 [.outerLoop] both).step .loopInLoop = .running after := by rfl
  have hwithin : Reachable .loopInLoop ⟨"/main".toList⟩ within :=
    .step (.step hbefore hfirst) hsecond
  obtain ⟨hopen, hover⟩ :=
    Environment.loop_names_mean_header .loopInLoop hbuilt ⟨"/main".toList⟩
  obtain ⟨level, key, hlevel, hkey, hkeyName, hvalueName⟩ := hopen within [.innerLoop] []
    .outerLoop 0 hwithin rfl rfl (by decide) (by decide) (by decide) (by decide)
  cases hlevel
  cases hkey
  refine ⟨hbuilt, hwithin, fun place => ⟨hkeyName (by decide) place, ?_⟩, ?_⟩
  · obtain ⟨hvalue, hinner⟩ := hvalueName (by decide) place
    exact ⟨hvalue, hinner "q".toList, hinner "r".toList⟩
  · refine hover before _ _ after .outerLoop hbefore hfirst rfl ?_ hfourth (by decide)
    exact .tail (.tail .refl ⟨hsecond, by decide⟩) ⟨hthird, by decide⟩

end ShaderTemplate
