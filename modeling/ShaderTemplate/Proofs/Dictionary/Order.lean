import Mathlib.Data.List.Induction
import ShaderTemplate.Proofs.Dictionary.Keyed
import ShaderTemplate.Proofs.Dictionary.Storing
import ShaderTemplate.Proofs.Names.Resolution

/-!
# The order of keys

The keys of a level stand in the order in which they first came into it. `Dictionary.order_of_built`
says so for each dictionary that is built from a list and by attempts to store values, on all of its
levels, and hence for what a loop runs through.

## Shape of the order

A store along some keys does one of three things to a level (`entriesAt_setAt_over`,
`entriesAt_setAt_through`, `entriesAt_setAt_apart`). If its keys end at the level or before, the
level is stored over, and its keys are those that the stored value has there. If they go on after
the level, one entry of it is revised. Otherwise nothing changes. `arrive` keeps a list of the keys
that have come in, one after the other and as often as they have come, which begins anew where the
level is stored over. The keys of the level are this list without the repetitions
(`keysAt_after`).
-/

namespace ShaderTemplate

/-- The entries of the level that some keys lead to. Where there is no dictionary, there are
none. -/
def Value.entriesAt (value : Value) (keys : List Text) : List Entry :=
  match value.at? keys with
  | some (.dictionary level) => level.entries
  | _ => []

/-- The keys of the level that some keys lead to. -/
def Value.keysAt (value : Value) (keys : List Text) : List Text :=
  (value.entriesAt keys).map Entry.key

theorem Value.entriesAt_of_at? {value : Value} {keys : List Text} {level : Dictionary}
    (found : value.at? keys = some (.dictionary level)) : value.entriesAt keys = level.entries := by
  rw [entriesAt, found]

theorem Value.entriesAt_congr {value other : Value} {keys keys' : List Text}
    (same : value.at? keys = other.at? keys') : value.entriesAt keys = other.entriesAt keys' := by
  rw [entriesAt, same, entriesAt]

namespace Dictionary

/-- The keys that lead to the level whose keys `keys` lists. -/
def route (path : Text) : List Text :=
  if path.isEmpty then [] else Text.segments '.' path

theorem keys_eq (d : Dictionary) (path : Text) :
    d.keys path = (Value.dictionary d).keysAt (route path) := by
  unfold keys route
  split
  · rfl
  · unfold get? Value.keysAt Value.entriesAt
    cases (Value.dictionary d).at? (Text.segments '.' path) with
    | none => rfl
    | some found => cases found <;> rfl

variable {d : Dictionary} {value : Value} {create : Bool}

/-! ## What a store does to a level -/

/-- A level that is entered has the entries that were there. -/
theorem entriesAt_of_entered {keys : List Text} {level : Dictionary}
    (entered : d.entered? create keys = some level) :
    (Value.dictionary d).entriesAt keys = level.entries := by
  rcases entered?_cases entered with hfound | ⟨hmissing, -, rfl⟩
  · exact Value.entriesAt_of_at? hfound
  · rw [Value.entriesAt, hmissing]
    rfl

/-- On the level where it starts, a store puts something under its first key. -/
theorem exists_put {key : Text} {rest : List Text}
    (stored : (setAt value create d (key :: rest)).2 = true) :
    ∃ new, (setAt value create d (key :: rest)).1 = d.put key new := by
  cases rest with
  | nil => exact ⟨value, rfl⟩
  | cons second rest =>
    obtain ⟨level, -, -, hafter⟩ := setAt_cons_stored (List.cons_ne_nil second rest) stored
    exact ⟨_, hafter⟩

theorem entriesAt_setAt_over {keys : List Text} (nonempty : keys ≠ [])
    (stored : (setAt value create d keys).2 = true) (inner : List Text) :
    (Value.dictionary (setAt value create d keys).1).entriesAt (keys ++ inner) =
      value.entriesAt inner := by
  apply Value.entriesAt_congr
  rw [Value.at?_append, at?_setAt_self nonempty stored, Option.bind_some]

theorem entriesAt_setAt_through {outer : List Text} {key : Text} {rest : List Text}
    (stored : (setAt value create d (outer ++ key :: rest)).2 = true) :
    ∃ new, Entry.Revised key new ((Value.dictionary d).entriesAt outer)
      ((Value.dictionary (setAt value create d (outer ++ key :: rest)).1).entriesAt outer) := by
  obtain ⟨level, hentered, hstored, hfound⟩ := setAt_reaches (List.cons_ne_nil key rest) stored
  obtain ⟨new, hnew⟩ := exists_put hstored
  refine ⟨new, ?_⟩
  rw [entriesAt_of_entered hentered, Value.entriesAt_of_at? hfound, hnew]
  exact level.revised_put key new

theorem entriesAt_setAt_apart {keys level : List Text} (apart : ¬ keys <+: level)
    (apart' : ¬ level <+: keys) :
    (Value.dictionary (setAt value create d keys).1).entriesAt level =
      (Value.dictionary d).entriesAt level :=
  Value.entriesAt_congr (at?_setAt_of_apart apart apart')

end Dictionary

/-! ## The keys that have come into a level -/

/-- The keys that have come into a level, after one more value was stored along `keys`. -/
def Value.arrive (value : Value) (keys level : List Text) (arrived : List Text) : List Text :=
  if keys <+: level then value.keysAt (level.drop keys.length)
  else if level <+: keys then arrived ++ (keys.drop level.length).take 1
  else arrived

theorem eraseDups_concat (keys : List Text) (key : Text) :
    (keys ++ [key]).eraseDups =
      if key ∈ keys then keys.eraseDups else keys.eraseDups ++ [key] := by
  by_cases h : key ∈ keys
  · simp [List.eraseDups_append, List.cons_removeAll, h]
  · simp [List.eraseDups_append, List.cons_removeAll, List.eraseDups_cons, h]

theorem eraseDups_of_nodup {keys : List Text} (distinct : keys.Nodup) : keys.eraseDups = keys := by
  induction keys using List.reverseRecOn with
  | nil => rfl
  | append_singleton keys key ih =>
    obtain ⟨hkeys, -, hfresh⟩ := List.nodup_append.mp distinct
    have hkey : key ∉ keys := fun h => hfresh key h key (List.mem_singleton_self key) rfl
    rw [eraseDups_concat, if_neg hkey, ih hkeys]

/-- The keys of each level of a keyed value are distinct. -/
theorem Value.Keyed.nodup_keysAt {value : Value} (keyed : value.Keyed) (keys : List Text) :
    (value.keysAt keys).Nodup := by
  unfold keysAt entriesAt
  split
  · rename_i level hfound
    cases keyed.at? hfound with
    | dictionary distinct dotless inner => exact distinct
  · exact List.nodup_nil

namespace Dictionary

variable {d : Dictionary} {value : Value} {create : Bool}

/-- If the keys of a level are those that have come in, without repetitions, then so they are after
one more store. -/
theorem keysAt_setAt {keys level arrived : List Text} (nonempty : keys ≠ [])
    (keyed : value.Keyed) (stored : (setAt value create d keys).2 = true)
    (order : (Value.dictionary d).keysAt level = arrived.eraseDups) :
    (Value.dictionary (setAt value create d keys).1).keysAt level =
      (value.arrive keys level arrived).eraseDups := by
  unfold Value.arrive
  by_cases hover : keys <+: level
  · obtain ⟨inner, rfl⟩ := hover
    rw [if_pos (List.prefix_append keys inner), List.drop_left,
      eraseDups_of_nodup (keyed.nodup_keysAt inner), Value.keysAt,
      entriesAt_setAt_over nonempty stored, Value.keysAt]
  · rw [if_neg hover]
    by_cases hthrough : level <+: keys
    · obtain ⟨inner, rfl⟩ := hthrough
      cases inner with
      | nil => exact absurd (by simp) hover
      | cons key rest =>
        obtain ⟨new, hrevised⟩ := entriesAt_setAt_through stored
        rw [Value.keysAt] at order
        rw [if_pos (List.prefix_append level (key :: rest)), List.drop_left, Value.keysAt,
          hrevised.keys, order]
        simp only [List.mem_eraseDups, List.take_succ_cons, List.take_zero]
        exact (eraseDups_concat arrived key).symm
    · rw [if_neg hthrough, Value.keysAt, entriesAt_setAt_apart hover hthrough]
      exact order

/-! ## Attempts -/

/-- A value to be stored at a path, and whether missing levels may be made on the way. -/
structure Attempt where
  path : Text
  value : Value
  create : Bool

/-- The dictionary after some attempts, of which each may fail. -/
def after (d : Dictionary) (attempts : List Attempt) : Dictionary :=
  attempts.foldl (fun d attempt => (d.set attempt.path attempt.value attempt.create).1) d

/-- The attempts that succeed. -/
def accepted (d : Dictionary) : List Attempt → List Attempt
  | [] => []
  | attempt :: attempts =>
    let (next, stored) := d.set attempt.path attempt.value attempt.create
    if stored then attempt :: accepted next attempts else accepted next attempts

/-- The attempts by which the dictionary of a list is made. -/
def attemptsOf (pairs : List (Text × Value)) : List Attempt :=
  pairs.map fun (path, value) => ⟨path, value, false⟩

theorem ofList_after (pairs : List (Text × Value)) (attempts : List Attempt) :
    (ofList pairs).after attempts = empty.after (attemptsOf pairs ++ attempts) := by
  rw [after, after, List.foldl_append, attemptsOf, List.foldl_map]
  rfl

theorem Built.after {d : Dictionary} (built : d.Built) {attempts : List Attempt}
    (stored : ∀ attempt ∈ attempts, attempt.value.Built) : (d.after attempts).Built := by
  induction attempts generalizing d with
  | nil => exact built
  | cons attempt attempts ih =>
    obtain ⟨hattempt, hattempts⟩ := List.forall_mem_cons.mp stored
    exact ih (.set built hattempt attempt.path attempt.create) hattempts

/-- The keys that come into a level by some stores, one after the other. -/
def arrivals (level arrived : List Text) (stores : List Attempt) : List Text :=
  stores.foldl
    (fun arrived store => store.value.arrive (Text.segments '.' store.path) level arrived) arrived

/-- The keys of a level are those that have come in by the attempts that succeeded, in the order of
their first coming. -/
theorem keysAt_after {d : Dictionary} {attempts : List Attempt}
    (keyed : ∀ attempt ∈ attempts, attempt.value.Keyed) {level arrived : List Text}
    (order : (Value.dictionary d).keysAt level = arrived.eraseDups) :
    (Value.dictionary (d.after attempts)).keysAt level =
      (arrivals level arrived (d.accepted attempts)).eraseDups := by
  induction attempts generalizing d arrived with
  | nil => exact order
  | cons attempt attempts ih =>
    obtain ⟨hattempt, hattempts⟩ := List.forall_mem_cons.mp keyed
    have hsegments := Text.segments_ne_nil '.' attempt.path
    unfold accepted
    cases hstored : (d.set attempt.path attempt.value attempt.create).2 with
    | true =>
      dsimp only
      rw [hstored, if_pos rfl]
      exact ih hattempts (keysAt_setAt hsegments hattempt hstored order)
    | false =>
      have hsame : (d.set attempt.path attempt.value attempt.create).1 = d :=
        setAt_eq_self hstored
      dsimp only
      rw [hstored, hsame, if_neg Bool.false_ne_true, after, List.foldl_cons, hsame]
      exact ih hattempts order

/-! ## Looking keys up -/

/-- Each entry of a keyed dictionary is the one that is found under its key. -/
theorem Keyed.entry?_of_mem (keyed : d.Keyed) {entry : Entry} (mem : entry ∈ d.entries) :
    d.entry? entry.key = some entry.value := by
  cases keyed with
  | dictionary distinct dotless inner =>
    obtain ⟨before, behind, hentries⟩ := List.append_of_mem mem
    rw [topKeys, hentries, List.map_append, List.map_cons] at distinct
    have hbefore : ∀ other ∈ before, other.key ≠ entry.key := fun other hother hkey =>
      (List.nodup_append.mp distinct).2.2 _ (List.mem_map_of_mem hother) _ List.mem_cons_self hkey
    have hnone : before.find? (fun other => other.key = entry.key) = none := by
      simpa using hbefore
    rw [Dictionary.entry?, hentries, List.find?_append, hnone]
    simp

theorem Keyed.get?_topEntry (keyed : d.Keyed) {entry : Entry} (mem : entry ∈ d.entries) :
    d.get? entry.key = some entry.value := by
  have hdotless : '.' ∉ entry.key := by
    cases keyed with
    | dictionary distinct dotless inner => exact dotless _ (List.mem_map_of_mem mem)
  rw [get?_key d hdotless, keyed.entry?_of_mem mem]

/-- A key of a level of a keyed dictionary may be appended to a path to the level. -/
theorem Keyed.get?_entry (keyed : d.Keyed) {path : Text} {level : Dictionary}
    (found : d.get? path = some (.dictionary level)) {entry : Entry}
    (mem : entry ∈ level.entries) : d.get? (path ++ '.' :: entry.key) = some entry.value := by
  have hlevel : level.Keyed := Value.Keyed.at? keyed found
  rw [get?_joined, found, Option.bind_some]
  exact hlevel.get?_topEntry mem

/-! ## Built dictionaries -/

section BuiltDictionaries

variable {pairs : List (Text × Value)} {attempts : List Attempt}

theorem keysAt_of_built (listed : ∀ pair ∈ pairs, pair.2.Built)
    (stored : ∀ attempt ∈ attempts, attempt.value.Built) (level : List Text) :
    (Value.dictionary ((ofList pairs).after attempts)).keysAt level =
      (arrivals level [] (empty.accepted (attemptsOf pairs ++ attempts))).eraseDups := by
  have hvalues : ∀ attempt ∈ attemptsOf pairs ++ attempts, attempt.value.Keyed := by
    intro attempt hattempt
    rcases List.mem_append.mp hattempt with h | h
    · obtain ⟨pair, hpair, rfl⟩ := List.mem_map.mp h
      exact (listed pair hpair).keyed
    · exact (stored attempt h).keyed
  have hempty : (Value.dictionary empty).keysAt level = List.eraseDups [] := by
    cases level <;> rfl
  rw [ofList_after]
  exact keysAt_after hvalues hempty

/-- **Built dictionaries are kept in order.** Take a dictionary that is built from a list and by
attempts to store values, all of which were built the same way. On each level its keys are distinct,
and none has a dot.

A store that succeeds revises one entry of a level that its path leads through, in its place or at
the end, and leaves the entries of all other levels as they are, unless it stores over the level.

The keys of a level are those that have come in, in the order of their first coming, and so are the
keys that a loop runs through. The path to a level with a key of the level after it leads to the
value of the key. -/
theorem order_of_built (listed : ∀ pair ∈ pairs, pair.2.Built)
    (stored : ∀ attempt ∈ attempts, attempt.value.Built) :
    let d := (ofList pairs).after attempts
    let stores := empty.accepted (attemptsOf pairs ++ attempts)
    d.Keyed ∧
    (∀ path value create, (d.set path value create).2 = true →
      ∀ level, ¬ Text.segments '.' path <+: level →
        (∀ key, level ++ [key] <+: Text.segments '.' path →
          ∃ new, Entry.Revised key new ((Value.dictionary d).entriesAt level)
            ((Value.dictionary (d.set path value create).1).entriesAt level)) ∧
        (¬ level <+: Text.segments '.' path →
          (Value.dictionary (d.set path value create).1).entriesAt level =
            (Value.dictionary d).entriesAt level)) ∧
    (∀ path, d.keys path = (arrivals (route path) [] stores).eraseDups) ∧
    (∀ (names : Names) (place : Place) (reference resolved : Text) (keys : List Text),
      names.dictionary = d → names.levelOf place reference = .ok (resolved, keys) →
        keys = (arrivals (Text.segments '.' resolved) [] stores).eraseDups) ∧
    (∀ entry ∈ d.entries, d.get? entry.key = some entry.value) ∧
    ∀ path level, d.get? path = some (.dictionary level) → ∀ entry ∈ level.entries,
      d.get? (path ++ '.' :: entry.key) = some entry.value := by
  intro d stores
  have hbuilt : d.Built := (Built.ofList listed).after stored
  have hkeyed := hbuilt.keyed
  refine ⟨hkeyed, ?_, ?_, ?_, fun entry mem => hkeyed.get?_topEntry mem,
    fun path level found entry mem => hkeyed.get?_entry found mem⟩
  · intro path value create hstored level hover
    refine ⟨?_, fun hthrough => entriesAt_setAt_apart hover hthrough⟩
    rintro key ⟨rest, hkeys⟩
    rw [List.append_assoc, List.singleton_append] at hkeys
    unfold set at hstored ⊢
    rw [← hkeys] at hstored ⊢
    exact entriesAt_setAt_through hstored
  · intro path
    rw [keys_eq, keysAt_of_built listed stored]
  · intro names place reference resolved keys hnames hlevel
    obtain ⟨-, level, hfound, rfl⟩ := Names.levelOf_eq_ok_iff.mp hlevel
    rw [hnames] at hfound
    rw [← keysAt_of_built listed stored, Value.keysAt, Value.entriesAt_of_at? hfound, topKeys]

/-- A key that comes in again keeps its place, and an attempt that fails brings none in. -/
theorem order_of_built_again :
    let inner := ofList [("z".toList, .string []), ("y".toList, .string [])]
    let pairs : List (Text × Value) :=
      [("b".toList, .dictionary inner), ("a".toList, .string [])]
    let attempts : List Attempt :=
      [⟨"b.x".toList, .string [], false⟩, ⟨"a.q".toList, .string [], true⟩,
        ⟨"b.z".toList, .boolean true, false⟩]
    let d := (ofList pairs).after attempts
    let arrived := arrivals (route "b".toList) [] (empty.accepted (attemptsOf pairs ++ attempts))
    (∀ pair ∈ pairs, pair.2.Built) ∧ (∀ attempt ∈ attempts, attempt.value.Built) ∧
      arrived = ["z".toList, "y".toList, "x".toList, "z".toList] ∧
      d.keys "b".toList = ["z".toList, "y".toList, "x".toList] ∧
      d.Keyed ∧ d.keys "b".toList = arrived.eraseDups := by
  intro inner pairs attempts d arrived
  have hinner : inner.Built := .ofList (by simp [Value.Built.string])
  have listed : ∀ pair ∈ pairs, pair.2.Built := by
    simp [pairs, Value.Built.string, Value.Built.dictionary hinner]
  have stored : ∀ attempt ∈ attempts, attempt.value.Built := by
    simp [attempts, Value.Built.string, Value.Built.boolean]
  obtain ⟨hkeyed, -, hkeys, -⟩ := order_of_built listed stored
  exact ⟨listed, stored, by decide, rfl, hkeyed, hkeys "b".toList⟩

end BuiltDictionaries

end Dictionary

end ShaderTemplate
