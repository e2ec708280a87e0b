import ShaderTemplate.Proofs.Dictionary.Lookup

/-!
# What is stored, and where it can be

`Dictionary.store_law` says what look-ups find once a value was stored: the value at its path, what
is inside of it at the longer paths, dictionaries at the shorter ones, and the same as before at all
others. `Dictionary.store_all_or_nothing` says when a value cannot be stored, and that the
dictionary is then as it was, although levels are made on the way down.

## Shape of the argument

All of it goes by the keys of the path. A store enters one level under each key but the last:
`Dictionary.entered?` is the level that is entered along some keys, the one that is there or a new
one. What a store does under its first keys is to put back what it has made of the level that is
entered along them (`setAt_reaches`), and it fails if it is `Blocked`, where there is no level to be
entered along some of them (`setAt_eq_false_iff`). In a new level nothing can go wrong, since there
is nothing in it.
-/

namespace ShaderTemplate

/-- The value at a path inside of a value, which has to be a dictionary. -/
def Value.get? (value : Value) (path : Text) : Option Value :=
  match value with
  | .dictionary level => level.get? path
  | _ => none

theorem Value.at?_segments (value : Value) (path : Text) :
    value.at? (Text.segments '.' path) = value.get? path := by
  cases value with
  | dictionary level => rfl
  | string | number | boolean | list =>
    cases h : Text.segments '.' path with
    | nil => exact absurd h (Text.segments_ne_nil '.' path)
    | cons key rest => rfl

/-- A path in two parts leads to what the second part leads to inside of the value at the first. -/
theorem Dictionary.get?_joined (d : Dictionary) (first rest : Text) :
    d.get? (first ++ '.' :: rest) = (d.get? first).bind fun found => found.get? rest := by
  rw [Dictionary.get?_append]
  exact Option.bind_congr fun found _ => found.at?_segments rest

theorem Value.at?_cons (level : Dictionary) (key : Text) (rest : List Text) :
    (Value.dictionary level).at? (key :: rest) =
      (level.entry? key).bind fun inner => inner.at? rest := rfl

namespace Dictionary

/-- Nothing is found in the empty dictionary. -/
theorem at?_empty {keys : List Text} (nonempty : keys ≠ []) :
    (Value.dictionary empty).at? keys = none := by
  cases keys with
  | nil => exact absurd rfl nonempty
  | cons key rest => rfl

/-! ## Putting back -/

theorem put_put (d : Dictionary) (key : Text) (first second : Value) :
    (d.put key first).put key second = d.put key second := by
  obtain ⟨entries⟩ := d
  have hentries : Entry.put key second (Entry.put key first entries) =
      Entry.put key second entries := by
    induction entries with
    | nil => simp [Entry.put]
    | cons entry rest ih =>
      by_cases h : entry.key = key
      · simp [Entry.put, h]
      · simp [Entry.put, h, ih]
  rw [put, put, hentries, put]

/-- Putting back what is there changes nothing. -/
theorem put_entry {d : Dictionary} {key : Text} {value : Value}
    (found : d.entry? key = some value) : d.put key value = d := by
  obtain ⟨entries⟩ := d
  have hentries : Entry.put key value entries = entries := by
    simp only [Dictionary.entry?] at found
    induction entries with
    | nil => cases found
    | cons entry rest ih =>
      by_cases h : entry.key = key
      · obtain ⟨other, inner⟩ := entry
        subst h
        have hvalue : inner = value := by simpa using found
        rw [Entry.put, if_pos rfl, hvalue]
      · rw [Entry.put, if_neg h, ih (by simpa [h] using found)]
  rw [put, hentries]

/-! ## Levels on the way -/

variable {d : Dictionary} {value : Value} {create : Bool}

/-- The level that is entered along some keys: the dictionary that is there, or a new one where
nothing is and levels may be made. -/
def entered? (d : Dictionary) (create : Bool) (keys : List Text) : Option Dictionary :=
  match (Value.dictionary d).at? keys with
  | some (.dictionary level) => some level
  | some _ => none
  | none => if create then some empty else none

/-- A level is entered unless something else is there, or nothing and no level may be made. -/
theorem entered?_eq_none_iff {keys : List Text} :
    d.entered? create keys = none ↔
      (∃ found, (Value.dictionary d).at? keys = some found ∧ found.kind ≠ .dictionary) ∨
        create = false ∧ (Value.dictionary d).at? keys = none := by
  unfold entered?
  cases h : (Value.dictionary d).at? keys with
  | none => cases create <;> simp
  | some found => cases found <;> simp [Value.kind]

theorem entered?_empty (keys : List Text) : entered? empty true keys = some empty := by
  cases keys with
  | nil => rfl
  | cons key rest => rfl

/-- The level that is entered is a dictionary that is there, or new. -/
theorem entered?_cases {keys : List Text} {level : Dictionary}
    (entered : d.entered? create keys = some level) :
    (Value.dictionary d).at? keys = some (.dictionary level) ∨
      (Value.dictionary d).at? keys = none ∧ create = true ∧ level = empty := by
  unfold entered? at entered
  cases h : (Value.dictionary d).at? keys with
  | none =>
    rw [h] at entered
    cases create with
    | false => cases entered
    | true =>
      cases entered
      exact .inr ⟨rfl, rfl, rfl⟩
  | some found =>
    rw [h] at entered
    cases found with
    | dictionary inner =>
      cases entered
      exact .inl rfl
    | string | number | boolean | list => cases entered

theorem entered?_key_cases {key : Text} {level : Dictionary}
    (entered : d.entered? create [key] = some level) :
    d.entry? key = some (.dictionary level) ∨
      d.entry? key = none ∧ create = true ∧ level = empty := by
  rw [← Value.at?_singleton]
  exact entered?_cases entered

/-- Further levels are entered from the level that was entered first. -/
theorem entered?_cons {key : Text} {level : Dictionary}
    (entered : d.entered? create [key] = some level) (rest : List Text) :
    d.entered? create (key :: rest) = level.entered? create rest := by
  rcases entered?_key_cases entered with hfound | ⟨hmissing, rfl, rfl⟩
  · rw [entered?, Value.at?_cons, hfound, Option.bind_some, entered?]
  · rw [entered?_empty, entered?, Value.at?_cons, hmissing]
    rfl

/-! ## Storing key by key -/

/-- A store puts back what it has made of the level under its first key. -/
theorem setAt_cons (value : Value) (create : Bool) (d : Dictionary) (key : Text)
    {rest : List Text} (more : rest ≠ []) :
    setAt value create d (key :: rest) =
      match d.entered? create [key] with
      | some level =>
        (d.put key (.dictionary (setAt value create level rest).1),
          (setAt value create level rest).2)
      | none => (d, false) := by
  rw [setAt, entered?, Value.at?_singleton]
  · cases h : d.entry? key with
    | some found => cases create <;> cases found <;> simp [withLevel, h]
    | none =>
      cases create with
      | false => simp [h]
      | true => simp [withLevel, h, entry?_put, put_put]
  · exact more

/-- A store with more keys to come succeeds if there is a level to be entered and it succeeds
there. -/
theorem setAt_cons_stored {key : Text} {rest : List Text} (more : rest ≠ [])
    (stored : (setAt value create d (key :: rest)).2 = true) :
    ∃ level, d.entered? create [key] = some level ∧
      (setAt value create level rest).2 = true ∧
      (setAt value create d (key :: rest)).1 =
        d.put key (.dictionary (setAt value create level rest).1) := by
  rw [setAt_cons value create d key more] at stored ⊢
  cases h : d.entered? create [key] with
  | none =>
    rw [h] at stored
    cases stored
  | some level =>
    rw [h] at stored
    exact ⟨level, rfl, stored, rfl⟩

/-- What a store makes of the level that it enters along its first keys is found there. -/
theorem setAt_reaches {outer inner : List Text} (more : inner ≠ [])
    (stored : (setAt value create d (outer ++ inner)).2 = true) :
    ∃ level, d.entered? create outer = some level ∧
      (setAt value create level inner).2 = true ∧
      (Value.dictionary (setAt value create d (outer ++ inner)).1).at? outer =
        some (.dictionary (setAt value create level inner).1) := by
  induction outer generalizing d with
  | nil => exact ⟨d, rfl, stored, rfl⟩
  | cons key outer ih =>
    rw [List.cons_append] at stored ⊢
    obtain ⟨between, hentered, hstored, hafter⟩ :=
      setAt_cons_stored (List.append_ne_nil_of_right_ne_nil outer more) stored
    obtain ⟨level, hlevel, hinner, hfound⟩ := ih hstored
    refine ⟨level, (entered?_cons hentered outer).trans hlevel, hinner, ?_⟩
    rw [hafter, Value.at?_cons, entry?_put, if_pos rfl]
    exact hfound

/-- The value is found along its keys. -/
theorem at?_setAt_self {keys : List Text} (nonempty : keys ≠ [])
    (stored : (setAt value create d keys).2 = true) :
    (Value.dictionary (setAt value create d keys).1).at? keys = some value := by
  obtain ⟨outer, last, rfl⟩ := (List.eq_nil_or_concat' keys).resolve_left nonempty
  obtain ⟨level, -, -, hfound⟩ := setAt_reaches (List.cons_ne_nil last []) stored
  rw [Value.at?_append, hfound, Option.bind_some, Value.at?_singleton, setAt, entry?_put,
    if_pos rfl]

/-- Along keys that part from those of a store it changes nothing, whether or not it succeeds. -/
theorem at?_setAt_of_apart {keys other : List Text} (apart : ¬ keys <+: other)
    (apart' : ¬ other <+: keys) :
    (Value.dictionary (setAt value create d keys).1).at? other =
      (Value.dictionary d).at? other := by
  induction keys generalizing d other with
  | nil => exact absurd List.nil_prefix apart
  | cons key rest ih =>
    cases other with
    | nil => exact absurd List.nil_prefix apart'
    | cons name others =>
      rw [List.cons_prefix_cons, not_and] at apart apart'
      have hother (inner : Value) (hname : name ≠ key) :
          (Value.dictionary (d.put key inner)).at? (name :: others) =
            (Value.dictionary d).at? (name :: others) := by
        rw [Value.at?_cons, Value.at?_cons, entry?_put, if_neg hname]
      cases rest with
      | nil => exact hother value fun h => apart h.symm List.nil_prefix
      | cons second rest =>
        rw [setAt_cons value create d key (List.cons_ne_nil second rest)]
        cases hentered : d.entered? create [key] with
        | none => rfl
        | some level =>
          by_cases hname : name = key
          · subst hname
            have hinner := ih (d := level) (apart rfl) (apart' rfl)
            rw [Value.at?_cons, Value.at?_cons, entry?_put, if_pos rfl, Option.bind_some, hinner]
            rcases entered?_key_cases hentered with hfound | ⟨hmissing, -, rfl⟩
            · rw [hfound, Option.bind_some]
            · rw [hmissing, Option.bind_none]
              exact at?_empty fun h => apart' rfl (h ▸ List.nil_prefix)
          · exact hother _ hname

/-! ## Where a store fails -/

/-- Where a store along some keys cannot get to the last of them: there is no level to be entered on
the way. -/
def Blocked (d : Dictionary) (create : Bool) (keys : List Text) : Prop :=
  ∃ outer, outer <+: keys ∧ outer ≠ keys ∧ d.entered? create outer = none

/-- The level where a store starts is always there. -/
theorem not_blocked_key (d : Dictionary) (create : Bool) (key : Text) :
    ¬ d.Blocked create [key] := by
  rintro ⟨outer, hprefix, hne, hmissing⟩
  cases outer with
  | nil => cases hmissing
  | cons first outer =>
    obtain ⟨rfl, hnil⟩ := List.cons_prefix_cons.mp hprefix
    exact hne (by rw [List.prefix_nil.mp hnil])

theorem blocked_of_missing {key : Text} {rest : List Text} (more : rest ≠ [])
    (missing : d.entered? create [key] = none) : d.Blocked create (key :: rest) :=
  ⟨[key], List.cons_prefix_cons.mpr ⟨rfl, List.nil_prefix⟩, by simpa using more.symm, missing⟩

/-- Behind the first key, what blocks a store is in the level that is entered there. -/
theorem blocked_cons_iff {key : Text} {level : Dictionary}
    (entered : d.entered? create [key] = some level) {rest : List Text} :
    d.Blocked create (key :: rest) ↔ level.Blocked create rest := by
  constructor
  · rintro ⟨outer, hprefix, hne, hmissing⟩
    cases outer with
    | nil => cases hmissing
    | cons first outer =>
      obtain ⟨rfl, hrest⟩ := List.cons_prefix_cons.mp hprefix
      rw [entered?_cons entered] at hmissing
      exact ⟨outer, hrest, fun h => hne (by rw [h]), hmissing⟩
  · rintro ⟨outer, hprefix, hne, hmissing⟩
    rw [← entered?_cons entered] at hmissing
    exact ⟨key :: outer, List.cons_prefix_cons.mpr ⟨rfl, hprefix⟩, by simpa using hne, hmissing⟩

/-- A store fails if it is blocked on its way. -/
theorem setAt_eq_false_iff {keys : List Text} (nonempty : keys ≠ []) :
    (setAt value create d keys).2 = false ↔ d.Blocked create keys := by
  induction keys generalizing d with
  | nil => exact absurd rfl nonempty
  | cons key rest ih =>
    cases rest with
    | nil => exact iff_of_false (by simp [setAt]) (d.not_blocked_key create key)
    | cons second rest =>
      have hmore := List.cons_ne_nil second rest
      rw [setAt_cons value create d key hmore]
      cases hentered : d.entered? create [key] with
      | none => exact iff_of_true rfl (blocked_of_missing hmore hentered)
      | some level => exact (ih hmore).trans (blocked_cons_iff hentered).symm

/-- Nothing can go wrong in a new level. -/
theorem setAt_empty_stored {keys : List Text} (nonempty : keys ≠ []) :
    (setAt value true empty keys).2 = true := by
  rw [← Bool.not_eq_false, setAt_eq_false_iff nonempty]
  rintro ⟨outer, -, -, hmissing⟩
  rw [entered?_empty] at hmissing
  cases hmissing

/-- A store that fails changes nothing. -/
theorem setAt_eq_self {keys : List Text} (failed : (setAt value create d keys).2 = false) :
    (setAt value create d keys).1 = d := by
  induction keys generalizing d with
  | nil => rfl
  | cons key rest ih =>
    cases rest with
    | nil => cases failed
    | cons second rest =>
      have hmore := List.cons_ne_nil second rest
      rw [setAt_cons value create d key hmore] at failed ⊢
      cases hentered : d.entered? create [key] with
      | none => rfl
      | some level =>
        rw [hentered] at failed
        dsimp only at failed ⊢
        rcases entered?_key_cases hentered with hfound | ⟨-, rfl, rfl⟩
        · rw [ih failed, put_entry hfound]
        · rw [setAt_empty_stored hmore] at failed
          cases failed

/-! ## Paths -/

/-- Where the keys of a path begin with those of another path, which may be all of them. -/
def LeadsThrough (path outer : Text) : Prop :=
  Text.segments '.' outer <+: Text.segments '.' path

instance (path outer : Text) : Decidable (LeadsThrough path outer) :=
  inferInstanceAs (Decidable (_ <+: _))

/-- A path that leads through another one goes on after it, or is the same. -/
theorem LeadsThrough.exists_inner {path outer : Text} (leads : LeadsThrough path outer)
    (other : outer ≠ path) :
    ∃ inner, Text.segments '.' path = Text.segments '.' outer ++ inner ∧ inner ≠ [] := by
  obtain ⟨inner, hinner⟩ := leads
  refine ⟨inner, hinner.symm, ?_⟩
  rintro rfl
  rw [List.append_nil] at hinner
  exact other (Text.segments_injective '.' hinner)

/-- The first keys of a path make a path that it leads through. -/
theorem exists_leadsThrough {path : Text} {outer : List Text}
    (first : outer <+: Text.segments '.' path) (other : outer ≠ Text.segments '.' path)
    (nonempty : outer ≠ []) :
    ∃ text, Text.segments '.' text = outer ∧ LeadsThrough path text ∧ text ≠ path := by
  have hdotless : ∀ key ∈ outer, '.' ∉ key := fun key hkey =>
    Text.not_mem_of_mem_segments (first.subset hkey)
  have hsegments := Text.segments_joined nonempty hdotless
  refine ⟨Text.joined '.' outer, hsegments, ?_, ?_⟩
  · rw [LeadsThrough, hsegments]
    exact first
  · intro h
    rw [← hsegments, h] at other
    exact other rfl

/-- **What look-ups find once a value was stored.** The value is found at its path, and what is
inside of it at the paths that go on after it. The shorter paths that it leads through lead to
dictionaries, and nothing has changed at any other path.

At a path in two parts is found what the second part leads to from the dictionary at the first. -/
theorem store_law (d : Dictionary) (path : Text) (value : Value) (create : Bool) :
    ((d.set path value create).2 = true →
      let after := (d.set path value create).1
      after.get? path = some value ∧
      (∀ rest, after.get? (path ++ '.' :: rest) = value.get? rest) ∧
      (∀ outer, LeadsThrough path outer → outer ≠ path →
        ∃ level, after.get? outer = some (.dictionary level)) ∧
      ∀ other, ¬ LeadsThrough path other → ¬ LeadsThrough other path →
        after.get? other = d.get? other) ∧
    ∀ first rest, d.get? (first ++ '.' :: rest) =
      (d.get? first).bind fun found => found.get? rest := by
  refine ⟨fun stored => ?_, d.get?_joined⟩
  have hself : (d.set path value create).1.get? path = some value :=
    at?_setAt_self (Text.segments_ne_nil '.' path) stored
  refine ⟨hself, fun rest => ?_, fun outer leads hne => ?_, fun other apart apart' => ?_⟩
  · rw [get?_joined, hself, Option.bind_some]
  · obtain ⟨inner, hkeys, hinner⟩ := leads.exists_inner hne
    unfold set at stored ⊢
    rw [hkeys] at stored ⊢
    obtain ⟨level, -, -, hfound⟩ := setAt_reaches hinner stored
    exact ⟨_, hfound⟩
  · exact at?_setAt_of_apart apart' apart

/-- A dictionary is stored under a level that has to be made, whose key is empty. -/
theorem store_law_emptyKey :
    let d := ofPaths [("a.old".toList, .string "o".toList)]
    let value : Value := .dictionary (ofList [("k".toList, .string "v".toList)])
    let path := "a..b".toList
    let after := (d.set path value true).1
    (d.set path value true).2 = true ∧
      after.get? path = some value ∧
      after.get? "a..b.k".toList = some (.string "v".toList) ∧
      (∃ level, after.get? "a.".toList = some (.dictionary level)) ∧
      after.get? "a.old".toList = some (.string "o".toList) := by
  intro d value path after
  obtain ⟨hself, hinside, hthrough, hother⟩ := (store_law d path value true).1 rfl
  exact ⟨rfl, hself, hinside "k".toList, hthrough "a.".toList (by decide) (by decide),
    hother "a.old".toList (by decide) (by decide)⟩

/-- **All or nothing.** A value cannot be stored if and only if the path leads through something
that is no dictionary, or through a missing level while none may be made. The dictionary is then the
same as before. -/
theorem store_all_or_nothing (d : Dictionary) (path : Text) (value : Value) (create : Bool) :
    ((d.set path value create).2 = false ↔
      ∃ outer, LeadsThrough path outer ∧ outer ≠ path ∧
        ((∃ found, d.get? outer = some found ∧ found.kind ≠ .dictionary) ∨
          create = false ∧ d.get? outer = none)) ∧
    ((d.set path value create).2 = false → (d.set path value create).1 = d) := by
  refine ⟨?_, setAt_eq_self⟩
  rw [set, setAt_eq_false_iff (Text.segments_ne_nil '.' path)]
  constructor
  · rintro ⟨outer, hfirst, hne, hmissing⟩
    have houter : outer ≠ [] := by
      rintro rfl
      cases hmissing
    obtain ⟨text, rfl, hleads, htext⟩ := exists_leadsThrough hfirst hne houter
    exact ⟨text, hleads, htext, entered?_eq_none_iff.mp hmissing⟩
  · rintro ⟨outer, hleads, hne, hblocked⟩
    exact ⟨_, hleads, fun h => hne (Text.segments_injective '.' h),
      entered?_eq_none_iff.mpr hblocked⟩

/-- No level is made below a text, and none where none may be. -/
theorem store_all_or_nothing_belowText :
    let d := ofPaths [("a.s".toList, .string "x".toList)]
    let value : Value := .boolean true
    (d.set "a.s.t.u".toList value true).2 = false ∧ (d.set "a.s.t.u".toList value true).1 = d ∧
      (d.set "a.t.u".toList value false).2 = false ∧ (d.set "a.t.u".toList value false).1 = d ∧
      (d.set "a.t.u".toList value true).2 = true := by
  intro d value
  obtain ⟨hbelow, hsame⟩ := store_all_or_nothing d "a.s.t.u".toList value true
  obtain ⟨hmissing, hsame'⟩ := store_all_or_nothing d "a.t.u".toList value false
  have hfails := hbelow.mpr ⟨"a.s".toList, by decide, by decide, .inl ⟨_, rfl, by decide⟩⟩
  have hfails' := hmissing.mpr ⟨"a.t".toList, by decide, by decide, .inr ⟨rfl, rfl⟩⟩
  exact ⟨hfails, hsame hfails, hfails', hsame' hfails', rfl⟩

end Dictionary

end ShaderTemplate
