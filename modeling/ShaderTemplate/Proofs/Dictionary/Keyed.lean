import ShaderTemplate.Proofs.Dictionary.Lookup

/-!
# The keys of built dictionaries

Dictionaries are built by storing values, from the empty one on. In a dictionary that is built this
way the keys of each level are distinct and have no dot (`Dictionary.Built.keyed`): a path is cut at
its dots before a key of it is stored, and a key that is there already is stored over.

So a key of a level may be appended to a path to the level, and the result is a path to the value
of the key.
-/

namespace ShaderTemplate

mutual

/-- The values that can be built. -/
inductive Value.Built : Value → Prop
  | string (text : Text) : Value.Built (.string text)
  | number (value : Float) : Value.Built (.number value)
  | boolean (value : Bool) : Value.Built (.boolean value)
  | dictionary {level : Dictionary} (built : Dictionary.Built level) :
      Value.Built (.dictionary level)
  | list {items : List Value} (built : ∀ item ∈ items, Value.Built item) :
      Value.Built (.list items)

/-- The dictionaries that come of the empty one by storing built values. An attempt that fails
counts too, with what it leaves behind. -/
inductive Dictionary.Built : Dictionary → Prop
  | empty : Dictionary.Built .empty
  | set {d : Dictionary} {value : Value} (built : Dictionary.Built d) (stored : Value.Built value)
      (path : Text) (create : Bool) : Dictionary.Built (d.set path value create).1

end

namespace Dictionary

theorem Built.setAll {d : Dictionary} (built : d.Built) {pairs : List (Text × Value)}
    (stored : ∀ pair ∈ pairs, pair.2.Built) (create : Bool) : (d.setAll create pairs).Built := by
  induction pairs generalizing d with
  | nil => exact built
  | cons pair pairs ih =>
    obtain ⟨hpair, hpairs⟩ := List.forall_mem_cons.mp stored
    exact ih (.set built hpair pair.1 create) hpairs

theorem Built.ofList {pairs : List (Text × Value)} (stored : ∀ pair ∈ pairs, pair.2.Built) :
    (Dictionary.ofList pairs).Built :=
  Built.empty.setAll stored false

end Dictionary

/-- On each level of a value the keys are distinct, and none has a dot. -/
inductive Value.Keyed : Value → Prop
  | string (text : Text) : Keyed (.string text)
  | number (value : Float) : Keyed (.number value)
  | boolean (value : Bool) : Keyed (.boolean value)
  | dictionary {level : Dictionary} (distinct : level.topKeys.Nodup)
      (dotless : ∀ key ∈ level.topKeys, '.' ∉ key)
      (inner : ∀ entry ∈ level.entries, Keyed entry.value) : Keyed (.dictionary level)
  | list {items : List Value} (inner : ∀ item ∈ items, Keyed item) : Keyed (.list items)

/-- On each level of a dictionary the keys are distinct, and none has a dot. -/
def Dictionary.Keyed (d : Dictionary) : Prop :=
  (Value.dictionary d).Keyed

/-! ## Reading -/

theorem Dictionary.Keyed.entry? {d : Dictionary} (keyed : d.Keyed) {key : Text} {value : Value}
    (found : d.entry? key = some value) : value.Keyed := by
  obtain ⟨entry, hfind, rfl⟩ := Option.map_eq_some_iff.mp found
  cases keyed with
  | dictionary distinct dotless inner => exact inner entry (List.mem_of_find?_eq_some hfind)

theorem Value.Keyed.at? {value inner : Value} (keyed : value.Keyed) {keys : List Text}
    (found : value.at? keys = some inner) : inner.Keyed := by
  induction keys generalizing value with
  | nil =>
    cases found
    exact keyed
  | cons key rest ih =>
    cases value with
    | dictionary level =>
      obtain ⟨between, hentry, hrest⟩ := Option.bind_eq_some_iff.mp found
      exact ih (Dictionary.Keyed.entry? keyed hentry) hrest
    | string | number | boolean | list => cases found

/-- The keys of the levels that paths lead to have no dots. -/
theorem Dictionary.Keyed.dotless {d : Dictionary} (keyed : d.Keyed) {path : Text}
    {level : Dictionary} (found : d.get? path = some (.dictionary level)) {key : Text}
    (mem : key ∈ level.topKeys) : '.' ∉ key := by
  cases Value.Keyed.at? keyed found with
  | dictionary distinct dotless inner => exact dotless key mem

/-! ## Storing -/

namespace Dictionary

variable {d : Dictionary} {value : Value}

theorem topKeys_put (d : Dictionary) (key : Text) (value : Value) :
    (d.put key value).topKeys =
      if key ∈ d.topKeys then d.topKeys else d.topKeys ++ [key] :=
  (d.revised_put key value).keys

theorem Keyed.put (keyed : d.Keyed) {key : Text} (single : '.' ∉ key) (stored : value.Keyed) :
    (d.put key value).Keyed := by
  cases keyed with
  | dictionary distinct dotless inner =>
    have hkeys := topKeys_put d key value
    refine .dictionary ?_ ?_ fun entry hentry => ?_
    · rw [hkeys]
      split
      · exact distinct
      · rename_i hfresh
        refine List.nodup_append.mpr ⟨distinct, by simp, ?_⟩
        rintro other hother _ hkey rfl
        exact hfresh (List.mem_singleton.mp hkey ▸ hother)
    · rw [hkeys]
      split
      · exact dotless
      · exact List.forall_mem_append.mpr ⟨dotless, by simpa using single⟩
    · rcases (d.revised_put key value).mem hentry with rfl | hold
      · exact stored
      · exact inner entry hold

theorem keyed_empty : Dictionary.empty.Keyed :=
  .dictionary (by simp [empty, topKeys]) (by simp [empty, topKeys]) (by simp [empty])

theorem Keyed.withLevel (keyed : d.Keyed) {key : Text} (single : '.' ∉ key) :
    (d.withLevel key).Keyed := by
  unfold Dictionary.withLevel
  split
  · exact keyed
  · exact keyed.put single keyed_empty

theorem Keyed.setAt (keyed : d.Keyed) (stored : value.Keyed) (create : Bool) {keys : List Text}
    (dotless : ∀ key ∈ keys, '.' ∉ key) : (setAt value create d keys).1.Keyed := by
  induction keys generalizing d with
  | nil => exact keyed
  | cons key rest ih =>
    obtain ⟨hkey, hrest⟩ := List.forall_mem_cons.mp dotless
    cases rest with
    | nil => exact keyed.put hkey stored
    | cons second others =>
      have hreached : (if create then d.withLevel key else d).Keyed := by
        split
        · exact keyed.withLevel hkey
        · exact keyed
      rw [Dictionary.setAt]
      · dsimp only
        split
        · rename_i level hlevel
          exact hreached.put hkey (ih (hreached.entry? hlevel) hrest)
        · exact hreached
      · simp

end Dictionary

mutual

theorem Value.Built.keyed {value : Value} : value.Built → value.Keyed
  | .string text => .string text
  | .number number => .number number
  | .boolean truth => .boolean truth
  | .dictionary built => built.keyed
  | .list built => .list fun item hitem => (built item hitem).keyed

/-- In a built dictionary the keys of each level are distinct, and none has a dot. -/
theorem Dictionary.Built.keyed {d : Dictionary} : d.Built → d.Keyed
  | .empty => Dictionary.keyed_empty
  | .set built stored _ create =>
    built.keyed.setAt stored.keyed create fun _ hkey => Text.not_mem_of_mem_segments hkey

end

end ShaderTemplate
