import ShaderTemplate.Dictionary.Update
import ShaderTemplate.Proofs.Text.Lines

/-!
# Looking values up

A look-up along a path in two parts is a look-up along the first part followed by one along the
second, inside of what was found (`Dictionary.get?_append`). Storing a value under a key of the top
level changes what is found under this key and no other (`Dictionary.entry?_put`), and it changes
one entry or appends one (`Dictionary.revised_put`).
-/

namespace ShaderTemplate

theorem Value.at?_append (value : Value) (keys rest : List Text) :
    value.at? (keys ++ rest) = (value.at? keys).bind fun inner => inner.at? rest := by
  induction keys generalizing value with
  | nil => rfl
  | cons key keys ih =>
    cases value with
    | dictionary level =>
      rw [List.cons_append, at?, at?, Option.bind_assoc]
      exact Option.bind_congr fun inner _ => ih inner
    | string | number | boolean | list => rfl

/-- A path of one key leads to an entry of a dictionary. -/
theorem Value.at?_singleton (level : Dictionary) (key : Text) :
    (Value.dictionary level).at? [key] = level.entry? key := by
  rw [at?]
  exact Option.bind_fun_some _

namespace Dictionary

variable (d : Dictionary)

theorem get?_append (path rest : Text) :
    d.get? (path ++ '.' :: rest) =
      (d.get? path).bind fun inner => inner.at? (Text.segments '.' rest) := by
  rw [get?, Text.segments_append, Value.at?_append]
  rfl

/-- A text without a dot is a key. -/
theorem get?_key {key : Text} (dotless : '.' ∉ key) : d.get? key = d.entry? key := by
  rw [get?, Text.segments_of_not_mem dotless, Value.at?_singleton]

theorem entry?_eq_none_iff {key : Text} : d.entry? key = none ↔ key ∉ d.topKeys := by
  simp [Dictionary.entry?, topKeys]

end Dictionary

/-! ## Storing under a key -/

/-- What storing under a key makes of the entries of a level: an entry with this key is replaced
where it stands, and a new one goes to the end. -/
inductive Entry.Revised (key : Text) (value : Value) : List Entry → List Entry → Prop
  | inPlace (before : List Entry) (old : Value) (behind : List Entry) :
      Revised key value (before ++ ⟨key, old⟩ :: behind) (before ++ ⟨key, value⟩ :: behind)
  | appended {entries : List Entry} (fresh : key ∉ entries.map Entry.key) :
      Revised key value entries (entries ++ [⟨key, value⟩])

namespace Entry.Revised

variable {key : Text} {value : Value} {entries after : List Entry}

theorem cons {entry : Entry} (revised : Revised key value entries after)
    (other : entry.key ≠ key) : Revised key value (entry :: entries) (entry :: after) := by
  cases revised with
  | inPlace before old behind => exact inPlace (entry :: before) old behind
  | appended fresh => exact appended (by simpa [Ne.symm other] using fresh)

/-- The keys stay as they are, unless there is a new one, which is the last. -/
theorem keys (revised : Revised key value entries after) :
    after.map Entry.key =
      if key ∈ entries.map Entry.key then entries.map Entry.key
      else entries.map Entry.key ++ [key] := by
  cases revised with
  | inPlace before old behind => simp
  | appended fresh => rw [if_neg fresh, List.map_append, List.map_singleton]

theorem mem {entry : Entry} (revised : Revised key value entries after) (h : entry ∈ after) :
    entry = ⟨key, value⟩ ∨ entry ∈ entries := by
  cases revised with
  | inPlace before old behind =>
    rcases List.mem_append.mp h with h | h
    · exact .inr (List.mem_append_left _ h)
    · exact (List.mem_cons.mp h).imp_right fun h =>
        List.mem_append_right _ (List.mem_cons_of_mem _ h)
  | appended fresh => simpa [or_comm] using h

end Entry.Revised

namespace Dictionary

variable (d : Dictionary)

theorem revised_put (key : Text) (value : Value) :
    Entry.Revised key value d.entries (d.put key value).entries := by
  obtain ⟨entries⟩ := d
  rw [put]
  induction entries with
  | nil => exact .appended (by simp)
  | cons entry rest ih =>
    rw [Entry.put]
    split
    · rename_i h
      obtain ⟨name, old⟩ := entry
      cases h
      exact .inPlace [] old rest
    · rename_i h
      exact ih.cons h

theorem entry?_put (key : Text) (value : Value) (other : Text) :
    Dictionary.entry? (d.put key value) other =
      if other = key then some value else d.entry? other := by
  obtain ⟨entries⟩ := d
  simp only [Dictionary.entry?, put]
  induction entries with
  | nil =>
    by_cases h : other = key
    · simp [Entry.put, h]
    · simp [Entry.put, h, Ne.symm h]
  | cons entry rest ih =>
    by_cases hentry : entry.key = key
    · rw [Entry.put, if_pos hentry]
      by_cases h : other = key
      · simp [h]
      · simp [h, hentry, Ne.symm h]
    · rw [Entry.put, if_neg hentry]
      by_cases h : entry.key = other
      · have hother : other ≠ key := h ▸ hentry
        simp [h, hother]
      · simpa [h] using ih

/-- A new key goes to the end of its level. -/
theorem put_of_not_mem {key : Text} (fresh : key ∉ d.topKeys) (value : Value) :
    d.put key value = ⟨d.entries ++ [⟨key, value⟩]⟩ := by
  obtain ⟨entries⟩ := d
  have hput : Entry.put key value entries = entries ++ [⟨key, value⟩] := by
    simp only [topKeys, List.mem_map, not_exists, not_and] at fresh
    induction entries with
    | nil => rfl
    | cons entry rest ih =>
      obtain ⟨hentry, hrest⟩ := List.forall_mem_cons.mp fresh
      rw [Entry.put, if_neg hentry, ih hrest, List.cons_append]
  rw [put, hput]

/-- A value is stored under a single key on the top level, whether or not levels may be made. -/
theorem set_of_not_mem {key : Text} (dotless : '.' ∉ key) (value : Value) (create : Bool) :
    d.set key value create = (d.put key value, true) := by
  rw [set, Text.segments_of_not_mem dotless]
  rfl

end Dictionary

end ShaderTemplate
