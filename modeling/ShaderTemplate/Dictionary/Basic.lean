import ShaderTemplate.Text.Basic

/-!
# Dictionaries

A dictionary holds the values that a template is expanded with. Its entries stand in the order in
which they were first stored, which is the order a loop runs through them. A value may be a
dictionary again, and a path of keys parted by `.` leads through the levels: `lights.sun.color` is
the value of `color` in the dictionary at `sun` in the dictionary at `lights`.

## Shape of a look-up

A path is cut into its keys once (`Text.segments`), and `Value.at?` walks down from a value along
a list of keys, so that a walk along `p ++ q` is a walk along `p` followed by one along `q`. Any
text is a key as long as it has no dot in it, the empty one too: `a..b` has three keys.
-/

namespace ShaderTemplate

mutual

/-- A value of a dictionary. -/
inductive Value where
  | string (text : Text)
  | number (value : Float)
  | boolean (value : Bool)
  | dictionary (level : Dictionary)
  | list (items : List Value)

/-- A key and its value. -/
structure Entry where
  key : Text
  value : Value

/-- The entries of one level, in the order of their first storing. -/
structure Dictionary where
  entries : List Entry

end

/-- What kind of value something is. -/
inductive Kind where
  | string
  | number
  | boolean
  | dictionary
  | list
  deriving DecidableEq

namespace Kind

/-- The name of the kind in messages. -/
def name : Kind → Text
  | .string => "string".toList
  | .number => "number".toList
  | .boolean => "boolean".toList
  | .dictionary => "dictionary".toList
  | .list => "list".toList

end Kind

namespace Value

/-- The kind of a value. -/
def kind : Value → Kind
  | .string _ => .string
  | .number _ => .number
  | .boolean _ => .boolean
  | .dictionary _ => .dictionary
  | .list _ => .list

end Value

namespace Dictionary

/-- The dictionary without entries. -/
def empty : Dictionary := ⟨[]⟩

/-- The number of entries of the top level. -/
def size (d : Dictionary) : Nat :=
  d.entries.length

/-- Whether the top level has no entry. -/
def isEmpty (d : Dictionary) : Bool :=
  d.entries.isEmpty

/-- The value of the first entry with this key, on the top level alone. -/
def entry? (d : Dictionary) (key : Text) : Option Value :=
  (d.entries.find? fun entry => entry.key = key).map Entry.value

end Dictionary

/-- The value reached from `value` along a list of keys. -/
def Value.at? (value : Value) : List Text → Option Value
  | [] => some value
  | key :: rest =>
    match value with
    | .dictionary level => (level.entry? key).bind fun inner => inner.at? rest
    | _ => none

namespace Dictionary

/-- The value at a path, whatever its kind. -/
def get? (d : Dictionary) (path : Text) : Option Value :=
  (Value.dictionary d).at? (Text.segments '.' path)

/-- Whether there is a value at a path. -/
def contains (d : Dictionary) (path : Text) : Bool :=
  (d.get? path).isSome

/-- The value at a path, if it is of this kind. Nothing is converted. -/
def getOf? (d : Dictionary) (kind : Kind) (path : Text) : Option Value :=
  (d.get? path).filter fun value => value.kind = kind

/-- The keys of the top level, in their order. -/
def topKeys (d : Dictionary) : List Text :=
  d.entries.map Entry.key

/-- The keys of the dictionary at a path, with the empty path for the top level. A path at which
there is no dictionary has no keys. -/
def keys (d : Dictionary) (path : Text) : List Text :=
  if path.isEmpty then d.topKeys
  else
    match d.get? path with
    | some (.dictionary level) => level.topKeys
    | _ => []

end Dictionary

/-! ## The number of entries in all levels -/

mutual

/-- The number of entries in a value. -/
def Value.weight : Value → Nat
  | .dictionary level => level.weight
  | .list items => Value.weightOfItems items
  | _ => 0
termination_by structural value => value

/-- The number of entries in a list of values. -/
def Value.weightOfItems : List Value → Nat
  | [] => 0
  | item :: items => item.weight + Value.weightOfItems items
termination_by structural items => items

/-- The number of entries in the value of an entry, and the entry itself. -/
def Entry.weight : Entry → Nat
  | ⟨_, value⟩ => value.weight + 1
termination_by structural entry => entry

/-- The number of entries in all levels of a dictionary. -/
def Dictionary.weight : Dictionary → Nat
  | ⟨entries⟩ => Entry.weightOfAll entries
termination_by structural d => d

/-- The number of entries in all levels of a list of entries. -/
def Entry.weightOfAll : List Entry → Nat
  | [] => 0
  | entry :: entries => entry.weight + Entry.weightOfAll entries
termination_by structural entries => entries

end

end ShaderTemplate
