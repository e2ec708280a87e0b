import ShaderTemplate.Dictionary.Basic

/-!
# Storing values in a dictionary

`Dictionary.set` stores a value at a path. On each level an entry that is there keeps its place and
a new one goes to the end. The levels between the start of the path and its last key are entered
one after the other. A missing one is made if the caller asks for it; otherwise the value cannot be
stored, and neither can it below a value that is not a dictionary.

The answer says whether the value was stored, next to the dictionary as it is then.
-/

namespace ShaderTemplate

/-- Stores a value under a key in a list of entries: in the place of the first entry with that key,
or at the end. -/
def Entry.put (key : Text) (value : Value) : List Entry → List Entry
  | [] => [⟨key, value⟩]
  | entry :: rest =>
    if entry.key = key then ⟨key, value⟩ :: rest else entry :: put key value rest

namespace Dictionary

/-- Stores a value under a key of the top level. -/
def put (d : Dictionary) (key : Text) (value : Value) : Dictionary :=
  ⟨Entry.put key value d.entries⟩

/-- The dictionary with an empty level under `key`, unless there is something under it. -/
def withLevel (d : Dictionary) (key : Text) : Dictionary :=
  if (d.entry? key).isSome then d else d.put key (.dictionary empty)

/-- Stores a value along a list of keys. With `create`, the level under a key is made before it is
entered. -/
def setAt (value : Value) (create : Bool) (d : Dictionary) : List Text → Dictionary × Bool
  | [] => (d, false)
  | [key] => (d.put key value, true)
  | key :: rest =>
    let reached := if create then d.withLevel key else d
    match reached.entry? key with
    | some (.dictionary level) =>
      let (level, stored) := setAt value create level rest
      (reached.put key (.dictionary level), stored)
    | _ => (reached, false)

/-- Stores a value at a path, over whatever is there. With `create`, missing levels on the way are
made. The answer is `false` if the value could not be stored. -/
def set (d : Dictionary) (path : Text) (value : Value) (create : Bool) : Dictionary × Bool :=
  setAt value create d (Text.segments '.' path)

/-- The dictionary after storing one value after the other, leaving out those that cannot be
stored. -/
def setAll (d : Dictionary) (create : Bool) (pairs : List (Text × Value)) : Dictionary :=
  pairs.foldl (fun d (path, value) => (d.set path value create).1) d

/-- The dictionary of a list of keys and values. A key with a dot in it is a path, and is left out
if it leads through a level that is not there. -/
def ofList (pairs : List (Text × Value)) : Dictionary :=
  empty.setAll false pairs

/-- The dictionary of a list of paths and values, with all levels that the paths lead through. -/
def ofPaths (pairs : List (Text × Value)) : Dictionary :=
  empty.setAll true pairs

end Dictionary

end ShaderTemplate
