import ShaderTemplate.Dictionary.Basic
import ShaderTemplate.Failure

/-!
# What names stand for

Names occur in the holes of a line and as the reference of a loop header. A name is a path into the
dictionary whose first key may be bound by a scope, or a text in quotes, which stands for itself.

## Shape of the resolution

`Names.resolve?` replaces the part of a name before its first dot by what a scope binds it to. The
result has to be a text in quotes or a path at which the dictionary has a value. `Names.textOf`
and `Names.levelOf` then say what the result has to be for a hole and for a loop.
-/

namespace ShaderTemplate

/-- All that names can refer to at some point of an expansion. -/
structure Names where
  dictionary : Dictionary
  /-- what the innermost scope that binds a text says it stands for -/
  alias? : Text → Option Text

namespace Names

/-- The part of a name that a scope may bind: all before the first dot. -/
def head (name : Text) : Text :=
  name.takeWhile (· ≠ '.')

/-- The part of a name after its head, with the dot. -/
def tail (name : Text) : Text :=
  name.dropWhile (· ≠ '.')

/-- A name with its head replaced by what the innermost scope that binds it says. A name that
leads nowhere has none: without a tail it may be a text in quotes, and otherwise the dictionary
needs a value there. -/
def resolve? (names : Names) (name : Text) : Option Text :=
  let first := (names.alias? (head name)).getD (head name)
  let resolved := first ++ tail name
  if (tail name).isEmpty && (Text.unquote? first).isSome || names.dictionary.contains resolved then
    some resolved
  else none

/-- The name of the kind of what was found, or `absent` if nothing was. -/
def kindName (absent : Text) (found : Option Value) : Text :=
  found.elim absent fun value => value.kind.name

/-- The text that fills a hole with this name: what the quotes hold, or the string of the
dictionary. -/
def textOf (names : Names) (place : Place) (name : Text) : Except Failure Text :=
  match names.resolve? name with
  | none => .error (.unresolvedName name place)
  | some resolved =>
    match Text.unquote? resolved with
    | some literal => .ok literal
    | none =>
      match names.dictionary.get? resolved with
      | some (.string text) => .ok text
      | found => .error (.notAString name resolved (kindName "nothing".toList found) place)

/-- The path of the dictionary that a loop header with this reference loops over, and its keys. -/
def levelOf (names : Names) (place : Place) (reference : Text) :
    Except Failure (Text × List Text) :=
  match names.resolve? reference with
  | none => .error (.unresolvedName reference place)
  | some resolved =>
    match names.dictionary.get? resolved with
    | some (.dictionary level) => .ok (resolved, level.topKeys)
    | found => .error (.notADictionary resolved (kindName "string literal".toList found) place)

end Names

end ShaderTemplate
