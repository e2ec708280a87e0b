import ShaderTemplate.Text.Basic

/-!
# Scopes

A running iteration of a loop opens a scope, in which names stand for texts: the loop's key name
for the quoted key and its value name for a path into the dictionary. An inner binding of a name
hides the outer ones until its scope is closed.

## Shape of the table

`Scopes` keeps, for every bound name, the stack of the texts it is bound to, and for every open
scope the names it has bound, so that a look-up reads one stack top and closing a scope takes one
text off the stack of each of its names. A scope may bind a name twice, and then takes two texts
off. A name whose stack gets empty leaves the table.
-/

namespace ShaderTemplate

/-- The stacks of the texts that names are bound to. Each name has one row, with the latest text
first. -/
structure Aliases where
  rows : List (Text × List Text)

namespace Aliases

/-- The texts a name is bound to, the latest first. -/
def stack (aliases : Aliases) (name : Text) : List Text :=
  (aliases.rows.lookup name).getD []

/-- Adds a text on top of the stack of a name in a list of rows. -/
def pushRow (name value : Text) : List (Text × List Text) → List (Text × List Text)
  | [] => [(name, [value])]
  | (other, values) :: rest =>
    if other = name then (other, value :: values) :: rest
    else (other, values) :: pushRow name value rest

/-- Takes the top off the stack of a name in a list of rows, and the row with the last text. -/
def popRow (name : Text) : List (Text × List Text) → List (Text × List Text)
  | [] => []
  | (other, values) :: rest =>
    if other = name then
      match values with
      | _ :: older@(_ :: _) => (other, older) :: rest
      | _ => rest
    else (other, values) :: popRow name rest

/-- Binds a name to a text. -/
def bind (aliases : Aliases) (name value : Text) : Aliases :=
  ⟨pushRow name value aliases.rows⟩

/-- Takes the latest binding of a name back. -/
def unbind (aliases : Aliases) (name : Text) : Aliases :=
  ⟨popRow name aliases.rows⟩

end Aliases

/-- The open scopes, by the names that each of them has bound, the innermost first, and the table
of what all names are bound to. -/
structure Scopes where
  frames : List (List Text)
  aliases : Aliases

namespace Scopes

/-- No scope is open and no name is bound. -/
def empty : Scopes := ⟨[], ⟨[]⟩⟩

/-- Opens a scope that binds names to texts, one after the other. -/
def push (scopes : Scopes) (bindings : List (Text × Text)) : Scopes where
  frames := bindings.map Prod.fst :: scopes.frames
  aliases := bindings.foldl (fun aliases (name, value) => aliases.bind name value) scopes.aliases

/-- Closes the innermost scope and takes its bindings back, if one is open. -/
def pop? (scopes : Scopes) : Option Scopes :=
  match scopes.frames with
  | [] => none
  | frame :: outer => some ⟨outer, frame.foldl Aliases.unbind scopes.aliases⟩

/-- Closes the innermost scope, if one is open. -/
def pop (scopes : Scopes) : Scopes :=
  scopes.pop?.getD scopes

/-- The text a name stands for. -/
def resolve? (scopes : Scopes) (name : Text) : Option Text :=
  (scopes.aliases.stack name).head?

/-- The number of open scopes. -/
def depth (scopes : Scopes) : Nat :=
  scopes.frames.length

end Scopes

end ShaderTemplate
