import ShaderTemplate.Text.Basic

/-!
# Templates

A line is a template: plain text with holes `#{name}`, each to be filled with the text that the name
stands for. `Template.parse` takes a line apart, and `Template.fill` puts it together again with the
holes filled. What is filled in is not searched for further holes.

## Shape of the parse

The line is read once, from left to right, and the reader is either in plain text or in a hole. A
hole opens with `#{` and lasts until the first `}`, so a name may hold a `#{` and a plain text may
hold a `}`. If the last hole is not closed, the template ends with what would be its name.
-/

namespace ShaderTemplate

/-- A line, as plain texts with the names of the holes between them. -/
inductive Template where
  /-- a text without holes -/
  | plain (text : Text)
  /-- a text up to a hole that is never closed, and what follows the opening of that hole -/
  | unclosed (before tail : Text)
  /-- a text up to a hole, the name in the hole, and what follows the hole -/
  | hole (before name : Text) (rest : Template)
  deriving DecidableEq

namespace Template

/-- Adds a character in front of the plain text that a template starts with. -/
def prepend (c : Char) : Template → Template
  | plain text => plain (c :: text)
  | unclosed before tail => unclosed (c :: before) tail
  | hole before name rest => hole (c :: before) name rest

/-- Adds a character in front of the name of the first hole of a template. -/
def prependName (c : Char) : Template → Template
  | plain text => plain text
  | unclosed before tail => unclosed before (c :: tail)
  | hole before name rest => hole before (c :: name) rest

/-- Reads the rest of a line, in plain text or in the name of a hole. In a hole the answer starts
with that hole, without plain text before it. -/
def scan : (inHole : Bool) → Text → Template
  | false, [] => plain []
  | true, [] => unclosed [] []
  | false, '#' :: '\x7b' :: rest => scan true rest
  | false, c :: rest => (scan false rest).prepend c
  | true, '\x7d' :: rest => hole [] [] (scan false rest)
  | true, c :: rest => (scan true rest).prependName c

/-- Takes a line apart. -/
def parse (line : Text) : Template :=
  scan false line

/-- Fills the holes from left to right. The first name without a text makes the filling fail, and
if all names have one, a hole that is never closed does. -/
def fill {ε : Type} (textOf : Text → Except ε Text) (onUnclosed : ε) : Template → Except ε Text
  | plain text => .ok text
  | unclosed _ _ => .error onUnclosed
  | hole before name rest => do
    let value ← textOf name
    let filled ← rest.fill textOf onUnclosed
    return before ++ value ++ filled

end Template

end ShaderTemplate
