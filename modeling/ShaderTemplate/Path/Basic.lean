import ShaderTemplate.Text.Basic

/-!
# Paths

A path is kept as it was written, since messages and file names show it that way. What it means is
the list of its components, and two paths are the same (`==`) if their components are: repeated and
trailing slashes and inner `.` make no difference. Names are separated by `/`, and a path that
starts with `/` is absolute.

## Shape of a path

A path is an `opening` followed by a body. The opening is `/` for an absolute path, `.` for a path
that starts in the current directory by name, and empty otherwise. The body is cut at its slashes;
a segment that is empty or `.` means nothing, `..` is the parent directory, and anything else is a
name.
-/

namespace ShaderTemplate

/-- A path of a file or directory, as it was written. -/
structure Path where
  text : Text
  deriving DecidableEq

namespace Path

/-- One step of a path. -/
inductive Component where
  /-- the leading `/` -/
  | root
  /-- a leading `.` -/
  | current
  /-- the directory above, `..` -/
  | parent
  | name (text : Text)
  deriving DecidableEq

/-- The step that a segment of the body stands for, if it stands for one. -/
def Component.ofSegment? : Text → Option Component
  | [] => none
  | ['.'] => none
  | ['.', '.'] => some .parent
  | text => some (.name text)

/-- How a component is written. -/
def Component.text : Component → Text
  | .root => ['/']
  | .current => ['.']
  | .parent => ['.', '.']
  | .name text => text

/-- Whether the path starts at the root. -/
def isAbsolute (path : Path) : Bool :=
  path.text.head? == some '/'

/-- The component a path opens with, apart from its body. -/
def opening (path : Path) : Option Component :=
  match path.text with
  | '/' :: _ => some .root
  | ['.'] => some .current
  | '.' :: '/' :: _ => some .current
  | _ => none

/-- The segments of the body: what follows the opening, cut at the slashes. -/
def body (path : Path) : List Text :=
  match path.text with
  | '/' :: rest => Text.segments '/' rest
  | ['.'] => []
  | '.' :: '/' :: rest => [] :: Text.segments '/' rest
  | text => Text.segments '/' text

/-- The steps of a path, from its start to its end. -/
def components (path : Path) : List Component :=
  path.opening.toList ++ path.body.filterMap Component.ofSegment?

/-- Two paths are the same if they take the same steps. -/
instance : BEq Path where
  beq a b := a.components == b.components

theorem beq_iff {a b : Path} : (a == b) = true ↔ a.components = b.components :=
  beq_iff_eq (a := a.components)

instance : EquivBEq Path where
  rfl := beq_iff.2 rfl
  symm h := beq_iff.2 (beq_iff.1 h).symm
  trans h h' := beq_iff.2 ((beq_iff.1 h).trans (beq_iff.1 h'))

/-- The name a path ends with. A path that ends with `..`, or is a root or empty, has none. -/
def fileName (path : Path) : Text :=
  match path.components.getLast? with
  | some (.name text) => text
  | _ => []

/-- Drops the segments that mean nothing from the end of a reversed body. -/
def dropIdle : List Text → List Text :=
  List.dropWhile fun segment => (Component.ofSegment? segment).isNone

/-- The path without its last component, spelled as it was written up to there. Neither the root
nor the empty path has a parent. -/
def parent? (path : Path) : Option Path :=
  match dropIdle path.body.reverse with
  | _ :: outer =>
    let start := path.opening.elim [] Component.text
    some ⟨start ++ Text.joined '/' (dropIdle outer).reverse⟩
  | [] => if path.opening = some .current then some ⟨[]⟩ else none

/-- The directory a file lies in, with the empty path for a path that has no parent. -/
def directory (path : Path) : Path :=
  path.parent?.getD ⟨[]⟩

/-- The path `path` as seen from the directory `base`. An absolute path is the same from
everywhere. -/
def join (base path : Path) : Path :=
  if path.isAbsolute then path
  else
    match base.text.getLast? with
    | none | some '/' => ⟨base.text ++ path.text⟩
    | some _ => ⟨base.text ++ '/' :: path.text⟩

/-- A path as it is displayed. -/
instance : ToString Path where
  toString path := String.ofList path.text

end Path

end ShaderTemplate
