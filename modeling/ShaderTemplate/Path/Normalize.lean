import ShaderTemplate.Path.Basic

/-!
# Folding of paths

`Path.normalize` folds a path by its text alone, without a look at any file system: a `.` is
dropped and a `..` takes the component before it away. Files are looked up, compared and reported
under folded paths.

## Shape of the fold

The components are read from left to right, and `foldComponent` keeps those that are left, the
last one first. A `..` with nothing to take away is kept: at the start of a relative path, and
after the root. A `..` that was kept counts as a component like any other, so a second one takes
it away.
-/

namespace ShaderTemplate.Path

/-- Appends one component to a folded path, whose last component comes first. -/
def foldComponent (folded : List Component) : Component → List Component
  | .root => [.root]
  | .current => folded
  | .name text => .name text :: folded
  | .parent =>
    match folded with
    | [] => [.parent]
    | [.root] => [.parent, .root]
    | _ :: outer => outer

/-- The components that are left of a path, from its start to its end. -/
def foldComponents (components : List Component) : List Component :=
  (components.foldl foldComponent []).reverse

/-- Writes components out: the root is a slash, and one slash stands between neighbours. -/
def ofComponents : List Component → Path
  | .root :: rest => ⟨'/' :: Text.joined '/' (rest.map Component.text)⟩
  | components => ⟨Text.joined '/' (components.map Component.text)⟩

/-- The path with its `.` and `..` folded. -/
def normalize (path : Path) : Path :=
  ofComponents (foldComponents path.components)

/-- The folded path of `path` as seen from the directory `base`. -/
def resolve (base path : Path) : Path :=
  (base.join path).normalize

end ShaderTemplate.Path
