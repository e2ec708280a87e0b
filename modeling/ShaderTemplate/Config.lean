import ShaderTemplate.Path.Basic

/-!
# Configuration

What can be chosen about an expansion, apart from the files and the dictionary.
-/

namespace ShaderTemplate

/-- The choices of an expansion. -/
structure Config where
  /-- the directories searched, in their order, for an include that is not next to the including
  file -/
  includePaths : List Path := []
  /-- whether a `#line` marker is written wherever the output stops following the current file -/
  lineMarkers : Bool := true
  /-- whether comments are written around the iterations of a loop -/
  loopMarkers : Bool := true
  deriving DecidableEq

namespace Config

/-- The configuration with a further directory to search, after the others. -/
def addIncludePath (config : Config) (path : Path) : Config :=
  { config with includePaths := config.includePaths ++ [path] }

end Config

end ShaderTemplate
