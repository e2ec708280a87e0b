import ShaderTemplate.Text.Quoted

/-!
# Places

A place is a line of a file, as failures report it and as the lines of the output are traced back
to it.
-/

namespace ShaderTemplate

/-- A line of a file. Lines count from 1, and line 0 means the file as a whole. -/
structure Place where
  file : Text
  line : Nat
  deriving DecidableEq

/-- A place as the last part of a message. -/
def Place.shown (place : Place) : String :=
  s!"{Text.quoted place.file} ({place.line})"

end ShaderTemplate
