import ShaderTemplate.Path.Basic

/-!
# Pieces of output

The output of an expansion is a list of pieces: the code lines that were read, and between them the
markers that the expansion adds. Every other view of the output, its text too, is computed from the
pieces.
-/

namespace ShaderTemplate

/-- A line of code, with the place it was read from. -/
structure CodeLine where
  path : Path
  /-- the line in that file, counted from 1 -/
  line : Nat
  /-- what was written for it, with a line feed at the end; what filled a hole may have more of
  them -/
  text : Text
  deriving DecidableEq

/-- The number of physical lines that a code line fills in the output. -/
def CodeLine.height (code : CodeLine) : Nat :=
  Text.lineFeeds code.text

/-- What a comment around a loop says. -/
inductive LoopNote where
  | begun (reference : Text)
  | onKey (reference key : Text)
  | empty
  | ended (reference : Text)
  deriving DecidableEq

/-- The words of a comment around a loop. -/
def LoopNote.text : LoopNote → Text
  | .begun reference => "For loop over ".toList ++ reference
  | .onKey reference key => "Key ".toList ++ key ++ " in ".toList ++ reference
  | .empty => "Empty for loop".toList
  | .ended reference => "Terminated loop over ".toList ++ reference

/-- A part of the output. -/
inductive Piece where
  /-- the code that follows was read from this line of the file on -/
  | lineMarker (line : Nat) (file : Text)
  | loopMarker (note : LoopNote)
  | code (code : CodeLine)
  deriving DecidableEq

namespace Piece

/-- A part of the output as it is written. -/
def text : Piece → Text
  | lineMarker line file =>
    "#line ".toList ++ (toString line).toList ++ ' ' :: Text.enquote file ++ ['\n']
  | loopMarker note => "//# ".toList ++ note.text ++ ['\n']
  | code line => line.text

/-- The code line of a piece, if it is one. -/
def code? : Piece → Option CodeLine
  | code line => some line
  | _ => none

end Piece

end ShaderTemplate
