import ShaderTemplate.Output.Chunk
import ShaderTemplate.Place

/-!
# Expanded files

The result of a successful expansion, with its text, the chunks of its code, and for each line of
the text the place it came from.
-/

namespace ShaderTemplate

/-- Where a physical line of the output came from. -/
structure Origin where
  /-- the index of the chunk that holds the line -/
  chunk : Nat
  /-- the line of the chunk's file, counted from 1 -/
  line : Nat
  deriving DecidableEq

/-- The origins of the lines of some pieces: none for a marker, and for a code line its own place
once per physical line. `chunks` is the number of chunks that were begun before these pieces, and
`before` the code line before them, whose chunk the next code line may continue. -/
def Origin.ofPieces (chunks : Nat) (before : Option CodeLine) :
    List Piece → List (Option Origin)
  | [] => []
  | .code line :: rest =>
    let begun := if before.any (·.continues line) then chunks else chunks + 1
    List.replicate line.height (some ⟨begun - 1, line.line⟩) ++ ofPieces begun (some line) rest
  | .lineMarker .. :: rest => none :: ofPieces chunks before rest
  | .loopMarker _ :: rest => none :: ofPieces chunks before rest

/-- The place of an origin, given the chunks it refers to. -/
def Origin.place? (chunks : List Chunk) (origin : Origin) : Option Place :=
  chunks[origin.chunk]?.map fun chunk => ⟨chunk.file, origin.line⟩

/-- The place of a line of the output, which is counted from 1, in a table of origins. -/
def Origin.lookUp (chunks : List Chunk) (origins : List (Option Origin)) :
    (outputLine : Nat) → Option Place
  | 0 => none
  | index + 1 => origins[index]?.join.bind (Origin.place? chunks)

/-- The result of a successful expansion. -/
structure Expanded where
  pieces : List Piece

namespace Expanded

/-- The expanded text, with all markers. -/
def source (expanded : Expanded) : Text :=
  expanded.pieces.flatMap Piece.text

/-- The lines of code, without markers. -/
def codeLines (expanded : Expanded) : List CodeLine :=
  expanded.pieces.filterMap Piece.code?

/-- The code in runs of consecutive lines of one file. -/
def chunks (expanded : Expanded) : List Chunk :=
  Chunk.ofLines expanded.codeLines

/-- The origin of each line of the text. -/
def lineOrigins (expanded : Expanded) : List (Option Origin) :=
  Origin.ofPieces 0 none expanded.pieces

/-- The file and line that a line of the text came from, which is counted from 1. A marker came
from nowhere. -/
def originOf (expanded : Expanded) (outputLine : Nat) : Option Place :=
  Origin.lookUp expanded.chunks expanded.lineOrigins outputLine

end Expanded

end ShaderTemplate
