import ShaderTemplate.Output.Piece

/-!
# Chunks

A compiler reports places in the text it was given. To map them back, the code lines of an
expansion are grouped into chunks, runs of consecutive lines of one file, so that a place in a chunk
is a line of that file up to a fixed offset. Markers belong to no chunk and end none.
-/

namespace ShaderTemplate

/-- Code that was read from consecutive lines of one file. -/
structure Chunk where
  /-- the code, without markers -/
  source : Text
  /-- the name of the file, without its directory -/
  file : Text
  /-- the number of lines of the file before the chunk -/
  lineOffset : Nat
  deriving DecidableEq

/-- Whether a code line goes into the chunk of the code line before it: it is the next line of the
same file, and the one before it filled one physical line. After a line that filled several, line
numbers in the chunk would no longer be off by a constant. -/
def CodeLine.continues (before after : CodeLine) : Bool :=
  before.height == 1 && before.path == after.path && before.line + 1 == after.line

namespace Chunk

/-- The chunk of a run of code lines, the first of which gives its file and offset. -/
def ofRun? : List CodeLine → Option Chunk
  | [] => none
  | first :: rest => some
    { source := (first :: rest).flatMap CodeLine.text
      file := first.path.fileName
      lineOffset := first.line - 1 }

/-- The chunks of some code lines, in their order. -/
def ofLines (lines : List CodeLine) : List Chunk :=
  (lines.splitBy CodeLine.continues).filterMap ofRun?

end Chunk

end ShaderTemplate
