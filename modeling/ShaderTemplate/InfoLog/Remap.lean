import ShaderTemplate.InfoLog.Location

/-!
# Compiler logs in terms of the template files

`Chunk.sources` gives the texts that a compiler is handed, and `InfoLog.remap` changes the
locations in the log that it answers with, so that they name the files and lines the code was read
from.

## Shape of the replacing

`replaceAtStarts` reads a log once, and at each start of a line may replace what stands there. What
was replaced or recognised is skipped, and the reading goes on behind it. The two ways of writing a
location are replaced one after the other, the second in the text that the first has left. A
location without a chunk is left as it is, but is skipped like any other.
-/

namespace ShaderTemplate

/-- The source texts of some chunks. Each starts with a directive that gives it its index, and
makes the compiler count its lines from 1. -/
def Chunk.sources (chunks : List Chunk) : List Text :=
  chunks.mapIdx fun index chunk =>
    "#line 1 ".toList ++ (toString index).toList ++ '\n' :: chunk.source

namespace InfoLog

/-- What to put in the place of the first characters of a text. -/
structure Replacement where
  /-- how many characters are replaced -/
  length : Nat
  text : Text

/-- Reads a log and replaces what `replace?` asks for at the starts of lines. `skip` characters are
passed over first, and `atStart` says whether a line starts here. -/
def replaceAtStarts (replace? : Text → Option Replacement) :
    (skip : Nat) → (atStart : Bool) → Text → Text
  | _, _, [] => []
  | skip + 1, _, c :: rest => replaceAtStarts replace? skip (c == '\n') rest
  | 0, atStart, c :: rest =>
    match if atStart then replace? (c :: rest) else none with
    | some replacement =>
      replacement.text ++ replaceAtStarts replace? (replacement.length - 1) (c == '\n') rest
    | none => c :: replaceAtStarts replace? 0 (c == '\n') rest

/-- Replaces `ERROR: 0:12` by `ERROR: file(line)`. -/
def replaceLabelled? (chunks : List Chunk) (text : Text) : Option Replacement := do
  let (label, location) ← Location.labelled? text
  let replacement := (location.inFile? chunks).elim (text.take location.length)
    fun place => label ++ ':' :: ' ' :: place
  return ⟨location.length, replacement⟩

/-- Replaces `0(12)` by `file(line)` and one space. -/
def replaceBracketed? (chunks : List Chunk) (text : Text) : Option Replacement := do
  let location ← Location.bracketed? text
  let replacement := (location.inFile? chunks).elim (text.take location.length)
    fun place => place ++ [' ']
  return ⟨location.length, replacement⟩

/-- A compiler's log with the files and lines of its locations. -/
def remap (chunks : List Chunk) (log : Text) : Text :=
  replaceAtStarts (replaceBracketed? chunks) 0 true
    (replaceAtStarts (replaceLabelled? chunks) 0 true log)

end InfoLog

end ShaderTemplate
