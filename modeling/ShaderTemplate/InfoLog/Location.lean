import ShaderTemplate.Output.Chunk
import ShaderTemplate.Text.Blank
import ShaderTemplate.Text.DecimalDigit

/-!
# Locations in compiler logs

A shader compiler is given the chunks as an array of source texts, and reports errors by the index
of a source text and a line in it. There are two ways to write such a location at the start of a
line, and `Location.labelled?` and `Location.bracketed?` recognise them:

* `ERROR: 0:12` or `WARNING: 0:12`, with any white space, line feeds too, after the first colon;
* `0(12)`, together with all white space after it.

A number may be written in the digits of any script as far as recognition goes. Only one in ASCII
digits has a value, and that has to fit into 64 bits. The line in the file is a number of 64 bits
too, so a sum that needs more of them wraps around.
-/

namespace ShaderTemplate

/-- The line of the file that a line of a chunk was read from. Lines are counted in 64 bits. -/
def Chunk.fileLine (chunk : Chunk) (line : Nat) : UInt64 :=
  UInt64.ofNat chunk.lineOffset + UInt64.ofNat line

/-- A location at the start of a text, as a compiler writes it. -/
structure Location where
  /-- the digits of the index of the source text -/
  index : Text
  /-- the digits of the line in it -/
  line : Text
  /-- the number of characters from the start of the text to the end of the location -/
  length : Nat
  deriving DecidableEq

namespace Location

/-- The digits a text starts with and what follows them, if there are any. -/
def digits? (text : Text) : Option (Text × Text) :=
  match text.takeWhile Text.isDecimalDigit with
  | [] => none
  | digits => some (digits, text.dropWhile Text.isDecimalDigit)

/-- What follows a character, on a text that starts with it. -/
def after? (mark : Char) : Text → Option Text
  | [] => none
  | c :: rest => if c = mark then some rest else none

/-- Recognises `0:12`, after white space. -/
def colonPair? (text : Text) : Option Location := do
  let (index, rest) ← digits? (Text.trimStart text)
  let (line, rest) ← digits? (← after? ':' rest)
  return ⟨index, line, text.length - rest.length⟩

/-- Recognises `0:12` after a label with its colon, and gives the label too. -/
def labelled? (text : Text) : Option (Text × Location) :=
  let behind (label : Text) : Option (Text × Location) := do
    let rest ← after? ':' (← label.isPrefixOf? text)
    let location ← colonPair? rest
    return (label, { location with length := label.length + 1 + location.length })
  behind "ERROR".toList <|> behind "WARNING".toList

/-- Recognises `0(12)` and takes the white space after it along. -/
def bracketed? (text : Text) : Option Location := do
  let (index, rest) ← digits? text
  let (line, rest) ← digits? (← after? '(' rest)
  let rest ← after? ')' rest
  return ⟨index, line, text.length - (Text.trimStart rest).length⟩

/-- The value of a number in ASCII digits that fits into 64 bits. -/
def value? (digits : Text) : Option Nat :=
  let value := digits.foldl (fun value c => 10 * value + (c.toNat - '0'.toNat)) 0
  if digits.all Char.isDigit && value < UInt64.size then some value else none

/-- The file and line that a location means, written `file(line)`, if there is a chunk with its
index. -/
def inFile? (chunks : List Chunk) (location : Location) : Option Text := do
  let chunk ← chunks[← value? location.index]?
  let line ← value? location.line
  return chunk.file ++ '(' :: (toString (chunk.fileLine line)).toList ++ [')']

end Location

end ShaderTemplate
