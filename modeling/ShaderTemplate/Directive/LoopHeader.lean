import ShaderTemplate.Text.Blank

/-!
# Loop headers

The header of a loop is `#for key, value in reference`. The key is what stands before the first
comma, the value is one word, and the reference is the rest of the line after the word `in`, each
without the white space around it. So the key and the reference may have white space inside, and
the value may have commas.
-/

namespace ShaderTemplate

/-- The names in the header of a loop. -/
structure LoopHeader where
  /-- the name that stands for the key -/
  key : Text
  /-- the name that stands for the value -/
  value : Text
  /-- the dictionary to loop over, as it is written -/
  reference : Text
  deriving DecidableEq

/-- What is wrong with the header of a loop. -/
inductive LoopFault where
  | missingComma
  | missingName
  | missingIn
  | missingReference
  deriving DecidableEq

/-- The reason given in messages. -/
def LoopFault.reason : LoopFault → Text
  | missingComma => "expected ','".toList
  | missingName => "expected key and value names".toList
  | missingIn => "expected 'in'".toList
  | missingReference => "expected dictionary".toList

namespace LoopHeader

/-- What follows the word `in`, on a text that starts with it as a whole word. Here a word ends
with white space. -/
def afterIn? : Text → Option Text
  | 'i' :: 'n' :: rest => if rest.head?.all Text.isBlank then some rest else none
  | _ => none

/-- Reads the header from what follows the word `#for`. The comma is looked for first, then the two
names, then the word `in`, and the reference last; the first that is missing is reported. -/
def parse (argument : Text) : Except LoopFault LoopHeader :=
  match Text.cut? ',' argument with
  | none => .error .missingComma
  | some (before, after) =>
    let key := Text.trim before
    let words := Text.trimStart after
    let value := words.takeWhile (!Text.isBlank ·)
    if key.isEmpty || value.isEmpty then .error .missingName
    else
      match afterIn? (Text.trimStart (words.dropWhile (!Text.isBlank ·))) with
      | none => .error .missingIn
      | some rest =>
        let reference := Text.trim rest
        if reference.isEmpty then .error .missingReference
        else .ok ⟨key, value, reference⟩

end LoopHeader

end ShaderTemplate
