import ShaderTemplate.Text.Basic
import ShaderTemplate.Text.DefaultIgnorable
import ShaderTemplate.Text.ExtendingMark
import ShaderTemplate.Text.Printable

/-!
# Quoted texts

Messages show names and paths in double quotes, so that a reader sees where they start and end and
every character they hold. What would break the quotes or would not show is written as an escape:
the quote, the backslash, the usual controls by their letter, and by its code point everything that
is not printable, is drawn as nothing, or would merge with its neighbour.
-/

namespace ShaderTemplate.Text

/-- A code point in braces, in lower-case hexadecimal without leading zeros. -/
def codePointEscape (c : Char) : Text :=
  ['\\', 'u', '\x7b'] ++ Nat.toDigits 16 c.toNat ++ ['\x7d']

/-- Whether a character cannot be made out between the quotes: it merges with the one before it, is
drawn as nothing, or is not printable. -/
def isElusive (c : Char) : Bool :=
  isExtendingMark c || isDefaultIgnorable c || !isPrintable c

/-- A character as it stands between the quotes. -/
def escaped (c : Char) : Text :=
  match c with
  | '\x00' => ['\\', '0']
  | '\t' => ['\\', 't']
  | '\n' => ['\\', 'n']
  | '\r' => ['\\', 'r']
  | '"' => ['\\', '"']
  | '\\' => ['\\', '\\']
  | c => if isElusive c then codePointEscape c else [c]

/-- A text as messages show it. -/
def quoted (text : Text) : String :=
  String.ofList (enquote (text.flatMap escaped))

end ShaderTemplate.Text
