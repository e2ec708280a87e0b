import ShaderTemplate.Text.Alphanumeric
import ShaderTemplate.Text.Basic

/-!
# Directive words

A directive is a line that starts with a certain word. The word has to end there: `#forty` and
`#for_each` do not start with the directive `#for`. All other lines that start with `#` are code,
and are left to the compiler that reads the expanded text.
-/

namespace ShaderTemplate

/-- A directive of the template language. -/
inductive Directive where
  | includeFile
  | forLoop
  | endFor
  deriving DecidableEq

namespace Directive

/-- The word a directive starts with. -/
def word : Directive → Text
  | includeFile => "#include".toList
  | forLoop => "#for".toList
  | endFor => "#endfor".toList

/-- Whether a character would continue a word. -/
def continuesWord (c : Char) : Bool :=
  Text.isAlphanumeric c || c == '_'

/-- What follows the word of a directive, on a line that starts with it as a whole word. -/
def argument? (directive : Directive) (line : Text) : Option Text :=
  (directive.word.isPrefixOf? line).filter fun rest => !rest.head?.any continuesWord

/-- Whether a line is a directive. -/
def isOn (directive : Directive) (line : Text) : Bool :=
  (directive.argument? line).isSome

end Directive

end ShaderTemplate
