import ShaderTemplate.Text.Blank

/-!
# Targets of includes

An `#include` names a file in one of two ways. A target in double quotes is looked for next to the
including file and then in the include paths; a target in angle brackets is looked for at that
path alone. What follows the closing character is ignored.
-/

namespace ShaderTemplate

/-- The file that an `#include` names. -/
inductive IncludeTarget where
  /-- a path in quotes, looked for near the including file -/
  | near (path : Text)
  /-- a path in angle brackets -/
  | fixed (path : Text)
  deriving DecidableEq

/-- What is wrong with the target of an `#include`. -/
inductive IncludeFault where
  /-- nothing follows the directive -/
  | missing
  /-- neither a quote nor an angle bracket follows the directive -/
  | unopened
  /-- the second quote is missing -/
  | unclosedQuote
  /-- the closing angle bracket is missing -/
  | unclosedAngle
  deriving DecidableEq

/-- The reason given in messages. -/
def IncludeFault.reason : IncludeFault → Text
  | missing => "expected file path".toList
  | unopened => "expected \" or <".toList
  | unclosedQuote => "expected \"".toList
  | unclosedAngle => "expected >".toList

namespace IncludeTarget

/-- The path as it is written in the directive. -/
def text : IncludeTarget → Text
  | near path | fixed path => path

/-- Reads the target from what follows the word `#include`. -/
def parse (argument : Text) : Except IncludeFault IncludeTarget :=
  match Text.trimStart argument with
  | [] => .error .missing
  | '"' :: rest =>
    match Text.cut? '"' rest with
    | some (path, _) => .ok (.near path)
    | none => .error .unclosedQuote
  | '<' :: rest =>
    match Text.cut? '>' rest with
    | some (path, _) => .ok (.fixed path)
    | none => .error .unclosedAngle
  | _ => .error .unopened

end IncludeTarget

end ShaderTemplate
