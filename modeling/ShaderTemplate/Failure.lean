import ShaderTemplate.Place

/-!
# Failures

An expansion that cannot go on ends in a `Failure`, which says what was wrong and where. The texts
that a failure carries are those of the template, unchanged; `Failure.message` quotes them.

A failure also has a `Failure.place`, the file and line a user should look at. What is not due to a
line of a file has line 0.
-/

namespace ShaderTemplate

/-- Why a file could not be read. -/
inductive ReadError where
  /-- the provider refused, with a message of its own -/
  | refused (message : Text)
  /-- the bytes of the file are not a text -/
  | notText
  deriving DecidableEq

/-- A read error as it stands in a message. -/
def ReadError.shown : ReadError → String
  | .refused message => Text.quoted message
  | .notText =>
    "Error \x7b kind: InvalidData, message: \"stream did not contain valid UTF-8\" \x7d"

/-- Why an expansion ended early. -/
inductive Failure where
  /-- a file is there but could not be read -/
  | unreadable (file : Text) (cause : ReadError)
  /-- the file to expand does not exist -/
  | shaderNotFound (path : Text)
  /-- no file was found for the target of an `#include`, given as it was written -/
  | includeNotFound (target : Text) (place : Place)
  /-- an `#include` leads to a file that is still being read -/
  | recursiveInclude (file : Text) (place : Place)
  /-- a substitution has no closing brace -/
  | unterminatedSubstitution (place : Place)
  | malformedInclude (reason : Text) (place : Place)
  | malformedFor (reason : Text) (place : Place)
  /-- a name in a substitution or a loop header stands for nothing -/
  | unresolvedName (name : Text) (place : Place)
  /-- a substituted name leads to something that is not a string -/
  | notAString (name resolved actual : Text) (place : Place)
  /-- a loop header refers to something that is not a dictionary -/
  | notADictionary (reference actual : Text) (place : Place)
  /-- an `#endfor` without a loop -/
  | unexpectedEndFor (place : Place)
  /-- an `#endfor` in another file than the header of the innermost loop -/
  | mismatchedEndFor (header : Place) (place : Place)
  /-- a file ends within a loop that it has begun -/
  | unterminatedFor (header : Place) (file : Text)
  /-- scopes are open after the last file -/
  | openScopes (count : Nat)
  deriving DecidableEq

namespace Failure

/-- The place a failure is attributed to. For a loop without an end it is the header of the
loop. -/
def place : Failure → Place
  | unreadable file _ => ⟨file, 0⟩
  | shaderNotFound path => ⟨path, 0⟩
  | includeNotFound _ place => place
  | recursiveInclude _ place => place
  | unterminatedSubstitution place => place
  | malformedInclude _ place => place
  | malformedFor _ place => place
  | unresolvedName _ place => place
  | notAString _ _ _ place => place
  | notADictionary _ _ place => place
  | unexpectedEndFor place => place
  | mismatchedEndFor _ place => place
  | unterminatedFor header _ => header
  | openScopes _ => ⟨[], 0⟩

/-- The message of a failure. -/
def message : Failure → String
  | unreadable file cause =>
    s!"include provider error: \"{cause.shown}\" when trying to include {Text.quoted file}"
  | shaderNotFound path => s!"shader file {Text.quoted path} does not exist"
  | includeNotFound target place =>
    s!"could not resolve file path for include file {Text.quoted target}; in {place.shown}"
  | recursiveInclude file place =>
    s!"file {Text.quoted file} is recursively included; triggered in {place.shown}"
  | unterminatedSubstitution place =>
    "parse error: expected '\x7d' closing \"#\x7b\"; " ++ place.shown
  | malformedInclude reason place =>
    s!"parse error: malformed #include, {String.ofList reason}; {place.shown}"
  | malformedFor reason place =>
    s!"parse error: malformed #for, {String.ofList reason}; {place.shown}"
  | unresolvedName name place =>
    s!"substitution error: could not resolve variable {Text.quoted name}; {place.shown}"
  | notAString name resolved actual place =>
    s!"substitution error: {Text.quoted name} was resolved to {Text.quoted resolved} " ++
      s!"which is of type {String.ofList actual} rather than string; {place.shown}"
  | notADictionary reference actual place =>
    s!"#for over {Text.quoted reference} which is of type {String.ofList actual} " ++
      s!"rather than dictionary; {place.shown}"
  | unexpectedEndFor place =>
    s!"unexpected #endfor, no corresponding #for was found; {place.shown}"
  | mismatchedEndFor header place =>
    s!"unexpected #endfor, last seen #for was in {header.shown}; {place.shown}"
  | unterminatedFor header file =>
    s!"unexpected end of file {Text.quoted file}, still processing #for loop from {header.shown}"
  | openScopes count => s!"unexpected end of input, {count} scope(s) still open"

end Failure

/-- How much a message matters. -/
inductive Severity where
  | error
  | debug
  | trace
  deriving DecidableEq

/-- The name of a severity in front of a message. -/
def Severity.name : Severity → String
  | .error => "ERROR"
  | .debug => "DEBUG"
  | .trace => "TRACE"

/-- A message for the user that points at a line. -/
structure Diagnostic where
  severity : Severity
  place : Place
  message : String
  deriving DecidableEq

/-- A diagnostic on one line, after the place it points at. -/
def Diagnostic.shown (diagnostic : Diagnostic) : String :=
  let file := String.ofList diagnostic.place.file
  let line := diagnostic.place.line
  s!"{file}:{line}: {diagnostic.message}"

/-- What a user is told about a failure. -/
def Failure.diagnostic (failure : Failure) : Diagnostic where
  severity := .error
  place := failure.place
  message := failure.message

end ShaderTemplate
