import ShaderTemplate.Failure
import ShaderTemplate.Path.Basic

/-!
# Events

An expansion keeps a journal of what it did: which files it looked for and opened, which loops it
went through, and what it failed with. `Event.record` gives an event as a line of a log.
-/

namespace ShaderTemplate

/-- Something that happened during an expansion or a look for changed files. -/
inductive Event where
  /-- a file was looked for at `candidate` because of an `#include` of `target` -/
  | tried (target : Text) (candidate : Path) (found : Bool)
  /-- a file was read -/
  | opened (path : Path)
  /-- a loop began with its first key -/
  | loopBegun (reference key : Text)
  /-- a loop over a dictionary without entries was met -/
  | loopEmpty (reference : Text)
  /-- a loop went on to a further key -/
  | loopKey (reference key : Text)
  /-- a file was found changed -/
  | changed (path : Path)
  | failed (failure : Failure)
  deriving DecidableEq

namespace Event

/-- How much an event matters. -/
def severity : Event → Severity
  | tried .. | opened _ | changed _ => .debug
  | loopBegun .. | loopEmpty _ | loopKey .. => .trace
  | failed failure => failure.diagnostic.severity

/-- What a log says about an event. -/
def message : Event → String
  | tried target candidate found =>
    let result := if found then "found" else "not found"
    s!"include {Text.quoted target}: trying {candidate}: {result}"
  | opened path => s!"expanding {path}"
  | loopBegun reference key =>
    s!"#for over {String.ofList reference}, key {String.ofList key}"
  | loopEmpty reference => s!"#for over empty {String.ofList reference}"
  | loopKey reference key => s!"Key {String.ofList key} in {String.ofList reference}"
  | changed path => s!"tracked file changed: {path}"
  | failed failure => failure.diagnostic.shown

/-- An event as a line of a log. -/
def record (event : Event) : String :=
  s!"{event.severity.name} {event.message}"

end Event

end ShaderTemplate
