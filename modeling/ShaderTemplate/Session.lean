import ShaderTemplate.Expansion.Pass

/-!
# Sessions

A session expands a file again and again, while its parts are exchanged and files change. After
each pass it tracks the files that the pass has opened, with the stamps they had then, and
`Session.poll` tells which of them have changed since.
-/

namespace ShaderTemplate

/-- A file that a session watches, and its stamp when it was last looked at. -/
structure Tracked where
  path : Path
  modified : Option Stamp
  deriving DecidableEq

/-- The parts of a session. A call for a changed file has an answer in `α`. -/
structure Session (α : Type) where
  shader : Path
  dictionary : Dictionary
  config : Config
  tracked : List Tracked
  /-- what to call for each changed file -/
  onChange : Option (Path → α)

/-- What a look for changed files has found. -/
structure Poll (α : Type) where
  /-- whether any file has changed, so that the last expansion is out of date -/
  changed : Bool
  /-- the answers of the calls, in the order of the files -/
  calls : List α
  journal : List Event

namespace Session

variable {α : Type}

/-- A session that tracks no files yet. -/
def start (shader : Path) (dictionary : Dictionary) (config : Config) : Session α :=
  ⟨shader, dictionary, config, [], none⟩

/-- The paths of the tracked files, that of the expanded file first. -/
def trackedPaths (session : Session α) : List Path :=
  session.tracked.map Tracked.path

/-- Stops watching any files. -/
def clearTracked (session : Session α) : Session α :=
  { session with tracked := [] }

/-- Sets what to call for each changed file. -/
def setCallback (session : Session α) (onChange : Path → α) : Session α :=
  { session with onChange := some onChange }

/-- Adds a directory in which includes are looked for. -/
def addIncludePath (session : Session α) (path : Path) : Session α :=
  { session with config := session.config.addIncludePath path }

/-- Expands the file of the session, and tracks the opened files from then on, after a failure too.
There is an answer whenever `Pass.run?` has one. -/
def process? (session : Session α) (provider : Provider) : Option (Pass × Session α) :=
  (Pass.run? ⟨provider, session.dictionary, session.config⟩ session.shader).map fun pass =>
    let track path : Tracked := ⟨path, provider.modified path⟩
    (pass, { session with tracked := pass.opened.map track })

/-- Looks for changes of the tracked files. Each changed one is called for, in order, and is then
watched with its new stamp. -/
def poll (session : Session α) (provider : Provider) : Poll α × Session α :=
  let stale := session.tracked.filter fun file => provider.modified file.path ≠ file.modified
  let paths := stale.map Tracked.path
  let refresh (file : Tracked) : Tracked := ⟨file.path, provider.modified file.path⟩
  ({ changed := !paths.isEmpty
     calls := session.onChange.elim [] fun call => paths.map call
     journal := paths.map .changed },
   { session with tracked := session.tracked.map refresh })

end Session

/-- Expands one file with the default configuration. -/
def expandFile? (shader : Path) (dictionary : Dictionary) (provider : Provider) : Option Pass :=
  Pass.run? ⟨provider, dictionary, {}⟩ shader

end ShaderTemplate
