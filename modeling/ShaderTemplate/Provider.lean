import ShaderTemplate.Failure
import ShaderTemplate.Path.Normalize

/-!
# Providers of files

An expansion decides which paths to try for an include. A `Provider` answers questions about
concrete paths and gives the files' contents. Its answers do not depend on what was asked before:
a provider is a snapshot of a file system.
-/

namespace ShaderTemplate

/-- What is compared to tell whether something has changed at a path. -/
inductive Stamp where
  /-- the stamp of a file, counted or given -/
  | file (value : Nat)
  /-- the number of times that the entries of a directory have changed -/
  | directory (changes : Nat)
  deriving DecidableEq

/-- What may be asked of a file system. -/
structure Provider where
  /-- the path under which a file is known, for a path as it was written -/
  absolute : Path → Path
  /-- whether there is a file at a path -/
  isFile : Path → Bool
  /-- the text of the file at a path -/
  read : Path → Except ReadError Text
  /-- a stamp that changes with what is at a path, if there is one -/
  modified : Path → Option Stamp
  /-- the files that are there; how long an expansion can take is reckoned from their lengths -/
  files : List Path

/-- The number of lines of the file at a path, with 0 for one that cannot be read. -/
def Provider.lineCount (provider : Provider) (path : Path) : Nat :=
  match provider.read path with
  | .ok text => (Text.lines text).length
  | .error _ => 0

/-- The number of lines of some files, with two more for each file. -/
def Provider.linesOf (provider : Provider) (files : List Path) : Nat :=
  files.foldr (fun file lines => provider.lineCount file + 2 + lines) 0

end ShaderTemplate
