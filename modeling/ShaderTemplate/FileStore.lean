import ShaderTemplate.Provider

/-!
# Stores of files

A `FileStore` holds files under absolute paths, and counts a stamp up for each change of a file, so
that changes can be noticed. A file may be denied, and then is there but cannot be read.

There are two ways to look at a store: `FileStore.memory` shows files and stamps, and
`FileStore.unstamped` leaves the stamps out. A store knows no directories: what matters is the
path a file has been written under, so a file may lie below another one.
-/

namespace ShaderTemplate

/-- What a file holds. -/
inductive Contents where
  | text (text : Text)
  /-- bytes that are not a text -/
  | bytes
  deriving DecidableEq

/-- Files with their stamps, and those that may not be read. -/
structure FileStore where
  contents : List (Path × Contents)
  stamps : List (Path × Nat)
  denied : List (Path × Text)

namespace FileStore

/-- The store without files. -/
def empty : FileStore := ⟨[], [], []⟩

/-- The rows of a table that belong to other paths. -/
def others {α : Type} (path : Path) (rows : List (Path × α)) : List (Path × α) :=
  rows.filter fun row => !(row.1 == path)

/-- The stamp of a path; one that has never changed has stamp 0. -/
def stampOf (store : FileStore) (path : Path) : Nat :=
  (store.stamps.lookup path).getD 0

/-- Sets the stamp of a path. -/
def stamp (store : FileStore) (path : Path) (value : Nat) : FileStore :=
  { store with stamps := (path, value) :: others path store.stamps }

/-- Counts the stamp of a path up, whether or not there is a file. -/
def touch (store : FileStore) (path : Path) : FileStore :=
  store.stamp path (store.stampOf path + 1)

/-- Writes a file, and sets its stamp or counts it up. -/
def write (store : FileStore) (path : Path) (contents : Contents) (stamp : Option Nat) :
    FileStore :=
  { store with contents := (path, contents) :: others path store.contents }.stamp path
    (stamp.getD (store.stampOf path + 1))

/-- Takes a file and its stamp out of the store. -/
def remove (store : FileStore) (path : Path) : FileStore :=
  { store with
    contents := others path store.contents
    stamps := others path store.stamps }

/-- Lets every attempt to read a file fail with a message. -/
def deny (store : FileStore) (path : Path) (message : Text) : FileStore :=
  { store with denied := (path, message) :: others path store.denied }

/-- Takes a denial back. -/
def allow (store : FileStore) (path : Path) : FileStore :=
  { store with denied := others path store.denied }

/-- Whether there is a file at a path. -/
def isFile (store : FileStore) (path : Path) : Bool :=
  (store.contents.lookup path).isSome

/-- Reads the file at a path. A denial goes first. -/
def read (store : FileStore) (path : Path) : Except ReadError Text :=
  match store.denied.lookup path, store.contents.lookup path with
  | some message, _ => .error (.refused message)
  | none, some (.text text) => .ok text
  | none, some .bytes => .error .notText
  | none, none => .error (.refused "no such file".toList)

/-- The store as a file system of its own, whose root is where relative paths start. -/
def memory (store : FileStore) : Provider where
  absolute := Path.resolve ⟨['/']⟩
  isFile := store.isFile
  read := store.read
  modified path := (store.stamps.lookup path).map .file
  files := store.contents.map Prod.fst

/-- The store without stamps, so that no change is ever noticed. -/
def unstamped (store : FileStore) : Provider :=
  { store.memory with modified := fun _ => none }

end FileStore

end ShaderTemplate
