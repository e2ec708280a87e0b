import ShaderTemplate.FileStore

/-!
# Disks

A `Disk` is a store of files with real directories. Writing a file makes the directories above it
that are missing, and they stay when the files in them are removed. So a path holds a file, a
directory or nothing, and what was a file can be a directory later on.

## Shape of a directory

A directory counts the changes of its own entries: a file or directory made in it, or a file taken
away from it. New contents of a file are no change of an entry. Whoever asks for the stamp of a
directory is shown this count, so a session that tracks a file notices that a directory has taken
its place, and from then on notices new entries of that directory.
-/

namespace ShaderTemplate

/-- The components of a path, the last one first. Its tail is the trail of the directory around. -/
abbrev Path.Trail := List Path.Component

/-- The trail of a path. -/
def Path.trail (path : Path) : Path.Trail :=
  path.components.reverse

/-- Whether a path leads through another one, and further. -/
def Path.isAbove (outer path : Path) : Bool :=
  outer.components.isPrefixOf path.components && !(outer == path)

/-- A file system with directories. -/
structure Disk where
  /-- the directory in which relative paths start -/
  root : Path
  files : FileStore
  /-- the trails of the directories, with the number of changes of their entries -/
  directories : List (Path.Trail × Nat)

namespace Disk

/-- A disk on which there is nothing but its root. -/
def start (root : Path) : Disk :=
  ⟨root, .empty, [(root.trail, 0)]⟩

/-- Counts a change of the entry at a trail, in the directory around it. If that directory is
missing it is made, which changes an entry of the directory around it in turn. -/
def changeEntry (directories : List (Path.Trail × Nat)) : Path.Trail → List (Path.Trail × Nat)
  | [] => directories
  | _ :: around =>
    match directories.lookup around with
    | some changes => (around, changes + 1) :: directories.filter fun row => row.1 != around
    | none => (around, 1) :: changeEntry directories around

/-- The changes of the directory at a path, if there is one. -/
def changesOf? (disk : Disk) (path : Path) : Option Nat :=
  disk.directories.lookup path.trail

/-- Whether a file can be written at a path: the path is no directory and leads through no file. -/
def takesFile (disk : Disk) (path : Path) : Bool :=
  (disk.changesOf? path).isNone && disk.files.contents.all fun file => !file.1.isAbove path

/-- Counts a change of the entry of a path. -/
def entryChanged (disk : Disk) (path : Path) : Disk :=
  { disk with directories := changeEntry disk.directories path.trail }

/-- Writes a file, and sets its stamp or counts it up. Nothing happens where no file can be. -/
def write (disk : Disk) (path : Path) (contents : Contents) (stamp : Option Nat) : Disk :=
  if disk.takesFile path then
    let disk := if disk.files.isFile path then disk else disk.entryChanged path
    { disk with files := disk.files.write path contents stamp }
  else disk

/-- Counts the stamp of a path up, whether or not there is a file. A directory keeps its own. -/
def touch (disk : Disk) (path : Path) : Disk :=
  { disk with files := disk.files.touch path }

/-- Takes a file and its stamp off the disk. Directories stay. -/
def remove (disk : Disk) (path : Path) : Disk :=
  let disk := if disk.files.isFile path then disk.entryChanged path else disk
  { disk with files := disk.files.remove path }

/-- The stamp of what is at a path, be it a file or a directory. -/
def modified (disk : Disk) (path : Path) : Option Stamp :=
  if disk.files.isFile path then (disk.files.stamps.lookup path).map .file
  else (disk.changesOf? path).map .directory

/-- What is on the disk. -/
def provider (disk : Disk) : Provider :=
  { disk.files.memory with
    absolute := Path.resolve disk.root
    modified := disk.modified }

end Disk

end ShaderTemplate
