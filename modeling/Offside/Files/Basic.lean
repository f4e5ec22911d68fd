import Offside.Files.Path

/-!
# Files

What a command does with files: it reads them, writes them and asks whether there are any. This may
be done on the files of the machine or on a tree of files that is a value.
-/

namespace Offside

/-- Why a file could not be opened or read. -/
structure FileError where
  operation : Text
  path : Text
  reason : Text
deriving Repr, DecidableEq

namespace FileError

/-- The error in words. -/
def message (e : FileError) : Text := e.operation ++ " " ++ e.path ++ ": " ++ e.reason

/-- There is nothing at the path. -/
def missing : Text := "no such file or directory"

/-- The path leads through a file. -/
def notDirectory : Text := "not a directory"

/-- There is a directory at the path. -/
def isDirectory : Text := "is a directory"

end FileError

/-- Access to files. -/
class FileAccess (m : Type → Type) where
  /-- The directory that relative paths start from. -/
  workingDirectory : m Text
  /-- Whether there is something at the path that is not a directory. -/
  isFile : (path : Text) → m Bool
  /-- Why there is nothing at the path, if so. -/
  absence? : (path : Text) → m (Option Text)
  read : (path : Text) → m (Except FileError Text)
  /-- Writes a file. A new one may be made executable. -/
  write : (path content : Text) → (executable : Bool) → m (Except FileError Unit)

/-- A file of a tree. -/
structure FileTree.File where
  content : Text
  executable : Bool := false
deriving Repr, DecidableEq

/-- The names that lead to a file or a directory from the top of a tree. -/
abbrev FileTree.Location := List Text

/-- A tree of files. A directory that leads to a file or to another directory need not be listed. -/
structure FileTree where
  /-- The working directory. -/
  here : FileTree.Location := []
  files : List (FileTree.Location × FileTree.File) := []
  directories : List FileTree.Location := []
deriving Repr, DecidableEq

namespace FileTree

/-- The file at a location. -/
def file? (t : FileTree) (l : Location) : Option File := t.files.lookup l

/-- Whether there is a directory at a location. -/
def isDirectory (t : FileTree) (l : Location) : Bool :=
  l.isPrefixOf t.here || t.directories.any l.isPrefixOf ||
    t.files.any fun (f, _) => l.isPrefixOf f && l ≠ f

/-- Follows names through the directories of a tree. The last one need not exist. -/
def follow (t : FileTree) : Location → List Text → Except Text Location
  | l, [] => .ok l
  | l, name :: names =>
    if t.isDirectory l then
      if name = [] ∨ name = "." then follow t l names
      else if name = ".." then follow t l.dropLast names
      else follow t (l ++ [name]) names
    else if (t.file? l).isSome then .error FileError.notDirectory
    else .error FileError.missing

/-- The location of a path. -/
def locate (t : FileTree) (path : Text) : Except Text Location :=
  if path.isEmpty then .error FileError.missing
  else t.follow (if Path.isAbsolute path then [] else t.here) (Path.names path)

/-- Reads a file. -/
def read (t : FileTree) (path : Text) : Except FileError Text :=
  match t.locate path with
  | .error reason => .error ⟨"open", path, reason⟩
  | .ok l =>
    match t.file? l with
    | some f => .ok f.content
    | none =>
      if t.isDirectory l then .error ⟨"read", path, FileError.isDirectory⟩
      else .error ⟨"open", path, FileError.missing⟩

/-- Writes a file. One that exists keeps its right to be executed. -/
def write (t : FileTree) (path content : Text) (executable : Bool) : Except FileError FileTree :=
  match t.locate path with
  | .error reason => .error ⟨"open", path, reason⟩
  | .ok l =>
    if t.isDirectory l then .error ⟨"open", path, FileError.isDirectory⟩
    else
      match t.file? l with
      | some _ =>
        .ok { t with
              files := t.files.map fun (k, f) => (k, if k = l then { f with content } else f) }
      | none => .ok { t with files := t.files ++ [(l, { content, executable })] }

/-- Why there is nothing at a path, if so. -/
def absence? (t : FileTree) (path : Text) : Option Text :=
  match t.locate path with
  | .error reason => some reason
  | .ok l => if t.isDirectory l || (t.file? l).isSome then none else some FileError.missing

/-- Whether there is a file at a path. -/
def isFile (t : FileTree) (path : Text) : Bool :=
  match t.locate path with
  | .error _ => false
  | .ok l => (t.file? l).isSome

end FileTree

instance : FileAccess (StateM FileTree) where
  workingDirectory := fun t => (Path.ofNames true t.here, t)
  isFile path := fun t => (t.isFile path, t)
  absence? path := fun t => (t.absence? path, t)
  read path := fun t => (t.read path, t)
  write path content executable := fun t =>
    match t.write path content executable with
    | .ok t => (.ok (), t)
    | .error e => (.error e, t)

end Offside
