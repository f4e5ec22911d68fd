import Offside.Text.Basic

/-!
# Paths

A path is a text of names with slashes between them, an absolute one with a slash before them. Paths
are brought to their shortest form without a look at any files.
-/

namespace Offside.Path

/-- The names of a path. -/
def names (path : Text) : List Text := Text.split 47 path

/-- Whether a path is absolute. -/
def isAbsolute (path : Text) : Bool := path.head? == some 47

/-- Follows names from a place, the names of which are given latest first. A step up from the top
stays there, but is kept on a relative path. -/
def follow (absolute : Bool) : (place : List Text) → List Text → List Text
  | place, [] => place
  | place, name :: names =>
    if name = [] ∨ name = "." then follow absolute place names
    else if name = ".." then
      match place with
      | top :: outer =>
        if top = ".." then follow absolute (".." :: place) names else follow absolute outer names
      | [] => follow absolute (if absolute then [] else [".."]) names
    else follow absolute (name :: place) names

/-- The path of names. -/
def ofNames (absolute : Bool) (names : List Text) : Text :=
  let path := Text.join "/" names
  if absolute then "/" ++ path else if path.isEmpty then "." else path

/-- The shortest form of a path. -/
def clean (path : Text) : Text :=
  ofNames (isAbsolute path) (follow (isAbsolute path) [] (names path)).reverse

/-- A path taken from a directory. -/
def join (directory path : Text) : Text := clean (directory ++ "/" ++ path)

/-- A path taken from a directory unless it is absolute. -/
def absolute (directory path : Text) : Text :=
  if isAbsolute path then clean path else join directory path

/-- The directory that a path leads into. -/
def parent (path : Text) : Text := clean (Text.dropEndWhile (· ≠ 47) path)

/-- A directory and those above it, innermost first. -/
def ancestors (directory : Text) : List Text :=
  let names := (follow true [] (names directory)).reverse
  ((List.range (names.length + 1)).map fun n => ofNames true (names.take n)).reverse

/-- The end of the last name from its last dot on, or nothing. -/
def extension (path : Text) : Text :=
  let name := (path.reverse.takeWhile (· ≠ 47)).reverse
  if name.contains 46 then 46 :: (name.reverse.takeWhile (· ≠ 46)).reverse else []

end Offside.Path
