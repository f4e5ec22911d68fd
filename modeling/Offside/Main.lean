import Offside.Command.Basic

/-!
# The program

Runs a command line on the files and the streams of the machine.
-/

namespace Offside.Main

/-- A text as a string; what is not UTF-8 becomes the replacement character. -/
def stringOf (t : Text) : String := String.ofList (t.runes.map Rune.shown)

/-- Why something could not be done with a file. -/
def reasonOf (e : IO.Error) : Text :=
  match e with
  | .noFileOrDirectory .. => FileError.missing
  | .inappropriateType .. => FileError.notDirectory
  | .permissionDenied .. => "permission denied"
  | e => e.toString

/-- Reads a file of the machine. -/
def readFile (path : Text) : IO (Except FileError Text) := do
  let file := (← IO.currentDir) / stringOf path
  if ← file.isDir then return .error ⟨"read", path, FileError.isDirectory⟩
  try return .ok (← IO.FS.readBinFile file).toList
  catch e => return .error ⟨"open", path, reasonOf e⟩

/-- Writes a file of the machine. -/
def writeFile (path content : Text) (executable : Bool) : IO (Except FileError Unit) := do
  let file := (← IO.currentDir) / stringOf path
  if ← file.isDir then return .error ⟨"open", path, FileError.isDirectory⟩
  try
    let isNew := !(← file.pathExists)
    IO.FS.writeBinFile file content.toByteArray
    if isNew && executable then
      let readable : IO.AccessRight := { read := true, execution := true }
      IO.setAccessRights file
        { user := { readable with write := true }, group := readable, other := readable }
    return .ok ()
  catch e => return .error ⟨"open", path, reasonOf e⟩

/-- Whether there is a file of the machine. -/
def isFile (path : Text) : IO Bool := do
  let file := (← IO.currentDir) / stringOf path
  return (← file.pathExists) && !(← file.isDir)

/-- Why there is nothing at a path of the machine, if so. -/
def absence? (path : Text) : IO (Option Text) := do
  let file := (← IO.currentDir) / stringOf path
  return if ← file.pathExists then none else some FileError.missing

instance : FileAccess IO where
  workingDirectory := return Text.ofString (← IO.currentDir).toString
  isFile := isFile
  absence? := absence?
  read := readFile
  write := writeFile

/-- The standard input, as far as the arguments ask for it. A terminal is read only on request. -/
def inputFor (arguments : List Text) : IO (Option Text) := do
  let stdin ← IO.getStdin
  let wanted ← match Command.readArguments arguments with
    | .ok (.run _ _ none) => do pure !(← stdin.isTty)
    | .ok (.run _ _ (some path)) => pure (path == ("-" : Text))
    | _ => pure false
  if wanted then return some (← stdin.readBinToEnd).toList else return none

/-- The file that the arguments ask to watch. -/
def watched? (arguments : List Text) : Option Text :=
  match Command.readArguments arguments with
  | .ok (.run .render settings (some path)) =>
    if settings.watch ∧ path ≠ ("-" : Text) then some path else none
  | _ => none

/-- Runs a command line once and prints what it prints. -/
def runOnce (around : Command.Surroundings) (arguments : List Text) : IO UInt32 := do
  match ← (Command.run around arguments : IO _) with
  | none => return 2
  | some outcome =>
    (← IO.getStdout).write outcome.console.output.toByteArray
    (← IO.getStderr).write outcome.console.errors.toByteArray
    return UInt32.ofNat outcome.code.number

/-- Runs a command line again whenever the content of a file changes. -/
partial def watch (around : Command.Surroundings) (arguments : List Text) (path : Text)
    (seen : Option Text) : IO UInt32 := do
  IO.sleep 200
  let content := (← readFile path).toOption
  if content == seen then watch around arguments path seen
  else
    let code ← runOnce around arguments
    if code = 0 then watch around arguments path content else return code

end Offside.Main

open Offside in
/-- Runs the program. -/
def main (args : List String) : IO UInt32 := do
  let arguments := args.map Text.ofString
  let debug := (← IO.getEnv "PYJS_DEBUG").map fun v => (("PYJS_DEBUG" : Text), Text.ofString v)
  let around : Command.Surroundings :=
    { input := ← Main.inputFor arguments, environment := debug.toList }
  let seen ← match Main.watched? arguments with
    | some path => do pure (← Main.readFile path).toOption
    | none => pure none
  let code ← Main.runOnce around arguments
  match Main.watched? arguments with
  | some path => if code = 0 then Main.watch around arguments path seen else return code
  | none => return code
