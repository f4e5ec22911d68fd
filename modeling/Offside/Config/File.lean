import Offside.Config.Basic
import Offside.Files.Basic

/-!
# Configuration files

The encoding of a configuration file follows from the extension of its name. A project's file is
looked for in a directory and in those above it.
-/

namespace Offside.Config

/-- Why a configuration file could not be loaded. -/
inductive FileFault where
  | extension (extension : Text)
  | unreadable (e : FileError)
  | faulty (path : Text) (f : Fault)
deriving Repr, DecidableEq

/-- The violations of the form in words. -/
def FileFault.causes : FileFault → List Text
  | faulty _ f => f.causes
  | _ => []

/-- The fault in words, with what is given about a faulty content. -/
def FileFault.say (about : Fault → Text) : FileFault → Text
  | extension e => "unsupported config file extension " ++ Text.quoted e
  | unreadable e => "failed to read config: " ++ e.message
  | faulty path f => path ++ ": " ++ about f

/-- The fault in words, without the causes. -/
def FileFault.summary (f : FileFault) : Text := f.say Fault.summary

/-- The fault in words. -/
def FileFault.message (f : FileFault) : Text := f.say Fault.message

/-- The encoding of a file. -/
def encodingOf (path : Text) : Except FileFault Encoding :=
  let extension := Path.extension path
  let name := Text.lower extension
  if name = ".yaml" ∨ name = ".yml" then .ok .yaml
  else if name = ".json" then .ok .json
  else .error (.extension extension)

/-- The names of configuration files, in the order in which they are looked for. -/
def fileNames : List Text := [".pyjs.yaml", ".pyjs.yml", ".pyjs.json"]

/-- Where a configuration file for a directory may be. -/
def candidates (directory : Text) : List Text :=
  (Path.ancestors directory).flatMap fun d => fileNames.map (Path.join d)

variable {m : Type → Type} [Monad m] [FileAccess m]

/-- The first of some paths that is a file. -/
def firstFile : List Text → m (Option Text)
  | [] => pure none
  | path :: paths => do
    if ← FileAccess.isFile path then pure (some path) else firstFile paths

/-- Looks for a configuration file for a directory. -/
def find (directory : Text) : m (Option Text) := do
  let here ← FileAccess.workingDirectory
  firstFile (candidates (Path.absolute here directory))

/-- Loads a configuration file. -/
def load (path : Text) : m (Except FileFault Config) :=
  match encodingOf path with
  | .error f => pure (.error f)
  | .ok encoding => do
    match ← FileAccess.read path with
    | .error e => pure (.error (.unreadable e))
    | .ok content => pure ((Config.read encoding content).mapError (.faulty path))

end Offside.Config
