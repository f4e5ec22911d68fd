import Offside.Config.Schema
import Offside.Rule.External
import Offside.Yaml.Node.Value

/-!
# Configurations

A configuration sets the width of tabs and the rules of a project. It is read from JSON or from YAML;
both go through the same check of their form.
-/

namespace Offside

/-- A configuration. -/
structure Config where
  version : Text := "v1.0.0"
  tabWidth : Int := 4
  rules : List Rule := []
deriving Repr, DecidableEq

namespace Config

/-- An encoding of configurations. -/
inductive Encoding where
  | yaml | json
deriving Repr, DecidableEq

/-- Why a configuration could not be read. -/
inductive Fault where
  | invalidYaml
  /-- There is a number that is not finite, or a key that cannot be a name. -/
  | notRepresentable
  | invalidJson
  /-- The document is against the form of a configuration. -/
  | mismatch (violations : List Violation)
  /-- The form is right but a value is not written as it has to be. -/
  | invalid
  | unsupportedVersion (version : Text)
deriving Repr, DecidableEq

/-- The violations in words, in bytewise order. -/
def Fault.causes : Fault → List Text
  | mismatch violations => Text.sorted (violations.map Violation.describe)
  | _ => []

/-- What is wrong, without the causes. -/
def Fault.summary : Fault → Text
  | invalidYaml => "invalid YAML"
  | notRepresentable => "config is not representable as JSON"
  | invalidJson => "invalid JSON"
  | mismatch _ => "config does not match schema"
  | invalid => "invalid config"
  | unsupportedVersion version =>
    "unsupported config version " ++ Text.quoted version ++ " (this build reads v1)"

/-- What is wrong, with the causes. -/
def Fault.message (f : Fault) : Text :=
  match f with
  | mismatch _ => f.summary ++ ": " ++ Text.join "; " f.causes
  | f => f.summary

/-- A configuration with further rules. -/
def withRules (c : Config) (rules : List Rule) : Config := { c with rules := c.rules ++ rules }

/-- The number of a text of digits, if it has 64 bits. -/
def int64? (s : Text) : Option Int := (NumberText.readInt s).map Int64.toInt

/-- The configuration after one more field of a document. Null leaves what is there. -/
def readField (c : Config) (field : Text × Document) : Option Config :=
  let (key, d) := field
  if key = "version" then (Rule.textOr c.version d).map fun version => { c with version }
  else if key = "tabWidth" then
    match d with
    | .null => some c
    | .number s => (int64? s).map fun tabWidth => { c with tabWidth }
    | _ => none
  else if key = "rules" then
    match d with
    | .null => some { c with rules := [] }
    | .array items => (items.mapM fun d => (Rule.ofDocument d).toOption).map fun rules => { c with rules }
    | _ => none
  else some c

/-- The configuration in a document that has the right form. -/
def ofDocument (d : Document) : Except Fault Config :=
  match d with
  | .object fields =>
    match fields.foldlM readField {} with
    | none => .error .invalid
    | some c =>
      match Version.read? c.version with
      | none => .error (.unsupportedVersion c.version)
      | some v =>
        if v.major = "1" then .ok { c with version := v.canonical }
        else .error (.unsupportedVersion c.version)
  | _ => .error .invalid

/-- The configuration in a document. `whole` says whether the text holds nothing else. -/
def ofChecked (d : Document) (whole : Bool) : Except Fault Config :=
  match check d with
  | [] => if whole then ofDocument d else .error .invalid
  | violations => .error (.mismatch violations)

/-- Reads a configuration from JSON. -/
def ofJson (s : Text) : Except Fault Config :=
  match Json.first? s with
  | none => .error .invalidJson
  | some (d, rest) => ofChecked d (Json.skipSpace rest).isEmpty

/-- The document of a value; null stands for an object without fields. -/
def documentOf (v : Yaml.Value) : Option Document :=
  match v.document? with
  | some .null => some (.object [])
  | d => d

/-- Reads a configuration from YAML. Without content it has no fields. -/
def ofYaml (s : Text) : Except Fault Config :=
  match Yaml.read? s with
  | none => .error .invalidYaml
  | some none => ofChecked (.object []) true
  | some (some n) =>
    match n.value? with
    | none => .error .invalidYaml
    | some v =>
      match documentOf v with
      | none => .error .notRepresentable
      | some d => ofChecked d true

/-- Reads a configuration. -/
def read (e : Encoding) (s : Text) : Except Fault Config :=
  match e with
  | .yaml => ofYaml s
  | .json => ofJson s

end Config

end Offside
