import Offside.Rule
import Offside.Document.Json
import Offside.Yaml.Node.Reader
import Offside.Yaml.Writer

/-!
# Rules in documents

A rule is written as an object with a name and, for a blacklist, values. Reading passes over further
fields.
-/

namespace Offside.Rule

/-- Why a document is no rule. -/
inductive Fault where
  /-- No rule has the name; the message says so. -/
  | unknown (message : Text)
  /-- The document does not have the form of a rule. -/
  | malformed
deriving Repr, DecidableEq

/-- The name and the values of a rule, as far as they have been read. -/
structure Fields where
  name : Text := []
  values : List Text := []
  /-- What an earlier list of values held beyond the end of this one. -/
  spare : List Text := []
deriving Repr, DecidableEq

/-- The rule of a name and values. -/
def Fields.rule (f : Fields) : Except Fault Rule :=
  match ofNameAndValues f.name f.values with
  | .ok r => .ok r
  | .error message => .error (.unknown message)

/-! ## JSON -/

/-- A key in uppercase, as far as it can match one in ASCII. -/
def foldedKey (key : Text) : Text :=
  key.runes.flatMap fun r =>
    let c := r.shown
    if c.toNat = 0x17F then "S" else if c.toNat = 0x212A then "K" else Text.ofChar c.toUpper

/-- A text, or nothing for null. -/
def textOr (old : Text) : Document → Option Text
  | .null => some old
  | .string t => some t
  | _ => none

/-- The texts of a list. Null leaves what an earlier list held at its place, which is given with what
that list held beyond. -/
def textsOver : (old : List Text) → List Document → Option (List Text × List Text)
  | old, [] => some ([], old)
  | old, d :: items => do
    let t ← textOr (old.headD []) d
    let (texts, spare) ← textsOver old.tail items
    some (t :: texts, spare)

/-- The fields after one more field of an object. Null or an empty list forgets earlier lists. -/
def Fields.read (f : Fields) (field : Text × Document) : Option Fields :=
  let key := foldedKey field.1
  if key = "NAME" then (textOr f.name field.2).map fun name => { f with name }
  else if key = "VALUES" then
    match field.2 with
    | .null | .array [] => some { f with values := [], spare := [] }
    | .array items =>
      (textsOver (f.values ++ f.spare) items).map fun (values, spare) => { f with values, spare }
    | _ => none
  else some f

/-- The rule that a document stands for. Null stands for an object without fields. -/
def ofDocument : Document → Except Fault Rule
  | .null => Fields.rule {}
  | .object fields =>
    match fields.foldlM Fields.read {} with
    | some f => f.rule
    | none => .error .malformed
  | _ => .error .malformed

/-- Reads a rule from JSON. -/
def ofJson (s : Text) : Except Fault Rule :=
  match Json.read? s with
  | some d => ofDocument d
  | none => .error .malformed

/-- The rule as a document. -/
def toDocument (r : Rule) : Document :=
  let values : List (Text × Document) :=
    if r.names.isEmpty then [] else [("values", .array (r.names.map .string))]
  .object (("name", .string r.policy.name) :: values)

/-- Writes the rule as JSON. -/
def toJson (r : Rule) : Text := Json.write r.toDocument

/-! ## YAML -/

/-- The entries of a mapping, as far as they have been read. -/
structure Entries where
  fields : Fields := {}
  /-- The keys that the mapping has set. -/
  own : List Text := []
  /-- The keys that a merged mapping cannot set any more; none outside merged mappings. -/
  settled : Option (List Text) := none
deriving Repr, DecidableEq

/-- The fields after the value of a key. Null leaves the name, and clears the values. -/
def Fields.set (f : Fields) (key : Text) (n : Yaml.Node) : Option Fields :=
  if key = "name" then n.text?.map fun t => { f with name := t.getD f.name }
  else if key = "values" then
    match n.resolved with
    | .sequence items _ => (items.mapM Yaml.Node.text?).map fun ts => { f with values := ts.filterMap id }
    | n => match n.text? with
      | some none => some { f with values := [] }
      | _ => none
  else some f

/-- The entries after one more, which fails if its key is no scalar or has been set already. -/
def Entries.set (e : Entries) (entry : Yaml.Node × Yaml.Node) : Option Entries := do
  if entry.1.isMerge then some e
  else
    match ← entry.1.text? with
    | none => some e
    | some key =>
      if (e.settled.getD []).contains key then some e
      else if e.own.contains key && (key = "name" || key = "values") then none
      else
        let fields ← e.fields.set key entry.2
        some { fields, own := key :: e.own, settled := e.settled.map (key :: ·) }

/-- The entries after those of a mapping, of which each key stands once. -/
def Entries.setAll (e : Entries) (entries : List (Yaml.Node × Yaml.Node)) : Option Entries :=
  if Yaml.Node.distinctKeys entries then entries.foldlM Entries.set { e with own := [] } else none

mutual

/-- The entries after those of the mappings that a mapping merges. -/
def Entries.mergeAll : List (Yaml.Node × Yaml.Node) → Entries → Option Entries
  | [], e => some e
  | (k, n) :: entries, e =>
    if k.isMerge then Entries.merge false n e else Entries.mergeAll entries e

/-- The entries after those of a mapping that is merged, or of a sequence of them; `listed` says that
it stands in one. -/
def Entries.merge (listed : Bool) : Yaml.Node → Entries → Option Entries
  | .mapping entries _, e => do Entries.mergeAll entries (← e.setAll entries)
  | .alias _ (some (.mapping entries _)), e => do Entries.mergeAll entries (← e.setAll entries)
  | .sequence items _, e => if listed then none else Entries.mergeListed items e
  | _, _ => none

/-- The entries after those of mappings that are merged. -/
def Entries.mergeListed : List Yaml.Node → Entries → Option Entries
  | [], e => some e
  | n :: items, e => do Entries.mergeListed items (← Entries.merge true n e)

end

/-- The fields of a mapping: its own, and those of the mappings that it merges, which cannot set a key
again. -/
def Fields.ofEntries (entries : List (Yaml.Node × Yaml.Node)) : Option Fields := do
  let e ← ({} : Entries).setAll entries
  let e ← Entries.mergeAll entries { e with settled := some e.own }
  some e.fields

/-- A message that tells the line. -/
def Fault.onLine (line : Nat) : Fault → Fault
  | unknown message => unknown ("line " ++ Text.ofNat line ++ ": " ++ message)
  | malformed => malformed

/-- The rule that a node stands for. Null stands for the first of the rules. -/
def ofNode (n : Yaml.Node) : Except Fault Rule :=
  match n with
  | .mapping entries line =>
    match Fields.ofEntries entries with
    | some f => f.rule.mapError (·.onLine line)
    | none => .error .malformed
  | n => if n.text? = some none then .ok (disable .ifStatement) else .error .malformed

/-- Reads a rule from YAML. Without content the first of the rules is taken. -/
def ofYaml (s : Text) : Except Fault Rule :=
  match Yaml.read? s with
  | none => .error .malformed
  | some none => .ok (disable .ifStatement)
  | some (some n) => ofNode n

/-- Writes the rule as YAML. -/
def toYaml (r : Rule) : Text :=
  let items := r.names.map fun v => "    - " ++ Yaml.writeScalar 6 v
  let values : Text := if r.names.isEmpty then [] else "values:\n" ++ items.flatten
  "name: " ++ r.policy.name ++ "\n" ++ values

end Offside.Rule
