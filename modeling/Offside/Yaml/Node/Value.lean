import Offside.Document.Basic
import Offside.Number.Shortest
import Offside.Yaml.Node

/-!
# What a node stands for

A node without further demands stands for null, a truth value, a number, a timestamp, a text, a list
or a set of fields. A document can hold it if its numbers are finite and its keys are no truth values
and not null.
-/

namespace Offside.Yaml

/-- What a node stands for. -/
inductive Value where
  | scalar (m : Meaning)
  | sequence (items : List Value)
  | mapping (fields : List (Value × Value))
deriving Repr

namespace Value

/-- Whether two scalars are the same key. A number that is not one differs from itself. -/
def isSameKey : Value → Value → Bool
  | scalar .null, scalar .null => true
  | scalar (.bool a), scalar (.bool b) => a == b
  | scalar (.int a), scalar (.int b) => a == b
  | scalar (.float a), scalar (.float b) => a == b
  | scalar (.timestamp a), scalar (.timestamp b) => a == b
  | scalar (.text a), scalar (.text b) => a == b
  | _, _ => false

/-- The fields with one more; it takes the place of one with the same key. -/
def setField (fields : List (Value × Value)) (key value : Value) : List (Value × Value) :=
  fields.filter (fun f => !isSameKey f.1 key) ++ [(key, value)]

/-- The text of a number in a document, if it is finite. -/
def floatText? (x : Float) : Option Text :=
  match Binary64.ofFloat x with
  | .finite negative m q => some (finiteText .documents negative m q)
  | _ => none

/-- The name of a field in a document. -/
def name? : Value → Option Text
  | scalar (.int n) => some (Text.ofInt n)
  | scalar (.float x) => floatText? x
  | scalar (.timestamp t) => if t.isWritable then some t.text else none
  | scalar (.text t) => some t
  | _ => none

/-- A scalar in a document. -/
def scalarDocument? : Meaning → Option Document
  | .null => some .null
  | .bool b => some (.bool b)
  | .int n => some (.number (Text.ofInt n))
  | .float x => (floatText? x).map .number
  | .timestamp t => if t.isWritable then some (.string t.text) else none
  | .text t => some (.string t.repaired)

mutual

/-- The document that a value is. -/
def document? : Value → Option Document
  | .scalar m => scalarDocument? m
  | .sequence items => (documents? items).map .array
  | .mapping fields => (fields? fields).map .object

/-- The documents that values are. -/
def documents? : List Value → Option (List Document)
  | [] => some []
  | v :: items => do
    let d ← v.document?
    let ds ← documents? items
    some (d :: ds)

/-- The fields of a document. -/
def fields? : List (Value × Value) → Option (List (Text × Document))
  | [] => some []
  | (key, v) :: fields => do
    let t ← key.name?
    let d ← v.document?
    let fields ← fields? fields
    some ((t.repaired, d) :: fields)

end

end Value

/-! ## From nodes to values -/

/-- How many nodes have been looked at, and how many of them through an alias. -/
structure Effort where
  steps : Nat := 0
  aliased : Nat := 0
deriving Repr, DecidableEq

/-- The share of nodes that may be looked at through aliases, which is less for many nodes. -/
def allowedShare (steps : Nat) : Float :=
  if steps ≤ 400000 then 0.99
  else if 4000000 ≤ steps then 0.10
  else 0.99 - 0.89 * (Float.ofNat (steps - 400000) / 3600000.0)

/-- Whether too many nodes have been looked at through aliases. -/
def Effort.isExcessive (e : Effort) : Bool :=
  100 < e.aliased && 1000 < e.steps &&
    Float.ofNat e.aliased / Float.ofNat e.steps > allowedShare e.steps

/-- A step from nodes to values, which may fail. -/
abbrev Decode := StateT Effort Option

/-- Looks at a node. -/
def Decode.step (aliased : Bool) : Decode Unit := do
  modify fun e => { steps := e.steps + 1, aliased := if aliased then e.aliased + 1 else e.aliased }
  if (← get).isExcessive then failure

/-- The fields of a mapping as far as they have been read. -/
structure Fields where
  /-- Whether every key is read as a text. -/
  textual : Bool
  fields : List (Value × Value) := []
  /-- The keys that a merged mapping cannot set any more; none outside merged mappings. -/
  settled : Option (List Value) := none

/-- The key of a field, none if the field does not count. -/
def Fields.key? (f : Fields) (text : Option (Option Text)) (value : Value) : Option (Option Value) :=
  if f.textual then text.map fun t => t.map fun t => .scalar (.text t)
  else
    match value with
    | .scalar _ => some (some value)
    | _ => none

/-- Whether a merged mapping cannot set the key any more. -/
def Fields.isSettled (f : Fields) (key : Value) : Bool :=
  (f.settled.getD []).any (Value.isSameKey key)

/-- The fields with one more. -/
def Fields.set (f : Fields) (key value : Value) : Fields :=
  { f with
    fields := Value.setField f.fields key value
    settled := f.settled.map (key :: ·) }

/-- Reads the fields of a mapping: those of its own, and then those of the mappings that it merges,
which cannot set a key again. -/
def Fields.assemble (entries : List (Node × Node)) (keys : Decode (List Value))
    (own merged : Fields → Decode Fields) (f : Fields) : Decode Fields := do
  if !Node.distinctKeys entries then failure
  let g ← own f
  if entries.any (·.1.isMerge) then
    let settled ← match g.settled with
      | some settled => pure settled
      | none => keys
    let h ← merged { g with settled := some settled }
    return { h with settled := f.settled.bind fun _ => h.settled }
  else return g

mutual

/-- The value of a node. `aliased` says whether it is looked at through an alias. -/
def Node.value (aliased : Bool) : Node → Decode Value
  | .scalar tag t quoted _ => do
    Decode.step aliased
    let some m := scalarMeaning? tag quoted t | failure
    return .scalar m
  | .sequence items _ => do
    Decode.step aliased
    return .sequence (← Node.values aliased items)
  | .mapping entries _ => do
    Decode.step aliased
    let textual := entries.all fun e => e.1.isText || e.1.isMerge
    let f ← Fields.assemble entries (Node.keysOf aliased entries) (Node.ownFields aliased entries)
      (Node.mergedFields aliased entries) { textual }
    return .mapping f.fields
  | .alias _ none => failure
  | .alias _ (some n) => do
    Decode.step aliased
    n.value true

/-- The values of nodes. -/
def Node.values (aliased : Bool) : List Node → Decode (List Value)
  | [] => return []
  | n :: items => return (← n.value aliased) :: (← Node.values aliased items)

/-- The keys of a mapping. -/
def Node.keysOf (aliased : Bool) : List (Node × Node) → Decode (List Value)
  | [] => return []
  | (k, _) :: entries => return (← k.value aliased) :: (← Node.keysOf aliased entries)

/-- Reads the fields of a mapping's own. -/
def Node.ownFields (aliased : Bool) : List (Node × Node) → Fields → Decode Fields
  | [], f => return f
  | (k, v) :: entries, f => do
    if k.isMerge then Node.ownFields aliased entries f
    else
      let some key := f.key? k.text? (← k.value aliased) | failure
      match key with
      | none => Node.ownFields aliased entries f
      | some key =>
        if f.isSettled key then Node.ownFields aliased entries f
        else Node.ownFields aliased entries (f.set key (← v.value aliased))

/-- Reads the fields of the mappings that a mapping merges. -/
def Node.mergedFields (aliased : Bool) : List (Node × Node) → Fields → Decode Fields
  | [], f => return f
  | (k, v) :: entries, f =>
    if k.isMerge then v.merge aliased false f else Node.mergedFields aliased entries f

/-- Reads the fields of a mapping that is merged, or of a sequence of them; `listed` says that it
stands in one. -/
def Node.merge (aliased listed : Bool) : Node → Fields → Decode Fields
  | .mapping entries _, f => do
    Decode.step aliased
    Fields.assemble entries (Node.keysOf aliased entries) (Node.ownFields aliased entries)
      (Node.mergedFields aliased entries) f
  | .alias _ (some (.mapping entries _)), f => do
    Decode.step aliased
    Decode.step true
    Fields.assemble entries (Node.keysOf true entries) (Node.ownFields true entries)
      (Node.mergedFields true entries) f
  | .sequence items _, f => if listed then failure else Node.mergeAll aliased items f
  | _, _ => failure

/-- Reads the fields of mappings that are merged. -/
def Node.mergeAll (aliased : Bool) : List Node → Fields → Decode Fields
  | [], f => return f
  | n :: items, f => do Node.mergeAll aliased items (← n.merge aliased true f)

end

/-- The value of a node, unless it is not one or too much of it stands in aliases. -/
def Node.value? (n : Node) : Option Value := ((n.value false) { steps := 1 }).map (·.1)

end Offside.Yaml
