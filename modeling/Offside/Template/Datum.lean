import Offside.Number.Shortest
import Offside.Template.Basic

/-!
# The values of templates

A template is written for a record with fields. Beside it there are lists, texts, numbers and truth
values, and the value that is not there.
-/

namespace Offside.Template

/-- A value that a template is written for. -/
inductive Datum where
  | absent
  | bool (b : Bool)
  | int (n : Int)
  | byte (b : UInt8)
  | float (x : Float)
  | text (t : Text)
  /-- A list of texts, and the texts behind it that a longer slice of it shows. -/
  | list (items spare : List Text)
  | record (fields : List (Text × Datum))
deriving Repr

namespace Datum

mutual

/-- How a value is written. -/
def format : Datum → Text
  | absent => "<no value>"
  | bool b => Text.ofBool b
  | int n => Text.ofInt n
  | byte b => Text.ofNat b.toNat
  | float x => floatText x
  | text t => t
  | list items _ => "[" ++ Text.join " " items ++ "]"
  | record fields => "\x7b" ++ Text.join " " (formatAll fields) ++ "\x7d"

/-- How the fields of a record are written. -/
def formatAll : List (Text × Datum) → List Text
  | [] => []
  | (_, d) :: fields => d.format :: formatAll fields

end

/-- Whether a value chooses the first of two parts. -/
def truthy : Datum → Bool
  | absent => false
  | bool b => b
  | int n => n != 0
  | byte b => b != 0
  | float x => x != 0.0
  | text t => !t.isEmpty
  | list items _ => !items.isEmpty
  | record _ => true

/-- The value of a constant. -/
def ofConstant? : Constant → Option Datum
  | .int n => some (int n)
  | .float x => some (float x)
  | .tooLarge => none

/-- A value, or a field inside it. What is not there has all fields, and they are not there. No other
value is given arguments. -/
def field? (hasArguments : Bool) : Datum → List Text → Option Datum
  | d, [] => if hasArguments then none else some d
  | absent, _ :: _ => some absent
  | record fields, [name] => if hasArguments then none else fields.lookup name
  | record fields, name :: names => (fields.lookup name).bind fun d => d.field? hasArguments names
  | _, _ => none

/-- The items that a value has, with their numbers. The items of a number have none. -/
def items? (numbered : Bool) : Datum → Option (List (Datum × Datum))
  | absent => some []
  | list items _ => some (items.zipIdx.map fun (t, i) => (int i, text t))
  | int n =>
    if numbered then none else some ((List.range n.toNat).map fun i => (absent, int (i : Nat)))
  | byte b =>
    if numbered then none
    else some ((List.range b.toNat).map fun i => (absent, byte (UInt8.ofNat i)))
  | _ => none

end Datum

end Offside.Template
