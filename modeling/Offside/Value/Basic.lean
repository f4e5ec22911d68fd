import Offside.Diagnostic
import Offside.Number.Shortest
import Offside.Number.Reader

/-!
# Values

The values of the language: none, truth values, integers of 64 bits, floating-point numbers, byte
strings and lists. An integer that is compared with a floating-point number counts as one.
-/

namespace Offside

/-- A value. -/
inductive Value where
  | none
  | bool (b : Bool)
  | int (n : Int64)
  | float (x : Float)
  | str (t : Text)
  | list (items : List Value)
deriving Repr

namespace Value

/-- The name of the value's type. -/
def typeName : Value → Text
  | none => "NoneType"
  | bool _ => "bool"
  | int _ => "int"
  | float _ => "float"
  | str _ => "str"
  | list _ => "list"

/-- Whether the value counts as true. Zero, not-a-number and everything empty do not. -/
def truthy : Value → Bool
  | none => false
  | bool b => b
  | int n => n != 0
  | float x => x != 0 && !x.isNaN
  | str t => !t.isEmpty
  | list items => !items.isEmpty

mutual

/-- Whether two values are equal. Numbers are compared by value, whatever their types. -/
def equal : Value → Value → Bool
  | none, none => true
  | bool a, bool b => a == b
  | int a, int b => a == b
  | int a, float b => a.toFloat == b
  | float a, int b => a == b.toFloat
  | float a, float b => a == b
  | str a, str b => a == b
  | list as, list bs => equalItems as bs
  | _, _ => false

/-- Whether two lists have equal items, one by one. -/
def equalItems : List Value → List Value → Bool
  | [], [] => true
  | a :: as, b :: bs => a.equal b && equalItems as bs
  | _, _ => false

end

mutual

/-- The value as the language prints it. -/
def format : Value → Text
  | none => "None"
  | bool b => if b then "True" else "False"
  | int n => Text.ofInt n.toInt
  | float x => floatText x
  | str t => t
  | list items => "[" ++ Text.join ", " (formatItems items) ++ "]"

/-- The items of a list as the language prints them: strings are quoted. -/
def formatItems : List Value → List Text
  | [] => []
  | str t :: items => Text.quoted t :: formatItems items
  | item :: items => item.format :: formatItems items

end

/-- The report for a text that is no number. -/
def invalidNumber (s : Text) (fault : NumberText.Fault) : Diagnostic :=
  { kind := .syntaxError
    reason := "invalid number literal " ++ Text.quoted s
    cause := some (NumberText.failure s fault) }

/-- Whether a text has a mark of a floating-point number: a point or the letter of an exponent. -/
def looksFractional (s : Text) : Bool := s.any fun b => b == 46 || b == 101 || b == 69

/-- Reads a number: an integer if it looks like one and has 64 bits, else a floating-point number. -/
def readNumber (s : Text) : Except Diagnostic Value :=
  match if looksFractional s then Option.none else NumberText.readInt s with
  | some n => .ok (int n)
  | Option.none =>
    match NumberText.readFloat s with
    | .ok x => .ok (float x)
    | .error fault => .error (invalidNumber s fault)

end Value

end Offside
