import Offside.Number.Reader
import Offside.Text.Base64
import Offside.Yaml.Timestamp

/-!
# What a scalar stands for

What a scalar without quotes stands for depends on its form: null, a truth value, a number, a
timestamp, or its own text. A tag can ask for one of these, and the scalar has to have its form then.
-/

namespace Offside.Yaml

-- The power of the core library, also where Mathlib's is at hand.
attribute [local instance (high)] instPowNat

/-- What a scalar stands for. -/
inductive Meaning where
  | null
  | bool (b : Bool)
  | int (n : Int)
  | float (x : Float)
  | timestamp (t : Timestamp)
  | text (t : Text)
deriving Repr

/-- The words that stand for something else than themselves. -/
def words : List (Text × Meaning) :=
  [("true", .bool true), ("True", .bool true), ("TRUE", .bool true),
    ("false", .bool false), ("False", .bool false), ("FALSE", .bool false),
    ("", .null), ("~", .null), ("null", .null), ("Null", .null), ("NULL", .null),
    (".nan", .float (0.0 / 0.0)), (".NaN", .float (0.0 / 0.0)), (".NAN", .float (0.0 / 0.0)),
    (".inf", .float (1.0 / 0.0)), (".Inf", .float (1.0 / 0.0)), (".INF", .float (1.0 / 0.0)),
    ("+.inf", .float (1.0 / 0.0)), ("+.Inf", .float (1.0 / 0.0)), ("+.INF", .float (1.0 / 0.0)),
    ("-.inf", .float (-1.0 / 0.0)), ("-.Inf", .float (-1.0 / 0.0)), ("-.INF", .float (-1.0 / 0.0))]

/-! ## Integers -/

/-- Reads an integer of 64 bits with a sign or without, given how its magnitude is read. Without a
sign it may have all 64 bits for its magnitude. -/
def signedInt? (magnitude? : Text → Option Nat) (s : Text) : Option Int :=
  match s with
  | 45 :: s => (magnitude? s).bind fun n => if n ≤ 2 ^ (63 : Nat) then some (-(n : Int)) else none
  | 43 :: s => (magnitude? s).bind fun n => if n < 2 ^ (63 : Nat) then some (n : Int) else none
  | s => (magnitude? s).bind fun n => if n < 2 ^ (64 : Nat) then some (n : Int) else none

/-- Reads an integer behind the mark of a base, which may have its sign there. -/
def marked? : Text → Option Int
  | 48 :: 98 :: s => signedInt? (NumberText.digitsIn? 2) s
  | 48 :: 111 :: s => signedInt? (NumberText.digitsIn? 8) s
  | _ => none

/-! ## Decimal numbers -/

/-- The rest behind decimal digits, and how many there were. -/
def afterDigits (s : Text) : Nat × Text := ((s.takeWhile Text.isDigit).length, s.dropWhile Text.isDigit)

/-- Whether a text is an exponent, or nothing. -/
def isExponent : Text → Bool
  | [] => true
  | b :: s =>
    let s := (NumberText.signOf s).2
    (b == 101 || b == 69) && !s.isEmpty && s.all Text.isDigit

/-- Whether a text has the form of a decimal number: digits with a point and an exponent. -/
def isDecimal (s : Text) : Bool :=
  match afterDigits (NumberText.signOf s).2 with
  | (0, 46 :: s) => match afterDigits s with
    | (0, _) => false
    | (_, s) => isExponent s
  | (0, _) => false
  | (_, 46 :: s) => isExponent (afterDigits s).2
  | (_, s) => isExponent s

/-- Reads a decimal number that is not too large. -/
def float? (s : Text) : Option Float := (NumberText.readFloat s).toOption

/-! ## Scalars -/

/-- What a scalar that begins like a number stands for. Underscores do not count. -/
def numberMeaning (s : Text) : Meaning :=
  let digits := s.filter (· ≠ 95)
  match signedInt? NumberText.magnitude? digits with
  | some n => .int n
  | none =>
    match if isDecimal digits then float? digits else none with
    | some x => .float x
    | none =>
      match marked? digits with
      | some n => .int n
      | none => .text s

/-- Whether a word may stand for something else, judging by its first byte. -/
def isHinted (b : UInt8) : Bool :=
  [121, 89, 110, 78, 116, 84, 102, 70, 111, 79, 126, 46, 43, 45].contains b || Text.isDigit b

/-- What the form of a scalar stands for. `dated` says whether it may be a timestamp. -/
def formMeaning (dated : Bool) (s : Text) : Meaning :=
  match s with
  | [] => .null
  | b :: _ =>
    if isHinted b then
      match words.lookup s with
      | some m => m
      | none =>
        if b = 46 then match float? s with
          | some x => .float x
          | none => .text s
        else if b = 43 || b = 45 || Text.isDigit b then
          match if dated then Timestamp.ofText? s else none with
          | some t => .timestamp t
          | none => numberMeaning s
        else .text s
    else .text s

/-- What a scalar without quotes and without a tag stands for. -/
def meaning (s : Text) : Meaning := formMeaning true s

/-- What a scalar with a tag that asks for a form stands for, if it has the form. An integer has the
form of a floating-point number as well. -/
def Meaning.asTagged (tag : Text) (m : Meaning) : Option Meaning :=
  match m with
  | null => if tag = "!!null" then some m else none
  | bool _ => if tag = "!!bool" then some m else none
  | int n =>
    if tag = "!!int" then some m
    else if tag = "!!float" && n < 2 ^ (63 : Nat) then some (.float (Float.ofInt n))
    else none
  | float _ => if tag = "!!float" then some m else none
  | timestamp _ => if tag = "!!timestamp" then some m else none
  | text _ => none

/-- The tags that ask for a form. -/
def formTags : List Text := ["!!null", "!!bool", "!!int", "!!float", "!!timestamp"]

/-- What a scalar stands for, if it has the form that its tag asks for. A tag that asks for nothing
makes it a text. -/
def scalarMeaning? (tag : Option Text) (quoted : Bool) (s : Text) : Option Meaning :=
  match tag with
  | none => some (if quoted then .text s else meaning s)
  | some tag =>
    if formTags.contains tag then (formMeaning (tag = "!!timestamp") s).asTagged tag
    else if tag = "!!binary" then (Base64.decode? s).map .text
    else some (.text s)

end Offside.Yaml
