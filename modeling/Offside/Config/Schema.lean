import Offside.Document.Basic
import Offside.Text.Quoted
import Offside.Rule
import Offside.Version

/-!
# The form of a configuration

A configuration is an object with a version and perhaps a tab width and rules. What a document does
against this form is listed, each with the place it is found at.
-/

namespace Offside.Config

-- The power of the core library, also where Mathlib's is at hand.
attribute [local instance (high)] instPowNat

/-- Something in a document that is against its form. -/
structure Violation where
  /-- The keys and numbers that lead to the place, outermost first. -/
  place : List Text
  message : Text
deriving Repr, DecidableEq

/-- The violation in words. -/
def Violation.describe (v : Violation) : Text :=
  let place : Text := if v.place.isEmpty then "/" else v.place.flatMap ("/" ++ ·)
  place ++ ": " ++ v.message

/-- A text between single quotes: what is escaped between double quotes is, and single quotes are in
place of double ones. -/
def quoted (s : Text) : Text :=
  let inner := ((Text.quoted s).drop 1).dropLast
  "'" ++ swap inner ++ "'"
where
  /-- Escapes single quotes in place of double ones. -/
  swap : Text → Text
    | 92 :: 34 :: s => 34 :: swap s
    | 39 :: s => 92 :: 39 :: swap s
    | b :: s => b :: swap s
    | [] => []

/-- Reports a value of the wrong type. -/
def wrongType (place : List Text) (expected : Text) (d : Document) : List Violation :=
  [⟨place, "expected " ++ expected ++ ", but got " ++ d.typeName⟩]

/-- Reports keys that an object needs and those that it may not have. -/
def checkKeys (place : List Text) (required known : List Text) (fields : List (Text × Document)) :
    List Violation :=
  let keys := Document.keys fields
  let missing := required.filter fun k => !keys.contains k
  let further := keys.filter fun k => !known.contains k
  let list (ks : List Text) : Text := Text.join ", " (ks.map quoted)
  (if missing.isEmpty then [] else [⟨place, "missing properties: " ++ list missing⟩]) ++
    (if further.isEmpty then []
      else [⟨place, "additionalProperties " ++ list further ++ " not allowed"⟩])

/-- Checks the value of a key, if the object has it. -/
def checkField (place : List Text) (fields : List (Text × Document)) (key : Text)
    (check : List Text → Document → List Violation) : List Violation :=
  match Document.last? fields key with
  | some d => check (place ++ [key]) d
  | none => []

/-- Checks every item of a list. -/
def checkItems (check : List Text → Document → List Violation) (place : List Text) (d : Document) :
    List Violation :=
  match d with
  | .array items =>
    (items.zipIdx.map fun (item, i) => check (place ++ [Text.ofNat i]) item).flatten
  | d => wrongType place "array" d

/-! ## Numbers -/

/-- A number as `digits · 10 ^ exponent`, of which the last digit is not 0 unless the number is. -/
structure Exact where
  negative : Bool
  digits : Nat
  exponent : Int
deriving Repr, DecidableEq

/-- Takes zeros away from the end of digits. -/
def Exact.trimmed : (fuel : Nat) → Exact → Exact
  | 0, x => x
  | fuel + 1, x =>
    if x.digits % 10 = 0 ∧ x.digits ≠ 0 then
      trimmed fuel { x with digits := x.digits / 10, exponent := x.exponent + 1 }
    else x

/-- The value of the text of a number. -/
def Exact.ofText (s : Text) : Exact :=
  let (negative, s) : Bool × Text := match s with
    | 45 :: s => (true, s)
    | s => (false, s)
  let mantissa := s.takeWhile fun b => Text.isDigit b || b == 46
  let power := (s.dropWhile fun b => Text.isDigit b || b == 46).drop 1
  let power : Int := match power with
    | 45 :: ds => -(Text.digitsValue ds : Int)
    | 43 :: ds => Text.digitsValue ds
    | ds => Text.digitsValue ds
  let places := ((mantissa.dropWhile (· ≠ 46)).drop 1).length
  trimmed (mantissa.length + 1)
    { negative
      digits := Text.digitsValue (mantissa.filter Text.isDigit)
      exponent := power - places }

/-- Whether a number is whole. -/
def Exact.isWhole (x : Exact) : Bool := x.digits == 0 || 0 ≤ x.exponent

/-- Whether a whole number is less than 1. -/
def Exact.isBelowOne (x : Exact) : Bool := x.negative || x.digits == 0

/-- Whether a whole number is greater than 16. -/
def Exact.isAboveSixteen (x : Exact) : Bool :=
  !x.isBelowOne && (1 < x.exponent || 16 < x.digits * 10 ^ x.exponent.toNat)

/-! ## The parts of a configuration -/

/-- Checks a version. -/
def checkVersion (place : List Text) : Document → List Violation
  | .string s =>
    if (Version.read? s).isSome then [] else [⟨place, quoted s ++ " is not valid 'semver'"⟩]
  | d => wrongType place "string" d

/-- Checks a tab width. -/
def checkTabWidth (place : List Text) : Document → List Violation
  | .number s =>
    let x := Exact.ofText s
    if !x.isWhole then wrongType place "integer" (.number s)
    else if x.isBelowOne then [⟨place, "must be >= 1 but found " ++ s⟩]
    else if x.isAboveSixteen then [⟨place, "must be <= 16 but found " ++ s⟩]
    else []
  | d => wrongType place "integer" d

/-- Whether a text can be a name. -/
def isName : Text → Bool
  | [] => false
  | b :: s =>
    (Text.isLetter b || b == 95) && s.all fun c => Text.isLetter c || Text.isDigit c || c == 95

/-- Checks a name that may not be declared. -/
def checkName (place : List Text) : Document → List Violation
  | .string s =>
    if isName s then [] else [⟨place, "does not match pattern '^[A-Za-z_][A-Za-z0-9_]*$'"⟩]
  | d => wrongType place "string" d

/-- Checks the name of a rule. -/
def checkRuleName (place : List Text) (d : Document) : List Violation :=
  let names := Policy.all.map Policy.name
  let known := match d with
    | .string s => names.contains s
    | _ => false
  if known then []
  else [⟨place, "value must be one of " ++ Text.join ", " (names.map Text.quoted)⟩]

/-- Checks a rule. -/
def checkRule (place : List Text) : Document → List Violation
  | .object fields =>
    checkKeys place ["name"] ["name", "values"] fields ++
      checkField place fields "name" checkRuleName ++
      checkField place fields "values" (checkItems checkName)
  | d => wrongType place "object" d

/-- Checks a configuration. -/
def check : Document → List Violation
  | .object fields =>
    checkKeys [] ["version"] ["version", "tabWidth", "rules"] fields ++
      checkField [] fields "version" checkVersion ++
      checkField [] fields "tabWidth" checkTabWidth ++
      checkField [] fields "rules" (checkItems checkRule)
  | d => wrongType [] "object" d

end Offside.Config
