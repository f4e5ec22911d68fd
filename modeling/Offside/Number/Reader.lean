import Offside.Text.Quoted
import Offside.Number.Binary64

/-!
# Reading numbers

Reads a whole text as an integer of 64 bits or as a floating-point number. The floating-point form
may have a sign, digits with a point, and an exponent; a hexadecimal one begins with `0x` and has a
binary exponent. Underscores may stand between digits. `inf`, `infinity` and `nan` are read in any
case, the first two also with a sign.
-/

namespace Offside.NumberText

-- The power of the core library, also where Mathlib's is at hand.
attribute [local instance (high)] instPowNat

/-- Why a text is no number. -/
inductive Fault where
  | malformed
  | outOfRange
deriving Repr, DecidableEq

/-- The fault in words. -/
def Fault.message : Fault → Text
  | malformed => "invalid syntax"
  | outOfRange => "value out of range"

/-- The sign at the start of a text, and what follows. -/
def signOf : Text → Bool × Text
  | [] => (false, [])
  | b :: s => if b = 45 then (true, s) else if b = 43 then (false, s) else (false, b :: s)

/-- An integer of 64 bits as a 64-bit word. -/
def fit64 (n : Int) : Option Int64 :=
  if -2 ^ (63 : Nat) ≤ n ∧ n < 2 ^ (63 : Nat) then some (Int64.ofInt n) else none

/-- Reads digits with an optional sign, if the value has 64 bits. -/
def readInt (s : Text) : Option Int64 :=
  let (negative, digits) := signOf s
  if digits.isEmpty || !digits.all Text.isDigit then none
  else
    let n : Int := Text.digitsValue digits
    fit64 (if negative then -n else n)

/-- The value of a digit, of a hexadecimal one if `hex`. -/
def digit? (hex : Bool) (b : UInt8) : Option Nat :=
  let c := Text.lowerByte b
  if Text.isDigit b then some (b.toNat - 48)
  else if hex && 97 ≤ c && c ≤ 102 then some (c.toNat - 87)
  else none

/-- The value of digits in a base, if there is a digit and all of them belong to the base. -/
def digitsIn? (base : Nat) (s : Text) : Option Nat :=
  if s.isEmpty then none
  else s.foldl (fun n b => do
    let n ← n
    let d ← digit? true b
    if d < base then some (base * n + d) else none) (some 0)

/-- Reads an unsigned integer: decimal, octal behind a 0, or in the base of its mark. -/
def magnitude? : Text → Option Nat
  | 48 :: b :: s =>
    let c := Text.lowerByte b
    if c = 120 then digitsIn? 16 s
    else if c = 111 then digitsIn? 8 s
    else if c = 98 then digitsIn? 2 s
    else digitsIn? 8 (b :: s)
  | s => digitsIn? 10 s

/-- The digits of a number as far as they have been read. -/
structure Mantissa where
  value : Nat := 0
  /-- How many digits stand behind the point. -/
  places : Nat := 0
  /-- Whether the point has been read. -/
  dotted : Bool := false
  /-- Whether there is a digit. -/
  any : Bool := false
deriving Repr, DecidableEq

/-- Reads digits, underscores and one point. -/
def readMantissa (hex : Bool) (m : Mantissa) : Text → Mantissa × Text
  | [] => (m, [])
  | b :: s =>
    if b = 95 then readMantissa hex m s
    else if b = 46 then
      if m.dotted then (m, b :: s) else readMantissa hex { m with dotted := true } s
    else
      match digit? hex b with
      | some d =>
        readMantissa hex
          { m with
            value := (if hex then 16 else 10) * m.value + d
            places := if m.dotted then m.places + 1 else m.places
            any := true } s
      | none => (m, b :: s)

/-- The value of the digits of an exponent. Beyond 10000 further digits are passed over. -/
def exponentValue (s : Text) : Nat :=
  s.foldl (fun e b => if b = 95 then e else if e < 10000 then 10 * e + (b.toNat - 48) else e) 0

/-- Reads an exponent after its letter `mark`, up to the end of the text. There is none in the empty
text. -/
def readExponent (mark : UInt8) : Text → Option (Option Int)
  | [] => some none
  | b :: s =>
    if Text.lowerByte b ≠ mark then none
    else
      let (negative, digits) := signOf s
      match digits with
      | [] => none
      | d :: _ =>
        if Text.isDigit d && digits.all (fun c => Text.isDigit c || c == 95) then
          let e : Int := exponentValue digits
          some (some (if negative then -e else e))
        else none

/-- Whether every underscore stands between two digits; the mark of a base counts as a digit. -/
def underscoresFit (hex : Bool) : (afterDigit afterUnderscore : Bool) → Text → Bool
  | _, afterUnderscore, [] => !afterUnderscore
  | afterDigit, afterUnderscore, b :: s =>
    if (digit? hex b).isSome then underscoresFit hex true false s
    else if b = 95 then afterDigit && underscoresFit hex false true s
    else !afterUnderscore && underscoresFit hex false false s

/-- The text without a mark of base two, eight or sixteen, whether there was one, and whether it was
that of sixteen. -/
def baseOf : Text → Text × Bool × Bool
  | 48 :: b :: s =>
    let c := Text.lowerByte b
    if c = 98 ∨ c = 111 ∨ c = 120 then (s, true, c = 120) else (48 :: b :: s, false, false)
  | s => (s, false, false)

/-- Whether the underscores of an unsigned number stand where they may. -/
def underscoresAllowed (s : Text) : Bool :=
  let (digits, marked, hex) := baseOf s
  !s.contains 95 || underscoresFit hex marked false digits

/-- The number nearest to `m · 10 ^ e`. -/
def ofDecimal (m : Nat) (e : Int) : Float :=
  let length : Int := (Nat.toDigits 10 m).length
  if m = 0 ∨ e + length < -400 then 0.0
  else if 400 < e + length then 1.0 / 0.0
  else Binary64.nearestDecimal m e

/-- The number nearest to `m · 2 ^ q`. -/
def ofBinary (m : Nat) (q : Int) : Float :=
  let length : Int := m.log2
  if m = 0 ∨ q + length < -1200 then 0.0
  else if 1200 < q + length then 1.0 / 0.0
  else Binary64.nearestBinary m q

/-- Reads an unsigned hexadecimal number behind its `0x`. It needs an exponent. -/
def readHex (s : Text) : Option Float :=
  let (m, rest) := readMantissa true {} s
  match readExponent 112 rest with
  | some (some e) => if m.any then some (ofBinary m.value (e - 4 * m.places)) else none
  | _ => none

/-- Reads an unsigned decimal number. -/
def readDecimal (s : Text) : Option Float :=
  let (m, rest) := readMantissa false {} s
  match readExponent 101 rest with
  | some e => if m.any then some (ofDecimal m.value (e.getD 0 - m.places)) else none
  | none => none

/-- Reads an unsigned number. -/
def readMagnitude (s : Text) : Option Float :=
  if underscoresAllowed s then
    match s with
    | 48 :: x :: b :: rest =>
      if Text.lowerByte x = 120 then readHex (b :: rest) else readDecimal s
    | _ => readDecimal s
  else none

/-- Reads a text as a floating-point number. -/
def readFloat (s : Text) : Except Fault Float :=
  let (negative, magnitude) := signOf s
  let name := Text.lower magnitude
  if name = "inf" ∨ name = "infinity" then .ok (Binary64.signed negative (1.0 / 0.0))
  else if Text.lower s = "nan" then .ok (0.0 / 0.0)
  else
    match readMagnitude magnitude with
    | none => .error .malformed
    | some x => if x.isInf then .error .outOfRange else .ok (Binary64.signed negative x)

/-- The message of a text that could not be read as a floating-point number. -/
def failure (s : Text) (f : Fault) : Text :=
  "strconv.ParseFloat: parsing " ++ Text.quoted s ++ ": " ++ f.message

end Offside.NumberText
