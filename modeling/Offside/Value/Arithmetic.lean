import Offside.Value.Basic

/-!
# Arithmetic

Operations on two integers give an integer when the exact result has 64 bits, and else compute in
floating point. An integer beside a floating-point number counts as one. Strings and lists can be
added, and strings compared; other operands are reported.
-/

namespace Offside.Value

-- The power of the core library, also where Mathlib's is at hand.
attribute [local instance (high)] instPowNat

/-- Two numbers of one type. -/
inductive Pair where
  | ints (l r : Int64)
  | floats (l r : Float)
deriving Repr

/-- Two values as numbers of one type. -/
def numbers? : Value → Value → Option Pair
  | int l, int r => some (.ints l r)
  | int l, float r => some (.floats l.toFloat r)
  | float l, int r => some (.floats l r.toFloat)
  | float l, float r => some (.floats l r)
  | _, _ => Option.none

/-- The report for operands that the operator does not take. -/
def unsupported (op : Text) (a b : Value) : Diagnostic :=
  .typeError ("unsupported operand type(s) for " ++ op ++ ": '" ++ a.typeName ++ "' and '" ++
    b.typeName ++ "'")

/-- An operation by its operands: integers, floating-point numbers, and any others. -/
def onNumbers {α : Type} (ints : Int64 → Int64 → Except Diagnostic α) (floats : Float → Float → Except Diagnostic α)
    (others : Value → Value → Except Diagnostic α) (a b : Value) : Except Diagnostic α :=
  match numbers? a b with
  | some (.ints l r) => ints l r
  | some (.floats l r) => floats l r
  | Option.none => others a b

/-- An operation that takes numbers only. -/
def arithmetic (op : Text) (ints : Int64 → Int64 → Except Diagnostic Value)
    (floats : Float → Float → Except Diagnostic Value) : Value → Value → Except Diagnostic Value :=
  onNumbers ints floats fun a b => .error (unsupported op a b)

/-- The result of a division, unless the divisor is zero. -/
def unlessZero (operation : Text) (isZero : Prop) [Decidable isZero] (result : Value) : Except Diagnostic Value :=
  if isZero then .error (.zeroDivisionError operation) else .ok result

/-- The integer if there is one, else the floating-point number. -/
def exactOr (exact : Option Int64) (inexact : Float) : Value :=
  match exact with
  | some n => int n
  | Option.none => float inexact

/-- The sum if it has 64 bits. One that has more wraps around to a sign that neither operand has. -/
def plus? (l r : Int64) : Option Int64 :=
  let sum := l + r
  if 0 ≤ (l ^^^ sum) &&& (r ^^^ sum) then some sum else Option.none

/-- Addition of numbers, strings or lists. -/
def add : Value → Value → Except Diagnostic Value :=
  onNumbers (fun l r => .ok (exactOr (plus? l r) (l.toFloat + r.toFloat))) (fun l r => .ok (float (l + r))) fun
    | str s, str t => .ok (str (s ++ t))
    | list xs, list ys => .ok (list (xs ++ ys))
    | a, b => .error (unsupported "+" a b)

/-- The difference if it has 64 bits. One that has more is of operands with different signs, and wraps
around to that of the second. -/
def minus? (l r : Int64) : Option Int64 :=
  let difference := l - r
  if 0 ≤ (l ^^^ r) &&& (l ^^^ difference) then some difference else Option.none

/-- Subtraction. -/
def subtract : Value → Value → Except Diagnostic Value :=
  arithmetic "-" (fun l r => .ok (exactOr (minus? l r) (l.toFloat - r.toFloat))) fun l r => .ok (float (l - r))

/-- The distance of an integer from zero, as an unsigned word. -/
def magnitude (n : Int64) : UInt64 := if n < 0 then (-n).toUInt64 else n.toUInt64

/-- The high and the low word of the product of two words. -/
def wideProduct (a b : UInt64) : UInt64 × UInt64 :=
  let wide := a.toNat * b.toNat
  (UInt64.ofNat (wide / 2 ^ (64 : Nat)), UInt64.ofNat wide)

/-- The product if it has 64 bits. There is one more number of 64 bits below zero than above it. -/
def times? (l r : Int64) : Option Int64 :=
  if l = 0 ∨ r = 0 then some 0
  else
    let (high, low) := wideProduct (magnitude l) (magnitude r)
    if high ≠ 0 then Option.none
    else if l < 0 ↔ r < 0 then if 2 ^ (63 : Nat) ≤ low.toNat then Option.none else some low.toInt64
    else if 2 ^ (63 : Nat) < low.toNat then Option.none else some (-low).toInt64

/-- Multiplication. -/
def multiply : Value → Value → Except Diagnostic Value :=
  arithmetic "*" (fun l r => .ok (exactOr (times? l r) (l.toFloat * r.toFloat))) fun l r => .ok (float (l * r))

/-- The quotient by a number other than 0, if there is no remainder and the quotient has 64 bits. Only
the opposite of the least number has more. -/
def quotient? (l r : Int64) : Option Int64 :=
  if l = Int64.minValue ∧ r = -1 then Option.none
  else if l % r = 0 then some (l / r)
  else Option.none

/-- Division. Of integers it is exact when there is no remainder. -/
def divide : Value → Value → Except Diagnostic Value :=
  arithmetic "/" (fun l r => unlessZero "division" (r = 0) (exactOr (quotient? l r) (l.toFloat / r.toFloat)))
    fun l r => unlessZero "division" (r == 0) (float (l / r))

/-- Remainder, with the sign of the first operand. -/
def modulo : Value → Value → Except Diagnostic Value :=
  arithmetic "%" (fun l r => unlessZero "modulo" (r = 0) (int (l % r)))
    fun l r => unlessZero "modulo" (r == 0) (float (Binary64.remainder l r))

/-- `result · base ^ exponent` by squaring, if it has 64 bits; the exponent has at most `fuel` bits. -/
def powerFrom? : (fuel : Nat) → (result base : Int64) → (exponent : Nat) → Option Int64
  | 0, _, _, _ => Option.none
  | fuel + 1, result, base, exponent => do
    let result ← if exponent % 2 = 1 then times? result base else some result
    if exponent / 2 = 0 then some result
    else powerFrom? fuel result (← times? base base) (exponent / 2)

/-- The power of an integer if it has 64 bits. -/
def powerInt? (base : Int64) (exponent : Nat) : Option Int64 := powerFrom? 64 1 base exponent

/-- Power. Of integers it is exact when the exponent is not negative and the result has 64 bits. -/
def power : Value → Value → Except Diagnostic Value :=
  arithmetic "**"
    (fun l r =>
      let exact := if 0 ≤ r.toInt then powerInt? l r.toInt.toNat else Option.none
      .ok (exactOr exact (Float.pow l.toFloat r.toFloat)))
    fun l r => .ok (float (Float.pow l r))

/-- How a text stands to another in bytewise order. -/
def compareText (s t : Text) : Ordering :=
  if s = t then .eq else if Text.le s t then .lt else .gt

/-- How two numbers or two strings stand to each other. Not-a-number stands level with every
number. `op` is named when the operands cannot be compared. -/
def order (op : Text) : Value → Value → Except Diagnostic Ordering :=
  onNumbers (fun l r => .ok (if l.toInt < r.toInt then .lt else if r.toInt < l.toInt then .gt else .eq))
    (fun l r => .ok (if l < r then .lt else if r < l then .gt else .eq)) fun
    | str s, str t => .ok (compareText s t)
    | a, b =>
      .error (.typeError ("'" ++ op ++ "' not supported between instances of '" ++ a.typeName ++
        "' and '" ++ b.typeName ++ "'"))

/-- The opposite if it has 64 bits. -/
def opposite? (n : Int64) : Option Int64 := if n = Int64.minValue then Option.none else some (-n)

/-- Negation. -/
def negate : Value → Except Diagnostic Value
  | int n => .ok (exactOr (opposite? n) (-n.toFloat))
  | float x => .ok (float (-x))
  | v => .error (.typeError ("bad operand type for unary -: '" ++ v.typeName ++ "'"))

end Offside.Value
