import Offside.Text.Basic
import Offside.Number.Binary64

/-!
# Shortest decimals

The decimal with the fewest digits that lies nearer to a floating-point number than to any other, and
of several such the nearest. A tie goes to the even digit. The search goes through the grids of one,
two, up to seventeen digits; on each only the two neighbours of the number can do.
-/

namespace Offside

-- The power of the core library, also where Mathlib's is at hand.
attribute [local instance (high)] instPowNat

/-- A positive decimal, `digits · 10 ^ exponent`. -/
structure Decimal where
  digits : Nat
  exponent : Int
deriving Repr, DecidableEq

namespace Decimal

/-- How often `n < d` has to be multiplied by 10 to reach `d`, at most `fuel` times. -/
def leadingZeros : (fuel n d : Nat) → Nat
  | 0, _, _ => 0
  | fuel + 1, n, d => if d ≤ n then 0 else leadingZeros fuel (10 * n) d + 1

/-- The exponent of the first digit of `n / d`. -/
def magnitude (n d : Nat) : Int :=
  if d ≤ n then ((Nat.toDigits 10 (n / d)).length : Int) - 1 else -(leadingZeros 400 n d : Int)

/-- Removes zeros at the end of the digits. -/
def trimmed : (fuel : Nat) → Decimal → Decimal
  | 0, d => d
  | fuel + 1, d =>
    if d.digits % 10 = 0 then trimmed fuel ⟨d.digits / 10, d.exponent + 1⟩ else d

/-- The decimal on the grid of step `10 ^ e` that reads back as `m · 2 ^ q`, if there is one. -/
def onGrid? (m : Nat) (q e : Int) : Option Decimal :=
  let value := 4 * m
  let low := if m = 2 ^ (52 : Nat) ∧ -1074 < q then value - 1 else value - 2
  let high := value + 2
  let step := 10 ^ e.toNat * 2 ^ (2 - q).toNat
  let unit := 2 ^ (q - 2).toNat * 10 ^ (-e).toNat
  let inside (d : Nat) : Bool :=
    if m % 2 = 0 then low * unit ≤ d * step ∧ d * step ≤ high * unit
    else low * unit < d * step ∧ d * step < high * unit
  let below := value * unit / step
  let above := below + 1
  let nearer : Nat :=
    let toBelow := value * unit - below * step
    let toAbove := above * step - value * unit
    if toBelow < toAbove then below
    else if toAbove < toBelow then above
    else if below % 2 = 0 then below else above
  let farther := if nearer = below then above else below
  if inside nearer then some ⟨nearer, e⟩
  else if inside farther then some ⟨farther, e⟩
  else none

/-- Goes through the grids whose steps are `10 ^ e`, `10 ^ (e - 1)`, and so on. -/
def searchFrom (m : Nat) (q : Int) : (fuel : Nat) → (e : Int) → Decimal
  | 0, e => ⟨m, e⟩
  | fuel + 1, e => (onGrid? m q e).getD (searchFrom m q fuel (e - 1))

/-- The shortest decimal of `m · 2 ^ q`, for a positive `m`. -/
def shortest (m : Nat) (q : Int) : Decimal :=
  let e := magnitude (m * 2 ^ q.toNat) (2 ^ (-q).toNat)
  (searchFrom m q 18 e).trimmed 20

/-- A run of zeros. -/
def zeros (n : Nat) : Text := Text.repeated "0" n

/-- How a decimal is written: with an exponent if that of its first digit is less than `lowest` or
more than `highest`, and then with so many digits of it at least. -/
structure Notation where
  lowest : Int
  highest : Int
  exponentDigits : Nat
deriving Repr, DecidableEq

/-- The notation of values: written out from 0.0001 up to 999999. -/
def Notation.values : Notation := ⟨-4, 5, 2⟩

/-- The notation of documents: written out from 0.000001 to below 10 ^ 21. -/
def Notation.documents : Notation := ⟨-6, 20, 1⟩

/-- An exponent, with a sign and at least so many digits. -/
def exponentText (width : Nat) (x : Int) : Text :=
  let digits := Text.ofNat x.natAbs
  let mark : Text := if x < 0 then "e-" else "e+"
  mark ++ zeros (width - digits.length) ++ digits

/-- The text of a positive decimal. -/
def text (style : Notation) (d : Decimal) : Text :=
  let digits := Text.ofNat d.digits
  let first := d.exponent + digits.length - 1
  if first < style.lowest ∨ style.highest < first then
    let fraction : Text := if digits.length ≤ 1 then [] else "." ++ digits.drop 1
    digits.take 1 ++ fraction ++ exponentText style.exponentDigits first
  else if first < 0 then "0." ++ zeros (-first - 1).toNat ++ digits
  else if 0 ≤ d.exponent then digits ++ zeros d.exponent.toNat
  else digits.take (first + 1).toNat ++ "." ++ digits.drop (first + 1).toNat

end Decimal

/-- The text of a finite floating-point number: its shortest decimal. -/
def finiteText (style : Decimal.Notation) (negative : Bool) (m : Nat) (q : Int) : Text :=
  let sign : Text := if negative then "-" else []
  let magnitude : Text := if m = 0 then "0" else (Decimal.shortest m q).text style
  sign ++ magnitude

/-- The text of a floating-point number: its shortest decimal, or the name of what is not finite. -/
def floatText (x : Float) : Text :=
  match Binary64.ofFloat x with
  | .nan => "NaN"
  | .infinite negative => if negative then "-Inf" else "+Inf"
  | .finite negative m q => finiteText .values negative m q

end Offside
