import Offside.Number.Shortest

/-!
# Rounded decimals

The decimal with a given number of places, or of digits, that is nearest to a floating-point number.
A tie goes to the even digit.
-/

namespace Offside.Decimal

-- The power of the core library, also where Mathlib's is at hand.
attribute [local instance (high)] instPowNat

/-- The integer nearest to `n / d`, ties going to the even one. -/
def roundDiv (n d : Nat) : Nat :=
  let below := n / d
  let twice := 2 * (n % d)
  if twice < d ∨ (twice = d ∧ below % 2 = 0) then below else below + 1

/-- The decimal nearest to `m · 2 ^ q` on the grid of step `10 ^ e`. -/
def nearestOn (m : Nat) (q e : Int) : Decimal :=
  ⟨roundDiv (m * 2 ^ q.toNat * 10 ^ (-e).toNat) (2 ^ (-q).toNat * 10 ^ e.toNat), e⟩

/-- The decimal of so many digits nearest to `m · 2 ^ q`, for positive `m` and a positive number of
digits. -/
def withDigits (m : Nat) (q : Int) (digits : Nat) : Decimal :=
  let first := magnitude (m * 2 ^ q.toNat) (2 ^ (-q).toNat)
  let d := nearestOn m q (first + 1 - digits)
  if d.digits = 10 ^ digits then ⟨10 ^ (digits - 1), d.exponent + 1⟩ else d

/-- The text of `m · 2 ^ q` with so many places behind the point. -/
def fixedText (m : Nat) (q : Int) (places : Nat) : Text :=
  let digits := Text.ofNat (nearestOn m q (-places)).digits
  let digits := zeros (places + 1 - digits.length) ++ digits
  let whole := digits.length - places
  if places = 0 then digits else digits.take whole ++ "." ++ digits.drop whole

/-- The text of `m · 2 ^ q` with an exponent, one digit before the point and so many behind it. -/
def scientificText (m : Nat) (q : Int) (places : Nat) : Text :=
  let d : Decimal := if m = 0 then ⟨0, -places⟩ else withDigits m q (places + 1)
  let digits := Text.ofNat d.digits
  let digits := digits ++ zeros (places + 1 - digits.length)
  let fraction : Text := if places = 0 then [] else "." ++ digits.drop 1
  digits.take 1 ++ fraction ++ exponentText 2 (d.exponent + places)

/-- The text of `m · 2 ^ q` with so many digits at most, written out unless its exponent is small or
has reached the number of digits. -/
def generalText (m : Nat) (q : Int) (digits : Nat) : Text :=
  if m = 0 then "0"
  else
    let d := (withDigits m q digits).trimmed digits
    let length := (Text.ofNat d.digits).length
    let limit := if length < digits ∧ d.exponent ≤ 0 then length else digits
    d.text ⟨-4, (limit : Int) - 1, 2⟩

end Offside.Decimal
