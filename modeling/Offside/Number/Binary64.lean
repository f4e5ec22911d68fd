import Offside.Text.Basic

/-!
# Binary floating-point numbers

A finite number is `m · 2 ^ q` with a sign, where `m` is a natural number below `2 ^ 53`. What the
arithmetic of the processor does not offer is computed on `m` and `q` exactly.
-/

namespace Offside

-- The power of the core library, also where Mathlib's is at hand.
attribute [local instance (high)] instPowNat

/-- What a floating-point number is. -/
inductive Binary64 where
  | finite (negative : Bool) (m : Nat) (q : Int)
  | infinite (negative : Bool)
  | nan
deriving Repr, DecidableEq

namespace Binary64

/-- Takes a number apart. -/
def ofFloat (x : Float) : Binary64 :=
  let bits := x.toBits.toNat
  let negative := 2 ^ (63 : Nat) ≤ bits
  let exponent : Nat := bits / 2 ^ (52 : Nat) % 2 ^ (11 : Nat)
  let fraction := bits % 2 ^ (52 : Nat)
  if exponent = 2047 then if fraction = 0 then .infinite negative else .nan
  else if exponent = 0 then .finite negative fraction (-1074)
  else .finite negative (2 ^ (52 : Nat) + fraction) ((exponent : Int) - 1075)

/-- The number nearest to `m · 10 ^ e`, ties going to the even one. -/
def nearestDecimal (m : Nat) (e : Int) : Float :=
  if e < 0 then Float.ofScientific m true e.natAbs else Float.ofScientific m false e.toNat

/-- The number nearest to `m · 2 ^ q`, ties going to the even one. -/
def nearestBinary (m : Nat) (q : Int) : Float :=
  if q < 0 then nearestDecimal (m * 5 ^ q.natAbs) q else nearestDecimal (m * 2 ^ q.toNat) 0

/-- A number with a sign put before it. -/
def signed (negative : Bool) (x : Float) : Float := if negative then -x else x

/-- The remainder of `x` by `y` that has the sign of `x` and is smaller than `y`. -/
def remainder (x y : Float) : Float :=
  match ofFloat x, ofFloat y with
  | .finite negative mx qx, .finite _ my qy =>
    let q := min qx qy
    let mx := mx * 2 ^ (qx - q).toNat
    let my := my * 2 ^ (qy - q).toNat
    if my = 0 then 0.0 / 0.0 else signed negative (nearestBinary (mx % my) q)
  | .finite .., .infinite _ => x
  | _, _ => 0.0 / 0.0

end Binary64

end Offside
