import Mathlib.Tactic.Linarith
import Mathlib.Tactic.Ring
import Offside.Proofs.Value.Words

/-!
# Powers of integers

A power is computed by squaring, in words of 64 bits, and given up as soon as a product of two words does not fit
into one. Squares are computed ahead of the products that need them, so it has to be shown that nothing is given up
too early: a square or a product that does not fit has no power behind it that does. The only way back would be from
`2 ^ 63` to `-2 ^ 63`, and `2 ^ 63` is no square. Main statement: the power of two integers is an integer, and then
the exact one, just when the exact one has 64 bits (`power_exact`).
-/

namespace Offside

namespace NumberText

/-! ## What does not fit does not fit later -/

/-- What does not fit does not fit any better as a part of a larger product. -/
theorem not_fits_mul {n q : Int} (h : ¬Fits n) (hq : 1 ≤ q) : ¬Fits (n * q) := by
  rintro ⟨hlow, hhigh⟩
  refine h ⟨?_, ?_⟩
  · by_contra hn
    nlinarith
  · by_contra hn
    nlinarith

theorem mul_self_ne (m : Int) : m * m ≠ 2 ^ 63 := by
  intro hm
  -- the root lies strictly between two neighbours
  have hroot : -3037000500 < m ∧ m < 3037000500 := by constructor <;> nlinarith
  have hroot' : m < -3037000499 ∨ 3037000499 < m := by
    by_contra hle
    rw [not_or] at hle
    nlinarith
  omega

/-- A square that does not fit leaves no room for a multiple that does, whatever its sign. -/
theorem not_fits_mul_square {r b : Int} (h : ¬Fits (b * b)) (hr : r ≠ 0) {k : Nat} (hk : k ≠ 0) :
    ¬Fits (r * (b * b) ^ k) := by
  have hb : 2 ^ 63 ≤ b * b := by
    by_contra hlt
    exact h ⟨by nlinarith, by omega⟩
  obtain ⟨m, hm⟩ : ∃ m, (b * b) ^ k = m * m := ⟨b ^ k, mul_pow b b k⟩
  have hpow : b * b ≤ (b * b) ^ k := le_self_pow₀ (by omega) hk
  have hne := mul_self_ne m
  rintro ⟨hlow, hhigh⟩
  rcases lt_or_gt_of_ne hr with hneg | hpos
  · nlinarith [lt_of_le_of_ne (hb.trans (hm ▸ hpow)) hne.symm]
  · nlinarith

end NumberText

namespace Value

open NumberText

/-- The last bit of the exponent asks for one factor, and the other bits for the square of the base. -/
theorem pow_by_square (b : Int) (e : Nat) : b ^ e = b ^ (e % 2) * (b * b) ^ (e / 2) := by
  rw [← pow_two, ← pow_mul, ← pow_add, Nat.mod_add_div]

/-- A product is zero only if the base is: what is true of the first product, 1, stays true. -/
def Nonzero (result base : Int) : Prop := result = 0 → base = 0

theorem Nonzero.mul_pow {result base : Int} (h : Nonzero result base) (k : Nat) : Nonzero (result * base ^ k) base := by
  intro hzero
  rcases mul_eq_zero.1 hzero with hresult | hpow
  · exact h hresult
  · exact eq_zero_of_pow_eq_zero hpow

/-- One bit of the exponent: a factor if it is set, and the square for the bits above it, if there are any. -/
theorem powerFrom?_succ (fuel : Nat) (result base : Int64) (exponent : Nat) :
    powerFrom? (fuel + 1) result base exponent =
      (fit64 (result.toInt * base.toInt ^ (exponent % 2))).bind fun next =>
        if exponent / 2 = 0 then some next
        else (fit64 (base.toInt * base.toInt)).bind fun square => powerFrom? fuel next square (exponent / 2) := by
  rw [← times?_eq base base]
  rcases Nat.mod_two_eq_zero_or_one exponent with heven | hodd
  · rw [powerFrom?, heven, if_neg (by decide), pow_zero, mul_one, fit64_toInt]
    rfl
  · rw [powerFrom?, hodd, if_pos rfl, pow_one, ← times?_eq]
    rfl

/-- By squaring, the power is found if it fits, and nothing is found if it does not. The induction is on the bits of
the exponent. -/
theorem powerFrom?_eq {fuel exponent : Nat} {result base : Int64} (hpos : fuel ≠ 0) (hfuel : exponent < 2 ^ fuel)
    (hzero : Nonzero result.toInt base.toInt) :
    powerFrom? fuel result base exponent = fit64 (result.toInt * base.toInt ^ exponent) := by
  induction fuel generalizing result base exponent with
  | zero => exact absurd rfl hpos
  | succ fuel ih =>
    rw [powerFrom?_succ, pow_by_square base.toInt exponent, ← mul_assoc]
    have hzero' := hzero.mul_pow (exponent % 2)
    cases hfit : fit64 (result.toInt * base.toInt ^ (exponent % 2)) with
    | none =>
      have hlarge := fit64_eq_none hfit
      have hbase : base.toInt ≠ 0 := by
        intro hbase
        rcases Nat.mod_two_eq_zero_or_one exponent with heven | hodd
        · rw [heven, pow_zero, mul_one] at hlarge
          exact hlarge (fits_toInt result)
        · rw [hodd, pow_one, hbase, mul_zero] at hlarge
          exact hlarge (by decide)
      -- the factors still to come are squares, so they are at least 1
      have hsquare : 1 ≤ base.toInt * base.toInt := Int.add_one_le_of_lt (mul_self_pos.2 hbase)
      exact (fit64_of_not_fits (not_fits_mul hlarge (one_le_pow₀ hsquare))).symm
    | some next =>
      have hnext := fit64_eq_some hfit
      rw [← hnext] at hzero' ⊢
      rw [Option.bind_some]
      split
      · next hlast => rw [hlast, pow_zero, mul_one, fit64_toInt]
      · next hmore =>
        cases hsquare : fit64 (base.toInt * base.toInt) with
        | none =>
          have hlarge := fit64_eq_none hsquare
          have hne : next.toInt ≠ 0 := by
            intro h
            rw [hzero' h] at hlarge
            exact hlarge (by decide)
          exact (fit64_of_not_fits (not_fits_mul_square hlarge hne hmore)).symm
        | some square =>
          have heq := fit64_eq_some hsquare
          have hbits : exponent / 2 < 2 ^ fuel := by
            rw [pow_succ] at hfuel
            omega
          have hfuel' : fuel ≠ 0 := by
            rintro rfl
            omega
          rw [Option.bind_some, ← heq]
          exact ih hfuel' hbits fun h => by rw [heq, hzero' h, mul_zero]

/-- The power of an integer is found just when it fits. -/
theorem powerInt?_eq (base : Int64) {exponent : Nat} (h : exponent < 2 ^ 64) :
    powerInt? base exponent = fit64 (base.toInt ^ exponent) := by
  have hone : Nonzero (1 : Int64).toInt base.toInt := fun h => absurd h (by decide)
  have hpower := powerFrom?_eq (by decide) h hone
  rwa [Int64.toInt_one, one_mul] at hpower

/-- The power of two integers, the second of which is not negative, is an integer just when the exact power has 64
bits. Then it is the exact power. Otherwise it is computed in floating point. -/
theorem power_exact (b e : Int64) (he : 0 ≤ e.toInt) :
    (-2 ^ 63 ≤ b.toInt ^ e.toInt.toNat ∧ b.toInt ^ e.toInt.toNat ≤ 2 ^ 63 - 1 →
      ∃ n : Int64, n.toInt = b.toInt ^ e.toInt.toNat ∧
        powerInt? b e.toInt.toNat = some n ∧ power (.int b) (.int e) = .ok (.int n)) ∧
    (¬(-2 ^ 63 ≤ b.toInt ^ e.toInt.toNat ∧ b.toInt ^ e.toInt.toNat ≤ 2 ^ 63 - 1) →
      powerInt? b e.toInt.toNat = Option.none ∧
        power (.int b) (.int e) = .ok (.float (Float.pow b.toFloat e.toFloat))) := by
  generalize hk : e.toInt.toNat = k
  have hint : powerInt? b k = fit64 (b.toInt ^ k) := powerInt?_eq b (by have := e.toInt_lt; omega)
  have hvalue : power (.int b) (.int e) = .ok (exactOr (powerInt? b k) (Float.pow b.toFloat e.toFloat)) := by
    change Except.ok (exactOr (if 0 ≤ e.toInt then powerInt? b e.toInt.toNat else Option.none) _) = _
    rw [if_pos he, hk]
  constructor
  · intro hfits
    have hpower : powerInt? b k = some (Int64.ofInt (b.toInt ^ k)) := by rw [hint, fit64_of_fits hfits]
    exact ⟨_, toInt_ofInt hfits, hpower, by rw [hvalue, hpower, exactOr]⟩
  · intro hlarge
    have hpower : powerInt? b k = Option.none := by rw [hint, fit64_of_not_fits hlarge]
    exact ⟨hpower, by rw [hvalue, hpower, exactOr]⟩

/-- The least integer is a power, and its opposite is one integer too far. -/
theorem power_exact_edges :
    0 ≤ (63 : Int64).toInt ∧
    (∃ n : Int64, n.toInt = -2 ^ 63 ∧ powerInt? (-2) 63 = some n ∧ power (.int (-2)) (.int 63) = .ok (.int n)) ∧
    powerInt? 2 63 = Option.none ∧
      power (.int 2) (.int 63) = .ok (.float (Float.pow (2 : Int64).toFloat (63 : Int64).toFloat)) :=
  ⟨by decide, (power_exact (-2) 63 (by decide)).1 (by decide), (power_exact 2 63 (by decide)).2 (by decide)⟩

end Value

end Offside
