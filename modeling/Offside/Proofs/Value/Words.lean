import Mathlib.Tactic.Linarith
import Mathlib.Algebra.Order.Ring.Int
import Offside.Value.Arithmetic

/-!
# Words of 64 bits and their products

An integer of 64 bits is a word. Words are multiplied by their distances from zero: the product of these has up to
128 bits, and whether it fits into a word depends on its sign. Main statement: the product of two words is found
just when it fits (`times?_eq`).
-/

namespace Offside

namespace NumberText

/-- The integers that have 64 bits. -/
def Fits (n : Int) : Prop := -2 ^ 63 ≤ n ∧ n ≤ 2 ^ 63 - 1

instance (n : Int) : Decidable (Fits n) := inferInstanceAs (Decidable (_ ∧ _))

theorem fits_toInt (w : Int64) : Fits w.toInt := by
  have hlow := w.le_toInt
  have hhigh := w.toInt_lt
  constructor <;> omega

theorem fit64_of_fits {n : Int} (h : Fits n) : fit64 n = some (Int64.ofInt n) := if_pos ⟨h.1, by have := h.2; omega⟩

theorem fit64_of_not_fits {n : Int} (h : ¬Fits n) : fit64 n = none :=
  if_neg fun hn => h ⟨hn.1, by have := hn.2; omega⟩

theorem toInt_ofInt {n : Int} (h : Fits n) : (Int64.ofInt n).toInt = n :=
  Int64.toInt_ofInt_of_le h.1 (by have := h.2; omega)

theorem fit64_toInt (w : Int64) : fit64 w.toInt = some w := by
  rw [fit64_of_fits (fits_toInt w), Int64.ofInt_toInt]

theorem fit64_eq_some {n : Int} {w : Int64} (h : fit64 n = some w) : w.toInt = n := by
  by_cases hn : Fits n
  · rw [fit64_of_fits hn, Option.some.injEq] at h
    rw [← h, toInt_ofInt hn]
  · rw [fit64_of_not_fits hn] at h
    cases h

theorem fit64_eq_none {n : Int} (h : fit64 n = none) : ¬Fits n := by
  intro hn
  rw [fit64_of_fits hn] at h
  cases h

end NumberText

namespace Value

open NumberText

/-! ## Signed and unsigned words -/

theorem toNat_magnitude (n : Int64) : (magnitude n).toNat = n.toInt.natAbs := by
  have hbound := n.toBitVec.isLt
  unfold magnitude
  split
  · next h =>
    rw [Int64.lt_iff_toInt_lt] at h
    simp only [Int64.toInt, UInt64.toNat, Int64.toBitVec_toUInt64, Int64.toBitVec_neg, BitVec.toInt_eq_toNat_cond,
      BitVec.toNat_neg] at h ⊢
    simp at h
    omega
  · next h =>
    rw [Int64.lt_iff_toInt_lt] at h
    simp only [Int64.toInt, UInt64.toNat, Int64.toBitVec_toUInt64, BitVec.toInt_eq_toNat_cond] at h ⊢
    simp at h
    omega

theorem toInt_toInt64 {w : UInt64} (h : w.toNat < 2 ^ 63) : w.toInt64.toInt = w.toNat := by
  have hword : w.toBitVec.toNat = w.toNat := rfl
  rw [Int64.toInt, UInt64.toBitVec_toInt64, BitVec.toInt_eq_toNat_cond, hword]
  omega

theorem toInt_neg_toInt64 {w : UInt64} (h : w.toNat ≤ 2 ^ 63) : (-w).toInt64.toInt = -w.toNat := by
  have hword : w.toBitVec.toNat = w.toNat := rfl
  rw [Int64.toInt, UInt64.toBitVec_toInt64, UInt64.toBitVec_neg, BitVec.toInt_eq_toNat_cond, BitVec.toNat_neg, hword]
  omega

/-- The high word of a product says whether the low word is all of it. -/
theorem wideProduct_cases (a b : UInt64) :
    ((wideProduct a b).1 ≠ 0 ↔ 2 ^ 64 ≤ a.toNat * b.toNat) ∧
      (wideProduct a b).2.toNat = a.toNat * b.toNat % 2 ^ 64 := by
  have ha := a.toNat_lt
  have hb := b.toNat_lt
  have hwide : a.toNat * b.toNat < 2 ^ 64 * 2 ^ 64 := Nat.mul_lt_mul'' ha hb
  refine ⟨?_, UInt64.toNat_ofNat'⟩
  rw [Ne, ← UInt64.toNat_inj]
  simp only [wideProduct, UInt64.toNat_ofNat', UInt64.toNat_zero]
  omega

theorem mul_of_same_sign {a b : Int} (h : a < 0 ↔ b < 0) : a * b = (a.natAbs * b.natAbs : Nat) := by
  rw [← Int.natAbs_mul, Int.natAbs_of_nonneg]
  by_cases ha : a < 0
  · exact mul_nonneg_of_nonpos_of_nonpos (Int.le_of_lt ha) (Int.le_of_lt (h.1 ha))
  · exact mul_nonneg (Int.not_lt.1 ha) (Int.not_lt.1 (mt h.2 ha))

theorem mul_of_other_sign {a b : Int} (h : ¬(a < 0 ↔ b < 0)) : a * b = -(a.natAbs * b.natAbs : Nat) := by
  rw [← Int.natAbs_mul, ← Int.natAbs_neg, Int.natAbs_of_nonneg, Int.neg_neg]
  by_cases ha : a < 0
  · have hb : 0 ≤ b := by
      by_contra hb
      exact h ⟨fun _ => Int.not_le.1 hb, fun _ => ha⟩
    exact Int.neg_nonneg_of_nonpos (mul_nonpos_of_nonpos_of_nonneg (Int.le_of_lt ha) hb)
  · have hb : b < 0 := by
      by_contra hb
      exact h ⟨fun h => absurd h ha, fun h => absurd h hb⟩
    exact Int.neg_nonneg_of_nonpos (mul_nonpos_of_nonneg_of_nonpos (Int.not_lt.1 ha) (Int.le_of_lt hb))

/-- The product of two words is found just when it fits. -/
theorem times?_eq (l r : Int64) : times? l r = fit64 (l.toInt * r.toInt) := by
  unfold times?
  split
  · next hzero =>
    have hproduct : l.toInt * r.toInt = 0 := by
      rcases hzero with rfl | rfl
      · exact Int.zero_mul _
      · exact Int.mul_zero _
    rw [hproduct]
    rfl
  · obtain ⟨hhigh, hlow⟩ := wideProduct_cases (magnitude l) (magnitude r)
    rw [toNat_magnitude, toNat_magnitude] at hhigh hlow
    have hsign : (l < 0 ↔ r < 0) ↔ (l.toInt < 0 ↔ r.toInt < 0) := by
      rw [Int64.lt_iff_toInt_lt, Int64.lt_iff_toInt_lt]
      rfl
    generalize wideProduct (magnitude l) (magnitude r) = product at hhigh hlow ⊢
    obtain ⟨high, low⟩ := product
    dsimp only at hhigh hlow ⊢
    split
    · next h =>
      have hwide := hhigh.1 h
      refine (fit64_of_not_fits fun hfits => ?_).symm
      by_cases hsame : l.toInt < 0 ↔ r.toInt < 0
      · rw [mul_of_same_sign hsame] at hfits
        unfold Fits at hfits
        omega
      · rw [mul_of_other_sign hsame] at hfits
        unfold Fits at hfits
        omega
    · next h =>
      have hwide := mt hhigh.2 h
      rw [Nat.mod_eq_of_lt (Nat.not_le.1 hwide)] at hlow
      split
      · next hsame =>
        rw [mul_of_same_sign (hsign.1 hsame), ← hlow]
        split
        · next hlarge =>
          refine (fit64_of_not_fits fun hfits => ?_).symm
          unfold Fits at hfits
          omega
        · next hsmall =>
          rw [← toInt_toInt64 (Nat.not_le.1 hsmall), fit64_toInt]
      · next hother =>
        rw [mul_of_other_sign (mt hsign.2 hother), ← hlow]
        split
        · next hlarge =>
          refine (fit64_of_not_fits fun hfits => ?_).symm
          unfold Fits at hfits
          omega
        · next hsmall =>
          rw [← toInt_neg_toInt64 (Nat.not_lt.1 hsmall), fit64_toInt]

end Value

end Offside
