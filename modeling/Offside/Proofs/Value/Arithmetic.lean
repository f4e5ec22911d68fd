import Offside.Proofs.Value.Words

/-!
# Integer arithmetic never wraps around

Sums, differences and opposites are computed in words of 64 bits, which wrap around at both ends. Whether a sum or a
difference has done so is read off three signs at once: the bitwise exclusive or of two words is negative just when
their signs differ. A quotient wraps around in one place only, at the opposite of the least word.

Each operation on words finds the exact result just when it fits (`plus?_eq`, `minus?_eq`, `opposite?_eq`,
`quotient?_eq`, beside `times?_eq`). Main statement: `arithmetic_exact`.
-/

namespace Offside

namespace NumberText

theorem fits_iff {n : Int} : Fits n ↔ -2 ^ 63 ≤ n ∧ n ≤ 2 ^ 63 - 1 := Iff.rfl

theorem bmod_of_fits {n : Int} (h : Fits n) : n.bmod (2 ^ 64) = n := by
  rw [fits_iff] at h
  exact Int.bmod_eq_of_le (by omega) (by omega)

/-- An integer that has at most one bit too many wraps around once, or not at all. -/
theorem bmod_cases {n : Int} (hlow : -2 ^ 64 ≤ n) (hhigh : n < 2 ^ 64) :
    (-2 ^ 63 ≤ n ∧ n < 2 ^ 63 ∧ n.bmod (2 ^ 64) = n) ∨ (n < -2 ^ 63 ∧ n.bmod (2 ^ 64) = n + 2 ^ 64) ∨
      (2 ^ 63 ≤ n ∧ n.bmod (2 ^ 64) = n - 2 ^ 64) := by
  rw [Int.bmod_def]
  split <;> omega

end NumberText

namespace Value

open NumberText

/-! ## Words -/

/-- Two pairs of words are tested at once for different signs. -/
theorem signs_iff (a b c d : Int64) :
    0 ≤ (a ^^^ b) &&& (c ^^^ d) ↔ (a.toInt < 0 ↔ b.toInt < 0) ∨ (c.toInt < 0 ↔ d.toInt < 0) := by
  have hsign : 0 ≤ ((a ^^^ b) &&& (c ^^^ d)).toInt ↔ ((a ^^^ b) &&& (c ^^^ d)).toBitVec.msb = false := by
    rw [BitVec.msb_eq_toInt, decide_eq_false_iff_not, not_lt]
    rfl
  rw [Int64.le_iff_toInt_le, Int64.toInt_zero, hsign, Int64.toBitVec_and, Int64.toBitVec_xor, Int64.toBitVec_xor,
    BitVec.msb_and, BitVec.msb_xor, BitVec.msb_xor]
  simp only [BitVec.msb_eq_toInt, Int64.toInt_toBitVec]
  -- what is left says something of four signs only
  by_cases ha : a.toInt < 0 <;> by_cases hb : b.toInt < 0 <;> by_cases hc : c.toInt < 0 <;>
    by_cases hd : d.toInt < 0 <;> simp [ha, hb, hc, hd]

/-- A word that is kept only if it is exact. -/
theorem ite_eq_fit64 {c : Prop} [Decidable c] {w : Int64} {n : Int} (hw : w.toInt = n.bmod (2 ^ 64)) (hc : c ↔ Fits n) :
    (if c then some w else Option.none) = fit64 n := by
  by_cases hn : Fits n
  · rw [if_pos (hc.2 hn), ← bmod_of_fits hn, ← hw, fit64_toInt]
  · rw [if_neg (mt hc.1 hn), fit64_of_not_fits hn]

/-- The sum of two words is found just when it fits. -/
theorem plus?_eq (l r : Int64) : plus? l r = fit64 (l.toInt + r.toInt) := by
  have hl := fits_iff.1 (fits_toInt l)
  have hr := fits_iff.1 (fits_toInt r)
  have hcases := bmod_cases (n := l.toInt + r.toInt) (by omega) (by omega)
  refine ite_eq_fit64 (Int64.toInt_add l r) ?_
  rw [signs_iff, Int64.toInt_add, fits_iff]
  omega

/-- The difference of two words is found just when it fits. -/
theorem minus?_eq (l r : Int64) : minus? l r = fit64 (l.toInt - r.toInt) := by
  have hl := fits_iff.1 (fits_toInt l)
  have hr := fits_iff.1 (fits_toInt r)
  have hcases := bmod_cases (n := l.toInt - r.toInt) (by omega) (by omega)
  refine ite_eq_fit64 (Int64.toInt_sub l r) ?_
  rw [signs_iff, Int64.toInt_sub, fits_iff]
  omega

/-- The opposite of a word is found just when it fits: only that of the least word does not. -/
theorem opposite?_eq (w : Int64) : opposite? w = fit64 (-w.toInt) := by
  have hw := fits_iff.1 (fits_toInt w)
  rw [opposite?, ← ite_not]
  refine ite_eq_fit64 (Int64.toInt_neg w) ?_
  rw [← Int64.toInt_inj, Int64.toInt_minValue, fits_iff]
  omega

theorem mod_eq_zero_iff {l r : Int64} : l % r = 0 ↔ r.toInt ∣ l.toInt := by
  rw [← Int64.toInt_inj, Int64.toInt_mod, Int64.toInt_zero]
  exact ⟨Int.dvd_of_tmod_eq_zero, Int.tmod_eq_zero_of_dvd⟩

/-- The quotient of two words is found just when there is no remainder and it fits. -/
theorem quotient?_eq (l r : Int64) :
    quotient? l r = if r.toInt ∣ l.toInt then fit64 (l.toInt / r.toInt) else Option.none := by
  unfold quotient?
  by_cases hleast : l = Int64.minValue ∧ r = -1
  · -- the least word is divisible by -1, but the quotient does not fit
    obtain ⟨rfl, rfl⟩ := hleast
    decide
  · rw [if_neg hleast]
    by_cases hdvd : r.toInt ∣ l.toInt
    · have hquotient : (l / r).toInt = l.toInt / r.toInt := by
        rw [← Int.tdiv_eq_ediv_of_dvd hdvd]
        rcases not_and_or.1 hleast with hl | hr
        · exact Int64.toInt_div_of_ne_left l r hl
        · exact Int64.toInt_div_of_ne_right l r hr
      rw [if_pos (mod_eq_zero_iff.2 hdvd), if_pos hdvd, ← hquotient, fit64_toInt]
    · rw [if_neg (mt mod_eq_zero_iff.1 hdvd), if_neg hdvd]

/-! ## Values -/

/-- The result is the exact integer if that has 64 bits, and the floating-point number if it has more. -/
def Exact (result : Except Diagnostic Value) (exact : Int) (inexact : Float) : Prop :=
  (Fits exact → ∃ n : Int64, n.toInt = exact ∧ result = .ok (.int n)) ∧
    (¬Fits exact → result = .ok (.float inexact))

theorem exact_exactOr {w? : Option Int64} {n : Int} (h : w? = fit64 n) (x : Float) :
    Exact (.ok (exactOr w? x)) n x := by
  constructor
  · intro hfits
    exact ⟨Int64.ofInt n, toInt_ofInt hfits, by rw [h, fit64_of_fits hfits, exactOr]⟩
  · intro hlarge
    rw [h, fit64_of_not_fits hlarge, exactOr]

/-- The remainder of a word by another is the one of the quotient rounded towards zero. -/
theorem remainder_spec {l r : Int64} (hr : r ≠ 0) :
    l.toInt = r.toInt * l.toInt.tdiv r.toInt + (l % r).toInt ∧ (l % r).toInt.natAbs < r.toInt.natAbs ∧
      ((l % r).toInt = 0 ∨ (l % r).toInt.sign = l.toInt.sign) := by
  have hne : r.toInt ≠ 0 := by rwa [Ne, ← Int64.toInt_zero, Int64.toInt_inj]
  rw [Int64.toInt_mod]
  refine ⟨(Int.mul_tdiv_add_tmod l.toInt r.toInt).symm, ?_, ?_⟩
  · rw [Int.natAbs_tmod]
    exact Nat.mod_lt _ (Int.natAbs_pos.2 hne)
  · by_cases hdvd : r.toInt ∣ l.toInt
    · exact .inl (Int.tmod_eq_zero_of_dvd hdvd)
    · right
      rw [Int.sign_tmod, if_neg hdvd]

/-- The arithmetic of integers never wraps around. A sum, difference, product or opposite is the exact integer if that
has 64 bits, and is computed in floating point if it has more. So is a quotient without a remainder, and any other
quotient is computed in floating point. The remainder is that of the quotient rounded towards zero. A division by zero
is reported. -/
theorem arithmetic_exact (l r : Int64) :
    Exact (add (.int l) (.int r)) (l.toInt + r.toInt) (l.toFloat + r.toFloat) ∧
    Exact (subtract (.int l) (.int r)) (l.toInt - r.toInt) (l.toFloat - r.toFloat) ∧
    Exact (multiply (.int l) (.int r)) (l.toInt * r.toInt) (l.toFloat * r.toFloat) ∧
    Exact (negate (.int l)) (-l.toInt) (-l.toFloat) ∧
    (r ≠ 0 →
      (r.toInt ∣ l.toInt → Exact (divide (.int l) (.int r)) (l.toInt / r.toInt) (l.toFloat / r.toFloat)) ∧
      (¬r.toInt ∣ l.toInt → divide (.int l) (.int r) = .ok (.float (l.toFloat / r.toFloat))) ∧
      ∃ m : Int64, modulo (.int l) (.int r) = .ok (.int m) ∧
        l.toInt = r.toInt * l.toInt.tdiv r.toInt + m.toInt ∧ m.toInt.natAbs < r.toInt.natAbs ∧
        (m.toInt = 0 ∨ m.toInt.sign = l.toInt.sign)) ∧
    (r = 0 →
      divide (.int l) (.int r) = .error (.zeroDivisionError "division") ∧
      modulo (.int l) (.int r) = .error (.zeroDivisionError "modulo")) := by
  refine ⟨exact_exactOr (plus?_eq l r) _, exact_exactOr (minus?_eq l r) _, exact_exactOr (times?_eq l r) _,
    exact_exactOr (opposite?_eq l) _, fun hr => ?_, fun hr => ⟨if_pos hr, if_pos hr⟩⟩
  have hdivide : divide (.int l) (.int r) = .ok (exactOr (quotient? l r) (l.toFloat / r.toFloat)) := if_neg hr
  have hmodulo : modulo (.int l) (.int r) = .ok (.int (l % r)) := if_neg hr
  rw [hdivide]
  refine ⟨fun hdvd => ?_, fun hdvd => ?_, l % r, hmodulo, remainder_spec hr⟩
  · exact exact_exactOr (by rw [quotient?_eq, if_pos hdvd]) _
  · rw [quotient?_eq, if_neg hdvd, exactOr]

/-- The least integer divided by -1 is one integer too far, and leaves no remainder. -/
theorem arithmetic_exact_least :
    (-1 : Int64) ≠ 0 ∧ (-1 : Int64).toInt ∣ Int64.minValue.toInt ∧ ¬Fits (Int64.minValue.toInt / (-1 : Int64).toInt) ∧
      divide (.int Int64.minValue) (.int (-1)) = .ok (.float (Int64.minValue.toFloat / (-1 : Int64).toFloat)) ∧
      ∃ m : Int64, modulo (.int Int64.minValue) (.int (-1)) = .ok (.int m) ∧ m.toInt.natAbs < 1 := by
  obtain ⟨-, -, -, -, h, -⟩ := arithmetic_exact Int64.minValue (-1)
  obtain ⟨hdivide, -, m, hmodulo, -, hm, -⟩ := h (by decide)
  exact ⟨by decide, by decide, by decide, (hdivide (by decide)).2 (by decide), m, hmodulo, hm⟩

end Value

end Offside
