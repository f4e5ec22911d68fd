import Offside.Proofs.Lexer.Lexeme
import Offside.Value.Basic

/-!
# The values of number literals

The scanner and the reader of numbers agree on what a number is: every spelling that the scanner takes for a
number can be read, unless its value is out of range (`readNumber_error`).
-/

namespace Offside.NumberText

open Offside.Lexeme

/-! ## The parts of a number -/

theorem digit?_of_isDigit {b : UInt8} (h : Text.isDigit b = true) : digit? false b = some (b.toNat - 48) := by
  simp [digit?, h]

theorem isDigit_ne {b : UInt8} (h : Text.isDigit b = true) : b ≠ 95 ∧ b ≠ 46 := by
  constructor
  · rintro rfl
    cases h
  · rintro rfl
    cases h

/-- Digits are read, and whether there is one is taken note of. -/
theorem readMantissa_digits {ds : Text} (hds : ∀ b ∈ ds, Text.isDigit b = true) (m : Mantissa) (rest : Text) :
    ∃ m', readMantissa false m (ds ++ rest) = readMantissa false m' rest ∧ m'.dotted = m.dotted ∧
      (m'.any = true ↔ m.any = true ∨ ds ≠ []) := by
  induction ds generalizing m with
  | nil => exact ⟨m, rfl, rfl, by simp⟩
  | cons d ds ih =>
    obtain ⟨hd, hds⟩ := List.forall_mem_cons.1 hds
    obtain ⟨hunder, hpoint⟩ := isDigit_ne hd
    obtain ⟨m', hread, hdotted, hany⟩ := ih hds
      { m with value := 10 * m.value + (d.toNat - 48), places := if m.dotted then m.places + 1 else m.places, any := true }
    refine ⟨m', ?_, hdotted, by simp [hany]⟩
    rw [List.cons_append, readMantissa, if_neg hunder, if_neg hpoint, digit?_of_isDigit hd]
    exact hread

section
variable {whole part power : Text}

/-- What stands behind the digits of a number is left for the exponent. -/
theorem readMantissa_power (h : NumberForm whole part power) (m : Mantissa) : readMantissa false m power = (m, power) := by
  rcases h.exponent with rfl | ⟨b, sg, ds, rfl, rfl | rfl, -⟩ <;> rfl

theorem readMantissa_number (h : NumberForm whole part power) :
    ∃ m, readMantissa false {} (whole ++ part ++ power) = (m, power) ∧ m.any = true := by
  obtain ⟨m, hread, hdotted, hany⟩ := readMantissa_digits h.digits {} (part ++ power)
  rw [List.append_assoc, hread]
  rcases h.fraction with rfl | ⟨ds, rfl, hds⟩
  · refine ⟨m, readMantissa_power h m, hany.2 (.inr ?_)⟩
    rcases h.nonempty with hne | ⟨d, ds, hpart⟩
    · exact hne
    · cases hpart
  · have hpoint : readMantissa false m (46 :: ds ++ power) = readMantissa false { m with dotted := true } (ds ++ power) := by
      simp [readMantissa, hdotted]
    obtain ⟨m', hread', -, hany'⟩ := readMantissa_digits hds { m with dotted := true } power
    refine ⟨m', by rw [hpoint, hread', readMantissa_power h], hany'.2 ?_⟩
    rcases h.nonempty with hne | ⟨d, ds', hpart⟩
    · exact .inl (hany.2 (.inr hne))
    · cases hpart
      exact .inr (List.cons_ne_nil _ _)

theorem signOf_sign {sg ds : Text} (hsg : sg = [] ∨ sg = [43] ∨ sg = [45]) (hds : ∀ b ∈ ds, Text.isDigit b = true) :
    (signOf (sg ++ ds)).2 = ds := by
  rcases hsg with rfl | rfl | rfl
  · cases ds with
    | nil => rfl
    | cons d ds =>
      have hd := hds d List.mem_cons_self
      have hminus : d ≠ 45 := by rintro rfl; cases hd
      have hplus : d ≠ 43 := by rintro rfl; cases hd
      simp [signOf, hminus, hplus]
  · rfl
  · rfl

theorem readExponent_power (h : NumberForm whole part power) : ∃ e, readExponent 101 power = some e := by
  rcases h.exponent with rfl | ⟨b, sg, ds, rfl, hb, hsg, hne, hds⟩
  · exact ⟨none, rfl⟩
  · have hmark : Text.lowerByte b = 101 := by rcases hb with rfl | rfl <;> decide
    have hsign := signOf_sign hsg hds
    obtain ⟨d, ds, rfl⟩ := List.exists_cons_of_ne_nil hne
    have hdigits : (d :: ds).all (fun c => Text.isDigit c || c == 95) = true := by
      rw [List.all_eq_true]
      intro c hc
      rw [hds c hc, Bool.true_or]
    have hfirst : Text.isDigit d = true := hds d List.mem_cons_self
    rw [readExponent, if_neg (not_not_intro hmark)]
    generalize hsplit : signOf (sg ++ d :: ds) = split at hsign
    obtain ⟨negative, digits⟩ := split
    subst hsign
    simp only [hfirst, hdigits, Bool.and_self, if_true]
    exact ⟨_, rfl⟩

theorem readDecimal_number (h : NumberForm whole part power) : ∃ x, readDecimal (whole ++ part ++ power) = some x := by
  obtain ⟨m, hread, hany⟩ := readMantissa_number h
  obtain ⟨e, he⟩ := readExponent_power h
  refine ⟨ofDecimal m.value (e.getD 0 - m.places), ?_⟩
  unfold readDecimal
  rw [hread]
  simp only [he, hany, if_true]

/-! ## Numbers put together -/

/-- No number has an underscore or the mark of a base. -/
theorem byte_of_number (h : NumberForm whole part power) {b : UInt8} (hb : b ∈ whole ++ part ++ power) :
    b ≠ 95 ∧ Text.lowerByte b ≠ 120 := by
  rcases h.mem b hb with hdigit | hmark
  · constructor
    · rintro rfl
      cases hdigit
    · simp only [Text.isDigit, Text.lowerByte, Text.isUpper] at hdigit ⊢
      grind
  · have hmarks : ∀ c ∈ ([46, 101, 69, 43, 45] : List UInt8), c ≠ 95 ∧ Text.lowerByte c ≠ 120 := by
      decide +kernel
    exact hmarks b hmark

theorem readMagnitude_number (h : NumberForm whole part power) :
    ∃ x, readMagnitude (whole ++ part ++ power) = some x := by
  obtain ⟨x, hx⟩ := readDecimal_number h
  have hbytes : ∀ b ∈ whole ++ part ++ power, b ≠ 95 ∧ Text.lowerByte b ≠ 120 := fun b hb => byte_of_number h hb
  generalize whole ++ part ++ power = t at hx hbytes
  have hunder : underscoresAllowed t = true := by
    have hnone : 95 ∉ t := fun hmem => (hbytes 95 hmem).1 rfl
    simp [underscoresAllowed, hnone]
  refine ⟨x, ?_⟩
  unfold readMagnitude
  rw [if_pos hunder]
  split
  · next c _ _ =>
    rw [if_neg (hbytes c (by simp)).2]
    exact hx
  · exact hx

theorem signOf_number (h : NumberForm whole part power) :
    signOf (whole ++ part ++ power) = (false, whole ++ part ++ power) := by
  have hstart {b : UInt8} {s : Text} (hs : whole ++ part ++ power = b :: s) : b ≠ 45 ∧ b ≠ 43 := by
    have hs : whole ++ (part ++ (power ++ [])) = b :: s := by simpa using hs
    have hbegin := number_starts h hs
    constructor
    · rintro rfl
      cases hbegin
    · rintro rfl
      cases hbegin
  generalize whole ++ part ++ power = t at hstart ⊢
  cases t with
  | nil => rfl
  | cons b s =>
    obtain ⟨hminus, hplus⟩ := hstart rfl
    rw [signOf, if_neg hminus, if_neg hplus]

end

theorem readFloat_error {t : Text} (h : Emits .number t) {fault : Fault} (he : readFloat t = .error fault) :
    fault = .outOfRange := by
  obtain ⟨whole, part, power, hform, rfl⟩ := emits_number h
  obtain ⟨x, hx⟩ := readMagnitude_number hform
  unfold readFloat at he
  simp only [signOf_number hform, hx] at he
  split at he
  · cases he
  · split at he
    · cases he
    · split at he
      · cases he
        rfl
      · cases he

end Offside.NumberText

namespace Offside.Value

open Offside.Lexeme Offside.NumberText

/-- A number literal can be read unless its value is out of range. -/
theorem readNumber_error {t : Text} (h : Emits .number t) {d : Diagnostic} (he : readNumber t = .error d) :
    d = invalidNumber t .outOfRange ∧ readFloat t = .error .outOfRange := by
  unfold readNumber at he
  split at he
  · cases he
  · split at he
    · cases he
    · next fault hfault =>
      obtain rfl := readFloat_error h hfault
      cases he
      exact ⟨rfl, hfault⟩

end Offside.Value
