import Mathlib.Data.Nat.Digits.Defs
import Offside.Proofs.Lexer.Grammar
import Offside.Proofs.Text
import Offside.Proofs.Tree.Numbers
import Offside.Proofs.Value.Words
import Offside.Tree.Evaluation

/-!
# Number literals, scanned and read

A number is looked at twice: the scanner finds where it ends and whether it is written as an integer, and the reader
finds its value from the text alone, looking for a point and the letter of an exponent again. The two agree on every
spelling: what is scanned as an integer is read as the integer that its digits spell in base 10, if that has 64 bits,
and nothing else is read as an integer (`tokenize_numbers`).
-/

namespace Offside

namespace Text

/-- The digits of a text, the last one first. -/
def digits (s : Text) : List Nat := (s.map fun b => b.toNat - 48).reverse

/-- The number that the digits of a text spell in a base. -/
def valueIn (base : Nat) (s : Text) : Nat := Nat.ofDigits base (digits s)

theorem digitsValue_eq (s : Text) : digitsValue s = valueIn 10 s := by
  rw [valueIn, Nat.ofDigits_eq_foldr, digits, List.foldr_reverse, List.foldl_map]
  simp only [digitsValue, Nat.cast_id, Nat.add_comm]

theorem ofNat_ne_nil (n : Nat) : ofNat n ≠ [] := by
  rw [ofNat, Ne, List.map_eq_nil_iff]
  exact Nat.toDigits_ne_nil

end Text

theorem Lexeme.numberForm_digits {ds : Text} (hne : ds ≠ []) (hds : ∀ b ∈ ds, Text.isDigit b = true) :
    NumberForm ds [] [] := ⟨hds, .inl rfl, .inl rfl, .inl hne⟩

namespace NumberText

open Text

theorem signOf_digits {ds : Text} (hne : ds ≠ []) (hds : ∀ b ∈ ds, isDigit b = true) : signOf ds = (false, ds) := by
  simpa using signOf_number (Lexeme.numberForm_digits hne hds)

/-- Digits are read as the integer that they spell, with a sign before them as the opposite of it. -/
theorem readInt_of_sign {s ds : Text} {negative : Bool} (hs : signOf s = (negative, ds)) (hne : ds ≠ [])
    (hds : ∀ b ∈ ds, isDigit b = true) :
    readInt s = fit64 (if negative then -(digitsValue ds : Int) else digitsValue ds) := by
  have hempty : ds.isEmpty = false := by rwa [List.isEmpty_eq_false_iff]
  have hall : ds.all isDigit = true := List.all_eq_true.2 hds
  simp [readInt, hs, hempty, hall]

theorem readInt_digits {ds : Text} (hne : ds ≠ []) (hds : ∀ b ∈ ds, isDigit b = true) :
    readInt ds = fit64 (digitsValue ds) := by
  simpa using readInt_of_sign (signOf_digits hne hds) hne hds

/-- The text of an integer is read as that integer, if it has 64 bits. -/
theorem readInt_ofInt (n : Int) : readInt (Text.ofInt n) = fit64 n := by
  cases n with
  | ofNat n =>
    have hread := readInt_digits (ofNat_ne_nil n) fun b => isDigit_ofNat
    rwa [digitsValue_ofNat] at hread
  | negSucc n =>
    have hsign : signOf (Text.ofInt (.negSucc n)) = (true, Text.ofNat (n + 1)) := rfl
    have hread := readInt_of_sign hsign (ofNat_ne_nil (n + 1)) fun b => isDigit_ofNat
    rwa [digitsValue_ofNat] at hread

end NumberText

namespace Value

open Text NumberText Lexeme

theorem not_looksFractional {s : Text} (hs : ∀ b ∈ s, isDigit b = true ∨ b = 45) : looksFractional s = false := by
  rw [looksFractional, List.any_eq_false]
  intro b hb hmark
  simp only [Bool.or_eq_true, beq_iff_eq] at hmark
  rcases hs b hb with hdigit | rfl
  · rcases hmark with (rfl | rfl) | rfl <;> cases hdigit
  · simp at hmark

theorem readNumber_of_readInt {s : Text} {n : Int64} (hs : looksFractional s = false) (hn : readInt s = some n) :
    readNumber s = .ok (.int n) := by
  simp [readNumber, hs, hn]

/-- Digits are read as the integer that they spell in base 10, if that has 64 bits. -/
theorem readNumber_digits {ds : Text} (hne : ds ≠ []) (hds : ∀ b ∈ ds, isDigit b = true)
    (hsmall : valueIn 10 ds ≤ 2 ^ 63 - 1) :
    ∃ n : Int64, n.toInt = valueIn 10 ds ∧ readNumber ds = .ok (.int n) := by
  have hfits : Fits (valueIn 10 ds) := by constructor <;> omega
  have hread : readInt ds = some (Int64.ofInt (valueIn 10 ds)) := by
    rw [readInt_digits hne hds, digitsValue_eq, fit64_of_fits hfits]
  have hmarks := not_looksFractional fun b hb => .inl (hds b hb)
  exact ⟨_, toInt_ofInt hfits, readNumber_of_readInt hmarks hread⟩

/-- Every integer of 64 bits is the value of its literal. -/
theorem evaluate_ofInt (n : Int64) : (Expr.ofInt n.toInt).evaluate = .ok (.int n) := by
  have hmarks : looksFractional (Text.ofInt n.toInt) = false := by
    -- a sign is the only byte that is no digit
    refine not_looksFractional fun b hb => ?_
    cases hn : n.toInt with
    | ofNat k =>
      rw [hn] at hb
      exact .inl (isDigit_ofNat hb)
    | negSucc k =>
      rw [hn] at hb
      rcases List.mem_cons.1 hb with rfl | hb
      · exact .inr rfl
      · exact .inl (isDigit_ofNat hb)
  have hread : readInt (Text.ofInt n.toInt) = some n := by rw [readInt_ofInt, fit64_toInt]
  rw [Expr.ofInt, Expr.evaluate, Expr.evaluateLiteral, readNumber_of_readInt hmarks hread]
  rfl

/-! ## What is not an integer -/

/-- The text is read as a floating-point number, or is reported because its value is out of range. -/
def ReadsFloat (s : Text) : Prop :=
  (∃ x, readNumber s = .ok (.float x)) ∨ readNumber s = .error (invalidNumber s .outOfRange)

/-- A number that is not read as an integer is read as a floating-point number. -/
theorem readsFloat_of_not_int {s : Text} (h : Emits .number s)
    (hint : looksFractional s = true ∨ readInt s = Option.none) : ReadsFloat s := by
  have hnone : (if looksFractional s then Option.none else readInt s) = Option.none := by
    rcases hint with hmark | hlarge
    · rw [if_pos hmark]
    · rw [hlarge, ite_self]
  cases hfloat : readFloat s with
  | ok x => exact .inl ⟨x, by simp only [readNumber, hnone, hfloat]⟩
  | error fault =>
    obtain rfl := readFloat_error h hfloat
    exact .inr (by simp only [readNumber, hnone, hfloat])

/-- The two faults are told apart in the report. -/
theorem invalidNumber_ne (s : Text) : invalidNumber s .outOfRange ≠ invalidNumber s .malformed := by
  intro h
  have hcause := Option.some.inj (congrArg Diagnostic.cause h)
  -- the causes differ only in the fault, which they end with
  have hmessage := List.append_cancel_left hcause
  exact absurd hmessage (by decide)

end Value

/-! ## Tokens -/

namespace Lexeme

open Text

/-- A number token has the parts of a number, and is an integer if it has only the first of them. -/
theorem number_of_read {t : Token} (h : Read t) (hk : t.kind = .number) :
    ∃ whole part power, NumberForm whole part power ∧ t.literal = whole ++ part ++ power ∧
      t.subtype = .literal (if part.isEmpty && power.isEmpty then .integer else .float) := by
  obtain ⟨b, s, x, hx, hkind, hsubtype, hliteral⟩ := h
  rcases first_number_or_word hx (.inl (hkind ▸ hk)) with ⟨hb, rfl⟩ | ⟨-, rfl⟩
  · obtain ⟨part, power, hform, hnumber⟩ := number_form hb
    exact ⟨_, part, power, hform, by rw [hliteral, hnumber], by rw [hsubtype, hnumber]⟩
  · exact absurd (hkind ▸ hk) (kind_word _)

theorem emits_of_read {t : Token} (h : Read t) : Emits t.kind t.literal := by
  obtain ⟨b, s, x, hx, hkind, -, hliteral⟩ := h
  exact ⟨b, s, x, hx, hkind.symm, hliteral.symm⟩

/-- A number that has a fraction or an exponent looks like it. -/
theorem NumberForm.looksFractional {whole part power : Text} (h : NumberForm whole part power)
    (hmore : ¬(part = [] ∧ power = [])) : Value.looksFractional (whole ++ part ++ power) = true := by
  rw [Value.looksFractional, List.any_eq_true]
  rcases h.fraction with rfl | ⟨ds, rfl, -⟩
  · rcases h.exponent with rfl | ⟨b, sg, ds, rfl, hb, -⟩
    · exact absurd ⟨rfl, rfl⟩ hmore
    · refine ⟨b, by simp, ?_⟩
      rcases hb with rfl | rfl <;> rfl
  · exact ⟨46, by simp, rfl⟩

/-- The two forms of number tokens: digits alone, and all else. -/
theorem number_cases {t : Token} (h : Read t) (hk : t.kind = .number) :
    (t.subtype = .literal .integer ∧ t.literal ≠ [] ∧ ∀ b ∈ t.literal, isDigit b = true) ∨
      (t.subtype = .literal .float ∧ Value.looksFractional t.literal = true) := by
  obtain ⟨whole, part, power, hform, hliteral, hsubtype⟩ := number_of_read h hk
  by_cases hmore : part = [] ∧ power = []
  · obtain ⟨rfl, rfl⟩ := hmore
    left
    rw [List.append_nil, List.append_nil] at hliteral
    refine ⟨hsubtype, ?_, ?_⟩
    · rw [hliteral]
      rcases hform.nonempty with hne | ⟨d, ds, hpart⟩
      · exact hne
      · cases hpart
    · rw [hliteral]
      exact hform.digits
  · right
    refine ⟨?_, by rw [hliteral]; exact hform.looksFractional hmore⟩
    rw [hsubtype, if_neg (by simpa using hmore)]

end Lexeme

namespace Scanner

open Text Value NumberText Lexeme

/-- The scanner and the reader agree on numbers. A number token is written as an integer or in floating point. As an
integer it consists of digits, at least one, and it is read as the integer that these spell if that has 64 bits; if
it has more, or if the token is written in floating point, it is read as a floating-point number or reported because
its value is out of range. No number token is reported as malformed. Conversely, the literal that is written for an
integer of 64 bits has that integer as its value. -/
theorem tokenize_numbers (source : Text) (tabWidth : Int) :
    (∀ t ∈ (tokenize source tabWidth).tokens, t.kind = .number →
      ((t.subtype = .literal .integer ∧ t.literal ≠ [] ∧ (∀ b ∈ t.literal, isDigit b = true) ∧
          (valueIn 10 t.literal ≤ 2 ^ 63 - 1 →
            ∃ n : Int64, n.toInt = valueIn 10 t.literal ∧ readNumber t.literal = .ok (.int n)) ∧
          (2 ^ 63 - 1 < valueIn 10 t.literal → ReadsFloat t.literal)) ∨
        (t.subtype = .literal .float ∧ ReadsFloat t.literal)) ∧
      readNumber t.literal ≠ .error (invalidNumber t.literal .malformed)) ∧
    ∀ n : Int64, (Expr.ofInt n.toInt).evaluate = .ok (.int n) := by
  refine ⟨fun t ht hk => ?_, evaluate_ofInt⟩
  have hread : Read t := run_read _ t ht (by rw [hk]; rfl)
  have hemits : Emits .number t.literal := hk ▸ emits_of_read hread
  constructor
  · rcases number_cases hread hk with ⟨hsubtype, hne, hdigits⟩ | ⟨hsubtype, hmark⟩
    · refine .inl ⟨hsubtype, hne, hdigits, readNumber_digits hne hdigits, fun hlarge => ?_⟩
      have hfits : ¬Fits (valueIn 10 t.literal) := by
        intro hfits
        have hbound := hfits.2
        omega
      have hint : readInt t.literal = Option.none := by
        rw [readInt_digits hne hdigits, digitsValue_eq, fit64_of_not_fits hfits]
      exact readsFloat_of_not_int hemits (.inr hint)
    · exact .inr ⟨hsubtype, readsFloat_of_not_int hemits (.inl hmark)⟩
  · intro hmalformed
    exact invalidNumber_ne t.literal (readNumber_error hemits hmalformed).1.symm

/-- Zeros in front do not change what an integer is read as, and a point makes it a floating-point number. -/
theorem tokenize_numbers_zeros :
    ∃ t ∈ (tokenize "007 7.\n" 4).tokens, ∃ u ∈ (tokenize "007 7.\n" 4).tokens,
      (t.kind = .number ∧ t.subtype = .literal .integer ∧
        ∃ n : Int64, n.toInt = 7 ∧ readNumber t.literal = .ok (.int n)) ∧
      u.kind = .number ∧ u.subtype = .literal .float ∧ ReadsFloat u.literal := by
  obtain ⟨h, -⟩ := tokenize_numbers "007 7.\n" 4
  refine ⟨⟨.number, .literal .integer, "007", 1, 1⟩, by decide +kernel, ⟨.number, .literal .float, "7.", 1, 5⟩,
    by decide +kernel, ⟨rfl, rfl, ?_⟩, rfl, rfl, ?_⟩
  · rcases (h ⟨.number, .literal .integer, "007", 1, 1⟩ (by decide +kernel) rfl).1 with ⟨-, -, -, hint, -⟩ | ⟨hfloat, -⟩
    · exact hint (by decide)
    · cases hfloat
  · rcases (h ⟨.number, .literal .float, "7.", 1, 5⟩ (by decide +kernel) rfl).1 with ⟨hint, -⟩ | ⟨-, hfloat⟩
    · cases hint
    · exact hfloat

end Scanner

end Offside
