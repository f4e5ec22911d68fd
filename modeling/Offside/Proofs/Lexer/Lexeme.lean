import Mathlib.Data.List.TakeWhile
import Offside.Lexer.Scanner

/-!
# Spellings

The spellings of numbers and words, and that a lexeme is found again wherever its spelling stands. What
stands behind the spelling must not go on with it: a digit, a point or a letter behind a number, a letter or
a digit behind a word.
-/

namespace Offside.Lexeme

/-- The kind of token with that literal stands at the start of some text. -/
def Emits (kind : Token.Kind) (literal : Text) : Prop :=
  ∃ b s x, first b s = .ok x ∧ x.kind = kind ∧ x.literal = literal

theorem takeWhile_stop {p : UInt8 → Bool} {w rest : Text} (hw : ∀ b ∈ w, p b = true)
    (hr : ∀ b ∈ rest.head?, p b = false) : (w ++ rest).takeWhile p = w := by
  rw [List.takeWhile_append_of_pos hw]
  cases rest with
  | nil => simp
  | cons b rest => simp [hr b rfl]

/-! ## Numbers -/

/-- The parts of a number: digits, a fraction and an exponent, each of which may be missing. There is a digit
before the exponent. -/
structure NumberForm (whole part power : Text) : Prop where
  digits : ∀ b ∈ whole, Text.isDigit b = true
  fraction : part = [] ∨ ∃ ds, part = 46 :: ds ∧ ∀ b ∈ ds, Text.isDigit b = true
  exponent : power = [] ∨ ∃ b sg ds, power = b :: (sg ++ ds) ∧ (b = 101 ∨ b = 69) ∧
    (sg = [] ∨ sg = [43] ∨ sg = [45]) ∧ ds ≠ [] ∧ ∀ b ∈ ds, Text.isDigit b = true
  nonempty : whole ≠ [] ∨ ∃ d ds, part = 46 :: d :: ds

theorem fraction_form (s : Text) :
    fraction s = [] ∨ ∃ ds, fraction s = 46 :: ds ∧ ∀ b ∈ ds, Text.isDigit b = true := by
  unfold fraction
  split
  · exact .inl rfl
  · split
    · next hb => exact .inr ⟨_, by rw [hb], fun b h => List.mem_takeWhile_imp h⟩
    · exact .inl rfl

theorem sign_form (s : Text) : sign s = [] ∨ sign s = [43] ∨ sign s = [45] := by
  unfold sign
  split
  · exact .inl rfl
  · split
    · next hb =>
      simp only [Bool.or_eq_true, decide_eq_true_eq] at hb
      exact .inr (hb.imp (congrArg (List.cons · [])) (congrArg (List.cons · [])))
    · exact .inl rfl

theorem exponent_form (s : Text) :
    exponent s = [] ∨ ∃ b sg ds, exponent s = b :: (sg ++ ds) ∧ (b = 101 ∨ b = 69) ∧
      (sg = [] ∨ sg = [43] ∨ sg = [45]) ∧ ds ≠ [] ∧ ∀ b ∈ ds, Text.isDigit b = true := by
  unfold exponent
  split
  · exact .inl rfl
  · next b s =>
    split
    · next hb =>
      dsimp only
      split
      · exact .inl rfl
      · next hds =>
        refine .inr ⟨b, sign s, _, rfl, by simpa using hb, sign_form s, by simpa using hds, ?_⟩
        exact fun b h => List.mem_takeWhile_imp h
    · exact .inl rfl

/-- Every number has the form of one. -/
theorem number_form {b : UInt8} {s : Text} (h : (Text.isDigit b || (b == 46 && startsWithDigit s)) = true) :
    ∃ part power, let whole := (b :: s).takeWhile Text.isDigit
      NumberForm whole part power ∧ number (b :: s) =
        ⟨.number, .literal (if part.isEmpty && power.isEmpty then .integer else .float), whole ++ part ++ power,
          (whole ++ part ++ power).length⟩ := by
  refine ⟨_, _, ⟨fun b h => List.mem_takeWhile_imp h, fraction_form _, exponent_form _, ?_⟩, rfl⟩
  by_cases hb : Text.isDigit b = true
  · left
    simp [hb]
  · -- without digits before it, the point has one behind it
    right
    obtain ⟨rfl, hs⟩ : b = 46 ∧ startsWithDigit s = true := by simpa [hb] using h
    cases s with
    | nil => cases hs
    | cons d s =>
      have hd : Text.isDigit d = true := hs
      exact ⟨d, s.takeWhile Text.isDigit, by simp [hb, fraction, hd]⟩

/-- A number is made of digits and of few other bytes. -/
theorem NumberForm.mem {whole part power : Text} (h : NumberForm whole part power) :
    ∀ b ∈ whole ++ part ++ power, Text.isDigit b = true ∨ b ∈ ([46, 101, 69, 43, 45] : List UInt8) := by
  intro b hb
  simp only [List.mem_append] at hb
  rcases hb with (hb | hb) | hb
  · exact .inl (h.digits b hb)
  · rcases h.fraction with rfl | ⟨ds, rfl, hds⟩
    · cases hb
    · rcases List.mem_cons.1 hb with rfl | hb
      · exact .inr (by decide)
      · exact .inl (hds b hb)
  · rcases h.exponent with rfl | ⟨e, sg, ds, rfl, he, hsg, -, hds⟩
    · cases hb
    · rcases List.mem_cons.1 hb with rfl | hb
      · rcases he with rfl | rfl <;> exact .inr (by decide)
      · rcases List.mem_append.1 hb with hb | hb
        · rcases hsg with rfl | rfl | rfl
          · cases hb
          · obtain rfl := List.mem_singleton.1 hb
            exact .inr (by decide)
          · obtain rfl := List.mem_singleton.1 hb
            exact .inr (by decide)
        · exact .inl (hds b hb)

/-- The bytes that go on with a number. -/
def isNumberPart (b : UInt8) : Bool := Text.isDigit b || b == 46 || b == 101 || b == 69

section
variable {whole part power rest : Text}

theorem exponent_again (h : NumberForm whole part power) (hr : ∀ b ∈ rest.head?, isNumberPart b = false) :
    exponent (power ++ rest) = power := by
  rcases h.exponent with rfl | ⟨b, sg, ds, rfl, hb, hsg, hne, hds⟩
  · cases rest with
    | nil => rfl
    | cons b rest =>
      have hb := hr b rfl
      simp only [isNumberPart, Bool.or_eq_false_iff, beq_eq_false_iff_ne] at hb
      simp [exponent, hb.1.2, hb.2]
  · have hrest : (ds ++ rest).takeWhile Text.isDigit = ds := by
      refine takeWhile_stop hds fun b hb => ?_
      have hb := hr b hb
      simp only [isNumberPart, Bool.or_eq_false_iff] at hb
      exact hb.1.1.1
    have hsign : sign (sg ++ ds ++ rest) = sg := by
      obtain ⟨d, ds, rfl⟩ := List.exists_cons_of_ne_nil hne
      have hd := hds d List.mem_cons_self
      rcases hsg with rfl | rfl | rfl
      · have hplus : d ≠ 43 := by rintro rfl; cases hd
        have hminus : d ≠ 45 := by rintro rfl; cases hd
        simp [sign, hplus, hminus]
      · rfl
      · rfl
    have hb' : (decide (b = 101) || decide (b = 69)) = true := by simpa using hb
    rw [List.cons_append, exponent, if_pos hb', hsign, List.append_assoc, List.drop_left, hrest]
    simp [hne]

/-- What stands behind the digits of a number is no digit. -/
theorem head_not_digit (h : NumberForm whole part power) (hr : ∀ b ∈ rest.head?, isNumberPart b = false) :
    ∀ b ∈ (power ++ rest).head?, Text.isDigit b = false ∧ b ≠ 46 := by
  intro b hb
  rcases h.exponent with rfl | ⟨c, sg, ds, rfl, hc, -⟩
  · have hb := hr b hb
    simp only [isNumberPart, Bool.or_eq_false_iff, beq_eq_false_iff_ne] at hb
    exact ⟨hb.1.1.1, hb.1.1.2⟩
  · obtain rfl : c = b := by simpa using hb
    rcases hc with rfl | rfl <;> decide

theorem fraction_again (h : NumberForm whole part power) (hr : ∀ b ∈ rest.head?, isNumberPart b = false) :
    fraction (part ++ (power ++ rest)) = part := by
  have hhead := head_not_digit h hr
  rcases h.fraction with rfl | ⟨ds, rfl, hds⟩
  · rw [List.nil_append]
    cases hs : power ++ rest with
    | nil => rfl
    | cons b s => simp [fraction, (hhead b (by rw [hs]; rfl)).2]
  · simp [fraction, takeWhile_stop hds fun b hb => (hhead b hb).1]

theorem whole_again (h : NumberForm whole part power) (hr : ∀ b ∈ rest.head?, isNumberPart b = false) :
    (whole ++ (part ++ (power ++ rest))).takeWhile Text.isDigit = whole := by
  refine takeWhile_stop h.digits fun b hb => ?_
  rcases h.fraction with rfl | ⟨ds, rfl, hds⟩
  · exact (head_not_digit h hr b hb).1
  · obtain rfl : (46 : UInt8) = b := by simpa using hb
    rfl

/-- A number is found again wherever its spelling stands. -/
theorem number_again (h : NumberForm whole part power) (hr : ∀ b ∈ rest.head?, isNumberPart b = false) :
    number (whole ++ (part ++ (power ++ rest))) =
      ⟨.number, .literal (if part.isEmpty && power.isEmpty then .integer else .float), whole ++ part ++ power,
        (whole ++ part ++ power).length⟩ := by
  unfold number
  simp only [whole_again h hr, List.drop_left, fraction_again h hr, exponent_again h hr]

theorem number_starts (h : NumberForm whole part power) {b : UInt8} {s : Text}
    (e : whole ++ (part ++ (power ++ rest)) = b :: s) :
    (Text.isDigit b || (b == 46 && startsWithDigit s)) = true := by
  cases whole with
  | cons d ds =>
    obtain ⟨rfl, -⟩ : d = b ∧ _ := by simpa using e
    simp [h.digits d List.mem_cons_self]
  | nil =>
    obtain h' | ⟨d, ds, rfl⟩ := h.nonempty
    · exact absurd rfl h'
    · obtain h' | ⟨ds', e', hds⟩ := h.fraction
      · cases h'
      · cases e'
        obtain ⟨rfl, rfl⟩ : (46 : UInt8) = b ∧ d :: (ds ++ (power ++ rest)) = s := by simpa using e
        simp [startsWithDigit, hds d List.mem_cons_self]

theorem first_of_number (h : NumberForm whole part power) (hr : ∀ b ∈ rest.head?, isNumberPart b = false) {b : UInt8}
    {s : Text} (e : whole ++ (part ++ (power ++ rest)) = b :: s) :
    first b s = .ok ⟨.number, .literal (if part.isEmpty && power.isEmpty then .integer else .float),
      whole ++ part ++ power, (whole ++ part ++ power).length⟩ := by
  have hagain := number_again h hr
  rw [e] at hagain
  unfold first
  rw [if_pos (number_starts h e), hagain]

end

/-! ## Words -/

/-- A letter or an underscore, and letters, digits and underscores behind it. -/
def isWord : Text → Bool
  | [] => false
  | b :: s => isWordStart b && s.all isWordPart

theorem isWordPart_of_start {b : UInt8} (h : isWordStart b = true) : isWordPart b = true := by
  simp [isWordPart, h]

/-- No word begins as a number does. -/
theorem isWordStart_not_number {b : UInt8} (h : isWordStart b = true) : Text.isDigit b = false ∧ b ≠ 46 := by
  simp only [isWordStart, Text.isLetter, Text.isLower, Text.isUpper, Text.isDigit, Bool.or_eq_true, Bool.and_eq_true,
    decide_eq_true_eq, beq_iff_eq, Bool.and_eq_false_iff, decide_eq_false_iff_not] at h ⊢
  constructor <;> grind

theorem isWord_part {w : Text} (h : isWord w = true) : ∀ b ∈ w, isWordPart b = true := by
  cases w with
  | nil => simp
  | cons b s =>
    obtain ⟨hb, hs⟩ : isWordStart b = true ∧ ∀ c ∈ s, isWordPart c = true := by simpa [isWord] using h
    exact List.forall_mem_cons.2 ⟨isWordPart_of_start hb, hs⟩

theorem isWord_word {b : UInt8} {s : Text} (h : isWordStart b = true) : isWord (word (b :: s)).literal = true := by
  have hword : (word (b :: s)).literal = b :: s.takeWhile isWordPart := by simp [word, isWordPart_of_start h]
  rw [hword]
  simp only [isWord, h, Bool.true_and, List.all_eq_true]
  exact fun c hc => List.mem_takeWhile_imp hc

/-- A word is found again wherever its spelling stands. -/
theorem word_again {w rest : Text} (h : isWord w = true) (hr : ∀ b ∈ rest.head?, isWordPart b = false) :
    word (w ++ rest) = ⟨(classify w).1, (classify w).2, w, w.length⟩ := by
  simp only [word, takeWhile_stop (isWord_part h) hr]

theorem first_of_word {w rest s : Text} {b : UInt8} (h : isWord w = true) (hr : ∀ b ∈ rest.head?, isWordPart b = false)
    (e : w ++ rest = b :: s) : first b s = .ok ⟨(classify w).1, (classify w).2, w, w.length⟩ := by
  have hagain := word_again h hr
  rw [e] at hagain
  cases w with
  | nil => cases h
  | cons c w =>
    obtain ⟨rfl, -⟩ : c = b ∧ _ := by simpa using e
    simp only [isWord, Bool.and_eq_true] at h
    obtain ⟨hdigit, hpoint⟩ := isWordStart_not_number h.1
    unfold first
    rw [if_neg (by simp [hdigit, hpoint]), if_pos h.1, hagain]

/-! ## What is emitted -/

/-- No lexeme begins with a blank, a line end or a comment. -/
theorem first_content {b : UInt8} {s : Text} {x : Lexeme} (h : first b s = .ok x) :
    isBlank b = false ∧ isLineEnd b = false ∧ b ≠ 35 := by
  refine ⟨?_, ?_, ?_⟩
  · by_contra hb
    simp only [isBlank, Bool.not_eq_false, Bool.or_eq_true, beq_iff_eq] at hb
    rcases hb with ((rfl | rfl) | rfl) | rfl <;> cases h
  · by_contra hb
    simp only [isLineEnd, Bool.not_eq_false, Bool.or_eq_true, beq_iff_eq] at hb
    rcases hb with rfl | rfl <;> cases h
  · rintro rfl
    cases h

/-- A number or a name comes from the spelling of one. -/
theorem first_number_or_word {b : UInt8} {s : Text} {x : Lexeme} (h : first b s = .ok x)
    (hk : x.kind = .number ∨ x.kind = .identifier) :
    ((Text.isDigit b || (b == 46 && startsWithDigit s)) = true ∧ x = number (b :: s)) ∨
      (isWordStart b = true ∧ x = word (b :: s)) := by
  unfold first at h
  split at h
  · next hb =>
    cases h
    exact .inl ⟨hb, rfl⟩
  · split at h
    · next hb =>
      cases h
      exact .inr ⟨hb, rfl⟩
    · -- strings, brackets, delimiters and operators are of other kinds
      exfalso
      split at h
      · unfold string at h
        dsimp only at h
        split at h
        · cases h
        · split at h
          · cases h
            simp at hk
          · cases h
      · split at h
        · cases h
          simp at hk
        · split at h
          · cases h
            simp at hk
          · split at h
            · cases h
              simp at hk
            · cases h

theorem kind_word (s : Text) : (word s).kind ≠ .number := by
  simp only [word, classify]
  split
  · simp
  · split <;> simp

theorem emits_number {t : Text} (h : Emits .number t) :
    ∃ whole part power, NumberForm whole part power ∧ t = whole ++ part ++ power := by
  obtain ⟨b, s, x, hx, hk, rfl⟩ := h
  rcases first_number_or_word hx (.inl hk) with ⟨hb, rfl⟩ | ⟨-, rfl⟩
  · obtain ⟨part, power, hform, hnumber⟩ := number_form hb
    exact ⟨_, part, power, hform, congrArg Lexeme.literal hnumber⟩
  · exact absurd hk (kind_word _)

theorem emits_identifier {t : Text} (h : Emits .identifier t) :
    isWord t = true ∧ classify t = (.identifier, .plain) := by
  obtain ⟨b, s, x, hx, hk, rfl⟩ := h
  rcases first_number_or_word hx (.inr hk) with ⟨-, rfl⟩ | ⟨hb, rfl⟩
  · cases hk
  · constructor
    · exact isWord_word hb
    · have hk' : (classify (word (b :: s)).literal).1 = .identifier := hk
      unfold classify at hk' ⊢
      split at hk'
      · cases hk'
      · split at hk'
        · cases hk'
        · simp_all

end Offside.Lexeme
