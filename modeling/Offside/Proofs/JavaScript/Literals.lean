import Mathlib.Data.Nat.Digits.Lemmas
import Offside.Number.Rounded
import Offside.Proofs.JavaScript.Lexer
import Offside.Proofs.Tree.Literals
import Offside.Proofs.Tree.WellFormed

/-!
# What rendered literals mean

Rendering copies the digits of an integer, and JavaScript has its own way to read them: behind a zero, digits that all
count as octal spell a number in base 8. So an integer changes its value on the way if it begins with a zero, has
neither an 8 nor a 9, and is not less than 8. These are all that change (`rendered_integer_iff`).

Rendering puts a string between single quotes, whatever quotes it had, and JavaScript reads back the string that it was
(`rendered_string`): no text ends the literal that it stands in, and none runs on behind it.
-/

namespace Offside.JavaScript

open Text Lexeme

/-! ## Integers -/

/-- The integer nearest to `n` that has at most 53 significant bits, ties going to the even one. -/
def nearestNumber (n : Nat) : Nat :=
  let unit := 2 ^ (n.log2 - 52)
  Decimal.roundDiv n unit * unit

/-- The base that an integer literal is read in. -/
def integerBase (t : Text) : Nat := if isLegacyOctal t then 8 else 10

/-- The number that an integer literal denotes. A text that is no integer literal denotes none here, and neither does
one that is out of range. -/
def integer? (t : Text) : Option Nat :=
  if t.isEmpty || !t.all isDigit then none
  else
    let n := nearestNumber (valueIn (integerBase t) t)
    if n < 2 ^ 1024 then some n else none

theorem nearestNumber_of_le {n : Nat} (h : n ≤ 2 ^ 53) : nearestNumber n = n := by
  rcases Nat.lt_or_eq_of_le h with hlt | rfl
  · have hbits : n.log2 - 52 = 0 := by
      by_cases hn : n = 0
      · rw [hn]
        rfl
      · have := (Nat.log2_lt hn).2 hlt
        omega
    simp [nearestNumber, hbits, Decimal.roundDiv, Nat.mod_one]
  · decide

/-- Digits that all count as octal spell the same number in both bases only if it has one digit. -/
theorem ofDigits_octal_iff {ds : List Nat} (hds : ∀ d ∈ ds, d < 8) :
    Nat.ofDigits 8 ds = Nat.ofDigits 10 ds ↔ Nat.ofDigits 10 ds < 8 := by
  cases ds with
  | nil => simp
  | cons d ds =>
    have hd := hds d List.mem_cons_self
    -- the digits before the last one count eightfold or tenfold, so they agree only if they are zeros
    have hle : Nat.ofDigits 8 ds ≤ Nat.ofDigits 10 ds := Nat.ofDigits_monotone ds (by decide)
    rw [Nat.ofDigits_cons, Nat.ofDigits_cons]
    omega

theorem digit_lt_of_legacyOctal {t : Text} (h : isLegacyOctal t = true) : ∀ d ∈ digits t, d < 8 := by
  intro d hd
  simp only [isLegacyOctal, Bool.and_eq_true, List.all_eq_true, decide_eq_true_eq] at h
  obtain ⟨b, hb, rfl⟩ := List.mem_map.1 (List.mem_reverse.1 hd)
  have hle : b.toNat ≤ 55 := UInt8.le_iff_toNat_le.1 (h.2 b hb)
  omega

/-- The two bases make a difference for an octal literal that is not less than 8, and for no other literal. -/
theorem valueIn_integerBase_iff (t : Text) :
    valueIn (integerBase t) t = valueIn 10 t ↔ ¬(isLegacyOctal t = true ∧ 8 ≤ valueIn 10 t) := by
  cases hoctal : isLegacyOctal t with
  | false => simp [integerBase, hoctal]
  | true =>
    have hiff : valueIn 8 t = valueIn 10 t ↔ valueIn 10 t < 8 := ofDigits_octal_iff (digit_lt_of_legacyOctal hoctal)
    simpa [integerBase, hoctal] using hiff

theorem valueIn_integerBase_le (t : Text) : valueIn (integerBase t) t ≤ valueIn 10 t := by
  refine Nat.ofDigits_monotone _ ?_
  unfold integerBase
  split <;> decide

/-- Up to `2 ^ 53`, an integer literal denotes the number that its digits spell. -/
theorem integer?_digits {t : Text} (hne : t ≠ []) (hds : ∀ b ∈ t, isDigit b = true) (hv : valueIn 10 t ≤ 2 ^ 53) :
    integer? t = some (valueIn (integerBase t) t) := by
  have hvalue := (valueIn_integerBase_le t).trans hv
  have hempty : t.isEmpty = false := by rwa [List.isEmpty_eq_false_iff]
  have hall : t.all isDigit = true := List.all_eq_true.2 hds
  have hpowers : 2 ^ 53 < 2 ^ 1024 := pow_lt_pow_right₀ Nat.one_lt_two (by decide)
  have hrange : valueIn (integerBase t) t < 2 ^ 1024 := hvalue.trans_lt hpowers
  unfold integer?
  rw [if_neg (by simp [hempty, hall])]
  dsimp only
  rw [nearestNumber_of_le hvalue, if_pos hrange]

/-! ## Literals read alone -/

/-- A piece that stands alone is read as one token. -/
theorem scan_alone {p : Piece} {u : Token} (hu : token? p = some u) (hs : p.Spelled)
    (hn : ∀ t, p = .number t → Numeric t) (hp : p.precedes none) : scan 0 p.text = some [u] := by
  have hscan : scan 0 (p.text ++ []) = (scan 0 []).map ((token? p).toList ++ ·) := scan_piece hs hn hp
  rw [List.append_nil, hu] at hscan
  rw [hscan]
  rfl

theorem numeric_digits {t : Text} (hne : t ≠ []) (hds : ∀ b ∈ t, isDigit b = true) : Numeric t := by
  simpa using (numeric_iff (numberForm_digits hne hds)).2 fun _ => ⟨rfl, rfl⟩

/-- What becomes of an integer of the source, of at most `2 ^ 53`. Rendering gives its text, which JavaScript reads as
one number; evaluating gives an integer. The two are the same unless the text is an octal literal and the integer is
not less than 8. -/
theorem rendered_integer_iff {source : Text} {tabWidth : Int} {t : Offside.Token}
    (ht : t ∈ (tokenize source tabWidth).tokens) (hk : t.kind = .number) (hs : t.subtype = .literal .integer)
    (hv : valueIn 10 t.literal ≤ 2 ^ 53) :
    ∃ (text : Text) (v : Nat) (n : Int64), (Expr.literal .number t.literal).render = some text ∧
      scan 0 text = some [.number text] ∧ integer? text = some v ∧
      (Expr.literal .number t.literal).evaluate = .ok (.int n) ∧
      ((v : Int) = n.toInt ↔ ¬(isLegacyOctal t.literal = true ∧ 8 ≤ valueIn 10 t.literal)) := by
  have hread : Read t := Scanner.run_read _ t ht (by rw [hk]; rfl)
  have hemits : Emits .number t.literal := hk ▸ emits_of_read hread
  rcases number_cases hread hk with ⟨-, hne, hdigits⟩ | ⟨hfloat, -⟩
  · obtain ⟨n, hn, hvalue⟩ := Value.readNumber_digits hne hdigits (by omega)
    refine ⟨t.literal, _, n, rfl, ?_, integer?_digits hne hdigits hv, ?_, ?_⟩
    · refine scan_alone (p := .number t.literal) rfl hemits (fun u hu => ?_) nofun
      cases hu
      exact numeric_digits hne hdigits
    · rw [Expr.evaluate, Expr.evaluateLiteral, hvalue]
      rfl
    · rw [hn, Int.natCast_inj, valueIn_integerBase_iff]
  · rw [hs] at hfloat
    cases hfloat

/-- `010` is evaluated as ten and rendered as it stands, which JavaScript reads as eight. -/
theorem leading_zero_changes_value :
    ∃ t ∈ (tokenize "010\n" 4).tokens, t.kind = .number ∧ t.subtype = .literal .integer ∧
      valueIn 10 t.literal ≤ 2 ^ 53 ∧ (Expr.literal .number t.literal).render = some "010" ∧
      integer? "010" = some 8 ∧ (Expr.literal .number t.literal).evaluate = .ok (.int 10) := by
  refine ⟨⟨.number, .literal .integer, "010", 1, 1⟩, by decide +kernel, rfl, rfl, by decide +kernel, rfl,
    by decide +kernel, ?_⟩
  rfl

/-- An 8 behind zeros makes a decimal literal, which keeps its value. -/
theorem rendered_integer_iff_eight :
    ∃ t ∈ (tokenize "0080\n" 4).tokens, t.kind = .number ∧ t.subtype = .literal .integer ∧
      valueIn 10 t.literal ≤ 2 ^ 53 ∧ isLegacyOctal t.literal = false ∧
      ∃ (text : Text) (v : Nat) (n : Int64), (Expr.literal .number t.literal).render = some text ∧
        integer? text = some v ∧ (Expr.literal .number t.literal).evaluate = .ok (.int n) ∧ (v : Int) = n.toInt := by
  have ht : (⟨.number, .literal .integer, "0080", 1, 1⟩ : Offside.Token) ∈ (tokenize "0080\n" 4).tokens := by
    decide +kernel
  have hsmall : valueIn 10 "0080" ≤ 2 ^ 53 := by decide +kernel
  have hdecimal : isLegacyOctal "0080" = false := by decide +kernel
  obtain ⟨text, v, n, hrender, -, hv, hn, hsame⟩ := rendered_integer_iff ht rfl rfl hsmall
  refine ⟨_, ht, rfl, rfl, hsmall, hdecimal, text, v, n, hrender, hv, hn, hsame.2 fun hoctal => ?_⟩
  exact absurd (hdecimal.symm.trans hoctal.1) (by decide)

/-! ## Strings -/

/-- The value of the string between single quotes at the start of a text, and what stands behind it. -/
def stringLiteral? : Text → Option (Text × Text)
  | [] => none
  | b :: s => if b = 39 then (stringBody 39 s).map fun (v, n) => (v, s.drop n) else none

/-- A text on one line is read back from between the quotes, whatever stands behind them. -/
theorem stringLiteral?_quoted {text : Text} (h : ∀ b ∈ text, isLineEnd b = false) (rest : Text) :
    stringLiteral? (quoteJavaScript text ++ rest) = some (text, rest) := by
  rw [quoteJavaScript_eq, List.cons_append, List.append_assoc, List.singleton_append, stringLiteral?, if_pos rfl,
    stringBody_escaped h rest, Option.map_some]
  dsimp only
  rw [List.drop_length_add_append, List.drop_one, List.tail_cons]

theorem in_line_of_read {t : Offside.Token} (h : Read t) (hk : t.kind = .string) :
    ∀ b ∈ t.literal, isLineEnd b = false := by
  obtain ⟨b, s, x, hx, hkind, -, hliteral⟩ := h
  rw [hliteral]
  exact Grammar.string_in_line hx (hkind ▸ hk)

/-- A text without line ends that is put between quotes is read back from there, whatever stands behind it: the
literal ends where it was ended, and its value is the text. So every string of the source, with either sort of quotes,
is rendered as a literal of JavaScript whose value is that of the string. -/
theorem rendered_string :
    (∀ text rest : Text, (∀ b ∈ text, isLineEnd b = false) →
      stringLiteral? (quoteJavaScript text ++ rest) = some (text, rest)) ∧
    ∀ (source : Text) (tabWidth : Int), ∀ t ∈ (tokenize source tabWidth).tokens, t.kind = .string →
      (∀ b ∈ t.literal, isLineEnd b = false) ∧
      ∃ text v : Text, (Expr.literal .string t.literal).render = some text ∧
        (Expr.literal .string t.literal).evaluate = .ok (.str v) ∧
        scan 0 text = some [.string v] ∧ ∀ rest, stringLiteral? (text ++ rest) = some (v, rest) := by
  refine ⟨fun text rest h => stringLiteral?_quoted h rest, fun source tabWidth t ht hk => ?_⟩
  have hline := in_line_of_read (Scanner.run_read _ t ht (by rw [hk]; rfl)) hk
  refine ⟨hline, quoteJavaScript t.literal, t.literal, rfl, rfl, ?_, stringLiteral?_quoted hline⟩
  exact scan_alone (p := .string t.literal) rfl hline nofun trivial

/-- A backslash before a quote, between quotes of the other sort, and a backslash at the end. -/
theorem rendered_string_backslashes :
    ∃ t ∈ (tokenize "\"\\'\" '\\'\n" 4).tokens, ∃ u ∈ (tokenize "\"\\'\" '\\'\n" 4).tokens,
      (t.subtype = .literal .doubleQuote ∧ t.literal = "\\'" ∧
        stringLiteral? (quoteJavaScript t.literal ++ "+1") = some (t.literal, ("+1" : Text))) ∧
      u.subtype = .literal .singleQuote ∧ u.literal = "\\" ∧
        ∃ text v : Text, (Expr.literal .string u.literal).render = some text ∧
          (Expr.literal .string u.literal).evaluate = .ok (.str v) ∧ scan 0 text = some [.string v] := by
  have ht : (⟨.string, .literal .doubleQuote, "\\'", 1, 1⟩ : Offside.Token) ∈
      (tokenize "\"\\'\" '\\'\n" 4).tokens := by decide +kernel
  have hu : (⟨.string, .literal .singleQuote, "\\", 1, 6⟩ : Offside.Token) ∈
      (tokenize "\"\\'\" '\\'\n" 4).tokens := by decide +kernel
  obtain ⟨hquoted, hstrings⟩ := rendered_string
  obtain ⟨-, text, v, hrender, hvalue, hscan, -⟩ := hstrings _ _ _ hu rfl
  exact ⟨_, ht, _, hu, ⟨rfl, rfl, hquoted _ _ (by decide +kernel)⟩, rfl, rfl, text, v, hrender, hvalue, hscan⟩

end Offside.JavaScript
