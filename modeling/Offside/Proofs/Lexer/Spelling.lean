import Offside.Proofs.Lexer.Lexeme
import Offside.Proofs.Lexer.Run

/-!
# Lexemes and their spellings

A string is spelled with its quotes, and every other lexeme as its literal. A lexeme is read from the start
of a text in few ways (`Spells`). Main statements: its spelling is what the text begins with, and lies on one
line (`first_start`), and wherever that spelling stands before a blank or the end of a line, the same lexeme
is read again (`first_again`).
-/

namespace Offside

/-- A literal as it is written: a string between its quotes, any other as it is. -/
def Token.Subtype.spell : Token.Subtype → Text → Text
  | .literal .singleQuote, text => 39 :: (text ++ [39])
  | .literal .doubleQuote, text => 34 :: (text ++ [34])
  | _, text => text

/-- How a content token is written. -/
def Token.spelling (t : Token) : Text := t.subtype.spell t.literal

namespace Lexeme

/-- How a lexeme is written. -/
def spelling (x : Lexeme) : Text := x.subtype.spell x.literal

/-! ## What stands at the start of a text -/

/-- The ways to read a lexeme at the start of `b :: s`. -/
inductive Spells (b : UInt8) (s : Text) : Lexeme → Prop
  | number (h : (Text.isDigit b || (b == 46 && startsWithDigit s)) = true) : Spells b s (number (b :: s))
  | word (h : isWordStart b = true) : Spells b s (word (b :: s))
  | string {body rest : Text} (hq : isQuote b = true) (hbody : ∀ c ∈ body, (c != b && !isLineEnd c) = true)
      (hs : s = body ++ b :: rest) : Spells b s ⟨.string, .literal (quoteForm b), body, body.length + 2⟩
  | bracket {k : Bracket} (h : Bracket.ofByte? b = some k) : Spells b s ⟨.bracket, .bracket k, [b], 1⟩
  | delimiter {d : Delimiter} (h : Delimiter.ofByte? b = some d) : Spells b s ⟨.delimiter, .delimiter d, [b], 1⟩
  | operator {o : Operator} {width : Nat} (h : operator? b s.head? = some (o, width)) :
      Spells b s ⟨.operator, .operator o, (b :: s).take width, width⟩

theorem spells_string {q : UInt8} {s : Text} {x : Lexeme} (hq : isQuote q = true) (h : string q s = .ok x) :
    Spells q s x := by
  simp only [Lexeme.string] at h
  split at h
  · cases h
  · next b rest hdrop =>
    split at h
    · next hb =>
      subst hb
      cases h
      have hbody : s.takeWhile (fun c => c != b && !isLineEnd c) <+: s := List.takeWhile_prefix _
      refine .string hq (fun c hc => ?_) ((List.prefix_iff_eq_append.1 hbody).symm.trans (by rw [hdrop]))
      exact List.mem_takeWhile_imp (p := fun c => c != b && !isLineEnd c) hc
    · cases h

/-- A lexeme is read in one of these ways. -/
theorem spells_of_first {b : UInt8} {s : Text} {x : Lexeme} (h : first b s = .ok x) : Spells b s x := by
  unfold first at h
  split at h
  · next hb =>
    cases h
    exact .number hb
  · split at h
    · next hb =>
      cases h
      exact .word hb
    · split at h
      · next hq => exact spells_string hq h
      · split at h
        · next hk =>
          cases h
          exact .bracket hk
        · split at h
          · next hd =>
            cases h
            exact .delimiter hd
          · split at h
            · next ho =>
              cases h
              exact .operator ho
            · cases h

/-! ## The parts of a number -/

theorem prefix_join {w t s : Text} (hw : w <+: s) (ht : t <+: s.drop w.length) : w ++ t <+: s := by
  obtain ⟨rest, rfl⟩ := hw
  rw [List.drop_left] at ht
  exact (List.prefix_append_right_inj w).2 ht

theorem prefix_fraction (s : Text) : fraction s <+: s := by
  unfold fraction
  split
  · exact List.prefix_rfl
  · split
    · exact (List.prefix_cons_inj _).2 (List.takeWhile_prefix _)
    · exact List.nil_prefix

theorem prefix_sign (s : Text) : sign s <+: s := by
  unfold sign
  split
  · exact List.prefix_rfl
  · split
    · exact (List.prefix_cons_inj _).2 List.nil_prefix
    · exact List.nil_prefix

theorem prefix_exponent (s : Text) : exponent s <+: s := by
  unfold exponent
  split
  · exact List.prefix_rfl
  · next b s =>
    split
    · dsimp only
      split
      · exact List.nil_prefix
      · exact (List.prefix_cons_inj _).2 (prefix_join (prefix_sign s) (List.takeWhile_prefix _))
    · exact List.nil_prefix

theorem prefix_number (s : Text) : (number s).literal <+: s := by
  have hpart := prefix_join (List.takeWhile_prefix Text.isDigit) (prefix_fraction (s.drop (s.takeWhile Text.isDigit).length))
  refine prefix_join hpart ?_
  rw [List.length_append, ← List.drop_drop]
  exact prefix_exponent _

/-- A number is written on one line. -/
theorem NumberForm.in_line {whole part power : Text} (h : NumberForm whole part power) :
    ∀ b ∈ whole ++ part ++ power, isLineEnd b = false := by
  intro b hb
  rcases h.mem b hb with hdigit | hmark
  · simp only [Text.isDigit, isLineEnd] at hdigit ⊢
    grind
  · have hmarks : ∀ c ∈ ([46, 101, 69, 43, 45] : List UInt8), isLineEnd c = false := by decide +kernel
    exact hmarks b hmark

/-! ## The start of a text -/

theorem spelling_number (s : Text) : (number s).spelling = (number s).literal := by
  simp only [number, spelling]
  split <;> rfl

theorem spell_classify (w text : Text) : (classify w).2.spell text = text := by
  unfold classify
  split
  · rfl
  · split <;> rfl

theorem spell_quoteForm {q : UInt8} (hq : isQuote q = true) (text : Text) :
    (Token.Subtype.literal (quoteForm q)).spell text = q :: (text ++ [q]) := by
  simp only [isQuote, Bool.or_eq_true, beq_iff_eq] at hq
  rcases hq with rfl | rfl <;> rfl

section
variable {b : UInt8} {s : Text} {x : Lexeme}

theorem word_in_line {w : Text} (h : ∀ c ∈ w, isWordPart c = true) : ∀ c ∈ w, isLineEnd c = false := by
  intro c hc
  have hc := h c hc
  simp only [isWordPart, isWordStart, Text.isLetter, Text.isLower, Text.isUpper, Text.isDigit, isLineEnd] at hc ⊢
  grind

/-- The bytes that operators begin with. -/
def operatorBytes : List UInt8 := [43, 45, 42, 47, 37, 60, 62, 61, 33]

theorem mem_operatorBytes {next : Option UInt8} {o : Operator} {width : Nat} (h : operator? b next = some (o, width)) :
    b ∈ operatorBytes := by
  by_contra hb
  simp only [operatorBytes, List.mem_cons, List.not_mem_nil, or_false, not_or] at hb
  simp [operator?, hb] at h

/-- An operator takes one byte, and then only a second star or an equals sign would go on with it, or two. -/
theorem operator?_cases {next : Option UInt8} {o : Operator} {width : Nat} (h : operator? b next = some (o, width)) :
    (width = 1 ∧ ∀ c, c ≠ 42 → c ≠ 61 → operator? b (some c) = some (o, 1)) ∨
      width = 2 ∧ ∃ c, next = some c ∧ (c = 42 ∨ c = 61) := by
  have hb := mem_operatorBytes h
  simp only [operatorBytes, List.mem_cons, List.not_mem_nil, or_false] at hb
  rcases hb with rfl | rfl | rfl | rfl | rfl | rfl | rfl | rfl | rfl <;> grind [operator?]

/-- What a lexeme is read from: its spelling stands at the start of the text, and on one line. -/
theorem first_start (h : first b s = .ok x) :
    x.spelling <+: b :: s ∧ x.width = x.spelling.length ∧ ∀ c ∈ x.spelling, isLineEnd c = false := by
  have hb := (first_content h).2.1
  cases spells_of_first h with
  | number hstart =>
    obtain ⟨part, power, hform, hnumber⟩ := number_form hstart
    rw [spelling_number]
    refine ⟨prefix_number (b :: s), rfl, ?_⟩
    rw [hnumber]
    exact hform.in_line
  | word hstart =>
    have hspelling : (Lexeme.word (b :: s)).spelling = (b :: s).takeWhile isWordPart := spell_classify _ _
    rw [hspelling]
    exact ⟨List.takeWhile_prefix _, rfl, word_in_line fun c hc => List.mem_takeWhile_imp hc⟩
  | @string body rest hq hbody hs =>
    rw [spelling, spell_quoteForm hq, hs]
    refine ⟨⟨rest, by simp⟩, by simp, ?_⟩
    intro c hc
    simp only [List.mem_cons, List.mem_append, List.not_mem_nil, or_false] at hc
    rcases hc with rfl | hc | rfl
    · exact hb
    · simpa using (Bool.and_eq_true_iff.1 (hbody c hc)).2
    · exact hb
  | bracket hk => exact ⟨⟨s, rfl⟩, rfl, List.forall_mem_singleton.2 hb⟩
  | delimiter hd => exact ⟨⟨s, rfl⟩, rfl, List.forall_mem_singleton.2 hb⟩
  | operator ho =>
    refine ⟨List.take_prefix _ _, ?_⟩
    rcases operator?_cases ho with ⟨rfl, -⟩ | ⟨rfl, c, hnext, hc⟩
    · exact ⟨rfl, List.forall_mem_singleton.2 hb⟩
    · obtain ⟨rest, rfl⟩ := List.head?_eq_some_iff.1 hnext
      refine ⟨rfl, List.forall_mem_cons.2 ⟨hb, List.forall_mem_singleton.2 ?_⟩⟩
      rcases hc with rfl | rfl <;> rfl

/-! ## The same lexeme elsewhere -/

/-- A blank and a line feed go on with no number. -/
theorem not_numberPart {c : UInt8} (hc : c = 32 ∨ c = 10) : isNumberPart c = false := by
  rcases hc with rfl | rfl <;> rfl

theorem not_wordPart {c : UInt8} (hc : c = 32 ∨ c = 10) : isWordPart c = false := by
  rcases hc with rfl | rfl <;> rfl

theorem first_of_string {body rest : Text} {q : UInt8} (hq : isQuote q = true)
    (hbody : ∀ c ∈ body, (c != q && !isLineEnd c) = true) :
    first q (body ++ q :: rest) = .ok ⟨.string, .literal (quoteForm q), body, body.length + 2⟩ := by
  have hstop : ∀ c ∈ (q :: rest).head?, (c != q && !isLineEnd c) = false := by simp
  have hstring : string q (body ++ q :: rest) = .ok ⟨.string, .literal (quoteForm q), body, body.length + 2⟩ := by
    simp only [string, takeWhile_stop hbody hstop, List.drop_left, if_true]
  have hfirst : ∀ t, first q t = string q t := by
    simp only [isQuote, Bool.or_eq_true, beq_iff_eq] at hq
    rcases hq with rfl | rfl <;> exact fun _ => rfl
  rw [hfirst, hstring]

theorem first_of_bracket {k : Bracket} (h : Bracket.ofByte? b = some k) (t : Text) :
    first b t = .ok ⟨.bracket, .bracket k, [b], 1⟩ := by
  have hb : b = 40 ∨ b = 41 ∨ b = 91 ∨ b = 93 ∨ b = 123 ∨ b = 125 := by
    unfold Bracket.ofByte? at h
    grind
  rcases hb with rfl | rfl | rfl | rfl | rfl | rfl <;> cases h <;> rfl

/-- A dot is a delimiter where no digit follows. -/
theorem first_of_delimiter {d : Delimiter} (h : Delimiter.ofByte? b = some d) {t : Text}
    (ht : startsWithDigit t = false) : first b t = .ok ⟨.delimiter, .delimiter d, [b], 1⟩ := by
  have hb : b = 44 ∨ b = 58 ∨ b = 46 ∨ b = 59 := by
    unfold Delimiter.ofByte? at h
    grind
  rcases hb with rfl | rfl | rfl | rfl <;> cases h
  · rfl
  · rfl
  · have hnumber : ¬(Text.isDigit 46 || ((46 : UInt8) == 46 && startsWithDigit t)) = true := by simp [ht, Text.isDigit]
    rw [first, if_neg hnumber]
    rfl
  · rfl

theorem first_of_operator {o : Operator} {width : Nat} {t : Text} (h : operator? b t.head? = some (o, width)) :
    first b t = .ok ⟨.operator, .operator o, (b :: t).take width, width⟩ := by
  have hb := mem_operatorBytes h
  simp only [operatorBytes, List.mem_cons, List.not_mem_nil, or_false] at hb
  have hnumber : (Text.isDigit b || (b == 46 && startsWithDigit t)) = false := by
    rcases hb with rfl | rfl | rfl | rfl | rfl | rfl | rfl | rfl | rfl <;> rfl
  have hother : isWordStart b = false ∧ isQuote b = false ∧ Bracket.ofByte? b = none ∧ Delimiter.ofByte? b = none := by
    rcases hb with rfl | rfl | rfl | rfl | rfl | rfl | rfl | rfl | rfl <;> decide
  obtain ⟨hword, hquote, hbracket, hdelimiter⟩ := hother
  simp [first, hnumber, hword, hquote, hbracket, hdelimiter, h]

theorem first_spelling (h : first b s = .ok x) : ∃ w, x.spelling = b :: w := by
  obtain ⟨hbegins, hwidth, -⟩ := first_start h
  have hpos := (first_ok h).1
  cases hx : x.spelling with
  | nil => simp [hx] at hwidth; omega
  | cons c w =>
    rw [hx, List.cons_prefix_cons] at hbegins
    exact ⟨w, by rw [hbegins.1]⟩

/-- Where its spelling stands before a blank or a line feed, the same lexeme is read again. -/
theorem first_again (h : first b s = .ok x) {c : UInt8} (hc : c = 32 ∨ c = 10) (rest : Text) :
    ∃ t, x.spelling ++ c :: rest = b :: t ∧ first b t = .ok x := by
  obtain ⟨w, hw⟩ := first_spelling h
  refine ⟨w ++ c :: rest, by rw [hw, List.cons_append], ?_⟩
  cases spells_of_first h with
  | number hstart =>
    obtain ⟨part, power, hform, hnumber⟩ := number_form hstart
    have hstop : ∀ d ∈ (c :: rest).head?, isNumberPart d = false := by simpa using not_numberPart hc
    have hspelling : (b :: s).takeWhile Text.isDigit ++ part ++ power = b :: w := by
      rw [← hw, spelling_number, hnumber]
    rw [hnumber]
    refine first_of_number hform hstop ?_
    rw [← List.append_assoc, ← List.append_assoc, hspelling, List.cons_append]
  | word hstart =>
    have hstop : ∀ d ∈ (c :: rest).head?, isWordPart d = false := by simpa using not_wordPart hc
    have hspelling : (Lexeme.word (b :: s)).literal = b :: w := (spell_classify _ _).symm.trans hw
    rw [first_of_word (isWord_word hstart) hstop (by rw [hspelling, List.cons_append])]
    rfl
  | @string body rest hq hbody hs =>
    rw [spelling, spell_quoteForm hq, List.cons.injEq] at hw
    rw [← hw.2, List.append_assoc]
    exact first_of_string hq hbody
  | bracket hk => exact first_of_bracket hk _
  | delimiter hd =>
    cases hw
    exact first_of_delimiter hd (by rcases hc with rfl | rfl <;> rfl)
  | operator ho =>
    rcases operator?_cases ho with ⟨rfl, hone⟩ | ⟨rfl, d, hnext, -⟩
    · cases hw
      have hother : c ≠ 42 ∧ c ≠ 61 := by rcases hc with rfl | rfl <;> decide
      exact first_of_operator (t := c :: rest) (hone c hother.1 hother.2)
    · obtain ⟨s, rfl⟩ := List.head?_eq_some_iff.1 hnext
      cases hw
      exact first_of_operator (t := d :: c :: rest) ho

end

end Lexeme

end Offside
