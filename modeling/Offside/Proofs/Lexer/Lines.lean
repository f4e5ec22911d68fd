import Offside.Proofs.Lexer.Spelling

/-!
# Lines

A step of a scan looks at the line in which the scan stands and no further: which lexeme stands there, what the step
yields and how far it goes depend on that line only, and on whether another line follows (`step_moves`). So texts
with the same lines are read alike, whatever bytes end the lines (`run_lines`). Main statement: a source may end its
lines with a line feed, a carriage return or both (`tokenize_lineEnds`).
-/

namespace Offside

open Lexeme

namespace Text

/-! ## The lines of a text -/

/-- The first line of a text, without its end. -/
def line (s : Text) : Text := s.takeWhile fun b => !isLineEnd b

/-- What stands behind the first line: its end, and the lines that follow. -/
def behind (s : Text) : Text := s.dropWhile fun b => !isLineEnd b

/-- The lines of a text, without their ends. A carriage return and a line feed together are one end. -/
def lines : Text → List Text
  | [] => [[]]
  | b :: s =>
    if b = 10 ∨ (b = 13 ∧ s.head? ≠ some 10) then [] :: lines s
    else if b = 13 then lines s
    else match lines s with
      | [] => [[b]]
      | l :: ls => (b :: l) :: ls

example : lines "a\r\nb\rc\n\n" = [[97], [98], [99], [], []] := by decide +kernel

/-- The texts begin with the same line, and a further line follows in both or in none. -/
structure SameLine (s t : Text) : Prop where
  line : t.line = s.line
  behind : t.behind = [] ↔ s.behind = []

section
variable {b : UInt8} {s t : Text}

theorem line_append_behind (s : Text) : s.line ++ s.behind = s := List.takeWhile_append_dropWhile

theorem mem_line (h : b ∈ s.line) : isLineEnd b = false := by
  simpa using List.mem_takeWhile_imp (p := fun b => !isLineEnd b) h

theorem head_behind {rest : Text} (h : s.behind = b :: rest) : isLineEnd b = true := by
  have hhead := List.head?_dropWhile_not (fun b => !isLineEnd b) s
  unfold behind at h
  simpa [h] using hhead

theorem line_cons (hb : isLineEnd b = false) : line (b :: s) = b :: s.line := by simp [line, hb]

theorem behind_cons (hb : isLineEnd b = false) : behind (b :: s) = s.behind := by simp [behind, hb]

theorem line_cons_end (hb : isLineEnd b = true) : line (b :: s) = [] := by simp [line, hb]

theorem behind_cons_end (hb : isLineEnd b = true) : behind (b :: s) = b :: s := by simp [behind, hb]

theorem drop_length_line (s : Text) : s.drop s.line.length = s.behind := by
  calc s.drop s.line.length = (s.line ++ s.behind).drop s.line.length := by rw [line_append_behind]
    _ = s.behind := List.drop_left

theorem SameLine.refl (s : Text) : SameLine s s := ⟨rfl, Iff.rfl⟩

theorem SameLine.nil (h : SameLine [] t) : t = [] := by
  rw [← line_append_behind t, h.line, h.behind.2 rfl]
  rfl

theorem SameLine.cons_end (h : SameLine (b :: s) t) (hb : isLineEnd b = true) :
    ∃ c rest, t = c :: rest ∧ isLineEnd c = true := by
  have ht : t.behind = t := by
    have hline := h.line
    rw [line_cons_end hb] at hline
    simpa [hline] using line_append_behind t
  obtain ⟨c, rest, hc⟩ := List.exists_cons_of_ne_nil (mt h.behind.1 (by simp [behind_cons_end hb]))
  exact ⟨c, rest, ht ▸ hc, head_behind hc⟩

theorem SameLine.cons (h : SameLine (b :: s) t) (hb : isLineEnd b = false) :
    ∃ rest, t = b :: rest ∧ SameLine s rest := by
  have ht : t = b :: (s.line ++ t.behind) := by
    rw [← List.cons_append, ← line_cons hb, ← h.line, line_append_behind]
  generalize s.line ++ t.behind = rest at ht
  subst ht
  obtain ⟨hline, hbehind⟩ := h
  rw [line_cons hb, line_cons hb, List.cons.injEq] at hline
  rw [behind_cons hb, behind_cons hb] at hbehind
  exact ⟨rest, rfl, hline.2, hbehind⟩

/-! ### Within a line -/

theorem takeWhile_line {p : UInt8 → Bool} (hp : ∀ b, isLineEnd b = true → p b = false) (s : Text) :
    s.line.takeWhile p = s.takeWhile p := by
  induction s with
  | nil => rfl
  | cons b s ih =>
    cases hb : isLineEnd b with
    | true => simp [line_cons_end hb, hp b hb]
    | false => rw [line_cons hb, List.takeWhile_cons, List.takeWhile_cons, ih]

/-- Behind some bytes of the line the rest of the line follows. -/
theorem line_drop {n : Nat} (h : n ≤ s.line.length) :
    line (s.drop n) = s.line.drop n ∧ behind (s.drop n) = s.behind := by
  induction n generalizing s with
  | zero => exact ⟨rfl, rfl⟩
  | succ n ih =>
    cases s with
    | nil => exact ⟨rfl, rfl⟩
    | cons b s =>
      cases hb : isLineEnd b with
      | true => simp [line_cons_end hb] at h
      | false =>
        rw [line_cons hb, List.length_cons] at h
        rw [line_cons hb, behind_cons hb]
        exact ih (by omega)

theorem drop_line {n : Nat} (h : n ≤ s.line.length) : s.line.drop n = line (s.drop n) := (line_drop h).1.symm

/-- A function that takes the end of a line for the end of the text depends on the first line only. -/
theorem apply_line {α : Type} {f : Text → α} (hend : ∀ b s, isLineEnd b = true → f (b :: s) = f [])
    (hcons : ∀ b s, isLineEnd b = false → f (b :: line s) = f (b :: s)) (s : Text) : f s.line = f s := by
  cases s with
  | nil => rfl
  | cons b s =>
    cases hb : isLineEnd b with
    | true => rw [line_cons_end hb, hend b s hb]
    | false => rw [line_cons hb, hcons b s hb]

theorem SameLine.drop (h : SameLine s t) {n : Nat} (hn : n ≤ s.line.length) : SameLine (s.drop n) (t.drop n) := by
  obtain ⟨hline, hbehind⟩ := line_drop hn
  obtain ⟨hline', hbehind'⟩ := line_drop (s := t) (h.line ▸ hn)
  exact ⟨by rw [hline, hline', h.line], by rw [hbehind, hbehind', h.behind]⟩

/-! ### Line by line -/

theorem lines_cons (hb : isLineEnd b = false) {l : Text} {ls : List Text} (hs : s.lines = l :: ls) :
    lines (b :: s) = (b :: l) :: ls := by
  simp only [isLineEnd, Bool.or_eq_false_iff, beq_eq_false_iff_ne] at hb
  simp [lines, hb, hs]

theorem lines_cons_end (hb : isLineEnd b = true) : lines (b :: s) = [] :: (Scanner.afterLineEnd (b :: s)).lines := by
  simp only [isLineEnd, Bool.or_eq_true, beq_iff_eq] at hb
  rcases hb with rfl | rfl
  · simp [lines, Scanner.afterLineEnd]
  · cases s with
    | nil => simp [lines, Scanner.afterLineEnd]
    | cons c s =>
      by_cases hc : c = 10
      · subst hc
        simp [lines, Scanner.afterLineEnd]
      · simp [lines, Scanner.afterLineEnd, hc]

/-- The lines of a text are the first one and those behind its end. -/
theorem lines_eq (s : Text) :
    s.lines = s.line :: if s.behind = [] then [] else (Scanner.afterLineEnd s.behind).lines := by
  induction s with
  | nil => rfl
  | cons b s ih =>
    cases hb : isLineEnd b with
    | true => rw [lines_cons_end hb, line_cons_end hb, behind_cons_end hb, if_neg (List.cons_ne_nil b s)]
    | false => rw [lines_cons hb ih, line_cons hb, behind_cons hb]

theorem lines_ne_nil (s : Text) : s.lines ≠ [] := by
  rw [lines_eq]
  exact List.cons_ne_nil _ _

theorem lines_drop {n : Nat} (h : n ≤ s.line.length) : lines (s.drop n) = s.line.drop n :: s.lines.tail := by
  rw [lines_eq (s.drop n), lines_eq s, (line_drop h).1, (line_drop h).2, List.tail_cons]

/-- Texts with the same lines begin with the same one, and have the same lines behind it. -/
theorem lines_congr (h : t.lines = s.lines) :
    SameLine s t ∧ (s.behind ≠ [] → (Scanner.afterLineEnd t.behind).lines = (Scanner.afterLineEnd s.behind).lines) := by
  rw [lines_eq s, lines_eq t, List.cons.injEq] at h
  obtain ⟨hline, hrest⟩ := h
  by_cases hs : s.behind = [] <;> by_cases ht : t.behind = []
  · exact ⟨⟨hline, by simp [hs, ht]⟩, fun h => absurd hs h⟩
  · rw [if_neg ht, if_pos hs] at hrest
    exact absurd hrest (lines_ne_nil _)
  · rw [if_pos ht, if_neg hs] at hrest
    exact absurd hrest.symm (lines_ne_nil _)
  · rw [if_neg ht, if_neg hs] at hrest
    exact ⟨⟨hline, by simp [hs, ht]⟩, fun _ => hrest⟩

end

end Text

/-! ## Lexemes in their line -/

theorem lineEnd_cases {b : UInt8} (hb : isLineEnd b = true) : b = 10 ∨ b = 13 := by
  simpa [isLineEnd] using hb

namespace Rune

theorem isTail_lineEnd {b : UInt8} (hb : isLineEnd b = true) : isTail b = false := by
  rcases lineEnd_cases hb with rfl | rfl <;> rfl

theorem low_lineEnd {b : UInt8} (hb : isLineEnd b = true) (p : Prop) [Decidable p] :
    (¬(if p then 0xA0 else 0x80) ≤ b) ∧ ¬(if p then 0x90 else 0x80) ≤ b := by
  rcases lineEnd_cases hb with rfl | rfl <;> constructor <;> split <;> decide

/-- No character has a line end among its bytes but its first. -/
theorem first_line (b : UInt8) (s : Text) : first b s.line = first b s := by
  rcases s with _ | ⟨c₁, _ | ⟨c₂, _ | ⟨c₃, s⟩⟩⟩
  · rfl
  · cases h₁ : isLineEnd c₁ <;> simp [Text.line, h₁, first, isTail_lineEnd]
  · cases h₁ : isLineEnd c₁ <;> cases h₂ : isLineEnd c₂ <;>
      simp [Text.line, h₁, h₂, first, isTail_lineEnd, low_lineEnd]
  · cases h₁ : isLineEnd c₁ <;> cases h₂ : isLineEnd c₂ <;> cases h₃ : isLineEnd c₃ <;>
      simp [Text.line, h₁, h₂, h₃, first, isTail_lineEnd, low_lineEnd]

end Rune

namespace Lexeme

open Text

theorem isDigit_lineEnd {b : UInt8} (hb : isLineEnd b = true) : Text.isDigit b = false := by
  rcases lineEnd_cases hb with rfl | rfl <;> rfl

theorem isWordPart_lineEnd {b : UInt8} (hb : isLineEnd b = true) : isWordPart b = false := by
  rcases lineEnd_cases hb with rfl | rfl <;> rfl

theorem startsWithDigit_line (s : Text) : startsWithDigit s.line = startsWithDigit s :=
  apply_line (fun _ _ hb => isDigit_lineEnd hb) (fun _ _ _ => rfl) s

theorem fraction_line (s : Text) : fraction s.line = fraction s := by
  refine apply_line (fun b s hb => ?_) (fun b s _ => ?_) s
  · rcases lineEnd_cases hb with rfl | rfl <;> rfl
  · rw [fraction, fraction, takeWhile_line fun _ => isDigit_lineEnd]

theorem sign_line (s : Text) : sign s.line = sign s := by
  refine apply_line (fun b s hb => ?_) (fun _ _ _ => rfl) s
  rcases lineEnd_cases hb with rfl | rfl <;> rfl

theorem length_sign_le (s : Text) : (sign s).length ≤ s.line.length := sign_line s ▸ (prefix_sign s.line).length_le

theorem length_fraction_le (s : Text) : (fraction s).length ≤ s.line.length :=
  fraction_line s ▸ (prefix_fraction s.line).length_le

theorem exponent_line (s : Text) : exponent s.line = exponent s := by
  refine apply_line (fun b s hb => ?_) (fun b s _ => ?_) s
  · rcases lineEnd_cases hb with rfl | rfl <;> rfl
  · rw [exponent, exponent, sign_line, drop_line (length_sign_le s), takeWhile_line fun _ => isDigit_lineEnd]

theorem number_line (s : Text) : number s.line = number s := by
  have hwhole : s.line.takeWhile Text.isDigit = s.takeWhile Text.isDigit := takeWhile_line (fun _ => isDigit_lineEnd) s
  have hlength : (s.takeWhile Text.isDigit).length ≤ s.line.length := hwhole ▸ (List.takeWhile_prefix _).length_le
  unfold number
  simp only [hwhole, drop_line hlength, fraction_line, drop_line (length_fraction_le _), exponent_line]

theorem word_line (s : Text) : word s.line = word s := by
  unfold word
  rw [takeWhile_line fun _ => isWordPart_lineEnd]

theorem head?_line {c : UInt8} (hc : isLineEnd c = false) (s : Text) :
    (s.line.head? = some c) = (s.head? = some c) := by
  refine apply_line (f := fun s => s.head? = some c) (fun b s hb => ?_) (fun _ _ _ => rfl) s
  have hne : b ≠ c := by
    rintro rfl
    simp [hb] at hc
  simp [hne]

theorem string_eq (q : UInt8) (s : Text) :
    string q s = let body := s.takeWhile fun b => b != q && !isLineEnd b
      if (s.drop body.length).head? = some q then .ok ⟨.string, .literal (quoteForm q), body, body.length + 2⟩
      else .error (.unterminated (q :: body)) := by
  simp only [string]
  split
  · next h => simp [h]
  · next b rest h => simp [h]

theorem string_line {q : UInt8} (hq : isQuote q = true) (s : Text) : string q s.line = string q s := by
  have hstop : ∀ b, isLineEnd b = true → (b != q && !isLineEnd b) = false := fun b hb => by simp [hb]
  have hbody := takeWhile_line hstop s
  have hlength : (s.takeWhile fun b => b != q && !isLineEnd b).length ≤ s.line.length :=
    hbody ▸ (List.takeWhile_prefix _).length_le
  have hquote : isLineEnd q = false := by
    simp only [isQuote, Bool.or_eq_true, beq_iff_eq] at hq
    rcases hq with rfl | rfl <;> rfl
  simp only [string_eq, hbody, drop_line hlength, head?_line hquote]

theorem operator?_line (b : UInt8) (s : Text) : operator? b s.line.head? = operator? b s.head? := by
  refine apply_line (f := fun s => operator? b s.head?) (fun c s hc => ?_) (fun _ _ _ => rfl) s
  rcases lineEnd_cases hc with rfl | rfl <;> simp [operator?]

theorem take_line {b : UInt8} {s : Text} {o : Operator} {width : Nat} (h : operator? b s.head? = some (o, width)) :
    (b :: s.line).take width = (b :: s).take width := by
  rcases operator?_cases h with ⟨rfl, -⟩ | ⟨rfl, c, hnext, hc⟩
  · rfl
  · obtain ⟨rest, rfl⟩ := List.head?_eq_some_iff.1 hnext
    rcases hc with rfl | rfl <;> rfl

/-- The lexeme at the start of a text is a matter of its first line. -/
theorem first_line (b : UInt8) (s : Text) : first b s.line = first b s := by
  have hstart : ∀ {c : Bool}, c = true → (isLineEnd b = true → c = false) → isLineEnd b = false := by
    intro c hc himp
    by_contra hb
    simp [himp (by simpa using hb)] at hc
  unfold first
  rw [startsWithDigit_line, operator?_line, Rune.first_line]
  split
  · next h =>
    have hb : isLineEnd b = false := hstart h fun hb => by
      rcases lineEnd_cases hb with rfl | rfl <;> simp [Text.isDigit]
    rw [← line_cons hb, number_line]
  · split
    · next h =>
      have hb : isLineEnd b = false := hstart (isWordPart_of_start h) isWordPart_lineEnd
      rw [← line_cons hb, word_line]
    · split
      · next h => exact string_line h s
      · split
        · rfl
        · split
          · rfl
          · split
            · next h => rw [take_line h]
            · rfl

theorem first_of_sameLine {b : UInt8} {s t : Text} (h : SameLine s t) : first b t = first b s := by
  rw [← first_line b t, h.line, first_line]

theorem width_le_line {b : UInt8} {s : Text} {x : Lexeme} (hb : isLineEnd b = false) (h : first b s = .ok x) :
    x.width ≤ (line (b :: s)).length := by
  obtain ⟨hspelling, hwidth, -⟩ := first_start ((first_line b s).trans h)
  rw [line_cons hb, hwidth]
  exact hspelling.length_le

/-- A string that does not end on its line is shown as far as the text goes, at most. -/
theorem first_unterminated {b : UInt8} {s text : Text} (h : first b s = .error (.unterminated text)) :
    text.length ≤ (b :: s).length := by
  unfold first at h
  split at h
  · cases h
  · split at h
    · cases h
    · split at h
      · rw [string_eq] at h
        dsimp only at h
        split at h
        · cases h
        · cases h
          exact Nat.succ_le_succ (List.takeWhile_prefix _).length_le
      · split at h
        · cases h
        · split at h
          · cases h
          · split at h <;> cases h

end Lexeme

/-! ## Steps in their line -/

namespace Scanner

open Text

/-- The scan with another text to read. -/
def reading (s : Scanner) (t : Text) : Scanner := { s with rest := t }

/-- The step with another text left to read. -/
def Step.reading (st : Step) (t : Text) : Step := { st with scanner := st.scanner.reading t }

@[simp] theorem rest_reading (s : Scanner) (t : Text) : (s.reading t).rest = t := rfl

theorem reading_rest (s : Scanner) : s.reading s.rest = s := rfl

/-- How a step goes on in a text: inside the line, by some bytes, or to the next line. -/
inductive Move where
  | within (n : Nat)
  | across

namespace Move

/-- The text behind a move. -/
def apply : Move → Text → Text
  | within n, t => t.drop n
  | across, t => afterLineEnd t.behind

/-- The text has room for the move. -/
def Fits : Move → Text → Prop
  | within n, t => n ≤ t.line.length
  | across, t => t.behind ≠ []

/-- Some bytes of the line, and then the move. -/
def after (k : Nat) : Move → Move
  | within n => within (k + n)
  | across => across

theorem apply_drop {k : Nat} {t : Text} (h : k ≤ t.line.length) (m : Move) :
    m.apply (t.drop k) = (m.after k).apply t := by
  cases m with
  | within n => exact List.drop_drop
  | across => rw [apply, (line_drop h).2, after, apply]

theorem Fits.after {k : Nat} {t : Text} {m : Move} (hm : m.Fits (t.drop k)) (h : k ≤ t.line.length) :
    (m.after k).Fits t := by
  obtain ⟨hline, hbehind⟩ := line_drop h
  cases m with
  | within n =>
    simp only [Fits, hline, List.length_drop] at hm
    simp only [Move.after, Fits]
    omega
  | across =>
    rw [Fits, hbehind] at hm
    exact hm

end Move

/-- From where the scan stands, the action does the same on all texts that begin with the line there, and goes on
by the same move. -/
def Moves (s : Scanner) (f : Scanner → Step) : Prop :=
  ∃ m : Move, m.Fits s.rest ∧ ∀ t, SameLine s.rest t → f (s.reading t) = (f s).reading (m.apply t)

section
variable {s : Scanner} {t : Text} {f : Scanner → Step}

theorem isBlank_lineEnd {b : UInt8} (hb : isLineEnd b = true) : Lexeme.isBlank b = false := by
  rcases lineEnd_cases hb with rfl | rfl <;> rfl

theorem blank_sameLine {s t : Text} (h : SameLine s t) : t.takeWhile Lexeme.isBlank = s.takeWhile Lexeme.isBlank := by
  rw [← takeWhile_line (fun _ => isBlank_lineEnd) t, h.line, takeWhile_line fun _ => isBlank_lineEnd]

theorem length_blank_le (s : Text) : (s.takeWhile Lexeme.isBlank).length ≤ s.line.length := by
  rw [← takeWhile_line (fun _ => isBlank_lineEnd)]
  exact (List.takeWhile_prefix _).length_le

/-- What an action does behind the blank space of a line, it does before it. -/
theorem Moves.pastBlank (h : Moves s.pastBlank f) : Moves s fun s => f s.pastBlank := by
  obtain ⟨m, hfits, hmove⟩ := h
  have hlength := length_blank_le s.rest
  refine ⟨m.after (s.rest.takeWhile Lexeme.isBlank).length, hfits.after hlength, fun t ht => ?_⟩
  have hpast : (s.reading t).pastBlank = s.pastBlank.reading (t.drop (s.rest.takeWhile Lexeme.isBlank).length) := by
    simp only [Scanner.pastBlank, skipWhile, skip, reading, blank_sameLine ht]
  dsimp only
  rw [hpast, hmove _ (ht.drop hlength), Move.apply_drop (ht.line ▸ hlength)]

/-- The start of a line of the given width, behind its blank space. -/
def startLineAt (width : Int) (s : Scanner) : Step :=
  match s.rest with
  | [] => { scanner := { s with atLineStart := false } }
  | b :: _ =>
    if b = 35 then { scanner := if s.skipComment.rest.isEmpty then s.skipComment else s.skipComment.breakLine }
    else if isLineEnd b then { scanner := s.breakLine }
    else s.enterLine width

/-- The way on inside a line, behind blank space. -/
def inLineAt (s : Scanner) : Step :=
  match s.rest with
  | [] => s.finish
  | b :: rest =>
    if isLineEnd b then s.endLine else if b = 35 then { scanner := s.skipComment } else s.content b rest

section
variable {b : UInt8} {rest : Text} {width : Int}

theorem startLineAt_nil (hr : s.rest = []) : s.startLineAt width = { scanner := { s with atLineStart := false } } := by
  unfold startLineAt
  split
  · rfl
  · next h => simp [hr] at h

theorem startLineAt_end (hr : s.rest = b :: rest) (hb : isLineEnd b = true) :
    s.startLineAt width = { scanner := s.breakLine } := by
  have hcomment : b ≠ 35 := by
    rintro rfl
    cases hb
  simp [startLineAt, hr, hb, hcomment]

theorem startLineAt_comment (hr : s.rest = 35 :: rest) : s.startLineAt width =
    { scanner := if s.skipComment.rest.isEmpty then s.skipComment else s.skipComment.breakLine } := by
  simp [startLineAt, hr]

theorem startLineAt_content (hr : s.rest = b :: rest) (hb : isLineEnd b = false) (hc : b ≠ 35) :
    s.startLineAt width = s.enterLine width := by
  simp [startLineAt, hr, hb, hc]

theorem inLineAt_nil (hr : s.rest = []) : s.inLineAt = s.finish := by simp [inLineAt, hr]

theorem inLineAt_end (hr : s.rest = b :: rest) (hb : isLineEnd b = true) : s.inLineAt = s.endLine := by
  simp [inLineAt, hr, hb]

theorem inLineAt_comment (hr : s.rest = 35 :: rest) : s.inLineAt = { scanner := s.skipComment } := by
  simp [inLineAt, hr, isLineEnd]

theorem inLineAt_content (hr : s.rest = b :: rest) (hb : isLineEnd b = false) (hc : b ≠ 35) :
    s.inLineAt = s.content b rest := by
  simp [inLineAt, hr, hb, hc]

theorem step_startLine (hs : s.startsLine = true) :
    s.step = s.pastBlank.startLineAt (Layout.width s.tabWidth (s.rest.takeWhile Lexeme.isBlank)) := if_pos hs

theorem step_inLine (hs : s.startsLine = false) : s.step = s.pastBlank.inLineAt := if_neg (Bool.eq_false_iff.1 hs)

end

theorem skipComment_reading (h : SameLine s.rest t) : (s.reading t).skipComment = s.skipComment.reading t.behind := by
  have hline : (t.takeWhile fun b => !isLineEnd b) = s.rest.takeWhile fun b => !isLineEnd b := h.line
  have hrest : t.drop (s.rest.takeWhile fun b => !isLineEnd b).length = t.behind := hline ▸ drop_length_line t
  simp only [skipComment, skipWhile, skip, reading, hline, hrest]

theorem commentLine_reading (width : Int) {rest : Text} (hr : s.rest = 35 :: rest) (h : SameLine s.rest t) :
    (s.reading t).startLineAt width = { scanner := if t.behind.isEmpty then s.skipComment.reading t.behind
                                                   else (s.skipComment.reading t.behind).breakLine } := by
  have hskip := skipComment_reading h
  obtain ⟨rest', rfl, -⟩ := (hr ▸ h).cons rfl
  rw [startLineAt_comment (rest_reading s _), hskip, rest_reading]

theorem endLine_reading (s : Scanner) (t : Text) : (s.reading t).endLine = s.endLine.reading (afterLineEnd t) := by
  cases hj : s.layout.joined <;> simp only [endLine, reading, hj] <;> rfl

theorem enterLine_reading (s : Scanner) (width : Int) (t : Text) :
    (s.reading t).enterLine width = (s.enterLine width).reading t := by
  simp only [enterLine, reading]
  cases s.layout.measure width <;> rfl

/-- A content token, or the fault in its place, is a matter of the line. -/
theorem content_moves (s : Scanner) {b : UInt8} (rest : Text) (hb : isLineEnd b = false) :
    ∃ m : Move, m.Fits (b :: rest) ∧ ∀ rest', SameLine rest rest' →
      (s.reading (b :: rest')).content b rest' = (s.content b rest).reading (m.apply (b :: rest')) := by
  cases hx : Lexeme.first b rest with
  | ok x =>
    refine ⟨.within x.width, width_le_line hb hx, fun rest' h => ?_⟩
    unfold content
    rw [first_of_sameLine h, hx]
    rfl
  | error e =>
    cases e with
    | unterminated text =>
      refine ⟨.within text.length, ?_, fun rest' h => ?_⟩
      · rw [Move.Fits, line_cons hb]
        exact first_unterminated ((Lexeme.first_line b rest).trans hx)
      · unfold content
        rw [first_of_sameLine h, hx]
        rfl
    | unrecognized c =>
      refine ⟨.within 0, Nat.zero_le _, fun rest' h => ?_⟩
      unfold content
      rw [first_of_sameLine h, hx]
      rfl

theorem rest_cases (s : Scanner) : s.rest = [] ∨ (∃ b rest, s.rest = b :: rest ∧ isLineEnd b = true) ∨
    (∃ rest, s.rest = 35 :: rest) ∨ ∃ b rest, s.rest = b :: rest ∧ isLineEnd b = false ∧ b ≠ 35 := by
  cases hr : s.rest with
  | nil => exact .inl rfl
  | cons b rest =>
    cases hb : isLineEnd b with
    | true => exact .inr (.inl ⟨b, rest, rfl, hb⟩)
    | false =>
      by_cases hc : b = 35
      · exact .inr (.inr (.inl ⟨rest, by rw [hc]⟩))
      · exact .inr (.inr (.inr ⟨b, rest, rfl, hb, hc⟩))

/-- An action that goes on behind the line end at which the scan stands. -/
theorem Moves.breakLine {b : UInt8} {rest : Text} (hr : s.rest = b :: rest) (hb : isLineEnd b = true)
    (hf : ∀ c rest', isLineEnd c = true → f (s.reading (c :: rest')) = (f s).reading (afterLineEnd (c :: rest'))) :
    Moves s f := by
  refine ⟨.across, ?_, fun t ht => ?_⟩
  · rw [Move.Fits, hr, behind_cons_end hb]
    exact List.cons_ne_nil _ _
  · obtain ⟨c, rest', rfl, hc⟩ := (hr ▸ ht).cons_end hb
    rw [hf c rest' hc, Move.apply, behind_cons_end hc]

theorem Moves.startLineAt (s : Scanner) (width : Int) : Moves s (startLineAt width) := by
  rcases rest_cases s with hr | ⟨b, rest, hr, hb⟩ | ⟨rest, hr⟩ | ⟨b, rest, hr, hb, hcomment⟩
  · refine ⟨.within 0, Nat.zero_le _, fun t ht => ?_⟩
    obtain rfl := (hr ▸ ht).nil
    rw [startLineAt_nil hr, startLineAt_nil (rest_reading s _)]
    rfl
  · refine .breakLine hr hb fun c rest' hc => ?_
    rw [startLineAt_end hr hb, startLineAt_end (rest_reading s _) hc]
    rfl
  · have hs := commentLine_reading width hr (.refl _)
    rw [reading_rest] at hs
    -- behind the comment the source ends or the line does
    by_cases hend : s.rest.behind = []
    · refine ⟨.within s.rest.line.length, Nat.le_refl _, fun t ht => ?_⟩
      rw [hs, commentLine_reading width hr ht, Move.apply, ← ht.line, drop_length_line, hend, ht.behind.2 hend]
      rfl
    · refine ⟨.across, hend, fun t ht => ?_⟩
      rw [hs, commentLine_reading width hr ht, Move.apply, if_neg (by simpa [ht.behind] using hend),
        if_neg (by simpa using hend)]
      rfl
  · refine ⟨.within 0, Nat.zero_le _, fun t ht => ?_⟩
    obtain ⟨rest', rfl, -⟩ := (hr ▸ ht).cons hb
    rw [startLineAt_content hr hb hcomment, startLineAt_content (rest_reading s _) hb hcomment]
    exact enterLine_reading s width _

theorem Moves.inLineAt (s : Scanner) : Moves s inLineAt := by
  rcases rest_cases s with hr | ⟨b, rest, hr, hb⟩ | ⟨rest, hr⟩ | ⟨b, rest, hr, hb, hcomment⟩
  · refine ⟨.within 0, Nat.zero_le _, fun t ht => ?_⟩
    obtain rfl := (hr ▸ ht).nil
    rw [inLineAt_nil hr, inLineAt_nil (rest_reading s _)]
    rfl
  · refine .breakLine hr hb fun c rest' hc => ?_
    rw [inLineAt_end hr hb, inLineAt_end (rest_reading s _) hc]
    exact endLine_reading s _
  · refine ⟨.within s.rest.line.length, Nat.le_refl _, fun t ht => ?_⟩
    have hskip := skipComment_reading ht
    rw [Move.apply, ← ht.line, drop_length_line]
    obtain ⟨rest', rfl, -⟩ := (hr ▸ ht).cons rfl
    rw [inLineAt_comment hr, inLineAt_comment (rest_reading s _), hskip]
    rfl
  · obtain ⟨m, hfits, hmove⟩ := content_moves s rest hb
    refine ⟨m, hr ▸ hfits, fun t ht => ?_⟩
    obtain ⟨rest', rfl, hrest⟩ := (hr ▸ ht).cons hb
    rw [inLineAt_content hr hb hcomment, inLineAt_content (rest_reading s _) hb hcomment, hmove rest' hrest]

/-- Each step is a matter of the line in which the scan stands. -/
theorem step_moves (s : Scanner) : Moves s step := by
  cases hs : s.startsLine with
  | true =>
    obtain ⟨m, hfits, hmove⟩ := (Moves.startLineAt s.pastBlank
      (Layout.width s.tabWidth (s.rest.takeWhile Lexeme.isBlank))).pastBlank
    refine ⟨m, hfits, fun t ht => ?_⟩
    rw [step_startLine hs, step_startLine (s := s.reading t) hs, rest_reading, blank_sameLine ht]
    exact hmove t ht
  | false =>
    obtain ⟨m, hfits, hmove⟩ := (Moves.inLineAt s.pastBlank).pastBlank
    refine ⟨m, hfits, fun t ht => ?_⟩
    rw [step_inLine hs, step_inLine (s := s.reading t) hs]
    exact hmove t ht

/-- The same move leads from the same lines to the same lines. -/
theorem Move.Fits.lines {m : Move} {s t : Text} (hm : m.Fits s) (h : t.lines = s.lines) :
    (m.apply t).lines = (m.apply s).lines := by
  obtain ⟨hsame, hbehind⟩ := lines_congr h
  cases m with
  | within n =>
    rw [Move.apply, Move.apply, lines_drop hm, lines_drop (hsame.line ▸ hm), hsame.line, h]
  | across => exact hbehind hm

/-- Texts with the same lines are read alike. -/
theorem run_lines (s : Scanner) : ∀ t, t.lines = s.rest.lines →
    (s.reading t).run.tokens = s.run.tokens ∧ (s.reading t).run.halt = s.run.halt := by
  induction s using run_induction with
  | done s hd =>
    intro t _
    rw [run_done hd, run_done (s := s.reading t) hd]
    exact ⟨rfl, rfl⟩
  | halt s r hd hr =>
    intro t ht
    obtain ⟨m, -, hmove⟩ := step_moves s
    have hr' : (s.reading t).step.halt = some r := by rw [hmove t (lines_congr ht).1]; exact hr
    rw [run_halt hd hr, run_halt (s := s.reading t) hd hr']
    exact ⟨rfl, rfl⟩
  | step s hd hh ih =>
    intro t ht
    obtain ⟨m, hfits, hmove⟩ := step_moves s
    have hstep := hmove t (lines_congr ht).1
    have hrest : s.step.scanner.rest = m.apply s.rest := congrArg (·.scanner.rest) (hmove s.rest (.refl _))
    have hh' : (s.reading t).step.halt = none := by rw [hstep]; exact hh
    obtain ⟨htokens, hhalt⟩ := ih (m.apply t) (by rw [hrest, hfits.lines ht])
    rw [run_step hd hh, run_step (s := s.reading t) hd hh', hstep]
    exact ⟨congrArg (s.step.tokens ++ ·) htokens, hhalt⟩

end

end Scanner

/-! ## The bytes that end a line -/

namespace Text

/-- The text with other bytes in place of each line feed. -/
def endLines (s e : Text) : Text := s.flatMap fun b => if b = 10 then e else [b]

theorem endLines_end (s e : Text) : endLines (10 :: s) e = e ++ s.endLines e := rfl

theorem endLines_cons {b : UInt8} (hb : b ≠ 10) (s e : Text) : endLines (b :: s) e = b :: s.endLines e := by
  simp [endLines, hb]

/-- The lines stay the same if the bytes in place of each line feed end a line there. -/
theorem lines_endLines {e s : Text} (h : 13 ∉ s)
    (he : ∀ s : Text, lines (e ++ s.endLines e) = [] :: lines (s.endLines e)) : (s.endLines e).lines = s.lines := by
  induction s with
  | nil => rfl
  | cons b s ih =>
    rw [List.mem_cons, not_or] at h
    by_cases hb : b = 10
    · subst hb
      rw [endLines_end, he, ih h.2, lines_cons_end rfl]
      rfl
    · have hend : isLineEnd b = false := by simp [isLineEnd, hb, Ne.symm h.1]
      rw [endLines_cons hb, lines_cons hend ((ih h.2).trans (lines_eq s)), lines_cons hend (lines_eq s)]

theorem lines_endLines_both {s : Text} (h : 13 ∉ s) : (s.endLines [13, 10]).lines = s.lines :=
  lines_endLines h fun s => lines_cons_end (s := 10 :: s.endLines [13, 10]) rfl

theorem lines_endLines_return {s : Text} (h : 13 ∉ s) : (s.endLines [13]).lines = s.lines := by
  refine lines_endLines h fun s => (lines_cons_end rfl).trans ?_
  -- no line feed is left that a carriage return could go together with
  have hfeed : 10 ∉ s.endLines [13] := by
    intro hmem
    obtain ⟨b, -, hb⟩ := List.mem_flatMap.1 hmem
    split at hb
    · cases List.mem_singleton.1 hb
    · next hne => exact hne (List.mem_singleton.1 hb).symm
  generalize s.endLines [13] = t at hfeed
  cases t with
  | nil => rfl
  | cons c t =>
    have hc : c ≠ 10 := fun hc => hfeed (hc ▸ List.mem_cons_self)
    simp [Scanner.afterLineEnd, hc]

end Text

/-- Whether its lines end with a line feed, with a carriage return and a line feed, or with a carriage return makes
no difference to the tokens of a source, to their places, or to the failure that stops the scan. -/
theorem Scanner.tokenize_lineEnds {source : Text} (h : 13 ∉ source) (tabWidth : Int) :
    ∀ e ∈ ([[13, 10], [13]] : List Text),
      (tokenize (source.endLines e) tabWidth).tokens = (tokenize source tabWidth).tokens ∧
      (tokenize (source.endLines e) tabWidth).halt = (tokenize source tabWidth).halt := by
  intro e he
  have hlines : (source.endLines e).lines = source.lines := by
    simp only [List.mem_cons, List.not_mem_nil, or_false] at he
    rcases he with rfl | rfl
    · exact Text.lines_endLines_both h
    · exact Text.lines_endLines_return h
  exact run_lines (ofSource source tabWidth) (source.endLines e) hlines

/-- A comment line, a blank line, a line inside brackets and an open string, on lines that a carriage return ends. -/
theorem Scanner.tokenize_lineEnds_return :
    13 ∉ ("# c\n\nf(1,\n  2)\nx = 'ab\ny\n" : Text) ∧
    (tokenize "# c\r\rf(1,\r  2)\rx = 'ab\ry\r" 4).halt =
      some (.report (.syntaxError "EOL while scanning string literal" "'ab" 5 5)) := by
  have h : 13 ∉ ("# c\n\nf(1,\n  2)\nx = 'ab\ny\n" : Text) := by decide +kernel
  have hreturn := (tokenize_lineEnds h 4 [13] (by decide)).2
  have hsource : Text.endLines "# c\n\nf(1,\n  2)\nx = 'ab\ny\n" [13] = "# c\r\rf(1,\r  2)\rx = 'ab\ry\r" := by
    decide +kernel
  rw [hsource] at hreturn
  refine ⟨h, hreturn.trans ?_⟩
  decide +kernel

end Offside
