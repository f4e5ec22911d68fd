import Offside.Proofs.Lexer.Run
import Offside.Proofs.Rendering.Pieces

/-!
# Scanning a rendered text

Some pieces of a rendered text are written in the source language as well: numbers, names, round and square
brackets, commas, the minus sign and the arithmetic operators. Main statement: a text of such pieces is one
line of the source language, and its tokens are the pieces that are no blanks (`tokenize_spelling`).
-/

namespace Offside

open Offside.Lexeme

/-- The operator of the source language that is written in the same way. -/
def BinaryOp.shared? : BinaryOp → Option Operator
  | .power => some .power
  | .multiply => some .multiply
  | .divide => some .divide
  | .modulo => some .modulo
  | .add => some .add
  | .subtract => some .subtract
  | .lesser => some .lesser
  | .greater => some .greater
  | .lesserEquals => some .lesserEquals
  | .greaterEquals => some .greaterEquals
  | .equals | .notEquals | .and | .or | .other _ => none

namespace Piece

/-! ## The lexemes of pieces -/

/-- What a piece is in the source language. -/
def mark? : Piece → Option (Token.Kind × Token.Subtype)
  | number t => some (.number, (Lexeme.number t).subtype)
  | word _ => some (.identifier, .plain)
  | roundOpen => some (.bracket, .bracket .roundOpen)
  | roundClose => some (.bracket, .bracket .roundClose)
  | squareOpen => some (.bracket, .bracket .squareOpen)
  | squareClose => some (.bracket, .bracket .squareClose)
  | comma => some (.delimiter, .delimiter .comma)
  | negate => some (.operator, .operator .subtract)
  | operator op => op.shared?.map fun o => (.operator, .operator o)
  | string _ | dot | not | blank => none

/-- The piece is a blank or is written in the source language as well, where a word has to be a name. -/
def Shared (p : Piece) : Prop := (p = .blank ∨ p.mark?.isSome = true) ∧ ∀ t, p = .word t → Emits .identifier t

theorem number_found {t rest s : Text} {b : UInt8} (ht : Emits .number t) (hr : ∀ b ∈ rest.head?, isCloser b = true)
    (e : t ++ rest = b :: s) : first b s = .ok ⟨.number, (Lexeme.number t).subtype, t, t.length⟩ := by
  obtain ⟨whole, part, power, hform, rfl⟩ := emits_number ht
  have hr' : ∀ b ∈ rest.head?, isNumberPart b = false := by
    intro b hb
    have hb := hr b hb
    simp only [isCloser, Bool.or_eq_true, beq_iff_eq] at hb
    rcases hb with ((rfl | rfl) | rfl) | rfl <;> rfl
  have hnil : ∀ b ∈ ([] : Text).head?, isNumberPart b = false := by simp
  have halone := number_again hform hnil
  rw [List.append_nil, ← List.append_assoc] at halone
  rw [first_of_number hform hr' (by simpa using e), halone]

theorem name_found {t rest s : Text} {b : UInt8} (ht : Emits .identifier t)
    (hr : ∀ b ∈ rest.head?, isCloser b = true ∨ b = 40 ∨ b = 46) (e : t ++ rest = b :: s) :
    first b s = .ok ⟨.identifier, .plain, t, t.length⟩ := by
  obtain ⟨hword, hclass⟩ := emits_identifier ht
  have hr' : ∀ b ∈ rest.head?, isWordPart b = false := by
    intro b hb
    have hb := hr b hb
    simp only [isCloser, Bool.or_eq_true, beq_iff_eq] at hb
    rcases hb with (((rfl | rfl) | rfl) | rfl) | rfl | rfl <;> rfl
  rw [first_of_word hword hr' e, hclass]

theorem operator_found {op : BinaryOp} {o : Operator} {rest s : Text} {b : UInt8} (hop : op.shared? = some o)
    (hr : rest.head? = some 32) (e : (operator op).text ++ rest = b :: s) :
    first b s = .ok ⟨.operator, .operator o, (operator op).text, (operator op).text.length⟩ := by
  cases rest with
  | nil => cases hr
  | cons c rest =>
    obtain rfl : c = 32 := by simpa using hr
    cases op with
    | equals | notEquals | and | or | other => cases hop
    | _ =>
      cases hop
      cases e
      rfl

/-- A piece is found again in the text. -/
theorem shared_found {p : Piece} {k : Token.Kind} {st : Token.Subtype} (hm : p.mark? = some (k, st)) (hs : p.Spelled)
    (hp : p.Shared) {rest s : Text} {b : UInt8} (hnext : p.precedes rest.head?) (e : p.text ++ rest = b :: s) :
    first b s = .ok ⟨k, st, p.text, p.text.length⟩ := by
  cases p with
  | number t =>
    cases hm
    exact number_found hs hnext e
  | word t =>
    cases hm
    exact name_found (hp.2 t rfl) hnext e
  | operator op =>
    obtain ⟨o, ho, hpair⟩ := Option.map_eq_some_iff.1 hm
    cases hpair
    exact operator_found ho hnext e
  | string | dot | not | blank => cases hm
  | _ =>
    cases hm
    cases e
    rfl

/-! ## Tokens in their places -/

/-- The token that a piece is at a column of the first line. -/
def placed? (column : Int) (p : Piece) : Option Token :=
  p.mark?.map fun (kind, subtype) => { kind, subtype, literal := p.text, line := 1, column }

/-- The tokens of pieces from a column of the first line on. -/
def placed (column : Int) : List Piece → List Token
  | [] => []
  | p :: ps => (p.placed? column).toList ++ placed (column + p.text.length) ps

theorem placed_cons {p : Piece} {kind : Token.Kind} {subtype : Token.Subtype} (hm : p.mark? = some (kind, subtype))
    (column : Int) (ps : List Piece) :
    placed column (p :: ps) =
      { kind, subtype, literal := p.text, line := 1, column } :: placed (column + p.text.length) ps := by
  simp [placed, placed?, hm]

theorem placed_blank (column : Int) (ps : List Piece) : placed column (.blank :: ps) = placed (column + 1) ps := rfl

theorem placed_append (column : Int) (ps qs : List Piece) :
    placed column (ps ++ qs) = placed column ps ++ placed (column + (spelling ps).length) qs := by
  induction ps generalizing column with
  | nil => simp [placed]
  | cons p ps ih => simp [placed, ih, Int.add_assoc]

/-- The tokens behind the only line of a source. -/
def lineEnd (column : Int) : List Token :=
  [{ kind := .newline, line := 1, column }, { kind := .eof, line := 1, column }]

end Piece

/-! ## Scanning -/

namespace Scanner

open Offside.Piece

theorem run_congr {s s' : Scanner} (hd : s.done = false) (hd' : s'.done = false) (h : s.step = s'.step) :
    s.run = s'.run := by
  cases hh : s.step.halt with
  | some r => rw [run_halt hd hh, run_halt hd' (h ▸ hh), h]
  | none => rw [run_step hd hh, run_step hd' (h ▸ hh), h]

section
variable {s : Scanner} {b : UInt8} {rest : Text}

/-- A blank inside a line is passed over. -/
theorem run_blank (hd : s.done = false) (hs : s.atLineStart = false) (hr : s.rest = 32 :: rest) :
    s.run = (s.skip 1).run := by
  have hpast : s.skipWhile isBlank = (s.skip 1).skipWhile isBlank := by
    have hblank : isBlank 32 = true := rfl
    simp [skipWhile, skip, hr, hblank]
    omega
  refine run_congr hd hd ?_
  have hs' : (s.skip 1).atLineStart = false := hs
  simp only [step, hs, hs', Bool.false_and, Bool.false_eq_true, if_false, inLine, hpast]

/-- The scan behind a lexeme at its place. -/
def past (s : Scanner) (x : Lexeme) : Scanner :=
  { s.skip x.width with layout := bracketed s.layout x.subtype, lineContent := true }

theorem step_content (hs : s.atLineStart = false) (hr : s.rest = b :: rest) {x : Lexeme}
    (hx : Lexeme.first b rest = .ok x) :
    s.step = { scanner := s.past x, tokens := [s.token x.kind x.subtype x.literal] } := by
  obtain ⟨hblank, hline, hcomment⟩ := Lexeme.first_content hx
  have hpast : s.skipWhile isBlank = s := pastBlank_of_cons hr hblank
  simp only [step, hs, Bool.false_and, Bool.false_eq_true, if_false, inLine, hpast, hr, hline, hcomment, content, hx]
  rfl

theorem step_finish (hs : s.atLineStart = false) (hr : s.rest = []) : s.step = s.finish := by
  have hpast : s.skipWhile isBlank = s := pastBlank_of_nil hr
  simp only [step, hs, Bool.false_and, Bool.false_eq_true, if_false, inLine, hpast, hr]

end

/-- The scan stands inside the first line, and no block is open. -/
structure InFirstLine (s : Scanner) : Prop where
  going : s.done = false
  entered : s.atLineStart = false
  line : s.line = 1
  blocks : s.layout.blocks = []

theorem InFirstLine.skip {s : Scanner} (h : InFirstLine s) (n : Nat) : InFirstLine (s.skip n) :=
  ⟨h.going, h.entered, h.line, h.blocks⟩

theorem blocks_bracketed (l : Layout) (st : Token.Subtype) : (bracketed l st).blocks = l.blocks := by
  unfold bracketed
  split
  · split <;> rfl
  · rfl

theorem InFirstLine.past {s : Scanner} (h : InFirstLine s) (x : Lexeme) : InFirstLine (s.past x) :=
  ⟨h.going, h.entered, h.line, (blocks_bracketed _ _).trans h.blocks⟩

theorem run_lineEnd {s : Scanner} (h : InFirstLine s) (hr : s.rest = []) (hc : s.lineContent = true) :
    s.run.halt = none ∧ s.run.tokens = lineEnd s.column := by
  have hstep := step_finish h.entered hr
  have hhalt : s.step.halt = none := by rw [hstep]; rfl
  have htokens : s.finish.tokens = lineEnd s.column := by
    simp [finish, hc, Layout.depth, h.blocks, token, h.line, lineEnd]
  have hdone : s.finish.scanner.run = { scanner := s.finish.scanner } := run_done rfl
  rw [run_step h.going hhalt, hstep, hdone, htokens]
  exact ⟨rfl, List.append_nil _⟩

/-- Inside the line, the pieces are read one after another. -/
theorem run_spelling {ps : List Piece} {s : Scanner} (h : InFirstLine s) (hr : s.rest = spelling ps)
    (hw : Written ps []) (hp : ∀ p ∈ ps, p.Shared) (hc : s.lineContent = true ∨ ∃ p ∈ ps, p.mark?.isSome = true) :
    s.run.halt = none ∧ s.run.tokens = placed s.column ps ++ lineEnd (s.column + (spelling ps).length) := by
  induction ps generalizing s with
  | nil =>
    have hc : s.lineContent = true := by simpa using hc
    simpa [placed] using run_lineEnd h hr hc
  | cons p ps ih =>
    obtain ⟨hspelled, hnext, hw⟩ := hw
    obtain ⟨hshared, hps⟩ := List.forall_mem_cons.1 hp
    rw [List.append_nil] at hnext
    rw [spelling_cons] at hr
    cases hm : p.mark? with
    | none =>
      obtain rfl : p = .blank := by simpa [hm] using hshared.1
      have hc : s.lineContent = true ∨ ∃ p ∈ ps, p.mark?.isSome = true := by simpa [hm] using hc
      have hrest : (s.skip 1).rest = spelling ps := by simp [skip, hr, text]
      have hrun := ih (h.skip 1) hrest hw hps hc
      have hcolumn : (s.skip 1).column = s.column + 1 := rfl
      rw [run_blank h.going h.entered hr]
      simpa [placed, placed?, hm, text, hcolumn, Int.add_assoc, Int.add_comm] using hrun
    | some m =>
      obtain ⟨k, st⟩ := m
      obtain ⟨b, t, e⟩ := List.exists_cons_of_ne_nil (Expr.text_ne_nil hspelled)
      let x : Lexeme := ⟨k, st, p.text, p.text.length⟩
      have hfirst : Lexeme.first b (t ++ spelling ps) = .ok x :=
        shared_found hm hspelled hshared hnext (by rw [e]; rfl)
      have hstep := step_content h.entered (by rw [hr, e]; rfl) hfirst
      have hhalt : s.step.halt = none := by rw [hstep]
      have hrest : (s.past x).rest = spelling ps := by simp [past, skip, hr, x]
      have hcolumn : (s.past x).column = s.column + p.text.length := rfl
      obtain ⟨hrun, htokens⟩ := ih (h.past x) hrest hw hps (.inl rfl)
      rw [run_step h.going hhalt, hstep]
      refine ⟨hrun, ?_⟩
      simp only [htokens, hcolumn]
      simp [placed, placed?, hm, token, h.line, x, Int.add_assoc]

/-- A line without blank space before it opens no block. -/
theorem step_firstLine {b : UInt8} {rest : Text} {x : Lexeme} (hx : Lexeme.first b rest = .ok x) (tabWidth : Int) :
    (ofSource (b :: rest) tabWidth).step =
      { scanner := { ofSource (b :: rest) tabWidth with atLineStart := false }, notes := [.measured 1 0 0 {}] } := by
  obtain ⟨hblank, hline, hcomment⟩ := Lexeme.first_content hx
  have htake : (b :: rest).takeWhile isBlank = [] := by simp [hblank]
  change startLine _ = _
  simp only [startLine, ofSource, htake, skip, List.drop_zero, List.length_nil, hcomment, hline]
  rfl

/-- A text of pieces that are written in the source language as well is one line of it. -/
theorem tokenize_spelling {ps : List Piece} (hw : Written ps []) (hp : ∀ p ∈ ps, p.Shared) {b : UInt8} {t : Text}
    (e : spelling ps = b :: t) (hb : isOpener b = true) (tabWidth : Int) :
    (tokenize (spelling ps) tabWidth).halt = none ∧
      (tokenize (spelling ps) tabWidth).tokens = placed 1 ps ++ lineEnd (1 + (spelling ps).length) := by
  obtain ⟨p, qs, rfl⟩ : ∃ p qs, ps = p :: qs := by
    refine List.exists_cons_of_ne_nil ?_
    rintro rfl
    cases e
  have hshared := hp p List.mem_cons_self
  have hmark : p.mark?.isSome = true := by
    refine hshared.1.resolve_left ?_
    rintro rfl
    cases e
    cases hb
  obtain ⟨⟨k, st⟩, hm⟩ := Option.isSome_iff_exists.1 hmark
  have hnext : p.precedes (spelling qs).head? := by simpa using hw.2.1
  have hstart := step_firstLine (shared_found hm hw.1 hshared hnext e) tabWidth
  rw [← e] at hstart
  have hhalt : (ofSource (spelling (p :: qs)) tabWidth).step.halt = none := by rw [hstart]
  have hin : InFirstLine { ofSource (spelling (p :: qs)) tabWidth with atLineStart := false } := ⟨rfl, rfl, rfl, rfl⟩
  obtain ⟨hrun, htokens⟩ := run_spelling hin rfl hw hp (.inr ⟨p, List.mem_cons_self, hmark⟩)
  rw [tokenize, run_step rfl hhalt, hstart]
  exact ⟨hrun, htokens⟩

end Scanner

end Offside
