import Offside.Proofs.Lexer.Concatenation

/-!
# Lines without content

A line of blank space, perhaps with a comment, leaves a scan as it is, but for its place: at the start of a line it is
not measured, and inside brackets its end means nothing (`reaches_blankLine`). Main statement: such a line can be put
between any two lines of a source, and neither the tokens nor the failure of the scan change (`tokenize_blankLine`).
-/

namespace Offside

open Lexeme

namespace Text

section
variable {blank comment after : Text}

/-- What follows blank space begins behind it. -/
theorem dropWhile_blank (hblank : ∀ b ∈ blank, Lexeme.isBlank b = true)
    (hhead : ∀ b ∈ after.head?, Lexeme.isBlank b = false) : (blank ++ after).dropWhile Lexeme.isBlank = after := by
  rw [List.dropWhile_append_of_pos hblank]
  cases after with
  | nil => rfl
  | cons b after => exact List.dropWhile_cons_of_neg (by simp [hhead b rfl])

/-- A text without line ends is a line up to where one follows. -/
theorem behind_line (hcomment : ∀ b ∈ comment, isLineEnd b = false) : behind (comment ++ 10 :: after) = 10 :: after := by
  have hline : ∀ b ∈ comment, (!isLineEnd b) = true := fun b hb => by simp [hcomment b hb]
  rw [behind, List.dropWhile_append_of_pos hline]
  rfl

end

end Text

namespace Scanner

open Text

section
variable {s : Scanner} {after : Text}

theorem Reaches.silent {s' s'' : Scanner} {ts : List Token} (hd : s.done = false) (hstep : s.step = { scanner := s' })
    (h : Reaches s' ts s'') : Reaches s ts s'' := by
  have hreach : Reaches s (s.step.tokens ++ ts) s'' := .step hd (by rw [hstep]) (by rw [hstep]; exact h)
  rw [hstep] at hreach
  exact hreach

/-- The end of a line without content: at the start of a line it is passed over, inside brackets it means nothing. -/
theorem reaches_lineEnd (hd : s.done = false) (hb : BetweenLines s) (hr : s.pastBlank.rest = 10 :: after) :
    Reaches s [] ((s.reading after).moved (s.line + 1) 1) := by
  have hstep : s.step = { scanner := s.pastBlank.breakLine } := by
    cases hs : s.startsLine with
    | true => rw [step_startLine hs, startLineAt_end hr rfl]
    | false =>
      have hj : s.layout.joined = true := by
        rcases hb with ha | hj
        · simpa [startsLine, ha] using hs
        · exact hj
      rw [step_inLine hs, inLineAt_end hr rfl]
      exact if_pos hj
  have hnext : s.pastBlank.breakLine = (s.reading after).moved (s.line + 1) 1 := by
    simp only [breakLine, hr]
    rfl
  exact .silent hd hstep (hnext ▸ .refl _)

/-- A line with nothing but a comment behind its blank space is passed over, inside brackets in two steps. -/
theorem reaches_commentLine {rest : Text} (hd : s.done = false) (hb : BetweenLines s)
    (hr : s.pastBlank.rest = 35 :: rest) (hbehind : s.pastBlank.rest.behind = 10 :: after) :
    Reaches s [] ((s.reading after).moved (s.line + 1) 1) := by
  have hskip : s.pastBlank.skipComment.rest = 10 :: after := (rest_skipComment _).trans hbehind
  cases hs : s.startsLine with
  | true =>
    have hstep : s.step = { scanner := s.pastBlank.skipComment.breakLine } := by
      rw [step_startLine hs, startLineAt_comment hr, hskip]
      rfl
    have hnext : s.pastBlank.skipComment.breakLine = (s.reading after).moved (s.line + 1) 1 := by
      simp only [breakLine, hskip]
      rfl
    exact .silent hd hstep (hnext ▸ .refl _)
  | false =>
    have hstep : s.step = { scanner := s.pastBlank.skipComment } := by rw [step_inLine hs, inLineAt_comment hr]
    have hend : s.pastBlank.skipComment.pastBlank.rest = 10 :: after := by
      rw [pastBlank_of_cons hskip rfl, hskip]
    exact .silent hd hstep (reaches_lineEnd (s := s.pastBlank.skipComment) hd hb hend)

/-- A line of blank space and a comment, which is empty or begins with a number sign, is passed over. -/
theorem reaches_blankLine {blank comment : Text} (hd : s.done = false) (hb : BetweenLines s)
    (hr : s.rest = blank ++ (comment ++ 10 :: after)) (hblank : ∀ b ∈ blank, Lexeme.isBlank b = true)
    (hsign : ∀ b ∈ comment.head?, b = 35) (hcomment : ∀ b ∈ comment, isLineEnd b = false) :
    Reaches s [] ((s.reading after).moved (s.line + 1) 1) := by
  have hhead : ∀ b ∈ (comment ++ 10 :: after).head?, Lexeme.isBlank b = false := by
    intro b hb
    cases comment with
    | nil =>
      cases hb
      rfl
    | cons c comment =>
      cases hb
      rw [hsign b rfl]
      rfl
  have hpast : s.pastBlank.rest = comment ++ 10 :: after := by
    rw [pastBlank, rest_skipWhile, hr, dropWhile_blank hblank hhead]
  cases comment with
  | nil => exact reaches_lineEnd hd hb hpast
  | cons c comment =>
    obtain rfl : c = 35 := hsign c rfl
    exact reaches_commentLine hd hb hpast (by rw [hpast, behind_line hcomment])

end

/-- A line of blank space, perhaps with a comment, changes neither what the tokens of a source say nor how its scan
fails, wherever it is put between two lines, before the first or behind the last. -/
theorem tokenize_blankLine {before blank comment : Text} (hbefore : ∀ b ∈ before.getLast?, b = 10)
    (hblank : ∀ b ∈ blank, Lexeme.isBlank b = true) (hsign : ∀ b ∈ comment.head?, b = 35)
    (hcomment : ∀ b ∈ comment, isLineEnd b = false) (after : Text) (tabWidth : Int) :
    (tokenize (before ++ (blank ++ (comment ++ 10 :: after))) tabWidth).tokens.map Token.face =
      (tokenize (before ++ after) tabWidth).tokens.map Token.face ∧
    (tokenize (before ++ (blank ++ (comment ++ 10 :: after))) tabWidth).halt.map Halt.unplaced =
      (tokenize (before ++ after) tabWidth).halt.map Halt.unplaced := by
  rcases reaches_end (ofSource before tabWidth) rfl hbefore (fun _ => .inl rfl) with
    ⟨ts, r, hfail⟩ | ⟨ts, s, hr, hd, hbetween, hreach⟩
  · obtain ⟨htokens, hhalt⟩ := hfail after
    obtain ⟨htokens', hhalt'⟩ := hfail (blank ++ (comment ++ 10 :: after))
    exact ⟨congrArg _ (htokens'.trans htokens.symm), congrArg _ (hhalt'.trans hhalt.symm)⟩
  · obtain ⟨htokens, hhalt⟩ := (hreach after).run
    obtain ⟨htokens', hhalt'⟩ := (hreach (blank ++ (comment ++ 10 :: after))).run
    have hrest : (s.append (blank ++ (comment ++ 10 :: after))).rest = blank ++ (comment ++ 10 :: after) := by
      simp [append, hr]
    have hsame : (s.append (blank ++ (comment ++ 10 :: after))).reading after = s.append after := by
      simp [append, reading, hr]
    have hpass := reaches_blankLine (s := s.append _) hd hbetween hrest hblank hsign hcomment
    rw [hsame] at hpass
    obtain ⟨hpassTokens, hpassHalt⟩ := hpass.run
    obtain ⟨hmovedTokens, hmovedHalt⟩ := run_moved (s.append after) ((s.append _).line + 1) 1
    have hsource : ∀ t, (ofSource before tabWidth).append t = ofSource (before ++ t) tabWidth := fun _ => rfl
    rw [hsource] at htokens hhalt htokens' hhalt'
    constructor
    · rw [tokenize, tokenize, htokens, htokens', hpassTokens, List.nil_append, List.map_append, List.map_append,
        hmovedTokens]
    · rw [tokenize, tokenize, hhalt, hhalt', hpassHalt, hmovedHalt]

/-- A comment line inside brackets, in a source that fails behind it. -/
theorem tokenize_blankLine_joined :
    let before : Text := "if a:\n  f(b,\n"
    let blank : Text := " \t\x0c"
    let comment : Text := "# ) 'c"
    let after : Text := "d)\n e\n"
    (∀ b ∈ before.getLast?, b = 10) ∧ (∀ b ∈ blank, Lexeme.isBlank b = true) ∧ (∀ b ∈ comment.head?, b = 35) ∧
    (∀ b ∈ comment, isLineEnd b = false) ∧
    (tokenize (before ++ (blank ++ (comment ++ 10 :: after))) 4).halt.map Halt.unplaced =
      some (.report ((Diagnostic.indentationError "unindent does not match any outer indentation level" [] 0
        0).withFact "width" (.int 1))) := by
  intro before blank comment after
  have hbefore : ∀ b ∈ before.getLast?, b = 10 := by decide +kernel
  have hblank : ∀ b ∈ blank, Lexeme.isBlank b = true := by decide +kernel
  have hsign : ∀ b ∈ comment.head?, b = 35 := by decide +kernel
  have hcomment : ∀ b ∈ comment, isLineEnd b = false := by decide +kernel
  refine ⟨hbefore, hblank, hsign, hcomment, ?_⟩
  refine (tokenize_blankLine hbefore hblank hsign hcomment after 4).2.trans ?_
  decide +kernel

end Scanner

end Offside
