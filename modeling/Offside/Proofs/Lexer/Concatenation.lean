import Offside.Proofs.Lexer.Canonical
import Offside.Proofs.Lexer.Lines

/-!
# Sources behind one another

A scan of whole lines does not see what follows them: it takes the same steps, and stands at the start of a line when
it gets there (`reaches_end`). Where a scan stands in its source is of no matter to what its tokens say (`run_moved`),
and at a line of width 0 all blocks are closed, so from there on it goes on as at the start of a source (`run_seam`).
Main statement: the tokens of two sources behind one another are those of the first and those of the second
(`tokenize_append`).
-/

namespace Offside

open Lexeme

/-- What a token says, its position apart. -/
def Token.face (t : Token) : Token.Kind × Token.Subtype × Text := (t.kind, t.subtype, t.literal)

/-- The failure, its position apart. -/
def Halt.unplaced : Halt → Halt
  | .report d => .report (d.moved 0 0)
  | h => h

namespace Text

/-! ## Whole lines -/

/-- The last line of the text has an end. -/
def Whole (s : Text) : Prop := ∀ b ∈ s.getLast?, b = 10

section
variable {s t : Text}

theorem Whole.suffix (h : Whole s) (hsuffix : t <:+ s) : Whole t := by
  obtain ⟨u, rfl⟩ := hsuffix
  intro b hb
  refine h b ?_
  rw [List.getLast?_append, Option.mem_def.1 hb]
  rfl

theorem behind_suffix (s : Text) : s.behind <:+ s := List.dropWhile_suffix _

theorem Whole.behind_ne (h : Whole s) (hne : s ≠ []) : s.behind ≠ [] := by
  intro hbehind
  have hline : s.line = s := by simpa [hbehind] using line_append_behind s
  have hlast := h _ (List.getLast?_eq_some_getLast hne)
  have hmem : isLineEnd (s.getLast hne) = false := mem_line (s := s) (by rw [hline]; exact List.getLast_mem hne)
  rw [hlast] at hmem
  cases hmem

theorem line_append (h : s.behind ≠ []) (t : Text) : line (s ++ t) = s.line ∧ behind (s ++ t) = s.behind ++ t := by
  induction s with
  | nil => exact absurd rfl h
  | cons b s ih =>
    rw [List.cons_append]
    cases hb : isLineEnd b with
    | true =>
      rw [line_cons_end hb, behind_cons_end hb, line_cons_end hb, behind_cons_end hb]
      exact ⟨rfl, rfl⟩
    | false =>
      rw [behind_cons hb] at h
      obtain ⟨hline, hbehind⟩ := ih h
      rw [line_cons hb, behind_cons hb, line_cons hb, behind_cons hb, hline, hbehind]
      exact ⟨rfl, rfl⟩

theorem sameLine_append (h : s.behind ≠ []) (t : Text) : SameLine s (s ++ t) := by
  obtain ⟨hline, hbehind⟩ := line_append h t
  exact ⟨hline, by simp [hbehind, h]⟩

theorem Whole.afterLineEnd_append (h : Whole s) (hne : s ≠ []) (t : Text) :
    Scanner.afterLineEnd (s ++ t) = Scanner.afterLineEnd s ++ t := by
  obtain ⟨b, s, rfl⟩ := List.exists_cons_of_ne_nil hne
  cases s with
  | nil =>
    obtain rfl := h b rfl
    rfl
  | cons c s =>
    simp only [Scanner.afterLineEnd, List.cons_append]
    split
    · split <;> rfl
    · rfl

end

/-! ## The first line with content -/

/-- The line holds something that is no comment. -/
def hasContent (l : Text) : Bool :=
  match l.dropWhile Lexeme.isBlank with
  | [] => false
  | b :: _ => b != 35

/-- The width of the first line with content. -/
def margin? (tabWidth : Int) (s : Text) : Option Int :=
  (s.lines.find? hasContent).map fun l => Layout.width tabWidth (l.takeWhile Lexeme.isBlank)

example : margin? 4 "\n  # a\n\tb\nc" = some 4 := by decide +kernel

section
variable {s rest : Text}

theorem dropWhile_blank_line (s : Text) : s.line.dropWhile Lexeme.isBlank = line (s.dropWhile Lexeme.isBlank) := by
  induction s with
  | nil => rfl
  | cons b s ih =>
    cases hb : Lexeme.isBlank b with
    | true =>
      have hend : isLineEnd b = false := by
        by_contra h
        simp [Scanner.isBlank_lineEnd (by simpa using h)] at hb
      simp [line_cons hend, hb, ih]
    | false =>
      rw [List.dropWhile_cons_of_neg (by simp [hb])]
      cases hend : isLineEnd b with
      | true => rw [line_cons_end hend, List.dropWhile_nil]
      | false => rw [line_cons hend, List.dropWhile_cons_of_neg (by simp [hb])]

theorem hasContent_cons {b : UInt8} (h : s.dropWhile Lexeme.isBlank = b :: rest) :
    s.line.hasContent = (!isLineEnd b && b != 35) := by
  rw [hasContent, dropWhile_blank_line, h]
  cases hb : isLineEnd b with
  | true => simp [line_cons_end hb]
  | false => simp [line_cons hb]

/-- A line without content is passed over. -/
theorem margin?_next (tabWidth : Int) (h : s.line.hasContent = false) (hb : s.behind ≠ []) :
    s.margin? tabWidth = (Scanner.afterLineEnd s.behind).margin? tabWidth := by
  rw [margin?, lines_eq s, if_neg hb, List.find?_cons_of_neg (by simp [h])]
  rfl

theorem margin?_here (tabWidth : Int) (h : s.line.hasContent = true) :
    s.margin? tabWidth = some (Layout.width tabWidth (s.takeWhile Lexeme.isBlank)) := by
  rw [margin?, lines_eq s, List.find?_cons_of_pos h, Option.map_some, takeWhile_line fun _ => Scanner.isBlank_lineEnd]

end

end Text

namespace Scanner

open Text

section
variable {s : Scanner}

theorem afterLineEnd_suffix (t : Text) : afterLineEnd t <:+ t := by
  unfold afterLineEnd
  split
  · exact List.suffix_refl _
  · next b s =>
    split
    · split
      · exact List.nil_suffix
      · next c u =>
        split
        · exact (List.suffix_cons c u).trans (List.suffix_cons b _)
        · exact List.suffix_cons b _
    · exact List.suffix_cons b s

theorem Move.apply_suffix (m : Move) (t : Text) : m.apply t <:+ t := by
  cases m with
  | within n => exact List.drop_suffix n t
  | across => exact (afterLineEnd_suffix _).trans (behind_suffix t)

theorem Move.Fits.apply_append {m : Move} {t : Text} (hm : m.Fits t) (h : Whole t) (hne : t ≠ []) (u : Text) :
    m.apply (t ++ u) = m.apply t ++ u := by
  cases m with
  | within n =>
    exact List.drop_append_of_le_length (Nat.le_trans hm (List.takeWhile_prefix _).length_le)
  | across =>
    rw [Move.apply, Move.apply, (line_append (h.behind_ne hne) u).2,
      (h.suffix (behind_suffix t)).afterLineEnd_append (h.behind_ne hne)]

/-- The scan with more text to come. -/
def append (s : Scanner) (t : Text) : Scanner := s.reading (s.rest ++ t)

theorem append_nil (s : Scanner) : s.append [] = s := by rw [append, List.append_nil, reading_rest]

/-- A step in whole lines does not see what follows them. -/
theorem step_append (hw : Whole s.rest) (hne : s.rest ≠ []) (t : Text) :
    (s.append t).step = { s.step with scanner := s.step.scanner.append t } := by
  obtain ⟨m, hfits, hmove⟩ := step_moves s
  have hrest : s.step.scanner.rest = m.apply s.rest := congrArg (·.scanner.rest) (hmove s.rest (.refl _))
  rw [append, hmove _ (sameLine_append (hw.behind_ne hne) t), hfits.apply_append hw hne, ← hrest]
  rfl

theorem Whole.step (hw : Whole s.rest) : Whole s.step.scanner.rest := by
  obtain ⟨m, hfits, hmove⟩ := step_moves s
  have hrest : s.step.scanner.rest = m.apply s.rest := congrArg (·.scanner.rest) (hmove s.rest (.refl _))
  exact hw.suffix (hrest ▸ m.apply_suffix _)

/-! ### Where whole lines lead to -/

theorem behind_pastBlank (s : Scanner) : s.pastBlank.rest.behind = s.rest.behind :=
  (line_drop (length_blank_le s.rest)).2

theorem rest_skipComment (s : Scanner) : s.skipComment.rest = s.rest.behind := rest_skipWhile s _

/-- No line is begun, or it goes on inside brackets. -/
def BetweenLines (s : Scanner) : Prop := s.atLineStart = true ∨ s.layout.joined = true

/-- A step to the end of whole lines passes over a line end. -/
theorem betweenLines_step (hw : Whole s.rest) (hne : s.rest ≠ []) (hh : s.step.halt = none)
    (hend : s.step.scanner.rest = []) : BetweenLines s.step.scanner := by
  have hbehind := hw.behind_ne hne
  rw [← behind_pastBlank] at hbehind
  generalize hst : s.step = st at hh hend ⊢
  have ht : Takes s st := hst ▸ takes_step s
  cases ht with
  | blankEnd _ hr => exact absurd (by rw [hr]; rfl) hbehind
  | finish _ hr => exact absurd (by rw [hr]; rfl) hbehind
  | commentLine hs hr =>
    dsimp only
    split <;> exact .inl (startsLine_atLineStart hs)
  | blankLine hs _ _ => exact .inl (startsLine_atLineStart hs)
  | enter _ hr _ _ =>
    obtain ⟨m, -, -, he⟩ := enterLine_ok hh
    rw [he] at hend
    exact absurd (hr.symm.trans hend) (List.cons_ne_nil _ _)
  | endLine =>
    unfold endLine
    split
    · next hj => exact .inr hj
    · exact .inl rfl
  | comment _ _ => exact absurd ((rest_skipComment _).symm.trans hend) hbehind
  | @content b rest _ hr hb _ =>
    obtain ⟨x, hx, he⟩ := content_ok hh
    have hwidth : x.width ≤ s.pastBlank.rest.line.length := by
      rw [hr]
      exact width_le_line hb hx
    rw [he] at hend
    rw [← (line_drop hwidth).2] at hbehind
    exact absurd (congrArg behind hend) hbehind

/-- Steps that do not fail, the tokens that they yield, and where they lead to. -/
inductive Reaches : Scanner → List Token → Scanner → Prop
  | refl (s : Scanner) : Reaches s [] s
  | step {s s' : Scanner} {ts : List Token} (hd : s.done = false) (hh : s.step.halt = none)
      (h : Reaches s.step.scanner ts s') : Reaches s (s.step.tokens ++ ts) s'

section
variable {s' : Scanner} {ts : List Token}

theorem Reaches.run (h : Reaches s ts s') : s.run.tokens = ts ++ s'.run.tokens ∧ s.run.halt = s'.run.halt := by
  induction h with
  | refl s => exact ⟨rfl, rfl⟩
  | step hd hh _ ih =>
    rw [run_step hd hh]
    exact ⟨by rw [ih.1, List.append_assoc], ih.2⟩

theorem Reaches.stands (h : Reaches s ts s') {k : Token.Kind} (hs : Stands k s) : ∃ k, Stands k s' := by
  induction h generalizing k with
  | refl s => exact ⟨k, hs⟩
  | step hd hh _ ih =>
    obtain ⟨k', -, hs'⟩ := hs.step hd hh
    exact ih hs'

theorem Reaches.rising (h : Reaches s ts s') (hs : s.layout.Rising) : s'.layout.Rising := by
  induction h with
  | refl s => exact hs
  | step hd hh _ ih => exact ih (rising_step hs)

theorem tabWidth_step (s : Scanner) : s.step.scanner.tabWidth = s.tabWidth := by
  generalize hst : s.step = st
  have ht : Takes s st := hst ▸ takes_step s
  cases ht with
  | blankEnd | blankLine | finish | comment => rfl
  | commentLine =>
    dsimp only
    split <;> rfl
  | enter =>
    rcases enterLine_cases s.pastBlank (Layout.width s.tabWidth (s.rest.takeWhile Lexeme.isBlank)) with
      ⟨-, he⟩ | ⟨m, -, hscanner, -⟩
    · rw [he]
      rfl
    · rw [hscanner]
      rfl
  | endLine =>
    unfold endLine
    split <;> rfl
  | content =>
    unfold content
    split <;> rfl

theorem Reaches.tabWidth (h : Reaches s ts s') : s'.tabWidth = s.tabWidth := by
  induction h with
  | refl s => rfl
  | step hd hh _ ih => rw [ih, tabWidth_step]

theorem Reaches.of_done (h : Reaches s ts s') (hd : s.done = true) : s' = s := by
  cases h with
  | refl s => rfl
  | step hd' _ _ => simp [hd] at hd'

/-- The layout counts the brackets that the tokens open and close. -/
theorem Reaches.brackets (h : Reaches s ts s') (hd' : s'.done = false) :
    ts.foldl Token.bracketDepth s.layout.brackets = s'.layout.brackets := by
  induction h with
  | refl s => rfl
  | @step s s' ts hd hh h ih =>
    rcases advances_step hd with ⟨hadvances, -⟩ | ⟨-, hfinish⟩
    · rw [List.foldl_append, hadvances.flat.2, ih hd']
    · have hdone : s.step.scanner.done = true := by rw [hfinish]; rfl
      rw [h.of_done hdone, hdone] at hd'
      cases hd'

end

/-- A scan of whole lines fails whatever follows them, or it gets to their end whatever follows them. -/
theorem reaches_end (s : Scanner) : s.done = false → Whole s.rest → (s.rest = [] → BetweenLines s) →
    (∃ ts r, ∀ t, (s.append t).run.tokens = ts ∧ (s.append t).run.halt = some r) ∨
    ∃ ts s', s'.rest = [] ∧ s'.done = false ∧ BetweenLines s' ∧ ∀ t, Reaches (s.append t) ts (s'.append t) := by
  induction s using run_induction with
  | done s hd =>
    intro hd'
    simp [hd] at hd'
  | halt s r hd hr =>
    intro _ hw hbetween
    by_cases hne : s.rest = []
    · exact .inr ⟨[], s, hne, hd, hbetween hne, fun t => .refl _⟩
    · refine .inl ⟨[], r, fun t => ?_⟩
      have hr' : (s.append t).step.halt = some r := by rw [step_append hw hne t]; exact hr
      rw [run_halt (s := s.append t) hd hr']
      exact ⟨rfl, rfl⟩
  | step s hd hh ih =>
    intro _ hw hbetween
    by_cases hne : s.rest = []
    · exact .inr ⟨[], s, hne, hd, hbetween hne, fun t => .refl _⟩
    · have hstep := step_append hw hne
      have hh' : ∀ t, (s.append t).step.halt = none := fun t => by rw [hstep]; exact hh
      have hd' : s.step.scanner.done = false := by
        rcases advances_step hd with ⟨-, hd'⟩ | ⟨hr, -⟩
        · exact hd'
        · exact absurd (by rw [← behind_pastBlank, hr]; rfl) (hw.behind_ne hne)
      rcases ih hd' (Whole.step hw) (betweenLines_step hw hne hh) with ⟨ts, r, hfail⟩ | ⟨ts, s', hr, hdone, hb, hreach⟩
      · refine .inl ⟨s.step.tokens ++ ts, r, fun t => ?_⟩
        rw [run_step (s := s.append t) hd (hh' t), hstep]
        exact ⟨congrArg (s.step.tokens ++ ·) (hfail t).1, (hfail t).2⟩
      · refine .inr ⟨s.step.tokens ++ ts, s', hr, hdone, hb, fun t => ?_⟩
        have hadd := Reaches.step (s := s.append t) hd (hh' t) (by rw [hstep]; exact hreach t)
        rw [hstep] at hadd
        exact hadd

/-! ## The place of a scan -/

/-- The scan at another place. -/
def moved (s : Scanner) (line column : Int) : Scanner := { s with line, column }

/-- What a step does, places apart. -/
def Step.face (st : Step) : Scanner × List (Token.Kind × Token.Subtype × Text) × Option Halt :=
  (st.scanner.moved 0 0, st.tokens.map Token.face, st.halt.map Halt.unplaced)

section
variable (s : Scanner) (line column : Int)

theorem enterLine_moved (width : Int) : ((s.moved line column).enterLine width).face = (s.enterLine width).face := by
  simp only [enterLine, moved]
  cases s.layout.measure width with
  | none => rfl
  | some m =>
    simp only [Step.face, moved, token, List.map_map, Function.comp_def, Token.face]
    cases m.aligned <;> rfl

theorem finish_moved : (s.moved line column).finish.face = s.finish.face := by
  cases h : s.lineContent <;> simp [finish, Step.face, moved, token, Token.face, h]

theorem endLine_moved : (s.moved line column).endLine.face = s.endLine.face := by
  cases hj : s.layout.joined <;> simp only [endLine, moved, hj] <;> rfl

theorem content_moved (b : UInt8) (rest : Text) :
    ((s.moved line column).content b rest).face = (s.content b rest).face := by
  unfold content
  cases Lexeme.first b rest with
  | ok x => rfl
  | error e => cases e <;> rfl

theorem startLineAt_moved (width : Int) :
    ((s.moved line column).startLineAt width).face = (s.startLineAt width).face := by
  have hrest : (s.moved line column).rest = s.rest := rfl
  rcases rest_cases s with hr | ⟨b, rest, hr, hb⟩ | ⟨rest, hr⟩ | ⟨b, rest, hr, hb, hc⟩
  · rw [startLineAt_nil hr, startLineAt_nil (hrest.trans hr)]
    rfl
  · rw [startLineAt_end hr hb, startLineAt_end (hrest.trans hr) hb]
    rfl
  · rw [startLineAt_comment hr, startLineAt_comment (hrest.trans hr)]
    have hskip : (s.moved line column).skipComment.rest = s.skipComment.rest := rfl
    rw [hskip]
    split <;> rfl
  · rw [startLineAt_content hr hb hc, startLineAt_content (hrest.trans hr) hb hc, enterLine_moved]

theorem inLineAt_moved : (s.moved line column).inLineAt.face = s.inLineAt.face := by
  have hrest : (s.moved line column).rest = s.rest := rfl
  rcases rest_cases s with hr | ⟨b, rest, hr, hb⟩ | ⟨rest, hr⟩ | ⟨b, rest, hr, hb, hc⟩
  · rw [inLineAt_nil hr, inLineAt_nil (hrest.trans hr), finish_moved]
  · rw [inLineAt_end hr hb, inLineAt_end (hrest.trans hr) hb, endLine_moved]
  · rw [inLineAt_comment hr, inLineAt_comment (hrest.trans hr)]
    rfl
  · rw [inLineAt_content hr hb hc, inLineAt_content (hrest.trans hr) hb hc, content_moved]

/-- What a step does is the same at every place. -/
theorem step_moved : (s.moved line column).step.face = s.step.face := by
  have hblank : ∃ column', (s.moved line column).pastBlank = s.pastBlank.moved line column' := ⟨_, rfl⟩
  obtain ⟨column', hblank⟩ := hblank
  cases hs : s.startsLine with
  | true =>
    rw [step_startLine hs, step_startLine (s := s.moved line column) hs, hblank]
    exact startLineAt_moved _ _ _ _
  | false =>
    rw [step_inLine hs, step_inLine (s := s.moved line column) hs, hblank]
    exact inLineAt_moved _ _ _

theorem eq_moved {s s' : Scanner} (h : s'.moved 0 0 = s.moved 0 0) : s' = s.moved s'.line s'.column :=
  congrArg (·.moved s'.line s'.column) h

end

/-- What the tokens of a run say, and how it fails, is the same at every place. -/
theorem run_moved (s : Scanner) : ∀ line column,
    (s.moved line column).run.tokens.map Token.face = s.run.tokens.map Token.face ∧
    (s.moved line column).run.halt.map Halt.unplaced = s.run.halt.map Halt.unplaced := by
  induction s using run_induction with
  | done s hd =>
    intro line column
    rw [run_done hd, run_done (s := s.moved line column) hd]
    exact ⟨rfl, rfl⟩
  | halt s r hd hr =>
    intro line column
    obtain ⟨-, -, hhalt⟩ : _ ∧ _ ∧ _ := by simpa [Step.face] using step_moved s line column
    rw [hr] at hhalt
    obtain ⟨r', hr', hplace⟩ := Option.map_eq_some_iff.1 hhalt
    rw [run_halt hd hr, run_halt (s := s.moved line column) hd hr']
    exact ⟨rfl, congrArg some hplace⟩
  | step s hd hh ih =>
    intro line column
    obtain ⟨hscanner, htokens, hhalt⟩ : _ ∧ _ ∧ _ := by simpa [Step.face] using step_moved s line column
    rw [hh] at hhalt
    have hh' : (s.moved line column).step.halt = none := Option.map_eq_none_iff.1 hhalt
    rw [run_step hd hh, run_step (s := s.moved line column) hd hh', eq_moved hscanner]
    obtain ⟨hrest, hend⟩ := ih (s.moved line column).step.scanner.line (s.moved line column).step.scanner.column
    exact ⟨by rw [List.map_append, List.map_append, htokens, hrest], hend⟩

/-! ## Behind another source -/

theorem unwind_zero {ws : List Int} (h : ∀ w ∈ ws, 0 < w) : Layout.unwind 0 ws = some ([], ws.length) := by
  induction ws with
  | nil => rfl
  | cons w ws ih =>
    obtain ⟨hw, hws⟩ := List.forall_mem_cons.1 h
    rw [Layout.unwind, if_pos hw, ih hws]
    rfl

/-- A line of width 0 closes all blocks. -/
theorem measure_zero {ws : List Int} (h : Layout.Rising ⟨ws, 0⟩) :
    Layout.measure ⟨ws, 0⟩ 0 = some ⟨{}, List.replicate ws.length .dedent, true⟩ := by
  have hpos : ∀ w ∈ ws, 0 < w := fun w hw => (h.bounded w hw).1
  cases ws with
  | nil => rfl
  | cons w ws =>
    have hw : 0 < w := hpos w List.mem_cons_self
    have hcurrent : Layout.current ⟨w :: ws, 0⟩ = w := rfl
    rw [Layout.measure, hcurrent, if_neg (by omega), if_neg (by omega), unwind_zero hpos]
    rfl

/-- The scan stands at the start of a line, where no block is open. -/
structure AtTop (s : Scanner) : Prop where
  going : s.done = false
  start : s.atLineStart = true
  unbegun : s.lineContent = false
  top : s.layout = {}

/-- The scan behind lines that have left blocks open. -/
def under (s : Scanner) (line column : Int) (blocks : List Int) : Scanner :=
  { s with line, column, layout := ⟨blocks, 0⟩ }

/-- What a token of the layout says. -/
def layoutFace (kind : Token.Kind) : Token.Kind × Token.Subtype × Text := (kind, .plain, [])

/-- Where only blank space is left, the open blocks are closed. -/
theorem run_blankEnd {s : Scanner} (hd : s.done = false) (hs : s.startsLine = true) (hl : s.lineContent = false)
    (hr : s.pastBlank.rest = []) :
    s.run.halt = none ∧
      s.run.tokens.map Token.face = List.replicate s.layout.depth (layoutFace .dedent) ++ [layoutFace .eof] := by
  have hstep : s.step = { scanner := { s.pastBlank with atLineStart := false } } := by
    rw [step_startLine hs, startLineAt_nil hr]
  have hh : s.step.halt = none := by rw [hstep]
  obtain ⟨hhalt, htokens⟩ := run_end (s := s.step.scanner) (by rw [hstep]; exact hd) (by rw [hstep]; exact hr)
  rw [run_step hd hh]
  refine ⟨hhalt, ?_⟩
  dsimp only
  rw [htokens, hstep]
  have hl' : s.pastBlank.lineContent = false := hl
  simp [finish, hl', Token.face, token, layoutFace]
  rfl

section
variable {f : Scanner}

theorem AtTop.startsLine (h : AtTop f) : f.startsLine = true := by
  simp [Scanner.startsLine, h.start, h.top, Layout.joined]

theorem AtTop.startsLine_under (h : AtTop f) (line column : Int) (ws : List Int) :
    (f.under line column ws).startsLine = true := by
  simp [Scanner.startsLine, under, h.start, Layout.joined]

theorem AtTop.pastBlank (h : AtTop f) : AtTop f.pastBlank := ⟨h.going, h.start, h.unbegun, h.top⟩

theorem AtTop.breakLine (h : AtTop f) : AtTop f.breakLine := ⟨h.going, h.start, h.unbegun, h.top⟩

theorem AtTop.skipComment (h : AtTop f) : AtTop f.skipComment := ⟨h.going, h.start, h.unbegun, h.top⟩

/-- The first line with content has width 0. -/
def Flush (f : Scanner) : Prop := ∀ w ∈ f.rest.margin? f.tabWidth, w = 0

theorem flush_nil (hr : f.rest = []) : Flush f := by
  rw [Flush, hr]
  exact nofun

theorem Flush.next (hm : Flush f) (hc : f.rest.line.hasContent = false) (hb : f.rest.behind ≠ []) {f' : Scanner}
    (ht : f'.tabWidth = f.tabWidth) (hr : f'.rest = afterLineEnd f.rest.behind) : Flush f' := by
  rw [Flush, ht, hr, ← margin?_next f.tabWidth hc hb]
  exact hm

theorem enterLine_zero {s : Scanner} {ws : List Int} (hl : s.layout = ⟨ws, 0⟩) (hw : Layout.Rising ⟨ws, 0⟩) :
    (s.enterLine 0).scanner = { s with layout := {}, atLineStart := false } ∧
      (s.enterLine 0).tokens.map Token.face = List.replicate ws.length (layoutFace .dedent) ∧
      (s.enterLine 0).halt = none := by
  simp only [enterLine, hl, measure_zero hw]
  refine ⟨trivial, ?_, rfl⟩
  rw [List.map_map, List.map_replicate]
  rfl

/-- The scan passes over a line without content, and would do so behind open blocks. -/
structure Passes (f f' : Scanner) : Prop where
  top : AtTop f'
  flush : Flush f'
  step : f.step = { scanner := f' }
  under : ∀ line column ws, ∃ line' column', (f.under line column ws).step = { scanner := f'.under line' column' ws }

/-- The scan enters a line of width 0, and would close open blocks there. -/
structure Enters (f : Scanner) : Prop where
  tokens : f.step.tokens = []
  halt : f.step.halt = none
  under : ∀ line column ws, Layout.Rising ⟨ws, 0⟩ →
    (∃ line' column', (f.under line column ws).step.scanner = f.step.scanner.moved line' column') ∧
    (f.under line column ws).step.tokens.map Token.face = List.replicate ws.length (layoutFace .dedent) ∧
    (f.under line column ws).step.halt = none

section
variable (hf : AtTop f) (hm : Flush f)
include hf hm

theorem passes_blank {b : UInt8} {rest : Text} (hr : f.pastBlank.rest = b :: rest) (hb : isLineEnd b = true) :
    Passes f f.pastBlank.breakLine := by
  have hblank : f.rest.dropWhile Lexeme.isBlank = b :: rest := (rest_skipWhile f _).symm.trans hr
  have hcontent : f.rest.line.hasContent = false := by simp [hasContent_cons hblank, hb]
  have hbehind : f.pastBlank.rest = f.rest.behind := by rw [← behind_pastBlank, hr, behind_cons_end hb]
  refine ⟨hf.pastBlank.breakLine, ?_, ?_, fun line column ws => ?_⟩
  · exact hm.next hcontent (by simp [← hbehind, hr]) rfl (congrArg afterLineEnd hbehind)
  · rw [step_startLine hf.startsLine, startLineAt_end hr hb]
  · have hr' : (f.under line column ws).pastBlank.rest = b :: rest := hr
    rw [step_startLine (hf.startsLine_under line column ws), startLineAt_end hr' hb]
    exact ⟨_, _, rfl⟩

theorem passes_comment {rest : Text} (hr : f.pastBlank.rest = 35 :: rest) : ∃ f', Passes f f' := by
  have hblank : f.rest.dropWhile Lexeme.isBlank = 35 :: rest := (rest_skipWhile f _).symm.trans hr
  have hcontent : f.rest.line.hasContent = false := by simp [hasContent_cons hblank]
  have hbehind : f.pastBlank.skipComment.rest = f.rest.behind := by rw [rest_skipComment, behind_pastBlank]
  have hstep := step_startLine hf.startsLine
  rw [startLineAt_comment hr] at hstep
  have hstep' : ∀ line column ws, (f.under line column ws).step = { scanner :=
      if f.pastBlank.skipComment.rest.isEmpty then (f.under line column ws).pastBlank.skipComment
      else (f.under line column ws).pastBlank.skipComment.breakLine } := by
    intro line column ws
    have hr' : (f.under line column ws).pastBlank.rest = 35 :: rest := hr
    rw [step_startLine (hf.startsLine_under line column ws), startLineAt_comment hr']
    rfl
  -- the source ends behind the comment, or the line does
  cases hend : f.pastBlank.skipComment.rest.isEmpty with
  | true =>
    simp only [hend, if_true] at hstep hstep'
    refine ⟨_, hf.pastBlank.skipComment, flush_nil (List.isEmpty_iff.1 hend), hstep, fun line column ws => ?_⟩
    exact ⟨_, _, hstep' line column ws⟩
  | false =>
    simp only [hend, Bool.false_eq_true, if_false] at hstep hstep'
    have hne : f.rest.behind ≠ [] := by
      rw [← hbehind]
      exact List.isEmpty_eq_false_iff.1 hend
    refine ⟨_, hf.pastBlank.skipComment.breakLine, ?_, hstep, fun line column ws => ⟨_, _, hstep' line column ws⟩⟩
    exact hm.next hcontent hne rfl (congrArg afterLineEnd hbehind)

theorem enters_content {b : UInt8} {rest : Text} (hr : f.pastBlank.rest = b :: rest) (hb : isLineEnd b = false)
    (hc : b ≠ 35) : Enters f := by
  have hblank : f.rest.dropWhile Lexeme.isBlank = b :: rest := (rest_skipWhile f _).symm.trans hr
  have hwidth : Layout.width f.tabWidth (f.rest.takeWhile Lexeme.isBlank) = 0 := by
    refine hm _ ?_
    rw [margin?_here f.tabWidth (by rw [hasContent_cons hblank]; simp [hb, hc])]
    rfl
  have hstep := step_startLine hf.startsLine
  rw [hwidth, startLineAt_content hr hb hc] at hstep
  obtain ⟨hscanner, htokens, hhalt⟩ := enterLine_zero (s := f.pastBlank) hf.top Layout.rising_nil
  refine ⟨?_, by rw [hstep, hhalt], fun line column ws hw => ?_⟩
  · rw [hstep]
    exact List.map_eq_nil_iff.1 htokens
  · have hr' : (f.under line column ws).pastBlank.rest = b :: rest := hr
    have hwidth' : Layout.width (f.under line column ws).tabWidth
        ((f.under line column ws).rest.takeWhile Lexeme.isBlank) = 0 := hwidth
    obtain ⟨hscanner', htokens', hhalt'⟩ := enterLine_zero (s := (f.under line column ws).pastBlank) rfl hw
    rw [step_startLine (hf.startsLine_under line column ws), startLineAt_content hr' hb hc, hwidth', hscanner',
      htokens', hhalt', hstep, hscanner]
    exact ⟨⟨_, _, rfl⟩, rfl, rfl⟩

/-- What follows at the start of a line where no block is open: the end of the source, a line without content, or a
line of width 0. -/
theorem step_top : f.pastBlank.rest = [] ∨ (∃ f', Passes f f') ∨ Enters f := by
  rcases rest_cases f.pastBlank with hr | ⟨b, rest, hr, hb⟩ | ⟨rest, hr⟩ | ⟨b, rest, hr, hb, hc⟩
  · exact .inl hr
  · exact .inr (.inl ⟨_, passes_blank hf hm hr hb⟩)
  · exact .inr (.inl (passes_comment hf hm hr))
  · exact .inr (.inr (enters_content hf hm hr hb hc))

end

end

/-- A scan behind lines that have left blocks open closes them, and goes on as at the start of a source. -/
theorem run_seam (f : Scanner) : AtTop f → Flush f → ∀ line column ws, Layout.Rising ⟨ws, 0⟩ →
    (f.under line column ws).run.tokens.map Token.face =
      List.replicate ws.length (layoutFace .dedent) ++ f.run.tokens.map Token.face ∧
    (f.under line column ws).run.halt.map Halt.unplaced = f.run.halt.map Halt.unplaced := by
  induction f using run_induction with
  | done f hd =>
    intro hf
    simp [hf.going] at hd
  | halt f r hd hr =>
    intro hf hm line column ws hw
    rcases step_top hf hm with hend | ⟨f', hpasses⟩ | henters
    · have hhalt := (run_blankEnd hd hf.startsLine hf.unbegun hend).1
      simp [run_halt hd hr] at hhalt
    · simp [hpasses.step] at hr
    · simp [henters.halt] at hr
  | step f hd hh ih =>
    intro hf hm line column ws hw
    rcases step_top hf hm with hend | ⟨f', hpasses⟩ | henters
    · obtain ⟨hhalt, htokens⟩ := run_blankEnd hd hf.startsLine hf.unbegun hend
      obtain ⟨hhalt', htokens'⟩ := run_blankEnd (s := f.under line column ws) hd
        (hf.startsLine_under line column ws) hf.unbegun hend
      rw [hhalt, hhalt', htokens, htokens', hf.top]
      exact ⟨rfl, rfl⟩
    · obtain ⟨line', column', hstep'⟩ := hpasses.under line column ws
      have hh' : (f.under line column ws).step.halt = none := by rw [hstep']
      rw [hpasses.step] at ih
      rw [run_step hd hh, run_step (s := f.under line column ws) hd hh', hpasses.step, hstep']
      exact ih hpasses.top hpasses.flush line' column' ws hw
    · obtain ⟨⟨line', column', hscanner⟩, hfaces, hh'⟩ := henters.under line column ws hw
      obtain ⟨hrest, hend⟩ := run_moved f.step.scanner line' column'
      rw [run_step hd hh, run_step (s := f.under line column ws) hd hh', hscanner, henters.tokens]
      exact ⟨by rw [List.map_append, hfaces, hrest]; rfl, hend⟩

end

theorem foldl_plain {ts : List Token} (h : ∀ t ∈ ts, t.subtype = .plain) (depth : Nat) :
    ts.foldl Token.bracketDepth depth = depth := by
  induction ts with
  | nil => rfl
  | cons t ts ih =>
    obtain ⟨ht, hts⟩ := List.forall_mem_cons.1 h
    rw [List.foldl_cons, Token.bracketDepth, ht]
    exact ih hts

theorem foldl_finish (s : Scanner) (depth : Nat) : s.finish.tokens.foldl Token.bracketDepth depth = depth := by
  refine foldl_plain (fun t ht => ?_) depth
  simp only [finish, List.mem_append, List.mem_replicate, List.mem_singleton] at ht
  rcases ht with (ht | ⟨-, rfl⟩) | rfl
  · split at ht
    · rw [List.mem_singleton.1 ht]
      rfl
    · cases ht
  · rfl
  · rfl

/-- The scan at the end of a source that can be read, whose last line is ended and leaves no bracket open: whatever
follows that source is read behind its blocks. -/
theorem reaches_top {source : Text} {tabWidth : Int} (hok : (tokenize source tabWidth).halt = none)
    (hend : source.getLast? = some 10) (hclosed : (tokenize source tabWidth).tokens.foldl Token.bracketDepth 0 = 0) :
    ∃ ts ws line column, Layout.Rising ⟨ws, 0⟩ ∧ ∀ t,
      Reaches (ofSource (source ++ t) tabWidth) ts ((ofSource t tabWidth).under line column ws) := by
  have hwhole : Whole (ofSource source tabWidth).rest := fun b hb => Option.some.inj (hb.symm.trans hend)
  have hne : (ofSource source tabWidth).rest ≠ [] := by
    rintro h
    rw [show source = [] from h] at hend
    cases hend
  rcases reaches_end (ofSource source tabWidth) rfl hwhole (fun h => absurd h hne) with
    ⟨ts, r, hfail⟩ | ⟨ts, s, hr, hd, hbetween, hreach⟩
  · have hhalt := (hfail []).2
    rw [append_nil] at hhalt
    exact absurd (hok.symm.trans hhalt) nofun
  · have hreach' := hreach []
    rw [append_nil, append_nil] at hreach'
    obtain ⟨k, hstands⟩ := hreach'.stands (Stands.ofSource source tabWidth)
    have hbrackets : s.layout.brackets = 0 := by
      have htokens : (tokenize source tabWidth).tokens = ts ++ s.finish.tokens := by
        rw [← (run_end hd hr).2]
        exact hreach'.run.1
      rw [htokens, List.foldl_append, foldl_finish] at hclosed
      exact (hreach'.brackets hd).symm.trans hclosed
    have hstarts : s.atLineStart = true := hbetween.resolve_right (by simp [Layout.joined, hbrackets])
    have hline : s.lineContent = false :=
      hstands.lineContent hd (by simp [startsLine, hstarts, Layout.joined, hbrackets])
    have hrising : Layout.Rising ⟨s.layout.blocks, 0⟩ := hbrackets ▸ hreach'.rising Layout.rising_nil
    refine ⟨ts, s.layout.blocks, s.line, s.column, hrising, fun t => ?_⟩
    have hs : s.append t = (ofSource t tabWidth).under s.line s.column s.layout.blocks := by
      have htab : s.tabWidth = tabWidth := hreach'.tabWidth
      obtain ⟨rest, line, column, ⟨blocks, brackets⟩, atLineStart, lineContent, done, tab⟩ := s
      simp_all [append, reading, ofSource, under]
    exact hs ▸ hreach t

/-- The tokens of two sources behind one another are those of the first up to its end and those of the second, and
the scan fails as that of the second does. The first can be read, its last line is ended and leaves no bracket open;
the second begins at the margin. -/
theorem tokenize_append {first second : Text} {tabWidth : Int} (hok : (tokenize first tabWidth).halt = none)
    (hend : first.getLast? = some 10) (hclosed : (tokenize first tabWidth).tokens.foldl Token.bracketDepth 0 = 0)
    (hmargin : ∀ w ∈ second.margin? tabWidth, w = 0) :
    ∃ ts eof, (tokenize first tabWidth).tokens = ts ++ [eof] ∧ eof.kind = .eof ∧
      (tokenize (first ++ second) tabWidth).tokens.map Token.face =
        ts.map Token.face ++ (tokenize second tabWidth).tokens.map Token.face ∧
      (tokenize (first ++ second) tabWidth).halt.map Halt.unplaced =
        (tokenize second tabWidth).halt.map Halt.unplaced := by
  obtain ⟨ts, ws, line, column, hrising, hreach⟩ := reaches_top hok hend hclosed
  obtain ⟨htokens, hhalt⟩ := (hreach second).run
  have htop : ∀ t, AtTop (ofSource t tabWidth) := fun t => ⟨rfl, rfl, rfl, rfl⟩
  obtain ⟨hseam, hseamHalt⟩ := run_seam (ofSource second tabWidth) (htop second) hmargin line column ws hrising
  have hfirst := (hreach []).run.1
  rw [List.append_nil, (run_end (s := (ofSource [] tabWidth).under line column ws) rfl rfl).2] at hfirst
  refine ⟨ts ++ List.replicate ws.length (((ofSource [] tabWidth).under line column ws).token .dedent),
    ((ofSource [] tabWidth).under line column ws).token .eof, ?_, rfl, ?_, hhalt ▸ hseamHalt⟩
  · rw [List.append_assoc]
    exact hfirst
  · rw [tokenize, htokens, List.map_append, hseam, List.map_append, List.map_replicate, List.append_assoc]
    rfl

/-- Blocks that the first source leaves open, a comment line before the second, and a character in it that begins no
token. -/
theorem tokenize_append_open :
    let first : Text := "if a:\n  while f(b\n):\n    c\n"
    let second : Text := "\n # d\ne = $\n"
    (tokenize first 4).halt = none ∧ first.getLast? = some 10 ∧
    (tokenize first 4).tokens.foldl Token.bracketDepth 0 = 0 ∧ second.margin? 4 = some 0 ∧
    (tokenize (first ++ second) 4).halt.map Halt.unplaced =
      some (.report (.unknownTokenError "unrecognized character '$'" "$" 0 0)) := by
  intro first second
  have hok : (tokenize first 4).halt = none := by decide +kernel
  have hend : first.getLast? = some 10 := by decide +kernel
  have hclosed : (tokenize first 4).tokens.foldl Token.bracketDepth 0 = 0 := by decide +kernel
  have hmargin : second.margin? 4 = some 0 := by decide +kernel
  have hflush : ∀ w ∈ second.margin? 4, w = 0 := by
    rw [hmargin]
    exact fun w hw => (Option.some.inj hw).symm
  obtain ⟨ts, eof, -, -, -, hhalt⟩ := tokenize_append hok hend hclosed hflush
  refine ⟨hok, hend, hclosed, hmargin, hhalt.trans ?_⟩
  decide +kernel

end Scanner

end Offside
