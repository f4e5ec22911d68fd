import Offside.Lexer.Scanner

/-!
# Runs of the scanner

What one step of a scan can do (`Takes`), and that every step leaves less to do, so that a run takes steps
until the source has ended or a step fails, whatever the bound on their number (`run_step`). What holds of
every run is then proved by `run_induction`.
-/

namespace Offside

namespace Lexeme

/-- The token is read from some text. -/
def Read (t : Token) : Prop :=
  ∃ b s x, first b s = .ok x ∧ t.kind = x.kind ∧ t.subtype = x.subtype ∧ t.literal = x.literal

/-- The kinds that are spelled in the source. -/
def isContent (k : Token.Kind) : Bool := !k.isStructural

theorem number_width {b : UInt8} {s : Text} (h : Text.isDigit b || (b == 46 && startsWithDigit s)) :
    0 < (number (b :: s)).width := by
  cases hb : Text.isDigit b with
  | true => simp [number, hb]
  | false =>
    simp only [hb, Bool.false_or, Bool.and_eq_true, beq_iff_eq] at h
    obtain ⟨rfl, -⟩ := h
    have hw : List.takeWhile Text.isDigit (46 :: s) = [] := rfl
    simp [number, hw, fraction]

theorem string_ok {q : UInt8} {s : Text} {x : Lexeme} (h : string q s = .ok x) :
    0 < x.width ∧ x.kind = .string := by
  simp only [string] at h
  split at h
  · cases h
  · split at h
    · cases h
      exact ⟨Nat.succ_pos _, rfl⟩
    · cases h

theorem operator?_width {b : UInt8} {next : Option UInt8} {op : Operator} {width : Nat}
    (h : operator? b next = some (op, width)) : 0 < width := by
  unfold operator? at h
  grind

theorem classify_content (word : Text) : isContent (classify word).1 = true := by
  unfold classify
  split
  · rfl
  · split <;> rfl

/-- A content token takes up some of the text, and it is no token of the layout. -/
theorem first_ok {b : UInt8} {s : Text} {x : Lexeme} (h : first b s = .ok x) :
    0 < x.width ∧ isContent x.kind = true := by
  unfold first at h
  split at h
  · next hd =>
    cases h
    exact ⟨number_width hd, rfl⟩
  · split at h
    · next hw =>
      cases h
      exact ⟨by simp [word, isWordPart, hw], classify_content _⟩
    · split at h
      · have hx := string_ok h
        exact ⟨hx.1, by rw [hx.2]; rfl⟩
      · split at h
        · cases h
          exact ⟨Nat.one_pos, rfl⟩
        · split at h
          · cases h
            exact ⟨Nat.one_pos, rfl⟩
          · split at h
            · next op width hop =>
              cases h
              exact ⟨operator?_width hop, rfl⟩
            · cases h

end Lexeme

namespace Scanner

/-! ## What a step can do -/

/-- The scan behind the blank space at its place. -/
def pastBlank (s : Scanner) : Scanner := s.skipWhile Lexeme.isBlank

/-- Whether the next step takes the start of a line. -/
def startsLine (s : Scanner) : Bool := s.atLineStart && !s.layout.joined

/-- A step that the scan can take. -/
inductive Takes (s : Scanner) : Step → Prop
  /-- At the start of a line, only blank space is left. -/
  | blankEnd (hs : s.startsLine = true) (hr : s.pastBlank.rest = []) :
      Takes s { scanner := { s.pastBlank with atLineStart := false } }
  /-- A line with a comment only is passed over. -/
  | commentLine {rest : Text} (hs : s.startsLine = true) (hr : s.pastBlank.rest = 35 :: rest) :
      Takes s { scanner := if s.pastBlank.skipComment.rest.isEmpty then s.pastBlank.skipComment
        else s.pastBlank.skipComment.breakLine }
  /-- A blank line is passed over. -/
  | blankLine {b : UInt8} {rest : Text} (hs : s.startsLine = true) (hr : s.pastBlank.rest = b :: rest)
      (hb : Lexeme.isLineEnd b = true) : Takes s { scanner := s.pastBlank.breakLine }
  /-- A line with content enters the layout. -/
  | enter {b : UInt8} {rest : Text} (hs : s.startsLine = true) (hr : s.pastBlank.rest = b :: rest)
      (hb : Lexeme.isLineEnd b = false) (hc : b ≠ 35) :
      Takes s (s.pastBlank.enterLine (Layout.width s.tabWidth (s.rest.takeWhile Lexeme.isBlank)))
  /-- The source ends. -/
  | finish (hs : s.startsLine = false) (hr : s.pastBlank.rest = []) : Takes s s.pastBlank.finish
  /-- A line ends. -/
  | endLine {b : UInt8} {rest : Text} (hs : s.startsLine = false) (hr : s.pastBlank.rest = b :: rest)
      (hb : Lexeme.isLineEnd b = true) : Takes s s.pastBlank.endLine
  /-- The comment behind a line is passed over. -/
  | comment {rest : Text} (hs : s.startsLine = false) (hr : s.pastBlank.rest = 35 :: rest) :
      Takes s { scanner := s.pastBlank.skipComment }
  /-- A content token is read. -/
  | content {b : UInt8} {rest : Text} (hs : s.startsLine = false) (hr : s.pastBlank.rest = b :: rest)
      (hb : Lexeme.isLineEnd b = false) (hc : b ≠ 35) : Takes s (s.pastBlank.content b rest)

theorem takes_startLine {s : Scanner} (hs : s.startsLine = true) : Takes s s.startLine := by
  unfold startLine
  dsimp only
  split
  · next hr => exact .blankEnd hs hr
  · next b rest hr =>
    split
    · next hb =>
      subst hb
      exact .commentLine hs hr
    · next hc =>
      split
      · next hb => exact .blankLine hs hr hb
      · next hb => exact .enter hs hr (by simpa using hb) hc

theorem takes_inLine {s : Scanner} (hs : s.startsLine = false) : Takes s s.inLine := by
  unfold inLine
  dsimp only
  split
  · next hr => exact .finish hs hr
  · next b rest hr =>
    split
    · next hb => exact .endLine hs hr hb
    · next hb =>
      split
      · next hc =>
        subst hc
        exact .comment hs hr
      · next hc => exact .content hs hr (by simpa using hb) hc

theorem takes_step (s : Scanner) : Takes s s.step := by
  unfold step
  split
  · next hs => exact takes_startLine hs
  · next hs => exact takes_inLine (Bool.eq_false_iff.2 hs)

/-! ## Every step leaves less to do -/

section
variable (s : Scanner) (p : UInt8 → Bool)

@[simp] theorem rest_skipWhile : (s.skipWhile p).rest = s.rest.dropWhile p := by
  calc s.rest.drop (s.rest.takeWhile p).length
      = (s.rest.takeWhile p ++ s.rest.dropWhile p).drop (s.rest.takeWhile p).length := by
        rw [List.takeWhile_append_dropWhile]
    _ = s.rest.dropWhile p := List.drop_left

@[simp] theorem atLineStart_skipWhile : (s.skipWhile p).atLineStart = s.atLineStart := rfl

@[simp] theorem done_skipWhile : (s.skipWhile p).done = s.done := rfl

@[simp] theorem layout_skipWhile : (s.skipWhile p).layout = s.layout := rfl

@[simp] theorem lineContent_skipWhile : (s.skipWhile p).lineContent = s.lineContent := rfl

end

theorem not_isBlank {s : Scanner} {b : UInt8} {rest : Text} (hr : s.pastBlank.rest = b :: rest) :
    Lexeme.isBlank b = false := by
  have h := List.head?_dropWhile_not Lexeme.isBlank s.rest
  rw [← rest_skipWhile] at h
  simp only [pastBlank] at hr
  rw [hr] at h
  exact h

theorem pastBlank_of_cons {s : Scanner} {b : UInt8} {rest : Text} (hr : s.rest = b :: rest)
    (hb : Lexeme.isBlank b = false) : s.pastBlank = s := by
  cases s
  simp_all [pastBlank, skipWhile, skip]

theorem pastBlank_of_nil {s : Scanner} (hr : s.rest = []) : s.pastBlank = s := by
  cases s
  simp_all [pastBlank, skipWhile, skip]

theorem length_pastBlank (s : Scanner) : s.pastBlank.rest.length ≤ s.rest.length := by
  simpa [pastBlank] using (List.dropWhile_suffix Lexeme.isBlank).length_le

theorem length_afterLineEnd (t : Text) : (afterLineEnd t).length ≤ t.length - 1 := by
  unfold afterLineEnd
  grind

theorem length_skipComment {s : Scanner} {rest : Text} (h : s.rest = 35 :: rest) :
    s.skipComment.rest.length ≤ rest.length := by
  have hc : (35 :: rest).dropWhile (fun b => !Lexeme.isLineEnd b) = rest.dropWhile fun b => !Lexeme.isLineEnd b :=
    rfl
  simpa [skipComment, h, hc] using (List.dropWhile_suffix _).length_le

/-- How much a scan has to do: each byte can be read and can start a line, and the end is still to come. -/
def toDo (s : Scanner) : Nat :=
  if s.done then 0 else 2 * s.rest.length + if s.atLineStart then 2 else 1

theorem toDo_le_bound (s : Scanner) : s.toDo ≤ s.bound := by
  unfold toDo bound
  grind

theorem toDo_pos {s : Scanner} (hd : s.done = false) : 0 < s.toDo := by
  unfold toDo
  grind

theorem toDo_of_rest {s s' : Scanner} (hd : s.done = false) (hr : s'.rest.length < s.rest.length) :
    s'.toDo < s.toDo := by
  unfold toDo
  grind

theorem toDo_of_entered {s s' : Scanner} (hd : s.done = false) (hs : s.startsLine = true)
    (hs' : s'.atLineStart = false) (hr : s'.rest.length ≤ s.rest.length) : s'.toDo < s.toDo := by
  simp only [startsLine, Bool.and_eq_true] at hs
  simp only [toDo, hd, hs.1, hs']
  grind

/-- What a step that takes a line into the layout gives. -/
theorem enterLine_ok {s : Scanner} {width : Int} (h : (s.enterLine width).halt = none) :
    ∃ m, s.layout.measure width = some m ∧ m.aligned = true ∧ s.enterLine width =
      { scanner := { s with layout := m.layout, atLineStart := false }
        tokens := m.kinds.map fun kind => s.token kind
        notes := [.measured s.line width m.kinds.length m.layout] } := by
  simp only [enterLine] at h ⊢
  cases hm : s.layout.measure width with
  | none => simp [hm] at h
  | some m =>
    simp only [hm] at h ⊢
    cases ha : m.aligned with
    | true => exact ⟨m, rfl, ha, rfl⟩
    | false => simp [ha] at h

/-- A step that takes a line into the layout, whether it fails or not: there is no result for the width, or the layout
is the one that the width leads to. -/
theorem enterLine_cases (s : Scanner) (width : Int) :
    (s.layout.measure width = none ∧
      s.enterLine width = { scanner := { s with atLineStart := false }, halt := some .crash }) ∨
    ∃ m, s.layout.measure width = some m ∧
      (s.enterLine width).scanner = { s with layout := m.layout, atLineStart := false } ∧
      (s.enterLine width).tokens = m.kinds.map (fun kind => s.token kind) ∧
      (s.enterLine width).notes = [.measured s.line width m.kinds.length m.layout] ∧
      (s.enterLine width).halt ≠ some .crash := by
  simp only [enterLine]
  cases s.layout.measure width with
  | none => exact .inl ⟨rfl, rfl⟩
  | some m =>
    refine .inr ⟨m, rfl, rfl, rfl, rfl, ?_⟩
    cases ha : m.aligned <;> simp [ha]

theorem rest_endLine (s : Scanner) : s.endLine.scanner.rest = afterLineEnd s.rest := by
  unfold endLine
  split <;> rfl

/-- What a step that reads a content token gives. -/
theorem content_ok {s : Scanner} {b : UInt8} {rest : Text} (h : (s.content b rest).halt = none) :
    ∃ x, Lexeme.first b rest = .ok x ∧ s.content b rest =
      { scanner := { s.skip x.width with layout := bracketed s.layout x.subtype, lineContent := true }
        tokens := [s.token x.kind x.subtype x.literal] } := by
  unfold content at h ⊢
  split at h
  · next x hx => exact ⟨x, hx, rfl⟩
  · cases h
  · cases h

/-- Each step that does not fail leaves less to do. -/
theorem toDo_step {s : Scanner} (hd : s.done = false) (hh : s.step.halt = none) :
    s.step.scanner.toDo < s.toDo := by
  have hblank := length_pastBlank s
  generalize hst : s.step = st at hh ⊢
  have ht : Takes s st := hst ▸ takes_step s
  cases ht with
  | blankEnd hs hr => exact toDo_of_entered hd hs rfl hblank
  | commentLine hs hr =>
    have hc := length_skipComment hr
    rw [hr] at hblank
    have hl := length_afterLineEnd s.pastBlank.skipComment.rest
    refine toDo_of_rest hd ?_
    split
    · grind
    · simp only [breakLine]
      grind
  | blankLine hs hr hb =>
    have hl := length_afterLineEnd s.pastBlank.rest
    rw [hr] at hblank hl
    refine toDo_of_rest hd ?_
    simp only [breakLine, hr]
    grind
  | enter hs hr hb hc =>
    obtain ⟨m, -, -, he⟩ := enterLine_ok hh
    rw [he]
    exact toDo_of_entered hd hs rfl hblank
  | finish hs hr => exact toDo_pos hd
  | endLine hs hr hb =>
    have hl := length_afterLineEnd s.pastBlank.rest
    rw [hr] at hblank hl
    refine toDo_of_rest hd ?_
    rw [rest_endLine, hr]
    grind
  | comment hs hr =>
    rw [hr] at hblank
    exact toDo_of_rest hd (Nat.lt_of_le_of_lt (length_skipComment hr) hblank)
  | content hs hr hb hc =>
    obtain ⟨x, hx, he⟩ := content_ok hh
    rw [he]
    refine toDo_of_rest hd ?_
    have hw := (Lexeme.first_ok hx).1
    simp only [skip, List.length_drop]
    rw [hr] at hblank ⊢
    simp only [List.length_cons] at hblank ⊢
    omega

/-! ## Runs -/

theorem runFor_step {s : Scanner} (hd : s.done = false) (hh : s.step.halt = none) (fuel : Nat) :
    runFor (fuel + 1) s = { runFor fuel s.step.scanner with
      tokens := s.step.tokens ++ (runFor fuel s.step.scanner).tokens
      steps := s.step :: (runFor fuel s.step.scanner).steps } := by
  rw [runFor]
  simp [hd, hh]

/-- The fuel has no part in a run that it suffices for. -/
theorem runFor_eq {s : Scanner} : ∀ {fuel fuel' : Nat}, s.toDo ≤ fuel → s.toDo ≤ fuel' →
    runFor fuel s = runFor fuel' s := by
  intro fuel
  induction fuel generalizing s with
  | zero =>
    intro fuel' h _
    have hd : s.done = true := by
      cases hd : s.done with
      | true => rfl
      | false => exact absurd (toDo_pos hd) (by omega)
    cases fuel' with
    | zero => rfl
    | succ fuel' => simp [runFor, hd]
  | succ fuel ih =>
    intro fuel' h h'
    cases hd : s.done with
    | true => cases fuel' <;> simp [runFor, hd]
    | false =>
      obtain ⟨fuel', rfl⟩ : ∃ k, fuel' = k + 1 := ⟨fuel' - 1, by have := toDo_pos hd; omega⟩
      cases hh : s.step.halt with
      | some r => simp [runFor, hd, hh]
      | none =>
        have hlt := toDo_step hd hh
        have he := @ih s.step.scanner fuel' (by omega) (by omega)
        rw [runFor_step hd hh, runFor_step hd hh, he]

theorem run_done {s : Scanner} (hd : s.done = true) : s.run = { scanner := s } := by
  simp [run, bound, runFor, hd]

theorem run_halt {s : Scanner} (hd : s.done = false) {r : Halt} (hh : s.step.halt = some r) :
    s.run = { halt := some r, scanner := s.step.scanner, pending := s.step.tokens, steps := [s.step] } := by
  simp [run, bound, runFor, hd, hh]

/-- A run goes on behind each step that does not fail. -/
theorem run_step {s : Scanner} (hd : s.done = false) (hh : s.step.halt = none) :
    s.run = { s.step.scanner.run with
      tokens := s.step.tokens ++ s.step.scanner.run.tokens
      steps := s.step :: s.step.scanner.run.steps } := by
  have hlt := toDo_step hd hh
  have hle := toDo_le_bound s
  have he : runFor (2 * s.rest.length + 1) s.step.scanner = s.step.scanner.run :=
    runFor_eq (by unfold bound at hle; omega) (toDo_le_bound _)
  rw [run, bound, runFor_step hd hh, he]

/-- What holds of a scan that is done or fails, and before a step if it holds behind it, holds of every
scan. -/
theorem run_induction {P : Scanner → Prop} (done : ∀ s, s.done = true → P s)
    (halt : ∀ s r, s.done = false → s.step.halt = some r → P s)
    (step : ∀ s, s.done = false → s.step.halt = none → P s.step.scanner → P s) (s : Scanner) : P s := by
  induction hn : s.toDo using Nat.strongRecOn generalizing s with
  | _ n ih =>
    cases hd : s.done with
    | true => exact done s hd
    | false =>
      cases hh : s.step.halt with
      | some r => exact halt s r hd hh
      | none => exact step s hd hh (ih _ (hn ▸ toDo_step hd hh) _ rfl)

/-! ## Why a scan breaks off -/

/-- The reasons for which a step fails. -/
inductive Breaks : Halt → Prop
  /-- The layout has no level to compare a line with. -/
  | crash : Breaks .crash
  /-- A line is indented like none of the lines around it. -/
  | unindent (width line column : Int) :
      Breaks (.report ((Diagnostic.indentationError "unindent does not match any outer indentation level" [] line
        column).withFact "width" (.int width)))
  /-- A string does not end on its line. -/
  | unterminated (text : Text) (line column : Int) :
      Breaks (.report (.syntaxError "EOL while scanning string literal" text line column))
  /-- No token begins with the character. -/
  | unrecognized (shown : Text) (line column : Int) :
      Breaks (.report (.unknownTokenError ("unrecognized character '" ++ shown ++ "'") shown line column))

theorem enterLine_breaks {s : Scanner} {width : Int} {h : Halt} (hh : (s.enterLine width).halt = some h) :
    Breaks h := by
  simp only [enterLine] at hh
  split at hh
  · cases hh
    exact .crash
  · dsimp only at hh
    split at hh
    · cases hh
    · cases hh
      exact .unindent _ _ _

theorem content_breaks {s : Scanner} {b : UInt8} {rest : Text} {h : Halt} (hh : (s.content b rest).halt = some h) :
    Breaks h := by
  simp only [content] at hh
  split at hh
  · cases hh
  · cases hh
    exact .unterminated _ _ _
  · cases hh
    exact .unrecognized _ _ _

theorem step_breaks {s : Scanner} {h : Halt} (hh : s.step.halt = some h) : Breaks h := by
  generalize hst : s.step = st at hh
  have ht : Takes s st := hst ▸ takes_step s
  cases ht with
  | enter => exact enterLine_breaks hh
  | content => exact content_breaks hh
  | endLine =>
    unfold endLine at hh
    split at hh <;> cases hh
  | blankEnd | commentLine | blankLine | finish | comment => cases hh

theorem run_breaks (s : Scanner) : ∀ h ∈ s.run.halt, Breaks h := by
  induction s using run_induction with
  | done s hd => simp [run_done hd]
  | halt s r hd hr => simpa [run_halt hd hr] using step_breaks hr
  | step s hd hh ih => simpa [run_step hd hh] using ih

end Scanner

end Offside
