import Offside.Proofs.Lexer.Lines
import Offside.Proofs.Lexer.Tiling

/-!
# The places of tokens

A line and a column name one place of a source, if any (`Place.unique`): the line counts the line ends in front of
it, the column the bytes since the last of them. Every token of a scan, those of the layout too, carries the line
and the column of a place, and so does the report of a scan that fails. What stands at the place of a token is what
the token was read from, or the end of a line (`tokenize_places`).
-/

namespace Offside

open Lexeme

namespace Text

/-! ## Places -/

/-- Between `before` and `rest`, and not inside of a line end, is the place with this line and column. -/
structure Place (source : Text) (line column : Int) (before rest : Text) : Prop where
  parts : source = before ++ rest
  whole : before.getLast? = some 13 → rest.head? ≠ some 10
  line : line = 1 + before.lineEnds
  column : column = 1 + before.sinceLineEnd

theorem lineEnds_pos {b : UInt8} {s : Text} (hb : b ∈ s) (h : isLineEnd b = true) : 0 < lineEnds s := by
  induction s with
  | nil => cases hb
  | cons c s ih =>
    rw [lineEnds]
    by_cases hs : b ∈ s
    · have hpos := ih hs
      omega
    · obtain rfl : b = c := (List.mem_cons.1 hb).resolve_right hs
      by_cases hnext : s.head? = some 10
      · -- a line feed follows, so the return is counted with it
        have hpos : 0 < lineEnds s := by
          obtain ⟨t, rfl⟩ := List.head?_eq_some_iff.1 hnext
          simp [lineEnds]
        omega
      · simp only [isLineEnd, Bool.or_eq_true, beq_iff_eq] at h
        rw [if_pos (h.imp_right fun h => ⟨h, hnext⟩)]
        omega

section
variable {source before rest before' rest' : Text} {line column : Int}

/-- Behind a place, another one has a greater line or a greater column. -/
theorem Place.eq_nil {w : Text} (h : Place source line column before (w ++ rest))
    (h' : Place source line column (before ++ w) rest) : w = [] := by
  by_cases hw : ∀ b ∈ w, isLineEnd b = false
  · have hcolumn := h.column.symm.trans h'.column
    rw [sinceLineEnd_append hw] at hcolumn
    exact List.eq_nil_of_length_eq_zero (by omega)
  · obtain ⟨b, hb, hend⟩ : ∃ b ∈ w, isLineEnd b = true := by simpa using hw
    have hpos := lineEnds_pos hb hend
    have hjoin : before.getLast? = some 13 → w.head? ≠ some 10 := by
      obtain ⟨c, v, rfl⟩ := List.exists_cons_of_ne_nil (List.ne_nil_of_mem hb)
      exact h.whole
    have hline := h.line.symm.trans h'.line
    rw [lineEnds_append hjoin] at hline
    omega

/-- A line and a column name one place at most. -/
theorem Place.unique (h : Place source line column before rest) (h' : Place source line column before' rest') :
    before = before' ∧ rest = rest' := by
  rcases List.append_eq_append_iff.1 (h.parts.symm.trans h'.parts) with ⟨w, rfl, rfl⟩ | ⟨w, rfl, rfl⟩
  · obtain rfl := h.eq_nil h'
    simp
  · obtain rfl := h'.eq_nil h
    simp

end

end Text

/-- At the place of the token stands what it is read from: if it is content, the text that the scanner reads it
from, and if it ends a line, the end of a line or of the source. -/
structure Token.Stands (t : Token) (rest : Text) : Prop where
  content : t.kind.isStructural = false → ∃ b r x, rest = b :: r ∧ isLineEnd b = false ∧ Lexeme.first b r = .ok x ∧
    x.kind = t.kind ∧ x.literal = t.literal
  newline : t.kind = .newline → ∀ b ∈ rest.head?, isLineEnd b = true

/-- What stands at a place tells which token is there: a token that is content or ends a line is the only such
token. -/
theorem Token.Stands.eq {t u : Token} {rest : Text} (ht : t.Stands rest) (hu : u.Stands rest)
    (hcontent : t.kind.isStructural = false) (hkind : u.kind.isStructural = false ∨ u.kind = .newline) :
    t.kind = u.kind ∧ t.literal = u.literal := by
  obtain ⟨b, r, x, rfl, hb, hx, hk, hl⟩ := ht.content hcontent
  rcases hkind with hkind | hkind
  · obtain ⟨b', r', x', e, -, hx', hk', hl'⟩ := hu.content hkind
    cases e
    rw [hx] at hx'
    cases hx'
    exact ⟨hk.symm.trans hk', hl.symm.trans hl'⟩
  · have hend := hu.newline hkind b rfl
    rw [hb] at hend
    cases hend

namespace Scanner

/-! ## Steps -/

/-- The tokens and the report of a step stand behind the blank space at its place. -/
structure Points (p : Scanner) (st : Step) : Prop where
  tokens : ∀ t ∈ st.tokens, (t.line = p.line ∧ t.column = p.column) ∧ t.Stands p.rest
  report : ∀ d, st.halt = some (.report d) → d.line = p.line ∧ d.column = p.column

section
variable {p s : Scanner}

theorem points_of_silent {st : Step} (htokens : st.tokens = []) (hhalt : st.halt = none) : Points p st :=
  ⟨by simp [htokens], by simp [hhalt]⟩

theorem points_enterLine (p : Scanner) (width : Int) : Points p (p.enterLine width) := by
  unfold enterLine
  cases hm : { p with atLineStart := false }.layout.measure width with
  | none =>
    simp only [hm]
    exact ⟨by simp, by simp⟩
  | some m =>
    simp only [hm]
    refine ⟨fun t ht => ?_, fun d hd => ?_⟩
    · obtain ⟨k, hk, rfl⟩ := List.mem_map.1 ht
      have hlayout : k = .indent ∨ k = .dedent := by
        rcases (Layout.measure_cases hm).2 with ⟨hkinds, -⟩ | ⟨n, hkinds, -⟩
        · exact .inl (by simpa [hkinds] using hk)
        · exact .inr (by simp [hkinds] at hk; exact hk.2)
      refine ⟨⟨rfl, rfl⟩, ?_⟩
      rcases hlayout with rfl | rfl
      · exact ⟨by simp [token, Token.Kind.isStructural], by simp [token]⟩
      · exact ⟨by simp [token, Token.Kind.isStructural], by simp [token]⟩
    · split at hd
      · cases hd
      · cases hd
        exact ⟨rfl, rfl⟩

theorem points_finish (hr : p.rest = []) : Points p p.finish := by
  refine ⟨fun t ht => ?_, fun d hd => by cases hd⟩
  have hstands : t.Stands p.rest := by
    refine ⟨fun hk => ?_, fun _ => by simp [hr]⟩
    rw [finish_structural p t ht] at hk
    cases hk
  have hplace : t.line = p.line ∧ t.column = p.column := by
    simp only [finish, List.mem_append, List.mem_replicate, List.mem_singleton] at ht
    rcases ht with (ht | ⟨-, rfl⟩) | rfl
    · split at ht
      · cases List.mem_singleton.1 ht
        exact ⟨rfl, rfl⟩
      · cases ht
    · exact ⟨rfl, rfl⟩
    · exact ⟨rfl, rfl⟩
  exact ⟨hplace, hstands⟩

theorem points_endLine {b : UInt8} {rest : Text} (hr : p.rest = b :: rest) (hb : isLineEnd b = true) :
    Points p p.endLine := by
  unfold endLine
  split
  · exact points_of_silent rfl rfl
  · refine ⟨fun t ht => ?_, fun d hd => by cases hd⟩
    cases List.mem_singleton.1 ht
    refine ⟨⟨rfl, rfl⟩, by simp [token, Token.Kind.isStructural], fun _ => ?_⟩
    simpa [hr] using hb

theorem points_content {b : UInt8} {rest : Text} (hr : p.rest = b :: rest) (hb : isLineEnd b = false) :
    Points p (p.content b rest) := by
  unfold content
  split
  · next x hx =>
    refine ⟨fun t ht => ?_, fun d hd => by cases hd⟩
    cases List.mem_singleton.1 ht
    refine ⟨⟨rfl, rfl⟩, fun _ => ⟨b, rest, x, hr, hb, hx, rfl, rfl⟩, fun hk => ?_⟩
    have hkind := (Lexeme.first_ok hx).2
    simp only [token] at hk
    simp [hk, isContent, Token.Kind.isStructural] at hkind
  · refine ⟨by simp, fun d hd => ?_⟩
    cases hd
    exact ⟨rfl, rfl⟩
  · refine ⟨by simp, fun d hd => ?_⟩
    cases hd
    exact ⟨rfl, rfl⟩

theorem points_step (s : Scanner) : Points s.pastBlank s.step := by
  generalize hst : s.step = st
  have ht : Takes s st := hst ▸ takes_step s
  cases ht with
  | blankEnd | commentLine | blankLine | comment => exact points_of_silent rfl rfl
  | enter => exact points_enterLine _ _
  | finish _ hr => exact points_finish hr
  | endLine _ hr hb => exact points_endLine hr hb
  | content _ hr hb _ => exact points_content hr hb

/-- Where a step that fails leaves the scan: before the line or the character, or behind the string. -/
theorem halt_behind {r : Halt} (hh : s.step.halt = some r) {before : Text} (h : Behind before s) :
    ∃ w, s.rest = w ++ s.step.scanner.rest ∧ Behind (before ++ w) s.step.scanner := by
  obtain ⟨gap, hrest, -, hbehind⟩ := gap_pastBlank s
  have hplace := hbehind _ h
  generalize hst : s.step = st at hh ⊢
  have ht : Takes s st := hst ▸ takes_step s
  cases ht with
  | blankEnd | commentLine | blankLine | finish | comment => cases hh
  | endLine =>
    unfold endLine at hh
    split at hh <;> cases hh
  | enter hs hr hb hc =>
    have hscanner : ∃ layout, (s.pastBlank.enterLine (Layout.width s.tabWidth (s.rest.takeWhile isBlank))).scanner =
        { s.pastBlank with layout, atLineStart := false } := by
      rcases enterLine_cases s.pastBlank (Layout.width s.tabWidth (s.rest.takeWhile isBlank)) with
        ⟨-, he⟩ | ⟨m, -, hscanner, -⟩
      · rw [he]
        exact ⟨_, rfl⟩
      · exact ⟨_, hscanner⟩
    obtain ⟨layout, hscanner⟩ := hscanner
    rw [hscanner]
    exact ⟨gap, hrest, hplace.line, hplace.column, hplace.whole, hplace.finished⟩
  | @content b rest hs hr hb hc =>
    unfold content at hh ⊢
    split at hh
    · cases hh
    · next text hx =>
      -- the string is shown up to the end of its line, and so far the scan goes on
      have hlength : text.length ≤ s.pastBlank.rest.line.length := by
        rw [hr, Text.line_cons hb]
        exact Lexeme.first_unterminated ((Lexeme.first_line b rest).trans hx)
      have hline : ∀ c ∈ s.pastBlank.rest.take text.length, isLineEnd c = false := by
        intro c hc
        refine Text.mem_line (s := s.pastBlank.rest) ?_
        have hprefix : s.pastBlank.rest.take text.length <+: s.pastBlank.rest.line :=
          List.prefix_of_prefix_length_le (List.take_prefix _ _) (List.takeWhile_prefix _)
            (Nat.le_trans (List.length_take_le _ _) hlength)
        exact hprefix.subset hc
      have hwidth : (s.pastBlank.rest.take text.length).length = text.length :=
        List.length_take_of_le (Nat.le_trans hlength (List.takeWhile_prefix _).length_le)
      have hskip := hplace.skip (List.take_append_drop text.length _).symm hline
      rw [hwidth] at hskip
      refine ⟨gap ++ s.pastBlank.rest.take text.length, ?_, ?_⟩
      · rw [List.append_assoc, hrest]
        exact congrArg _ (List.take_append_drop text.length _).symm
      · rw [← List.append_assoc]
        exact hskip
    · exact ⟨gap, hrest, hplace⟩

/-- Behind a step, failed or not, the scan has read more of the source. -/
theorem step_behind (hd : s.done = false) {before : Text} (h : Behind before s) :
    ∃ w, s.rest = w ++ s.step.scanner.rest ∧ Behind (before ++ w) s.step.scanner := by
  cases hh : s.step.halt with
  | some r => exact halt_behind hh h
  | none =>
    rcases step_gap hd hh with ⟨⟨gap, hrest, -, hbehind⟩, -⟩ |
      ⟨p, t, ⟨gap, hrest, -, hbehind⟩, -, -, -, -, hspelling, hnext⟩
    · exact ⟨gap, hrest, hbehind _ h⟩
    · refine ⟨gap ++ t.spelling, by rw [hrest, hspelling, List.append_assoc], ?_⟩
      rw [← List.append_assoc]
      exact hnext _ (hbehind _ h)

/-! ## Runs -/

/-- The token stands at a place of the source. -/
def Placed (source : Text) (t : Token) : Prop := ∃ before rest, source.Place t.line t.column before rest ∧ t.Stands rest

/-- The report is about a place of the source. -/
def Reported (source : Text) (d : Diagnostic) : Prop := ∃ before rest, source.Place d.line d.column before rest

theorem Behind.place {source before : Text} (h : Behind before s) (hsource : source = before ++ s.rest) :
    source.Place s.line s.column before s.rest :=
  ⟨hsource, h.whole, h.line, h.column⟩

/-- The place of a step. -/
theorem place_pastBlank {source before : Text} (h : Behind before s) (hsource : source = before ++ s.rest) :
    ∃ gap, source.Place s.pastBlank.line s.pastBlank.column (before ++ gap) s.pastBlank.rest := by
  obtain ⟨gap, hrest, -, hbehind⟩ := gap_pastBlank s
  exact ⟨gap, (hbehind _ h).place (by rw [hsource, hrest, List.append_assoc])⟩

theorem step_placed {source before : Text} (h : Behind before s) (hsource : source = before ++ s.rest) :
    (∀ t ∈ s.step.tokens, Placed source t) ∧ ∀ d, s.step.halt = some (.report d) → Reported source d := by
  obtain ⟨gap, hplace⟩ := place_pastBlank h hsource
  have hpoints := points_step s
  constructor
  · intro t ht
    obtain ⟨⟨hline, hcolumn⟩, hstands⟩ := hpoints.tokens t ht
    exact ⟨_, _, hline ▸ hcolumn ▸ hplace, hstands⟩
  · intro d hd
    obtain ⟨hline, hcolumn⟩ := hpoints.report d hd
    exact ⟨_, _, hline ▸ hcolumn ▸ hplace⟩

theorem run_placed {source : Text} (s : Scanner) : ∀ before, source = before ++ s.rest → Behind before s →
    (∀ t ∈ s.run.tokens, Placed source t) ∧ ∀ d, s.run.halt = some (.report d) → Reported source d := by
  induction s using run_induction with
  | done s hd =>
    intro before _ _
    rw [run_done hd]
    exact ⟨by simp, by simp⟩
  | halt s r hd hh =>
    intro before hsource h
    rw [run_halt hd hh]
    refine ⟨by simp, fun d e => (step_placed h hsource).2 d ?_⟩
    rw [hh]
    exact e
  | step s hd hh ih =>
    intro before hsource h
    rw [run_step hd hh]
    obtain ⟨w, hrest, hbehind⟩ := step_behind hd h
    obtain ⟨htokens, hreport⟩ := ih (before ++ w) (by rw [hsource, hrest, List.append_assoc]) hbehind
    exact ⟨List.forall_mem_append.2 ⟨(step_placed h hsource).1, htokens⟩, hreport⟩

end

/-- The tokens of a scan stand at places of its source, and a scan that fails reports one. -/
theorem tokenize_placed (source : Text) (tabWidth : Int) :
    (∀ t ∈ (tokenize source tabWidth).tokens, Placed source t) ∧
      ∀ d, (tokenize source tabWidth).halt = some (.report d) → Reported source d :=
  run_placed (ofSource source tabWidth) [] rfl (behind_ofSource source tabWidth)

end Scanner

end Offside
