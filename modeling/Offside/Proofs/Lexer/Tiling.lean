import Offside.Proofs.Lexer.Grammar
import Offside.Proofs.Lexer.Spelling

/-!
# Tokens and the text they stand in

The content tokens of a scan stand in the source one behind the other, with nothing but blanks, line ends and
comments between them. Each carries the line and the column at which it stands. Both are said of the source
alone: a line is counted by the line ends in front of it (`lineEnds`), a column by the bytes since the last of
them (`sinceLineEnd`). Main statement: the tokens of every scan tile its source (`tokenize_tiles`).
-/

namespace Offside

open Lexeme

/-! ## Positions in a text -/

namespace Text

/-- The number of line ends in a text. A carriage return is one unless a line feed follows, so that both
together are one. -/
def lineEnds : Text → Nat
  | [] => 0
  | b :: s => lineEnds s + if b = 10 ∨ (b = 13 ∧ s.head? ≠ some 10) then 1 else 0

/-- The number of bytes behind the last line end of a text. -/
def sinceLineEnd (s : Text) : Nat := (s.reverse.takeWhile fun b => !isLineEnd b).length

example : lineEnds "a\r\nb\rc\n" = 3 ∧ sinceLineEnd "a\r\nbcd" = 3 := by decide +kernel

/-- Line ends are counted in parts, if no part ends inside of one. -/
theorem lineEnds_append {s t : Text} (h : s.getLast? = some 13 → t.head? ≠ some 10) :
    lineEnds (s ++ t) = lineEnds s + lineEnds t := by
  induction s with
  | nil => simp [lineEnds]
  | cons b s ih =>
    cases s with
    | nil =>
      simp only [List.getLast?_singleton, Option.some.injEq] at h
      simp only [List.cons_append, List.nil_append, lineEnds]
      grind
    | cons c s =>
      rw [List.getLast?_cons_cons] at h
      have hcons : ∀ u : Text, lineEnds (b :: c :: u) = lineEnds (c :: u) +
          if b = 10 ∨ (b = 13 ∧ c ≠ 10) then 1 else 0 := by simp [lineEnds]
      have hs := ih h
      simp only [List.cons_append] at hs ⊢
      rw [hcons, hcons, hs]
      omega

theorem lineEnds_eq_zero {s : Text} (h : ∀ b ∈ s, isLineEnd b = false) : lineEnds s = 0 := by
  induction s with
  | nil => rfl
  | cons b s ih =>
    obtain ⟨hb, hs⟩ := List.forall_mem_cons.1 h
    rw [lineEnds, ih hs]
    simp only [isLineEnd, Bool.or_eq_false_iff, beq_eq_false_iff_ne] at hb
    simp [hb]

theorem sinceLineEnd_append {s t : Text} (h : ∀ b ∈ t, isLineEnd b = false) :
    sinceLineEnd (s ++ t) = sinceLineEnd s + t.length := by
  have ht : ∀ b ∈ t.reverse, (!isLineEnd b) = true := by simpa using h
  rw [sinceLineEnd, List.reverse_append, List.takeWhile_append_of_pos ht, List.length_append, List.length_reverse,
    Nat.add_comm]
  rfl

theorem sinceLineEnd_concat {s : Text} {b : UInt8} (h : isLineEnd b = true) : sinceLineEnd (s ++ [b]) = 0 := by
  simp [sinceLineEnd, h]

end Text

/-! ## What stands between tokens -/

/-- Text without tokens, in front of `rest`: blanks, line ends, and comments that run to the end of their
line. -/
inductive Skips (rest : Text) : Text → Prop
  | nil : Skips rest []
  | space {b : UInt8} {s : Text} (hb : (isBlank b || isLineEnd b) = true) (hs : Skips rest s) : Skips rest (b :: s)
  | comment {c s : Text} (hc : ∀ b ∈ c, isLineEnd b = false) (hend : ∀ b ∈ (s ++ rest).head?, isLineEnd b = true)
      (hs : Skips rest s) : Skips rest (35 :: (c ++ s))

theorem Skips.append {rest s t : Text} (hs : Skips (t ++ rest) s) (ht : Skips rest t) : Skips rest (s ++ t) := by
  induction hs with
  | nil => exact ht
  | space hb _ ih => exact .space hb ih
  | comment hc hend _ ih =>
    rw [List.cons_append, List.append_assoc]
    exact .comment hc (by rwa [List.append_assoc]) ih

theorem skips_spaces {rest s : Text} (h : ∀ b ∈ s, (isBlank b || isLineEnd b) = true) : Skips rest s := by
  induction s with
  | nil => exact .nil
  | cons b s ih =>
    obtain ⟨hb, hs⟩ := List.forall_mem_cons.1 h
    exact .space hb (ih hs)

/-- The tokens `ts` stand in `rest`, which follows `before` in a source, each at the place that it carries, and
nothing but skipped text stands between them. It stands behind the last one too, if the scan `ended`. -/
inductive Tiles (ended : Prop) : Text → Text → List Token → Prop
  | last {before rest : Text} (h : ended → Skips [] rest) : Tiles ended before rest []
  | token {before gap rest : Text} {t : Token} {ts : List Token} (hgap : Skips (t.spelling ++ rest) gap)
      (hline : t.line = 1 + (before ++ gap).lineEnds) (hcolumn : t.column = 1 + (before ++ gap).sinceLineEnd)
      (h : Tiles ended (before ++ gap ++ t.spelling) rest ts) : Tiles ended before (gap ++ (t.spelling ++ rest)) (t :: ts)

theorem Tiles.skip {ended : Prop} {before gap rest : Text} {ts : List Token} (hgap : Skips rest gap)
    (h : Tiles ended (before ++ gap) rest ts) : Tiles ended before (gap ++ rest) ts := by
  cases h with
  | last h => exact .last fun he => Skips.append (by rwa [List.append_nil]) (h he)
  | token hgap' hline hcolumn h =>
    rw [List.append_assoc before] at hline hcolumn h
    rw [← List.append_assoc]
    exact .token (hgap.append hgap') hline hcolumn h

namespace Scanner

/-! ## Where a scan stands -/

/-- A scan that has read `before`: it stands at the position that `before` leads to, and not inside a line
end. -/
structure Behind (before : Text) (s : Scanner) : Prop where
  line : s.line = 1 + before.lineEnds
  column : s.column = 1 + before.sinceLineEnd
  whole : before.getLast? = some 13 → s.rest.head? ≠ some 10
  finished : s.done = true → s.rest = []

theorem behind_ofSource (source : Text) (tabWidth : Int) : Behind [] (ofSource source tabWidth) where
  line := rfl
  column := rfl
  whole := by simp
  finished := by simp [ofSource]

section
variable {s : Scanner} {before : Text}

theorem Behind.skip (h : Behind before s) {w rest : Text} (hrest : s.rest = w ++ rest)
    (hw : ∀ b ∈ w, isLineEnd b = false) : Behind (before ++ w) (s.skip w.length) := by
  cases w with
  | nil => simpa [Scanner.skip] using h
  | cons b w =>
    have hb : b ≠ 10 := by
      rintro rfl
      cases hw 10 List.mem_cons_self
    constructor
    · have hparts : (before ++ b :: w).lineEnds = before.lineEnds := by
        rw [Text.lineEnds_append (by simp [hb]), Text.lineEnds_eq_zero hw, Nat.add_zero]
      rw [hparts]
      exact h.line
    · rw [Text.sinceLineEnd_append hw]
      simp only [Scanner.skip, h.column]
      omega
    · intro hlast
      have hlast' : (13 : UInt8) ∈ b :: w := by
        rw [List.getLast?_append, List.getLast?_eq_some_getLast (List.cons_ne_nil b w), Option.some_or] at hlast
        exact Option.some.inj hlast ▸ List.getLast_mem _
      cases hw 13 hlast'
    · intro hd
      have hd := h.finished hd
      simp [hd] at hrest

/-- The line end at the start of a text, up to its last byte `e`. -/
theorem afterLineEnd_cases {b : UInt8} (hb : isLineEnd b = true) (rest : Text) :
    ∃ w e, (∀ c ∈ w, isLineEnd c = true) ∧ isLineEnd e = true ∧ Text.lineEnds (w ++ [e]) = 1 ∧
      b :: rest = w ++ [e] ++ afterLineEnd (b :: rest) ∧ (e = 13 → (afterLineEnd (b :: rest)).head? ≠ some 10) := by
  simp only [isLineEnd, Bool.or_eq_true, beq_iff_eq] at hb
  rcases hb with rfl | rfl
  · exact ⟨[], 10, by simp, rfl, rfl, rfl, by simp⟩
  · cases rest with
    | nil => exact ⟨[], 13, by simp, rfl, rfl, rfl, by simp [afterLineEnd]⟩
    | cons c rest =>
      by_cases hc : c = 10
      · subst hc
        exact ⟨[13], 10, List.forall_mem_singleton.2 rfl, rfl, rfl, rfl, by simp⟩
      · refine ⟨[], 13, by simp, rfl, rfl, ?_, ?_⟩ <;> simp [afterLineEnd, hc]

/-- Between the two scans only skipped text is read. -/
def Gap (s s' : Scanner) : Prop :=
  ∃ gap, s.rest = gap ++ s'.rest ∧ Skips s'.rest gap ∧ ∀ before, Behind before s → Behind (before ++ gap) s'

theorem Gap.trans {s s' s'' : Scanner} (h : Gap s s') (h' : Gap s' s'') : Gap s s'' := by
  obtain ⟨gap, hrest, hgap, hbehind⟩ := h
  obtain ⟨gap', hrest', hgap', hbehind'⟩ := h'
  refine ⟨gap ++ gap', by rw [hrest, hrest', List.append_assoc], ?_, ?_⟩
  · exact Skips.append (hrest' ▸ hgap) hgap'
  · intro before hbefore
    rw [← List.append_assoc]
    exact hbehind' _ (hbehind _ hbefore)

/-- What a scan notes about the layout has no part in its position. -/
theorem gap_of_position {s s' : Scanner} (hrest : s'.rest = s.rest) (hline : s'.line = s.line)
    (hcolumn : s'.column = s.column) (hdone : s'.done = true → s.rest = []) : Gap s s' := by
  refine ⟨[], hrest.symm, .nil, fun before h => ?_⟩
  rw [List.append_nil]
  exact ⟨hline ▸ h.line, hcolumn ▸ h.column, hrest ▸ h.whole, fun hd => hrest ▸ hdone hd⟩

theorem gap_skip {w rest : Text} (hrest : s.rest = w ++ rest) (hw : ∀ b ∈ w, isLineEnd b = false)
    (hskips : Skips rest w) : Gap s (s.skip w.length) := by
  have hrest' : (s.skip w.length).rest = rest := by simp [Scanner.skip, hrest]
  exact ⟨w, by rw [hrest', hrest], hrest' ▸ hskips, fun before h => h.skip hrest hw⟩

theorem gap_pastBlank (s : Scanner) : Gap s s.pastBlank := by
  refine gap_skip (List.takeWhile_append_dropWhile (p := isBlank)).symm (fun b hb => ?_) (skips_spaces fun b hb => ?_)
  · have hb := List.mem_takeWhile_imp hb
    simp only [isBlank, isLineEnd] at hb ⊢
    grind
  · rw [List.mem_takeWhile_imp hb, Bool.true_or]

/-- A comment is followed by a line end, if by anything. -/
theorem isLineEnd_skipComment {b : UInt8} {rest : Text} (hrest : s.skipComment.rest = b :: rest) : isLineEnd b = true := by
  have hhead := List.head?_dropWhile_not (fun b => !isLineEnd b) s.rest
  rw [skipComment, rest_skipWhile] at hrest
  simpa [hrest] using hhead

theorem gap_skipComment {rest : Text} (hrest : s.rest = 35 :: rest) : Gap s s.skipComment := by
  have hcomment : s.rest.takeWhile (fun b => !isLineEnd b) = 35 :: rest.takeWhile fun b => !isLineEnd b := by
    rw [hrest]
    rfl
  have hline : ∀ b ∈ s.rest.takeWhile (fun b => !isLineEnd b), isLineEnd b = false := by
    intro b hb
    simpa using List.mem_takeWhile_imp (p := fun b => !isLineEnd b) hb
  refine gap_skip (List.takeWhile_append_dropWhile (p := fun b => !isLineEnd b)).symm hline ?_
  rw [hcomment] at hline ⊢
  have hend : ∀ b ∈ ([] ++ s.rest.dropWhile fun b => !isLineEnd b).head?, isLineEnd b = true := by
    intro b hb
    obtain ⟨rest', hrest'⟩ := List.head?_eq_some_iff.1 hb
    exact isLineEnd_skipComment (s := s) (by rw [skipComment, rest_skipWhile]; exact hrest')
  have hskips := Skips.comment (List.forall_mem_cons.1 hline).2 hend .nil
  rwa [List.append_nil] at hskips

theorem gap_breakLine {b : UInt8} {rest : Text} (hrest : s.rest = b :: rest) (hb : isLineEnd b = true) :
    Gap s s.breakLine := by
  obtain ⟨w, e, hw, he, hone, hparts, hwhole⟩ := afterLineEnd_cases hb rest
  have hskips : ∀ c ∈ w ++ [e], (isBlank c || isLineEnd c) = true := by
    intro c hc
    simp only [List.mem_append, List.mem_singleton] at hc
    rcases hc with hc | rfl
    · rw [hw c hc, Bool.or_true]
    · rw [he, Bool.or_true]
  have hafter : s.breakLine.rest = afterLineEnd (b :: rest) := congrArg afterLineEnd hrest
  refine ⟨w ++ [e], by rw [hafter, hrest, ← hparts], skips_spaces hskips, fun before h => ?_⟩
  constructor
  · have hjoin : before.getLast? = some 13 → (w ++ [e]).head? ≠ some 10 := by
      have hhead : (w ++ [e]).head? = s.rest.head? := by
        rw [hrest, hparts]
        cases w <;> rfl
      rw [hhead]
      exact h.whole
    rw [Text.lineEnds_append hjoin, hone]
    simp only [breakLine, h.line]
    omega
  · rw [← List.append_assoc, Text.sinceLineEnd_concat he]
    rfl
  · intro hlast
    rw [← List.append_assoc, List.getLast?_concat, Option.some.injEq] at hlast
    rw [hafter]
    exact hwhole hlast
  · intro hd
    have hd := h.finished hd
    rw [hrest] at hd
    cases hd

/-! ## Steps and runs -/

/-- A step either passes over skipped text, and then it gives tokens of the layout only, or it reads one content
token behind such text. -/
theorem step_gap (hd : s.done = false) (hh : s.step.halt = none) :
    (Gap s s.step.scanner ∧ ∀ t ∈ s.step.tokens, t.kind.isStructural = true) ∨
      ∃ (p : Scanner) (t : Token), Gap s p ∧ s.step.tokens = [t] ∧ t.kind.isStructural = false ∧
        t.line = p.line ∧ t.column = p.column ∧ p.rest = t.spelling ++ s.step.scanner.rest ∧
        ∀ before, Behind before p → Behind (before ++ t.spelling) s.step.scanner := by
  have hblank := gap_pastBlank s
  have hdone : s.pastBlank.done = false := hd
  generalize hst : s.step = st at hh ⊢
  have ht : Takes s st := hst ▸ takes_step s
  cases ht with
  | blankEnd hs hr =>
    refine .inl ⟨hblank.trans (gap_of_position rfl rfl rfl fun h => ?_), by simp⟩
    exact absurd h (by simp [hdone])
  | commentLine hs hr =>
    have hcomment := hblank.trans (gap_skipComment hr)
    split
    · exact .inl ⟨hcomment, by simp⟩
    · next hrest =>
      obtain ⟨b, rest, hrest⟩ := List.exists_cons_of_ne_nil (mt List.isEmpty_iff.2 hrest)
      exact .inl ⟨hcomment.trans (gap_breakLine hrest (isLineEnd_skipComment hrest)), by simp⟩
  | blankLine hs hr hb => exact .inl ⟨hblank.trans (gap_breakLine hr hb), by simp⟩
  | enter hs hr hb hc =>
    obtain ⟨m, hm, -, he⟩ := enterLine_ok hh
    rw [he]
    refine .inl ⟨hblank.trans (gap_of_position rfl rfl rfl fun h => ?_), ?_⟩
    · exact absurd h (by simp [hdone])
    · rcases (Layout.measure_cases hm).2 with ⟨hkinds, -⟩ | ⟨n, hkinds, -⟩ <;>
        simp [hkinds, token, Token.Kind.isStructural]
  | finish hs hr =>
    exact .inl ⟨hblank.trans (gap_of_position rfl rfl rfl fun _ => hr), finish_structural _⟩
  | endLine hs hr hb =>
    have hbreak := hblank.trans (gap_breakLine hr hb)
    unfold endLine
    split
    · exact .inl ⟨hbreak, by simp⟩
    · refine .inl ⟨hbreak.trans (gap_of_position rfl rfl rfl fun h => ?_), by simp [token, Token.Kind.isStructural]⟩
      exact absurd h (by simp [breakLine, hdone])
  | comment hs hr => exact .inl ⟨hblank.trans (gap_skipComment hr), by simp⟩
  | content hs hr hb hc =>
    obtain ⟨x, hx, he⟩ := content_ok hh
    rw [he]
    obtain ⟨⟨after, hafter⟩, hwidth, hline⟩ := first_start hx
    rw [← hr] at hafter
    have hkind : x.kind.isStructural = false := by simpa [isContent] using (first_ok hx).2
    refine .inr ⟨s.pastBlank, _, hblank, rfl, hkind, rfl, rfl, ?_, fun before h => ?_⟩
    · have hrest : (s.pastBlank.skip x.width).rest = after := by rw [skip, ← hafter, hwidth, List.drop_left]
      exact hafter.symm.trans (congrArg _ hrest.symm)
    · have hskip := h.skip hafter.symm hline
      rw [← hwidth] at hskip
      exact ⟨hskip.line, hskip.column, hskip.whole, hskip.finished⟩

/-- The tokens of a run that are spelled in its source. -/
def contentTokens (ts : List Token) : List Token := ts.filter fun t => !t.kind.isStructural

theorem contentTokens_append (ts us : List Token) : contentTokens (ts ++ us) = contentTokens ts ++ contentTokens us :=
  List.filter_append ..

theorem run_tiles (s : Scanner) : ∀ before, Behind before s →
    Tiles (s.run.halt = none) before s.rest (contentTokens s.run.tokens) := by
  induction s using run_induction with
  | done s hd =>
    intro before h
    rw [run_done hd]
    refine .last fun _ => ?_
    rw [h.finished hd]
    exact .nil
  | halt s r hd hh =>
    intro before h
    rw [run_halt hd hh]
    exact .last fun hend => nomatch hend
  | step s hd hh ih =>
    intro before h
    rw [run_step hd hh]
    rcases step_gap hd hh with ⟨⟨gap, hrest, hgap, hbehind⟩, htokens⟩ |
      ⟨p, t, ⟨gap, hrest, hgap, hbehind⟩, htokens, ht, hline, hcolumn, hspelling, hnext⟩
    · have hnone : contentTokens s.step.tokens = [] := by simpa [contentTokens] using htokens
      have htail := Tiles.skip hgap (ih _ (hbehind _ h))
      rw [← hrest] at htail
      simpa [contentTokens_append, hnone] using htail
    · have hone : contentTokens s.step.tokens = [t] := by simp [contentTokens, htokens, ht]
      have hplace := hbehind _ h
      have htail := Tiles.token (hspelling ▸ hgap) (hline.trans hplace.line) (hcolumn.trans hplace.column)
        (ih _ (hnext _ hplace))
      rw [← hspelling, ← hrest] at htail
      simpa [contentTokens_append, hone] using htail

end

end Scanner

/-- The content tokens of a scan, also of one that fails, stand in the source in order and without overlap, each
at the line and the column that it carries. Nothing but blanks, line ends and comments stands between them,
before the first and, if the scan does not fail, behind the last. -/
theorem Scanner.tokenize_tiles (source : Text) (tabWidth : Int) :
    Tiles ((tokenize source tabWidth).halt = none) [] source (contentTokens (tokenize source tabWidth).tokens) :=
  run_tiles (ofSource source tabWidth) [] (behind_ofSource source tabWidth)

end Offside
