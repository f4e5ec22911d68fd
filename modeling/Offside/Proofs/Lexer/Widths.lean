import Mathlib.Algebra.Group.Int.Defs
import Offside.Proofs.Lexer.Calls
import Offside.Proofs.Lexer.Concatenation
import Offside.Proofs.Lexer.Places

/-!
# Widths and columns

A line is indented up to some column (`column`), and its width is that column in 64-bit arithmetic. The two are the
same exactly as long as the column is a 64-bit number (`width_eq_column_iff`); a tab width can be so large that it is
not, and then the width may be negative, for which the layout has no result (`measure_eq_none_iff`). Main statement:
which widths a lexer measures, and exactly when a call to it crashes (`calls_crash_iff`).
-/

namespace Offside

open Lexeme

/-! ## Columns -/

namespace Layout

/-- The column behind a byte of leading blank space: a space leads one further, a tab to the next multiple of the
tab width, and a form feed or vertical tab nowhere. -/
def advance (tabWidth column : Int) (b : UInt8) : Int :=
  if b = 32 then column + 1
  else if b = 9 then (column / tabWidth + 1) * tabWidth
  else column

/-- The column behind leading blank space. -/
def column (tabWidth : Int) (blank : Text) : Int := blank.foldl (advance tabWidth) 0

section
variable {tabWidth c : Int} (hpos : 0 < tabWidth)
include hpos

/-- A byte leads further, but not by more than the width of a tab. -/
theorem le_advance (b : UInt8) : c ≤ advance tabWidth c b ∧ advance tabWidth c b ≤ c + tabWidth := by
  unfold advance
  have hparts := Int.mul_ediv_add_emod c tabWidth
  have hnonneg := Int.emod_nonneg c (Int.ne_of_gt hpos)
  have hlt := Int.emod_lt_of_pos c hpos
  split
  · omega
  · split
    · rw [Int.add_mul, Int.one_mul, Int.mul_comm]
      omega
    · omega

theorem column_from (blank : Text) : c ≤ blank.foldl (advance tabWidth) c ∧
    blank.foldl (advance tabWidth) c ≤ c + tabWidth * blank.length := by
  induction blank generalizing c with
  | nil => simp
  | cons b blank ih =>
    obtain ⟨hle, hge⟩ := le_advance (c := c) hpos b
    obtain ⟨hle', hge'⟩ := ih (c := advance tabWidth c b)
    rw [List.foldl_cons, List.length_cons, Int.natCast_add, Int.mul_add]
    omega

theorem column_nonneg (blank : Text) : 0 ≤ column tabWidth blank := (column_from hpos blank).1

theorem column_le (blank : Text) : column tabWidth blank ≤ tabWidth * blank.length := by
  simpa [column] using (column_from (c := 0) hpos blank).2

/-- A width goes on like a column as long as 64 bits suffice. -/
theorem widen_eq_advance {b : UInt8} (hc : 0 ≤ c) (h : advance tabWidth c b < 2 ^ 63) :
    widen tabWidth c b = advance tabWidth c b := by
  have hwrap : ∀ n : Int, 0 ≤ n → n < 2 ^ 63 → wrap64 n = n := by
    intro n hn hlt
    obtain ⟨k, rfl⟩ := Int.eq_ofNat_of_zero_le hn
    exact wrap64_of_lt (by omega)
  have hle := (le_advance (c := c) hpos b).1
  by_cases hspace : b = 32
  · simp only [advance, widen, hspace, if_true] at h hle ⊢
    exact hwrap _ (by omega) h
  · by_cases htab : b = 9
    · have hnext : c + (tabWidth - c.tmod tabWidth) = advance tabWidth c b := by
        have hparts := Int.mul_ediv_add_emod c tabWidth
        rw [Int.tmod_eq_emod_of_nonneg hc]
        simp only [advance, htab, if_true, Int.add_mul, Int.one_mul, Int.mul_comm (c / tabWidth)]
        rw [if_neg (by decide)]
        omega
      rw [← hnext] at h hle
      rw [widen, if_neg hspace, if_pos htab, hwrap _ (by omega) h, hnext]
    · simp [advance, widen, hspace, htab]

theorem foldl_widen (blank : Text) (hc : 0 ≤ c) (h : blank.foldl (advance tabWidth) c < 2 ^ 63) :
    blank.foldl (widen tabWidth) c = blank.foldl (advance tabWidth) c := by
  induction blank generalizing c with
  | nil => rfl
  | cons b blank ih =>
    -- the column only grows, so it is in range at each byte if it is at the last
    have hle := (le_advance (c := c) hpos b).1
    have hgrows := (column_from (c := advance tabWidth c b) hpos blank).1
    rw [List.foldl_cons] at h ⊢
    rw [widen_eq_advance hpos hc (by omega), ih (by omega) h, List.foldl_cons]

/-- A width is the column, exactly if 64 bits suffice for that. -/
theorem width_eq_column_iff (blank : Text) :
    width tabWidth blank = column tabWidth blank ↔ column tabWidth blank < 2 ^ 63 := by
  constructor
  · intro h
    rw [← h]
    exact width_lt tabWidth blank
  · exact foldl_widen hpos blank (Int.le_refl 0)

end

/-! ## Widths that the layout has no result for -/

theorem unwind_eq_none_iff {width : Int} {ws : List Int} (h : ∀ w ∈ ws, 0 < w) :
    unwind width ws = none ↔ width < 0 := by
  induction ws with
  | nil => simp [unwind]
  | cons w ws ih =>
    obtain ⟨hw, hws⟩ := List.forall_mem_cons.1 h
    rw [unwind]
    split
    · rw [Option.map_eq_none_iff, ih hws]
    · next hle =>
      simp only [reduceCtorEq, false_iff]
      omega

/-- Only for a negative width the layout has no result. -/
theorem measure_eq_none_iff {l : Layout} (h : l.Rising) {width : Int} : l.measure width = none ↔ width < 0 := by
  have hcurrent := h.head_le.1
  unfold measure
  split
  · simp only [reduceCtorEq, false_iff]
    omega
  · split
    · simp only [reduceCtorEq, false_iff]
      omega
    · rw [Option.map_eq_none_iff, unwind_eq_none_iff fun w hw => (h.bounded w hw).1]

end Layout

namespace Text

section
variable {s : Text} {tabWidth : Int}

theorem hasContent_nil (h : s.dropWhile Lexeme.isBlank = []) : s.line.hasContent = false := by
  rw [hasContent, dropWhile_blank_line, h]
  rfl

theorem margin?_last (h : s.line.hasContent = false) (hb : s.behind = []) : s.margin? tabWidth = none := by
  rw [margin?, lines_eq s, if_pos hb, List.find?_cons_of_neg (by simp [h])]
  rfl

end

end Text

namespace Scanner

open Text

section
variable {s : Scanner}

/-! ## The start of a line -/

/-- A scan at the start of a line stands at the first column, outside of brackets. -/
def Fresh (s : Scanner) : Prop := s.atLineStart = true → s.layout.joined = false ∧ (s.rest = [] ∨ s.column = 1)

theorem Fresh.inLine (h : Fresh s) (hs : s.startsLine = false) : s.atLineStart = false := by
  cases ha : s.atLineStart with
  | false => rfl
  | true => simp [startsLine, ha, (h ha).1] at hs

theorem Fresh.step (h : Fresh s) : Fresh s.step.scanner := by
  generalize hst : s.step = st
  have ht : Takes s st := hst ▸ takes_step s
  cases ht with
  | blankEnd => exact nofun
  | commentLine hs _ =>
    have hj := (h (startsLine_atLineStart hs)).1
    dsimp only
    split
    · next hend => exact fun _ => ⟨hj, .inl (List.isEmpty_iff.1 hend)⟩
    · exact fun _ => ⟨hj, .inr rfl⟩
  | blankLine hs _ _ => exact fun _ => ⟨(h (startsLine_atLineStart hs)).1, .inr rfl⟩
  | enter =>
    rcases enterLine_cases s.pastBlank (Layout.width s.tabWidth (s.rest.takeWhile Lexeme.isBlank)) with
      ⟨-, he⟩ | ⟨m, -, hscanner, -⟩
    · rw [he]
      exact nofun
    · rw [hscanner]
      exact nofun
  | finish hs _ => exact fun ha => absurd ha (Bool.eq_false_iff.1 (h.inLine hs))
  | endLine hs _ _ =>
    unfold endLine
    split
    · exact fun ha => absurd ha (Bool.eq_false_iff.1 (h.inLine hs))
    · next hj => exact fun _ => ⟨Bool.eq_false_iff.2 hj, .inr rfl⟩
  | comment hs _ => exact fun ha => absurd ha (Bool.eq_false_iff.1 (h.inLine hs))
  | content hs _ _ _ =>
    unfold content
    split <;> exact fun ha => absurd ha (Bool.eq_false_iff.1 (h.inLine hs))

/-- What is true of a scan of the source at any time, also behind failed steps. -/
structure Sound (source : Text) (tabWidth : Int) (s : Scanner) : Prop where
  rising : s.layout.Rising
  tab : s.tabWidth = tabWidth
  fresh : Fresh s
  place : ∃ before, source = before ++ s.rest ∧ Behind before s

variable {source : Text} {tabWidth : Int}

theorem sound_ofSource (source : Text) (tabWidth : Int) : Sound source tabWidth (ofSource source tabWidth) where
  rising := Layout.rising_nil
  tab := rfl
  fresh := fun _ => ⟨rfl, .inr rfl⟩
  place := ⟨[], rfl, behind_ofSource source tabWidth⟩

theorem Sound.step (h : Sound source tabWidth s) (hd : s.done = false) : Sound source tabWidth s.step.scanner where
  rising := rising_step h.rising
  tab := (tabWidth_step s).trans h.tab
  fresh := h.fresh.step
  place := by
    obtain ⟨before, hsource, hbehind⟩ := h.place
    obtain ⟨w, hrest, hbehind'⟩ := step_behind hd hbehind
    exact ⟨before ++ w, by rw [hsource, hrest, List.append_assoc], hbehind'⟩

/-- A scan before a line with content stands at the first column of that line. -/
theorem Sound.lineStart (h : Sound source tabWidth s) (hs : s.startsLine = true) {b : UInt8} {rest : Text}
    (hr : s.pastBlank.rest = b :: rest) : ∃ before, source.Place s.line 1 before s.rest := by
  obtain ⟨before, hsource, hbehind⟩ := h.place
  have hcolumn : s.column = 1 := by
    refine (h.fresh (startsLine_atLineStart hs)).2.resolve_left fun hnil => ?_
    rw [pastBlank_of_nil hnil, hnil] at hr
    cases hr
  exact ⟨before, hcolumn ▸ hbehind.place hsource⟩

/-- The line of the number has the width. -/
def Measures (source : Text) (tabWidth line width : Int) : Prop :=
  ∃ before rest, source.Place line 1 before rest ∧ width = Layout.width tabWidth (rest.takeWhile Lexeme.isBlank)

/-- Only a step that takes a line into the layout notes something down or crashes. -/
theorem step_enters (h : s.step.notes ≠ [] ∨ s.step.halt = some .crash) :
    ∃ b rest, s.startsLine = true ∧ s.pastBlank.rest = b :: rest ∧ isLineEnd b = false ∧ b ≠ 35 ∧
      s.step = s.pastBlank.enterLine (Layout.width s.tabWidth (s.rest.takeWhile Lexeme.isBlank)) := by
  generalize hst : s.step = st at h
  have ht : Takes s st := hst ▸ takes_step s
  cases ht with
  | blankEnd | commentLine | blankLine | finish | comment => simp [finish] at h
  | endLine =>
    unfold endLine at h
    split at h <;> simp at h
  | content =>
    unfold content at h
    split at h <;> simp at h
  | enter hs hr hb hc => exact ⟨_, _, hs, hr, hb, hc, rfl⟩

/-- A step notes down the width of the line that it takes into the layout, which is not negative. -/
theorem Sound.notes (h : Sound source tabWidth s) {line width : Int} {count : Nat} {layout : Layout}
    (hnote : .measured line width count layout ∈ s.step.events) :
    Measures source tabWidth line width ∧ 0 ≤ width := by
  have hnote : .measured line width count layout ∈ s.step.notes := by simpa [Step.events] using hnote
  obtain ⟨b, rest, hs, hr, -, -, hstep⟩ := step_enters (.inl (List.ne_nil_of_mem hnote))
  rw [hstep] at hnote
  rcases enterLine_cases s.pastBlank (Layout.width s.tabWidth (s.rest.takeWhile Lexeme.isBlank)) with
    ⟨-, he⟩ | ⟨m, hm, -, -, hnotes, -⟩
  · rw [he] at hnote
    cases hnote
  · rw [hnotes] at hnote
    cases List.mem_singleton.1 hnote
    obtain ⟨before, hplace⟩ := h.lineStart hs hr
    refine ⟨⟨before, s.rest, hplace, by rw [h.tab]⟩, Int.not_lt.1 fun hneg => ?_⟩
    have hnone := (Layout.measure_eq_none_iff (l := s.pastBlank.layout) h.rising).2 hneg
    rw [hm] at hnone
    cases hnone

/-! ## Crashes -/

/-- The scan stands before a line that has content and, with only lines without content before it, a negative width. -/
def Overflows (s : Scanner) : Prop := s.startsLine = true ∧ ∃ w ∈ s.rest.margin? s.tabWidth, w < 0

theorem overflows_here {b : UInt8} {rest : Text} (hs : s.startsLine = true) (hr : s.pastBlank.rest = b :: rest)
    (hb : isLineEnd b = false) (hc : b ≠ 35) :
    Overflows s ↔ Layout.width s.tabWidth (s.rest.takeWhile Lexeme.isBlank) < 0 := by
  have hblank : s.rest.dropWhile Lexeme.isBlank = b :: rest := (rest_skipWhile s _).symm.trans hr
  rw [Overflows, margin?_here s.tabWidth (by rw [hasContent_cons hblank]; simp [hb, hc])]
  simp [hs]

theorem overflows_next {s' : Scanner} (hs : s.startsLine = true) (hc : s.rest.line.hasContent = false)
    (hb : s.rest.behind ≠ []) (hs' : s'.startsLine = true) (ht : s'.tabWidth = s.tabWidth)
    (hr : s'.rest = afterLineEnd s.rest.behind) : Overflows s ↔ Overflows s' := by
  rw [Overflows, Overflows, hs, hs', ht, hr, margin?_next s.tabWidth hc hb]

theorem not_overflows_last (hc : s.rest.line.hasContent = false) (hb : s.rest.behind = []) : ¬ Overflows s := by
  rintro ⟨-, w, hw, -⟩
  rw [margin?_last hc hb] at hw
  cases hw

theorem not_overflows_inLine (hs : s.startsLine = false) : ¬ Overflows s := by
  rintro ⟨hs', -⟩
  simp [hs] at hs'

/-- The step crashes exactly before such a line, and does not pass it without a token. -/
structure Settles (s : Scanner) (st : Step) : Prop where
  halt : ∀ r, st.halt = some r → (r = .crash ↔ Overflows s)
  goes : st.halt = none → (Overflows s ↔ st.tokens = [] ∧ Overflows st.scanner)

theorem settles_of_not {st : Step} (h : ¬ Overflows s) (hcrash : st.halt ≠ some .crash)
    (hgoes : st.tokens = [] → ¬ Overflows st.scanner) : Settles s st where
  halt r hr := by
    refine ⟨fun hcrash' => absurd (hcrash' ▸ hr) hcrash, fun h' => absurd h' h⟩
  goes _ := ⟨fun h' => absurd h' h, fun ⟨htokens, h'⟩ => absurd h' (hgoes htokens)⟩

theorem settles_of_next {s' : Scanner} (h : Overflows s ↔ Overflows s') : Settles s { scanner := s' } :=
  ⟨nofun, fun _ => by simp [h]⟩

theorem settles_enter {b : UInt8} {rest : Text} (hrise : s.layout.Rising) (hs : s.startsLine = true)
    (hr : s.pastBlank.rest = b :: rest) (hb : isLineEnd b = false) (hc : b ≠ 35) :
    Settles s (s.pastBlank.enterLine (Layout.width s.tabWidth (s.rest.takeWhile Lexeme.isBlank))) := by
  have hhere := overflows_here hs hr hb hc
  have hnone : s.pastBlank.layout.measure (Layout.width s.tabWidth (s.rest.takeWhile Lexeme.isBlank)) = none ↔
      Layout.width s.tabWidth (s.rest.takeWhile Lexeme.isBlank) < 0 := Layout.measure_eq_none_iff hrise
  rcases enterLine_cases s.pastBlank (Layout.width s.tabWidth (s.rest.takeWhile Lexeme.isBlank)) with
    ⟨hm, he⟩ | ⟨m, hm, hscanner, -, -, hcrash⟩
  · rw [he]
    refine ⟨fun r hr => ?_, nofun⟩
    cases hr
    simp [hhere, hnone.1 hm]
  · refine settles_of_not ?_ hcrash fun _ => ?_
    · rw [hhere, ← hnone, hm]
      exact nofun
    · rw [hscanner]
      exact not_overflows_inLine rfl

theorem settles_commentLine {rest : Text} (hs : s.startsLine = true) (hr : s.pastBlank.rest = 35 :: rest) :
    Settles s { scanner := if s.pastBlank.skipComment.rest.isEmpty then s.pastBlank.skipComment
                           else s.pastBlank.skipComment.breakLine } := by
  have hblank : s.rest.dropWhile Lexeme.isBlank = 35 :: rest := (rest_skipWhile s _).symm.trans hr
  have hcontent : s.rest.line.hasContent = false := by simp [hasContent_cons hblank]
  have hrest : s.pastBlank.skipComment.rest = s.rest.behind := by rw [rest_skipComment, behind_pastBlank]
  cases hend : s.pastBlank.skipComment.rest.isEmpty with
  | true =>
    have hnil : s.pastBlank.skipComment.rest = [] := List.isEmpty_iff.1 hend
    refine settles_of_not (not_overflows_last hcontent (hrest.symm.trans hnil)) nofun fun _ => ?_
    simp only [if_true]
    exact not_overflows_last (by rw [hnil]; rfl) (by rw [hnil]; rfl)
  | false =>
    have hne : s.rest.behind ≠ [] := hrest ▸ List.isEmpty_eq_false_iff.1 hend
    exact settles_of_next (overflows_next hs hcontent hne hs rfl (congrArg afterLineEnd hrest))

theorem settles_blankLine {b : UInt8} {rest : Text} (hs : s.startsLine = true) (hr : s.pastBlank.rest = b :: rest)
    (hb : isLineEnd b = true) : Settles s { scanner := s.pastBlank.breakLine } := by
  have hblank : s.rest.dropWhile Lexeme.isBlank = b :: rest := (rest_skipWhile s _).symm.trans hr
  have hcontent : s.rest.line.hasContent = false := by simp [hasContent_cons hblank, hb]
  have hrest : s.pastBlank.rest = s.rest.behind := by rw [← behind_pastBlank, hr, behind_cons_end hb]
  exact settles_of_next (overflows_next hs hcontent (by simp [← hrest, hr]) hs rfl (congrArg afterLineEnd hrest))

theorem settles_step (hrise : s.layout.Rising) : Settles s s.step := by
  generalize hst : s.step = st
  have ht : Takes s st := hst ▸ takes_step s
  cases ht with
  | blankEnd hs hr =>
    have hcontent := hasContent_nil ((rest_skipWhile s _).symm.trans hr)
    have hbehind : s.rest.behind = [] := by
      rw [← behind_pastBlank, hr]
      rfl
    exact settles_of_not (not_overflows_last hcontent hbehind) (by simp) fun _ => not_overflows_inLine rfl
  | commentLine hs hr => exact settles_commentLine hs hr
  | blankLine hs hr hb => exact settles_blankLine hs hr hb
  | enter hs hr hb hc => exact settles_enter hrise hs hr hb hc
  | finish hs _ => exact settles_of_not (not_overflows_inLine hs) (by simp [finish]) (by simp [finish])
  | endLine hs _ _ =>
    unfold endLine
    split
    · exact settles_of_not (not_overflows_inLine hs) (by simp) fun _ => not_overflows_inLine hs
    · exact settles_of_not (not_overflows_inLine hs) (by simp) (by simp)
  | comment hs _ => exact settles_of_not (not_overflows_inLine hs) (by simp) fun _ => not_overflows_inLine hs
  | content hs _ _ _ =>
    unfold content
    split
    · exact settles_of_not (not_overflows_inLine hs) (by simp) (by simp)
    · exact settles_of_not (not_overflows_inLine hs) (by simp) fun _ => not_overflows_inLine hs
    · exact settles_of_not (not_overflows_inLine hs) (by simp) fun _ => not_overflows_inLine hs

/-- The line at which a step crashes has a negative width. -/
theorem Sound.crash {source : Text} {tabWidth : Int} (h : Sound source tabWidth s) (hh : s.step.halt = some .crash) :
    ∃ width, Measures source tabWidth s.line width ∧ width < 0 := by
  obtain ⟨b, rest, hs, hr, hb, hc, -⟩ := step_enters (.inr hh)
  have hover : Overflows s := ((settles_step h.rising).halt _ hh).1 rfl
  obtain ⟨before, hplace⟩ := h.lineStart hs hr
  exact ⟨_, ⟨before, s.rest, hplace, by rw [h.tab]⟩, (overflows_here hs hr hb hc).1 hover⟩

end

end Scanner

namespace Lexer

open Scanner

section
variable {l : Lexer} {source : Text} {tabWidth : Int}

/-- Filling the queue crashes exactly before such a line. The induction is on the fuel, which suffices for the steps up
to the first token. -/
theorem fill_crash (fuel : Nat) (hrise : l.scanner.layout.Rising) (hq : l.queue = []) (hd : l.scanner.done = false)
    (hfuel : l.scanner.toDo ≤ fuel) : (l.fill fuel).2 = some .crash ↔ l.scanner.Overflows := by
  induction fuel generalizing l with
  | zero =>
    have hpos := toDo_pos hd
    omega
  | succ fuel ih =>
    have hsettles := settles_step hrise
    rw [fill_step hq hd]
    cases hh : l.scanner.step.halt with
    | some r => simpa using hsettles.halt r hh
    | none =>
      rw [hsettles.goes hh]
      cases htokens : l.scanner.step.tokens with
      | cons t ts => simp [fill_stop (l := l.stepped) (by simp [stepped, htokens])]
      | nil =>
        have hd' : l.stepped.scanner.done = false := by
          cases hdone : l.stepped.scanner.done with
          | false => rfl
          | true => exact absurd htokens (tokens_of_done hd hdone)
        have hless := toDo_step hd hh
        have hrest := ih (l := l.stepped) (rising_step hrise) (by simp [stepped, hq, htokens]) hd'
          (by simp only [stepped]; omega)
        rw [hrest]
        simp [stepped]

/-- A call crashes exactly if it finds no token that waits, and the scan before a line of negative width. -/
theorem perform_crash_iff (hrise : l.scanner.layout.Rising) (c : Call) :
    (l.perform c).1 = .error .crash ↔ l.queue = [] ∧ l.scanner.done = false ∧ l.scanner.Overflows := by
  have hensure : (l.perform c).1 = .error .crash ↔ l.ensure.2 = some .crash := by
    rcases perform_cases l c with ⟨r, l', he, hperform⟩ | ⟨t, queue, l', he, hq, hperform⟩
    · simp [he, hperform]
    · simp [he, hperform]
  rw [hensure]
  by_cases hq : l.queue = []
  · cases hd : l.scanner.done with
    | true => simp [ensure, hq, hd]
    | false =>
      have hfill := fill_crash l.scanner.bound hrise hq hd (toDo_le_bound _)
      simpa [ensure, hq, hd] using hfill
  · simp [ensure, hq]

/-- Whatever the lexer has done, its scan is sound and it has noted down the widths of lines. -/
theorem Works.sound {ts : List Token} (h : Works (ofSource source tabWidth) ts l) :
    l.scanner.Sound source tabWidth ∧ ∀ line width count layout, .measured line width count layout ∈ l.events →
      Measures source tabWidth line width ∧ 0 ≤ width := by
  refine h.keeps (P := fun l => l.scanner.Sound source tabWidth ∧ ∀ line width count layout,
    .measured line width count layout ∈ l.events → Measures source tabWidth line width ∧ 0 ≤ width) ?_ ?_ ?_
  · rintro l hd ⟨hsound, hevents⟩
    refine ⟨hsound.step hd, fun line width count layout hmem => ?_⟩
    rcases List.mem_append.1 hmem with hmem | hmem
    · exact hevents line width count layout hmem
    · exact hsound.notes hmem
  · exact fun l queue h => h
  · exact ⟨sound_ofSource source tabWidth, nofun⟩

/-- A call that crashes does so at a line of negative width. -/
theorem Works.crash {ts : List Token} (h : Works (ofSource source tabWidth) ts l) {c : Call}
    (hcrash : (l.perform c).1 = .error .crash) : ∃ line width, Measures source tabWidth line width ∧ width < 0 := by
  obtain ⟨-, l₁, hworks, -, -, hhalt⟩ := (works_perform l c).2 _ hcrash
  exact ⟨_, (h.trans hworks).sound.1.crash hhalt⟩

end

/-- Every width that a lexer has measured is that of the line with that number, and not negative; it is the column up to
which the line is indented, exactly if the column is a 64-bit number. A call crashes exactly if no token waits and the
scan stands at the start of lines of which the first with content has a negative width. So no call crashes if the
columns of all lines are 64-bit numbers. -/
theorem calls_crash_iff {tabWidth : Int} (hpos : 0 < tabWidth) (source : Text) (calls : List Call) :
    let l := (ofSource source tabWidth).after calls
    (∀ line width count layout, .measured line width count layout ∈ l.events →
      ∃ before rest, source.Place line 1 before rest ∧ 0 ≤ width ∧
        width = Layout.width tabWidth (rest.takeWhile isBlank) ∧
        (width = Layout.column tabWidth (rest.takeWhile isBlank) ↔
          Layout.column tabWidth (rest.takeWhile isBlank) < 2 ^ 63)) ∧
    (∀ c, (l.perform c).1 = .error .crash ↔ l.queue = [] ∧ l.scanner.done = false ∧ l.scanner.startsLine = true ∧
      ∃ w ∈ l.scanner.rest.margin? tabWidth, w < 0) ∧
    ((∀ line before rest, source.Place line 1 before rest → Layout.column tabWidth (rest.takeWhile isBlank) < 2 ^ 63) →
      ∀ c, (l.perform c).1 ≠ .error .crash) := by
  intro l
  have hworks := works_after (ofSource source tabWidth) calls
  obtain ⟨hsound, hevents⟩ := hworks.sound
  refine ⟨fun line width count layout hmem => ?_, fun c => ?_, fun hfits c hcrash => ?_⟩
  · obtain ⟨⟨before, rest, hplace, rfl⟩, hnonneg⟩ := hevents line width count layout hmem
    exact ⟨before, rest, hplace, hnonneg, rfl, Layout.width_eq_column_iff hpos _⟩
  · rw [perform_crash_iff hsound.rising c, Scanner.Overflows, hsound.tab]
  · obtain ⟨line, width, ⟨before, rest, hplace, rfl⟩, hneg⟩ := hworks.crash hcrash
    have hcolumn := (Layout.width_eq_column_iff hpos _).2 (hfits line before rest hplace)
    have hnonneg := Layout.column_nonneg hpos (rest.takeWhile isBlank)
    omega

/-- Behind a first line, which can be read, a line with two tabs of the width `2 ^ 62`. -/
theorem calls_crash_iff_second_line :
    let l := (ofSource "a\n\t\tb\n" (2 ^ 62)).after [.next, .next]
    (0 : Int) < 2 ^ 62 ∧ l.queue = [] ∧ l.scanner.done = false ∧ l.scanner.startsLine = true ∧
    l.scanner.rest.margin? (2 ^ 62) = some (-2 ^ 63) ∧ (l.perform .peek).1 = .error .crash := by
  intro l
  have hmargin : l.scanner.rest.margin? (2 ^ 62) = some (-2 ^ 63) := by decide +kernel
  have hpos : (0 : Int) < 2 ^ 62 := by decide
  have hqueue : l.queue = [] := by decide +kernel
  have hdone : l.scanner.done = false := by decide +kernel
  have hstarts : l.scanner.startsLine = true := by decide +kernel
  refine ⟨hpos, hqueue, hdone, hstarts, hmargin, ?_⟩
  refine ((calls_crash_iff hpos "a\n\t\tb\n" [.next, .next]).2.1 .peek).2 ⟨hqueue, hdone, hstarts, _, hmargin, ?_⟩
  decide

/-- Two tabs of the width `2 ^ 62` lead to the column `2 ^ 63`, but to a negative width, and the first call crashes. -/
theorem two_tabs_crash :
    Layout.column (2 ^ 62) "\t\t" = 2 ^ 63 ∧ Layout.width (2 ^ 62) "\t\t" = -2 ^ 63 ∧
      (ofSource "\t\tx\n" (2 ^ 62)).next.1 = .error .crash := by
  decide +kernel

end Lexer

end Offside
