import Mathlib.Algebra.Group.Int.Defs
import Mathlib.Algebra.Group.Nat.Defs
import Offside.Proofs.Lexer.Grammar
import Offside.Proofs.Lexer.Pieces
import Offside.Proofs.Lexer.Spelling

/-!
# The canonical text of tokens

Tokens can be written out again: each line by itself, one blank between two tokens, and one blank before a line
for each block that is open (`Canonical.text`). A scan of that text gives the same tokens, whatever the blanks,
comments and joined lines of the source that they come from. Main statement: `tokenize_canonical`.
-/

namespace Offside

open Lexeme

/-! ## The widths of blocks -/

namespace Layout

theorem wrap64_lt (n : Int) : wrap64 n < 2 ^ 63 := by
  have h := Int.bmod_lt (x := n) (m := 2 ^ 64) (by decide)
  exact h

theorem wrap64_of_lt {n : Nat} (h : n < 2 ^ 63) : wrap64 n = n := by
  unfold wrap64
  rw [Int.bmod_eq_of_le] <;> omega

theorem widen_lt {tabWidth width : Int} (h : width < 2 ^ 63) (b : UInt8) : widen tabWidth width b < 2 ^ 63 := by
  unfold widen
  split
  · exact wrap64_lt _
  · split
    · exact wrap64_lt _
    · exact h

theorem width_lt (tabWidth : Int) (blank : Text) : width tabWidth blank < 2 ^ 63 := by
  have h : ∀ w : Int, w < 2 ^ 63 → blank.foldl (widen tabWidth) w < 2 ^ 63 := by
    induction blank with
    | nil => exact fun w hw => hw
    | cons b blank ih => exact fun w hw => ih _ (widen_lt hw b)
  exact h 0 (by decide)

/-- A space is as wide as it is long. -/
theorem width_spaces (tabWidth : Int) {d : Nat} (h : d < 2 ^ 63) : width tabWidth (List.replicate d 32) = d := by
  induction d with
  | zero => rfl
  | succ d ih =>
    have hd := ih (by omega)
    unfold width at hd ⊢
    rw [List.replicate_succ', List.foldl_append, hd, List.foldl_cons, List.foldl_nil, widen, if_pos rfl, ← Int.natCast_succ]
    exact wrap64_of_lt h

/-- The blocks are each wider than the one around them, and their widths are positive 64-bit numbers. -/
structure Rising (l : Layout) : Prop where
  sorted : l.blocks.Pairwise (· > ·)
  bounded : ∀ w ∈ l.blocks, 0 < w ∧ w < 2 ^ 63

theorem rising_nil : Rising {} := ⟨.nil, nofun⟩

theorem length_lt_of_sorted {ws : List Int} {n : Nat} (hs : ws.Pairwise (· > ·)) (hb : ∀ w ∈ ws, 0 < w ∧ w < n)
    (hn : 0 < n) : ws.length < n := by
  induction ws generalizing n with
  | nil => exact hn
  | cons w ws ih =>
    obtain ⟨hw, hs⟩ := List.pairwise_cons.1 hs
    obtain ⟨⟨hpos, hlt⟩, hb⟩ := List.forall_mem_cons.1 hb
    have hrest := ih (n := w.toNat) hs (fun v hv => ⟨(hb v hv).1, by have := hw v hv; omega⟩) (by omega)
    rw [List.length_cons]
    omega

theorem Rising.depth_lt {l : Layout} (h : Rising l) : l.depth < 2 ^ 63 :=
  length_lt_of_sorted h.sorted h.bounded (by decide)

theorem unwind_suffix {width : Int} {ws left : List Int} {n : Nat} (h : unwind width ws = some (left, n)) :
    left <:+ ws := by
  induction ws generalizing left n with
  | nil =>
    simp only [unwind] at h
    split at h
    · cases h
    · cases h
      exact List.suffix_rfl
  | cons w ws ih =>
    simp only [unwind] at h
    split at h
    · obtain ⟨⟨left', n'⟩, hunwind, heq⟩ := Option.map_eq_some_iff.1 h
      cases heq
      exact (ih hunwind).trans (List.suffix_cons w ws)
    · cases h
      exact List.suffix_rfl

theorem Rising.head_le {l : Layout} (h : Rising l) : 0 ≤ l.current ∧ ∀ w ∈ l.blocks, w ≤ l.current := by
  obtain ⟨hs, hb⟩ := h
  unfold current
  cases hl : l.blocks with
  | nil => simp
  | cons w ws =>
    rw [hl] at hs hb
    have hw := (List.forall_mem_cons.1 hb).1
    refine ⟨Int.le_of_lt hw.1, List.forall_mem_cons.2 ⟨Int.le_refl _, fun v hv => ?_⟩⟩
    have hv := (List.pairwise_cons.1 hs).1 v hv
    exact Int.le_of_lt hv

theorem Rising.measure {l : Layout} (h : Rising l) {width : Int} (hw : width < 2 ^ 63) {m : Measured}
    (hm : l.measure width = some m) : Rising m.layout := by
  unfold Layout.measure at hm
  split at hm
  · cases hm
    exact h
  · split at hm
    · next hgt =>
      cases hm
      obtain ⟨hpos, hle⟩ := h.head_le
      refine ⟨List.pairwise_cons.2 ⟨fun v hv => ?_, h.sorted⟩, List.forall_mem_cons.2 ⟨⟨by omega, hw⟩, h.bounded⟩⟩
      have := hle v hv
      omega
    · obtain ⟨⟨left, n⟩, hunwind, rfl⟩ := Option.map_eq_some_iff.1 hm
      have hsuffix := unwind_suffix hunwind
      exact ⟨h.sorted.sublist hsuffix.sublist, fun w hw => h.bounded w (hsuffix.subset hw)⟩

/-! ### Blocks of the least widths -/

/-- The blocks of the least widths, `depth` of them. -/
def stairs : Nat → List Int
  | 0 => []
  | d + 1 => ((d + 1 : Nat) : Int) :: stairs d

theorem length_stairs (d : Nat) : (stairs d).length = d := by
  induction d with
  | zero => rfl
  | succ d ih => rw [stairs, List.length_cons, ih]

theorem headD_stairs (d : Nat) : (stairs d).headD 0 = d := by
  cases d <;> rfl

theorem measure_indent (d k : Nat) :
    Layout.measure ⟨stairs d, k⟩ (d + 1 : Nat) = some ⟨⟨stairs (d + 1), k⟩, [.indent], true⟩ := by
  have hcurrent : current ⟨stairs d, k⟩ = d := headD_stairs d
  unfold Layout.measure
  rw [hcurrent, if_neg (by omega), if_pos (by omega)]
  rfl

theorem unwind_stairs (d n : Nat) : unwind d (stairs (d + n)) = some (stairs d, n) := by
  induction n with
  | zero => cases d <;> simp [stairs, unwind]
  | succ n ih =>
    rw [← Nat.add_assoc, stairs, unwind, if_pos (by omega), ih]
    rfl

theorem measure_dedents (d n k : Nat) :
    Layout.measure ⟨stairs (d + n), k⟩ d = some ⟨⟨stairs d, k⟩, List.replicate n .dedent, true⟩ := by
  have hcurrent : ∀ d, current ⟨stairs d, k⟩ = d := headD_stairs
  unfold Layout.measure
  cases n with
  | zero => simp [hcurrent]
  | succ n =>
    rw [hcurrent, if_neg (by omega), if_neg (by omega), unwind_stairs]
    simp [hcurrent]

end Layout

/-! ## The text of tokens -/

/-- What a token says, its position and the way in which a line is ended apart. -/
def Token.shape (t : Token) : Token.Kind × Token.Subtype × Text :=
  (t.kind, t.subtype, if t.kind = .newline then [] else t.literal)

namespace Canonical

/-- Where the next token stands in its line. -/
inductive Place where
  /-- Before the blanks that the line begins with. -/
  | lineStart
  /-- Behind them. -/
  | entered
  /-- Behind another token. -/
  | inLine
deriving DecidableEq

/-- The blanks before a content token, with `depth` blocks open. -/
def Place.blanks (depth : Nat) : Place → Text
  | lineStart => List.replicate depth 32
  | entered => []
  | inLine => [32]

/-- The text of tokens: a line for each line of tokens, with a blank before it for each open block, and one blank
between two tokens. -/
def text : Place → (depth : Nat) → List Token → Text
  | _, _, [] => []
  | place, depth, t :: ts =>
    match t.kind with
    | .newline => 10 :: text .lineStart depth ts
    | .indent => text place (depth + 1) ts
    | .dedent => text place (depth - 1) ts
    | .eof => text place depth ts
    | _ => place.blanks depth ++ (t.spelling ++ text .inLine depth ts)

/-- The shapes of the tokens behind the last line: the open blocks are closed, and the source ends. -/
def closing (depth : Nat) : List (Token.Kind × Token.Subtype × Text) :=
  List.replicate depth (.dedent, .plain, []) ++ [(.eof, .plain, [])]

/-- Tokens in lines, from a place in a line on, with `depth` blocks and `brackets` brackets open. Inside brackets
a line only ends where the source does. -/
inductive Printable : Place → (depth brackets : Nat) → List Token → Prop
  | indent {d : Nat} {t : Token} {ts : List Token} (hd : d + 1 < 2 ^ 63) (ht : t.shape = (.indent, .plain, []))
      (h : Printable .entered (d + 1) 0 ts) : Printable .lineStart d 0 (t :: ts)
  | dedents {d : Nat} {us ts : List Token} (hu : ∀ u ∈ us, u.shape = (.dedent, .plain, []))
      (h : Printable .entered d 0 ts) : Printable .lineStart (d + us.length) 0 (us ++ ts)
  | content {p : Place} {d k : Nat} {t : Token} {ts : List Token} (hp : p ≠ .lineStart) (ht : Read t)
      (h : Printable .inLine d (t.bracketDepth k) ts) : Printable p d k (t :: ts)
  | newline {d : Nat} {t : Token} {ts : List Token} (ht : t.shape = (.newline, .plain, []))
      (h : Printable .lineStart d 0 ts) : Printable .inLine d 0 (t :: ts)
  | last {d k : Nat} {ts : List Token} (hts : ts.map Token.shape = closing d) : Printable .lineStart d k ts
  | lastLine {d k : Nat} {t : Token} {ts : List Token} (ht : t.shape = (.newline, .plain, []))
      (hts : ts.map Token.shape = closing d) : Printable .inLine d k (t :: ts)

end Canonical

/-! ## The tokens of a run -/

namespace Scanner

open Canonical

/-- Where a scan stands in its line. -/
def place (s : Scanner) : Place :=
  if s.lineContent then .inLine else if s.atLineStart || s.rest.isEmpty then .lineStart else .entered

section
variable {s : Scanner}

theorem place_inLine (hl : s.lineContent = true) : s.place = .inLine := by simp [place, hl]

theorem place_lineStart (hl : s.lineContent = false) (h : s.atLineStart = true ∨ s.rest = []) :
    s.place = .lineStart := by
  rcases h with ha | hr
  · simp [place, hl, ha]
  · simp [place, hl, hr]

theorem place_entered {b : UInt8} {rest : Text} (hl : s.lineContent = false) (ha : s.atLineStart = false)
    (hr : s.rest = b :: rest) : s.place = .entered := by
  simp [place, hl, ha, hr]

theorem startsLine_atLineStart (hs : s.startsLine = true) : s.atLineStart = true := (Bool.and_eq_true_iff.1 hs).1

end

theorem Stands.inside {k : Token.Kind} {s : Scanner} (h : Stands k s) (hd : s.done = false)
    (hs : s.startsLine = false) : s.lineContent = true ∨ s.rest = [] ∨
      ∃ b rest, s.rest = b :: rest ∧ isBlank b = false ∧ isLineEnd b = false ∧ b ≠ 35 ∧ s.atLineStart = false := by
  cases h with
  | lineStart _ hs' _ => simp [hs] at hs'
  | entered _ _ ha hr hb hl hc => exact .inr (.inr ⟨_, _, hr, hb, hl, hc, ha⟩)
  | blankEnd _ _ _ hr => exact .inr (.inl hr)
  | inLine _ _ _ hl => exact .inl hl
  | done hd' => simp [hd] at hd'

/-- A line that ends has begun. -/
theorem Stands.begun {k : Token.Kind} {s : Scanner} (h : Stands k s) (hd : s.done = false) (hs : s.startsLine = false)
    {b : UInt8} {rest : Text} (hr : s.pastBlank.rest = b :: rest) (hb : isLineEnd b = true ∨ b = 35) :
    s.lineContent = true := by
  rcases h.inside hd hs with hl | hnil | ⟨c, rest', hcons, hblank, hline, hcomment, -⟩
  · exact hl
  · rw [pastBlank_of_nil hnil, hnil] at hr
    cases hr
  · rw [pastBlank_of_cons hcons hblank, hcons] at hr
    cases hr
    simp [hline, hcomment] at hb

/-- Content is read inside of a line. -/
theorem Stands.place_ne_lineStart {k : Token.Kind} {s : Scanner} (h : Stands k s) (hd : s.done = false)
    (hs : s.startsLine = false) {b : UInt8} {rest : Text} (hr : s.pastBlank.rest = b :: rest) :
    s.place ≠ .lineStart := by
  rcases h.inside hd hs with hl | hnil | ⟨_, _, hcons, -, -, -, ha⟩
  · simp [place_inLine hl]
  · rw [pastBlank_of_nil hnil, hnil] at hr
    cases hr
  · cases hl : s.lineContent with
    | true => simp [place_inLine hl]
    | false => simp [place_entered hl ha hcons]

/-- Where a line has not begun, the source ends without blanks. -/
theorem Stands.rest_of_unbegun {k : Token.Kind} {s : Scanner} (h : Stands k s) (hd : s.done = false)
    (hs : s.startsLine = false) (hr : s.pastBlank.rest = []) (hl : s.lineContent = false) : s.rest = [] := by
  rcases h.inside hd hs with hcontent | hnil | ⟨b, rest, hcons, hb, -⟩
  · simp [hl] at hcontent
  · exact hnil
  · rw [pastBlank_of_cons hcons hb, hcons] at hr
    cases hr

theorem Stands.lineContent {k : Token.Kind} {s : Scanner} (h : Stands k s) (hd : s.done = false)
    (hs : s.startsLine = true) : s.lineContent = false := by
  have ha : s.atLineStart = true := (Bool.and_eq_true_iff.1 hs).1
  cases h with
  | lineStart _ _ hl => exact hl
  | entered _ _ ha' _ _ _ _ => simp [ha] at ha'
  | blankEnd _ ha' _ _ => simp [ha] at ha'
  | inLine _ _ ha' _ => simp [ha] at ha'
  | done hd' => simp [hd] at hd'

theorem rising_bracketed {l : Layout} (h : l.Rising) (sub : Token.Subtype) : (bracketed l sub).Rising := by
  have hblocks := blocks_bracketed l sub
  exact ⟨hblocks ▸ h.sorted, hblocks ▸ h.bounded⟩

theorem rising_step {s : Scanner} (h : s.layout.Rising) : s.step.scanner.layout.Rising := by
  generalize hst : s.step = st
  have ht : Takes s st := hst ▸ takes_step s
  cases ht with
  | blankEnd hs hr => exact h
  | commentLine hs hr =>
    dsimp only
    split <;> exact h
  | blankLine hs hr hb => exact h
  | enter hs hr hb hc =>
    rcases enterLine_cases s.pastBlank (Layout.width s.tabWidth (s.rest.takeWhile isBlank)) with
      ⟨-, he⟩ | ⟨m, hm, hscanner, -⟩
    · rw [he]
      exact h
    · rw [hscanner]
      exact Layout.Rising.measure (l := s.layout) h (Layout.width_lt _ _) hm
  | finish hs hr => exact ⟨.nil, nofun⟩
  | endLine hs hr hb =>
    unfold endLine
    split <;> exact h
  | comment hs hr => exact h
  | content hs hr hb hc =>
    unfold content
    split
    · exact rising_bracketed h _
    · exact h
    · exact h

theorem shape_finish (s : Scanner) : s.finish.tokens.map Token.shape =
    (if s.lineContent then [(.newline, .plain, [])] else []) ++ closing s.layout.depth := by
  cases hl : s.lineContent <;> simp [finish, hl, token, Token.shape, closing]

/-- A step that yields no token and stays in its place. -/
theorem printable_silent {s r : Scanner} {p : Place} {ts : List Token} (hs : s.place = p) (hr : r.place = p)
    (hlayout : r.layout = s.layout) (h : Printable r.place r.layout.depth r.layout.brackets ts) :
    Printable s.place s.layout.depth s.layout.brackets ts := by
  rw [hr, hlayout] at h
  rwa [hs]

/-- The tokens that a line begins with. -/
theorem printable_enter {l : Layout} {width : Int} {m : Layout.Measured} (hm : l.measure width = some m)
    (hrise : m.layout.Rising) (hj : l.joined = false) (place : Scanner) {ts : List Token}
    (h : Printable .entered m.layout.depth m.layout.brackets ts) :
    Printable .lineStart l.depth l.brackets ((m.kinds.map fun kind => place.token kind) ++ ts) := by
  obtain ⟨hbrackets, hkinds⟩ := Layout.measure_cases hm
  rw [hbrackets] at h
  rw [brackets_eq_zero hj] at h ⊢
  rcases hkinds with ⟨hkinds, hdepth⟩ | ⟨n, hkinds, hdepth⟩
  · have hlt := hrise.depth_lt
    rw [hdepth] at h hlt
    rw [hkinds]
    exact .indent hlt rfl h
  · have hu : ∀ u ∈ List.replicate n (place.token .dedent), u.shape = (.dedent, .plain, []) := by
      intro u hu
      rw [(List.mem_replicate.1 hu).2]
      rfl
    have hdedents := Printable.dedents hu h
    rw [List.length_replicate] at hdedents
    rwa [hkinds, hdepth, List.map_replicate]

/-- The tokens that the source ends with. -/
theorem printable_finish {s : Scanner} {k : Token.Kind} (h : Stands k s) (hd : s.done = false)
    (hs : s.startsLine = false) (hr : s.pastBlank.rest = []) :
    Printable s.place s.layout.depth s.layout.brackets s.pastBlank.finish.tokens := by
  have hshape := shape_finish s.pastBlank
  have hcontent : s.pastBlank.lineContent = s.lineContent := rfl
  rw [hcontent] at hshape
  cases hl : s.lineContent with
  | true =>
    rw [hl, if_pos rfl] at hshape
    obtain ⟨t, us, htokens, ht, hus⟩ := List.map_eq_cons_iff.1 hshape
    rw [place_inLine hl, htokens]
    exact .lastLine ht hus
  | false =>
    rw [hl, if_neg Bool.false_ne_true] at hshape
    rw [place_lineStart hl (.inr (h.rest_of_unbegun hd hs hr hl))]
    exact .last hshape

/-- The end of a line is a token, unless the line goes on inside brackets. -/
theorem printable_endLine {s : Scanner} {ts : List Token} (hl : s.lineContent = true)
    (hts : Printable s.pastBlank.endLine.scanner.place s.pastBlank.endLine.scanner.layout.depth
      s.pastBlank.endLine.scanner.layout.brackets ts) :
    Printable s.place s.layout.depth s.layout.brackets (s.pastBlank.endLine.tokens ++ ts) := by
  have hlayout : s.pastBlank.breakLine.layout = s.layout := rfl
  unfold endLine at hts ⊢
  split at hts
  · next hj =>
    rw [if_pos hj]
    have hplace : s.pastBlank.breakLine.place = .inLine := place_inLine hl
    exact printable_silent (place_inLine hl) hplace hlayout hts
  · next hj =>
    have hj' : s.layout.joined = false := Bool.eq_false_iff.2 hj
    have hplace : place { s.pastBlank.breakLine with lineContent := false, atLineStart := true } = .lineStart :=
      place_lineStart rfl (.inl rfl)
    dsimp only at hts
    rw [hplace, hlayout, brackets_eq_zero hj'] at hts
    rw [if_neg hj, place_inLine hl, brackets_eq_zero hj']
    exact .newline rfl hts

/-- A step puts its tokens before those that stand in lines behind it. -/
theorem step_printable {s : Scanner} {k : Token.Kind} {ts : List Token} (h : Stands k s) (hd : s.done = false)
    (hrise : s.step.scanner.layout.Rising) (hh : s.step.halt = none) (hdone : s.step.scanner.done = true → ts = [])
    (hts : s.step.scanner.done = false → Printable s.step.scanner.place s.step.scanner.layout.depth
      s.step.scanner.layout.brackets ts) :
    Printable s.place s.layout.depth s.layout.brackets (s.step.tokens ++ ts) := by
  generalize hst : s.step = st at hrise hh hdone hts ⊢
  have ht : Takes s st := hst ▸ takes_step s
  cases ht with
  | blankEnd hs hr =>
    have hl := h.lineContent hd hs
    have hplace : place { s.pastBlank with atLineStart := false } = .lineStart := place_lineStart hl (.inr hr)
    exact printable_silent (place_lineStart hl (.inl (startsLine_atLineStart hs))) hplace rfl (hts hd)
  | commentLine hs hr =>
    have hl := h.lineContent hd hs
    have ha := startsLine_atLineStart hs
    have hcomment : s.pastBlank.skipComment.place = .lineStart := place_lineStart hl (.inl ha)
    have hbreak : s.pastBlank.skipComment.breakLine.place = .lineStart := place_lineStart hl (.inl ha)
    dsimp only at hts
    split at hts
    · exact printable_silent (place_lineStart hl (.inl ha)) hcomment rfl (hts hd)
    · exact printable_silent (place_lineStart hl (.inl ha)) hbreak rfl (hts hd)
  | blankLine hs hr hb =>
    have hl := h.lineContent hd hs
    have ha := startsLine_atLineStart hs
    have hplace : s.pastBlank.breakLine.place = .lineStart := place_lineStart hl (.inl ha)
    exact printable_silent (place_lineStart hl (.inl ha)) hplace rfl (hts hd)
  | enter hs hr hb hc =>
    have hl := h.lineContent hd hs
    obtain ⟨m, hm, -, he⟩ := enterLine_ok hh
    rw [he] at hts hrise ⊢
    have hj : s.layout.joined = false := by simpa using (Bool.and_eq_true_iff.1 hs).2
    have hplace : place { s.pastBlank with layout := m.layout, atLineStart := false } = .entered :=
      place_entered hl rfl hr
    have htail := hts hd
    dsimp only at htail
    rw [hplace] at htail
    rw [place_lineStart hl (.inl (startsLine_atLineStart hs))]
    exact printable_enter hm hrise hj s.pastBlank htail
  | finish hs hr =>
    rw [hdone rfl, List.append_nil]
    exact printable_finish h hd hs hr
  | endLine hs hr hb =>
    have hdone' : s.pastBlank.endLine.scanner.done = false := by
      unfold endLine
      split <;> exact hd
    exact printable_endLine (h.begun hd hs hr (.inl hb)) (hts hdone')
  | comment hs hr =>
    have hl := h.begun hd hs hr (.inr rfl)
    have hplace : s.pastBlank.skipComment.place = .inLine := place_inLine hl
    exact printable_silent (place_inLine hl) hplace rfl (hts hd)
  | content hs hr hb hc =>
    obtain ⟨x, hx, he⟩ := content_ok hh
    rw [he] at hts ⊢
    have hplace := h.place_ne_lineStart hd hs hr
    have hbegun : place { s.pastBlank.skip x.width with layout := bracketed s.layout x.subtype, lineContent := true } =
        .inLine := place_inLine rfl
    let t := s.pastBlank.token x.kind x.subtype x.literal
    have htail : Printable .inLine s.layout.depth (t.bracketDepth s.layout.brackets) ts := by
      rw [← brackets_bracketed s.layout t, ← depth_bracketed s.layout t.subtype, ← hbegun]
      exact hts hd
    exact .content hplace ⟨_, _, x, hx, rfl, rfl, rfl⟩ htail

/-- The tokens of a run stand in lines. -/
theorem run_printable {s : Scanner} {k : Token.Kind} (h : Stands k s) (hd : s.done = false) (hrise : s.layout.Rising)
    (hh : s.run.halt = none) : Printable s.place s.layout.depth s.layout.brackets s.run.tokens := by
  induction s using run_induction generalizing k with
  | done s hdone => simp [hd] at hdone
  | halt s r _ hstep => simp [run_halt hd hstep] at hh
  | step s _ hstep ih =>
    obtain ⟨k', -, hstands⟩ := h.step hd hstep
    have hrise' := rising_step hrise
    rw [run_step hd hstep] at hh ⊢
    refine step_printable h hd hrise' hstep (fun hdone => ?_) fun hdone => ih hstands hdone hrise' hh
    rw [run_done hdone]

end Scanner

/-! ## The text of printable tokens -/

namespace Canonical

section
variable {place : Place} {depth : Nat} {t : Token} {ts us : List Token}

theorem text_content (ht : t.kind.isStructural = false) :
    text place depth (t :: ts) = place.blanks depth ++ (t.spelling ++ text .inLine depth ts) := by
  cases hk : t.kind <;> simp_all [text, Token.Kind.isStructural]

theorem text_newline (ht : t.shape = (.newline, .plain, [])) :
    text place depth (t :: ts) = 10 :: text .lineStart depth ts := by
  have hk : t.kind = .newline := congrArg Prod.fst ht
  rw [text, hk]

theorem text_indent (ht : t.shape = (.indent, .plain, [])) :
    text place depth (t :: ts) = text place (depth + 1) ts := by
  have hk : t.kind = .indent := congrArg Prod.fst ht
  rw [text, hk]

theorem text_dedents (hu : ∀ u ∈ us, u.shape = (.dedent, .plain, [])) :
    text place (depth + us.length) (us ++ ts) = text place depth ts := by
  induction us with
  | nil => rfl
  | cons u us ih =>
    obtain ⟨hu, hus⟩ := List.forall_mem_cons.1 hu
    have hk : u.kind = .dedent := congrArg Prod.fst hu
    rw [List.cons_append, text, hk]
    exact ih hus

theorem text_closing {d : Nat} (hts : ts.map Token.shape = closing d) : text place depth ts = [] := by
  induction d generalizing ts depth with
  | zero =>
    obtain ⟨t, us, rfl, ht, hus⟩ := List.map_eq_cons_iff.1 hts
    have hk : t.kind = .eof := congrArg Prod.fst ht
    rw [text, hk, List.map_eq_nil_iff.1 hus]
    rfl
  | succ d ih =>
    obtain ⟨t, us, rfl, ht, hus⟩ := List.map_eq_cons_iff.1 hts
    have hk : t.kind = .dedent := congrArg Prod.fst ht
    rw [text, hk]
    exact ih hus

end

/-- What is read of a token can be read again before a blank or a line feed. -/
theorem read_again {t : Token} (h : Read t) :
    t.kind.isStructural = false ∧ ∃ b x, t.kind = x.kind ∧ t.subtype = x.subtype ∧ t.literal = x.literal ∧
      x.width = t.spelling.length ∧ ∀ c rest, c = 32 ∨ c = 10 →
        ∃ s, t.spelling ++ c :: rest = b :: s ∧ first b s = .ok x := by
  obtain ⟨b, s, x, hx, hkind, hsubtype, hliteral⟩ := h
  have hspelling : t.spelling = x.spelling := by rw [Token.spelling, hsubtype, hliteral, Lexeme.spelling]
  rw [hkind, hspelling]
  refine ⟨by simpa [isContent] using (first_ok hx).2, b, x, rfl, hsubtype, hliteral, (first_start hx).2.1, ?_⟩
  exact fun c rest hc => first_again hx hc rest

/-- Behind a token a blank or a line feed follows. -/
theorem Printable.text_inLine {d k : Nat} {ts : List Token} (h : Printable .inLine d k ts) :
    ∃ c rest, text .inLine d ts = c :: rest ∧ (c = 32 ∨ c = 10) := by
  cases h with
  | content hp ht h =>
    rw [text_content (read_again ht).1]
    exact ⟨32, _, rfl, .inl rfl⟩
  | newline ht h =>
    rw [text_newline ht]
    exact ⟨10, _, rfl, .inr rfl⟩
  | lastLine ht hts =>
    rw [text_newline ht]
    exact ⟨10, _, rfl, .inr rfl⟩

/-- Behind the blanks of a line its first token follows. -/
theorem Printable.text_entered {d k : Nat} {ts : List Token} (h : Printable .entered d k ts) :
    text .lineStart d ts = List.replicate d 32 ++ text .entered d ts ∧
      ∃ b rest, text .entered d ts = b :: rest ∧ isBlank b = false ∧ isLineEnd b = false ∧ b ≠ 35 := by
  cases h with
  | content hp ht h =>
    obtain ⟨c, rest, htext, hc⟩ := h.text_inLine
    obtain ⟨hk, b, x, -, -, -, -, hagain⟩ := read_again ht
    obtain ⟨s, hs, hx⟩ := hagain c rest hc
    rw [text_content hk, text_content hk, htext]
    exact ⟨rfl, b, s, hs, first_content hx⟩

end Canonical

/-! ## Scanning the text -/

namespace Scanner

open Canonical

/-- The scan stands in the place, with the given numbers of blocks and brackets open, and its blocks have the
least widths. -/
structure Copies (p : Place) (d k : Nat) (s : Scanner) : Prop where
  going : s.done = false
  start : s.atLineStart = decide (p = .lineStart)
  content : s.lineContent = decide (p = .inLine)
  layout : s.layout = ⟨Layout.stairs d, k⟩

section
variable {s : Scanner}

theorem step_atEnd (hr : s.rest = []) :
    s.step = if s.startsLine then { scanner := { s with atLineStart := false } } else s.finish := by
  have hpast : s.skip (s.rest.takeWhile isBlank).length = s := pastBlank_of_nil hr
  change (if s.startsLine then s.startLine else s.inLine) = _
  split
  · simp only [startLine, hpast]
    simp only [hr]
  · simp only [inLine, skipWhile, hpast]
    simp only [hr]

/-- At the end of a source there is one thing left to do. -/
theorem run_end (hd : s.done = false) (hr : s.rest = []) : s.run.halt = none ∧ s.run.tokens = s.finish.tokens := by
  have hfinish : ∀ s : Scanner, s.done = false → s.rest = [] → s.startsLine = false →
      s.run.halt = none ∧ s.run.tokens = s.finish.tokens := by
    intro s hd hr hs
    have hstep : s.step = s.finish := by rw [step_atEnd hr, hs, if_neg Bool.false_ne_true]
    have hdone : s.finish.scanner.run = { scanner := s.finish.scanner } := run_done rfl
    have hhalt : s.step.halt = none := by rw [hstep]; rfl
    rw [run_step hd hhalt, hstep, hdone]
    exact ⟨rfl, List.append_nil _⟩
  cases hs : s.startsLine with
  | false => exact hfinish s hd hr hs
  | true =>
    have hstep := step_atEnd hr
    rw [hs, if_pos rfl] at hstep
    have hhalt : s.step.halt = none := by rw [hstep]
    rw [run_step hd hhalt, hstep]
    exact hfinish { s with atLineStart := false } hd hr rfl

/-- At the end of a source the last line is ended and the open blocks are closed. -/
theorem run_atEnd (hd : s.done = false) (hr : s.rest = []) :
    s.run.halt = none ∧ s.run.tokens.map Token.shape =
      (if s.lineContent then [(.newline, .plain, [])] else []) ++ closing s.layout.depth := by
  obtain ⟨hhalt, htokens⟩ := run_end hd hr
  exact ⟨hhalt, by rw [htokens, shape_finish]⟩

/-- A line of the text enters the layout. -/
theorem step_enter {d : Nat} {b : UInt8} {rest : Text} {m : Layout.Measured} (hs : s.startsLine = true)
    (hr : s.rest = List.replicate d 32 ++ b :: rest) (hb : isBlank b = false) (hl : isLineEnd b = false) (hc : b ≠ 35)
    (hd : d < 2 ^ 63) (hm : s.layout.measure d = some m) (ha : m.aligned = true) :
    s.step = { scanner := { s.skip d with layout := m.layout, atLineStart := false }
               tokens := m.kinds.map fun kind => (s.skip d).token kind
               notes := [.measured s.line d m.kinds.length m.layout] } := by
  have hblanks : s.rest.takeWhile isBlank = List.replicate d 32 := by
    rw [hr]
    refine takeWhile_stop (fun c hc => ?_) (by simpa using hb)
    rw [(List.mem_replicate.1 hc).2]
    rfl
  have hrest : (s.skip d).rest = b :: rest := by simp [skip, hr]
  have hmeasure : (s.skip d).layout.measure d = some m := hm
  change (if s.startsLine then s.startLine else s.inLine) = _
  rw [hs, if_pos rfl]
  simp only [startLine, hblanks, List.length_replicate, hrest, if_neg hc, hl, Bool.false_eq_true, if_false,
    Layout.width_spaces _ hd, enterLine, hmeasure, ha, if_true]
  rfl

theorem step_lineFeed {rest : Text} (ha : s.atLineStart = false) (hr : s.rest = 10 :: rest) : s.step = s.endLine := by
  have hpast : s.skipWhile isBlank = s := pastBlank_of_cons hr rfl
  have hline : isLineEnd 10 = true := rfl
  simp only [step, ha, Bool.false_and, Bool.false_eq_true, if_false, inLine, hpast, hr, hline, if_true]

end

/-- The scan behind the end of a line. -/
def nextLine (s : Scanner) : Scanner := { s.breakLine with lineContent := false, atLineStart := true }

theorem run_lineFeed {s : Scanner} {rest : Text} (hd : s.done = false) (ha : s.atLineStart = false)
    (hr : s.rest = 10 :: rest) (hj : s.layout.joined = false) :
    s.run.halt = s.nextLine.run.halt ∧
      s.run.tokens.map Token.shape = (.newline, .plain, []) :: s.nextLine.run.tokens.map Token.shape := by
  have hstep := step_lineFeed ha hr
  rw [endLine, hj, if_neg Bool.false_ne_true] at hstep
  have hhalt : s.step.halt = none := by rw [hstep]
  rw [run_step hd hhalt, hstep]
  exact ⟨rfl, rfl⟩

/-- The tokens that a line begins with are read from its blanks. -/
theorem run_line {d d' : Nat} {ts : List Token} {kinds : List Token.Kind} {s : Scanner}
    (h : Printable .entered d' 0 ts) (hd : d' < 2 ^ 63) (hs : Copies .lineStart d 0 s) (hr : s.rest = text .lineStart d' ts)
    (hm : Layout.measure ⟨Layout.stairs d, 0⟩ d' = some ⟨⟨Layout.stairs d', 0⟩, kinds, true⟩)
    (ih : ∀ {r : Scanner}, Copies .entered d' 0 r → r.rest = text .entered d' ts →
      r.run.halt = none ∧ r.run.tokens.map Token.shape = ts.map Token.shape) :
    s.run.halt = none ∧ s.run.tokens.map Token.shape =
      kinds.map (fun kind => (s.token kind).shape) ++ ts.map Token.shape := by
  obtain ⟨hline, b, rest, hentered, hb, hl, hc⟩ := h.text_entered
  have hstarts : s.startsLine = true := by simp [startsLine, hs.start, hs.layout, Layout.joined]
  rw [hline, hentered] at hr
  rw [← hs.layout] at hm
  have hstep := step_enter hstarts hr hb hl hc hd hm rfl
  have hhalt : s.step.halt = none := by rw [hstep]
  rw [run_step hs.going hhalt, hstep]
  have htail := ih (r := { s.skip d' with layout := ⟨Layout.stairs d', 0⟩, atLineStart := false })
    ⟨hs.going, rfl, hs.content, rfl⟩ (by simp [skip, hr, hentered])
  refine ⟨htail.1, ?_⟩
  rw [← htail.2, List.map_append, List.map_map]
  rfl

theorem bracketed_mk (ws : List Int) (k : Nat) (t : Token) : bracketed ⟨ws, k⟩ t.subtype = ⟨ws, t.bracketDepth k⟩ := by
  have hbrackets := brackets_bracketed ⟨ws, k⟩ t
  have hblocks := blocks_bracketed ⟨ws, k⟩ t.subtype
  generalize bracketed ⟨ws, k⟩ t.subtype = l at hbrackets hblocks ⊢
  obtain ⟨ws', k'⟩ := l
  exact congr (congrArg Layout.mk hblocks) hbrackets

/-- The blanks before a token inside a line are passed over. -/
theorem run_blanks {p : Place} {d k : Nat} {s : Scanner} {rest : Text} (hp : p ≠ .lineStart) (hs : Copies p d k s)
    (hr : s.rest = p.blanks d ++ rest) : ∃ r : Scanner, s.run = r.run ∧ r.rest = rest ∧ r.done = false ∧
      r.atLineStart = false ∧ r.layout = ⟨Layout.stairs d, k⟩ := by
  have hstart : s.atLineStart = false := by simpa [hp] using hs.start
  cases p with
  | lineStart => exact absurd rfl hp
  | entered => exact ⟨s, rfl, hr, hs.going, hstart, hs.layout⟩
  | inLine =>
    have hskip : (s.skip 1).rest = rest := by simp [skip, hr, Place.blanks]
    exact ⟨s.skip 1, run_blank hs.going hstart hr, hskip, hs.going, hstart, hs.layout⟩

/-- The last line is ended by its line feed. Inside brackets the line feed means nothing, and the end of the source
ends the line. -/
theorem run_lastLine {d k : Nat} {s : Scanner} (hs : Copies .inLine d k s) (hr : s.rest = [10]) :
    s.run.halt = none ∧ s.run.tokens.map Token.shape = (.newline, .plain, []) :: closing d := by
  have ha : s.atLineStart = false := by simpa using hs.start
  have hdepth : s.layout.depth = d := by simp [hs.layout, Layout.depth, Layout.length_stairs]
  have hafter : s.breakLine.rest = [] := by simp [breakLine, hr, afterLineEnd]
  cases hj : s.layout.joined with
  | true =>
    have hstep := step_lineFeed ha hr
    rw [endLine, hj, if_pos rfl] at hstep
    have hhalt : s.step.halt = none := by rw [hstep]
    have hend := run_atEnd (s := s.breakLine) hs.going hafter
    have hl : s.breakLine.lineContent = true := hs.content
    rw [hl, if_pos rfl] at hend
    rw [run_step hs.going hhalt, hstep, ← hdepth]
    exact hend
  | false =>
    obtain ⟨hhalt, hshape⟩ := run_lineFeed hs.going ha hr hj
    have hend := run_atEnd (s := s.nextLine) hs.going hafter
    rw [hhalt, hshape, hend.2, ← hdepth]
    exact ⟨hend.1, rfl⟩

/-- A scan of the text of printable tokens gives the same tokens. -/
theorem run_text {p : Place} {d k : Nat} {ts : List Token} (h : Printable p d k ts) (hd : d < 2 ^ 63) {s : Scanner}
    (hs : Copies p d k s) (hr : s.rest = text p d ts) :
    s.run.halt = none ∧ s.run.tokens.map Token.shape = ts.map Token.shape := by
  induction h generalizing s with
  | @indent d t ts hlt ht h ih =>
    rw [text_indent ht] at hr
    have hrun := run_line h hlt hs hr (Layout.measure_indent d 0) (ih hlt)
    rw [List.map_cons, ht]
    exact hrun
  | @dedents d us ts hu h ih =>
    rw [text_dedents hu] at hr
    have hrun := run_line h (by omega) hs hr (Layout.measure_dedents d us.length 0) (ih (by omega))
    have hus : us.map Token.shape = List.replicate us.length (.dedent, .plain, []) := by
      simpa [List.eq_replicate_iff] using hu
    rw [List.map_append, hus]
    simpa [token, Token.shape] using hrun
  | @content p d k t ts hp ht h ih =>
    obtain ⟨hk, b, x, hkind, hsubtype, hliteral, hwidth, hagain⟩ := read_again ht
    obtain ⟨c, rest, htext, hc⟩ := h.text_inLine
    obtain ⟨u, hu, hx⟩ := hagain c rest hc
    rw [text_content hk] at hr
    obtain ⟨r, hrun, hr, hgoing, hstart, hlayout⟩ := run_blanks hp hs hr
    have hstep := step_content hstart (by rw [hr, htext, hu]) hx
    have hhalt : r.step.halt = none := by rw [hstep]
    have hcopies : Copies .inLine d (t.bracketDepth k) (r.past x) := by
      refine ⟨hgoing, hstart, rfl, ?_⟩
      rw [← bracketed_mk, ← hlayout, hsubtype]
      rfl
    have htail := ih hd hcopies (by simp [past, skip, hr, hwidth])
    have hshape : (r.token x.kind x.subtype x.literal).shape = t.shape := by
      rw [Token.shape, Token.shape, hkind, hsubtype, hliteral]
      rfl
    rw [hrun, run_step hgoing hhalt, hstep, List.map_cons, ← hshape, ← htail.2]
    exact ⟨htail.1, rfl⟩
  | @newline d t ts ht h ih =>
    rw [text_newline ht] at hr
    have hj : s.layout.joined = false := by simp [hs.layout, Layout.joined]
    obtain ⟨hhalt, hshape⟩ := run_lineFeed hs.going (by simpa using hs.start) hr hj
    have htail := ih hd (s := s.nextLine) ⟨hs.going, rfl, rfl, hs.layout⟩ (by simp [nextLine, breakLine, hr, afterLineEnd])
    rw [hhalt, hshape, List.map_cons, ht, htail.2]
    exact ⟨htail.1, rfl⟩
  | last hts =>
    rw [text_closing hts] at hr
    have hend := run_atEnd hs.going hr
    rw [hs.content, hs.layout] at hend
    rw [hts]
    simpa [Layout.depth, Layout.length_stairs] using hend
  | @lastLine d k t ts ht hts =>
    rw [text_newline ht, text_closing hts] at hr
    rw [List.map_cons, ht, hts]
    exact run_lastLine hs hr

/-- The canonical text of the tokens of a source that can be read is read as the same tokens, whatever the width
of a tab. -/
theorem tokenize_canonical {source : Text} {tabWidth : Int} (h : (tokenize source tabWidth).halt = none) (tab : Int) :
    let ts := (tokenize source tabWidth).tokens
    let again := tokenize (text .lineStart 0 ts) tab
    again.halt = none ∧ again.tokens.map Token.shape = ts.map Token.shape := by
  intro ts again
  have hprintable : Printable .lineStart 0 0 ts := run_printable (Stands.ofSource source tabWidth) rfl Layout.rising_nil h
  exact run_text hprintable (by decide) (s := ofSource (text .lineStart 0 ts) tab) ⟨rfl, rfl, rfl, rfl⟩ rfl

/-- Comments, joined lines, tabs and a bracket that is never closed. -/
theorem tokenize_canonical_joined :
    let source : Text := "if a :# b\n\tf(1.,\n  'x')\n\n\tc=.5e\n](\n"
    let ts := (tokenize source 4).tokens
    (tokenize source 4).halt = none ∧ text .lineStart 0 ts = "if a :\n f ( 1. , 'x' )\n c = .5 e\n] (\n" ∧
      (tokenize (text .lineStart 0 ts) 8).tokens.map Token.shape = ts.map Token.shape := by
  have h : (tokenize "if a :# b\n\tf(1.,\n  'x')\n\n\tc=.5e\n](\n" 4).halt = none := by decide +kernel
  exact ⟨h, by decide +kernel, (tokenize_canonical h 8).2⟩

end Scanner

end Offside
