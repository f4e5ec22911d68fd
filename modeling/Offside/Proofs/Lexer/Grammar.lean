import Offside.Proofs.Lexer.Order

/-!
# The grammar of the layout

The tokens of a source that can be read are lines, then the dedents of the blocks that are still open, then the
end of the source. A line is one indent or some dedents, content and a line end. Indents and dedents nest, and
no token of the layout stands inside brackets unless the source ends there. Main statement:
`tokenize_layout`.
-/

namespace Offside

namespace Token.Kind

/-! ## Lines -/

/-- A line: one indent or some dedents, then content, then a line end. -/
inductive Line : List Kind → Prop
  | indented {ks : List Kind} (hne : ks ≠ []) (hc : ∀ k ∈ ks, k.isStructural = false) :
      Line (.indent :: ks ++ [.newline])
  | dedented (n : Nat) {ks : List Kind} (hne : ks ≠ []) (hc : ∀ k ∈ ks, k.isStructural = false) :
      Line (List.replicate n .dedent ++ ks ++ [.newline])

/-- Lines, then some dedents and the end of the source. -/
def LaidOut (ks : List Kind) : Prop :=
  ∃ (lines : List (List Kind)) (n : Nat),
    (∀ l ∈ lines, Line l) ∧ ks = lines.flatten ++ List.replicate n .dedent ++ [.eof]

/-- What follows inside a line: content up to the line end, and what is laid out behind it. -/
def LineRest (ks : List Kind) : Prop :=
  ∃ c rest, (∀ k ∈ c, k.isStructural = false) ∧ LaidOut rest ∧ ks = c ++ .newline :: rest

/-- What follows a token of the given kind. -/
inductive Follows : Kind → List Kind → Prop
  | newline {ks : List Kind} (h : LaidOut ks) : Follows .newline ks
  | indent {k : Kind} {ks : List Kind} (hk : k.isStructural = false) (h : LineRest ks) : Follows .indent (k :: ks)
  | dedents (n : Nat) {k : Kind} {ks : List Kind} (hk : k.isStructural = false) (h : LineRest ks) :
      Follows .dedent (List.replicate n .dedent ++ k :: ks)
  | lastDedents (n : Nat) : Follows .dedent (List.replicate n .dedent ++ [.eof])
  | content {a : Kind} {ks : List Kind} (ha : a.isStructural = false) (h : LineRest ks) : Follows a ks
  | eof : Follows .eof []

theorem LaidOut.cons {l ks : List Kind} (hl : Line l) (h : LaidOut ks) : LaidOut (l ++ ks) := by
  obtain ⟨lines, n, hlines, rfl⟩ := h
  refine ⟨l :: lines, n, ?_, by simp⟩
  intro l' hl'
  rcases List.mem_cons.1 hl' with rfl | hl'
  · exact hl
  · exact hlines l' hl'

theorem laidOut_dedents (n : Nat) : LaidOut (List.replicate n .dedent ++ [.eof]) := ⟨[], n, nofun, rfl⟩

section
variable {k : Kind} {ks : List Kind}

theorem LineRest.cons (hk : k.isStructural = false) (h : LineRest ks) : LineRest (k :: ks) := by
  obtain ⟨c, rest, hc, hrest, rfl⟩ := h
  exact ⟨k :: c, rest, List.forall_mem_cons.2 ⟨hk, hc⟩, hrest, rfl⟩

theorem LineRest.indented (hk : k.isStructural = false) (h : LineRest ks) : LaidOut (.indent :: k :: ks) := by
  obtain ⟨c, rest, hc, hrest, rfl⟩ := h
  have hl : Line (.indent :: (k :: c) ++ [.newline]) :=
    .indented (List.cons_ne_nil k c) (List.forall_mem_cons.2 ⟨hk, hc⟩)
  simpa using hrest.cons hl

theorem LineRest.dedented (n : Nat) (hk : k.isStructural = false) (h : LineRest ks) :
    LaidOut (List.replicate n .dedent ++ k :: ks) := by
  obtain ⟨c, rest, hc, hrest, rfl⟩ := h
  have hl : Line (List.replicate n .dedent ++ (k :: c) ++ [.newline]) :=
    .dedented n (List.cons_ne_nil k c) (List.forall_mem_cons.2 ⟨hk, hc⟩)
  simpa using hrest.cons hl

end

/-- A kind of the layout is one of the four that scans produce. -/
def Known (k : Kind) : Prop :=
  k.isStructural = true → k = .newline ∨ k = .indent ∨ k = .dedent ∨ k = .eof

theorem Known.cases {a : Kind} (h : Known a) :
    a = .newline ∨ a = .indent ∨ a = .dedent ∨ a = .eof ∨ a.isStructural = false := by
  cases hs : a.isStructural with
  | true => simpa using h hs
  | false => simp

theorem leadsTo_newline {a : Kind} (ha : Known a) (h : a.leadsTo .newline = true) : a.isStructural = false := by
  rcases ha.cases with rfl | rfl | rfl | rfl | ha
  · cases h
  · cases h
  · cases h
  · cases h
  · exact ha

theorem leadsTo_indent {a : Kind} (h : a.leadsTo .indent = true) : a = .newline := by
  cases a <;> simp_all [leadsTo, isStructural]

theorem leadsTo_dedent {a : Kind} (h : a.leadsTo .dedent = true) : a = .newline ∨ a = .dedent := by
  cases a <;> simp_all [leadsTo, isStructural]

theorem leadsTo_eof {a : Kind} (h : a.leadsTo .eof = true) : a = .newline ∨ a = .dedent := by
  cases a <;> simp_all [leadsTo, isStructural]

/-- Kinds that lead to the end of the source are laid out. The induction is on the rest of them, from the back:
each kind puts itself before what follows it. -/
theorem follows_of_leads {a : Kind} {ks : List Kind} (h : Leads a ks .eof) (ha : Known a)
    (hks : ∀ k ∈ ks, Known k) : Follows a ks := by
  generalize hb : Kind.eof = b at h
  induction h with
  | nil a =>
    subst hb
    exact .eof
  | @cons a k b ks hlead _ ih =>
    have hfollows := ih (hks k List.mem_cons_self) (fun k' hk' => hks k' (List.mem_cons_of_mem k hk')) hb
    cases hfollows with
    | newline hlaid => exact .content (leadsTo_newline ha hlead) ⟨[], ks, nofun, hlaid, rfl⟩
    | indent hk hrest =>
      obtain rfl := leadsTo_indent hlead
      exact .newline (hrest.indented hk)
    | dedents n hk hrest =>
      rcases leadsTo_dedent hlead with rfl | rfl
      · exact .newline (hrest.dedented (n + 1) hk)
      · exact .dedents (n + 1) hk hrest
    | lastDedents n =>
      rcases leadsTo_dedent hlead with rfl | rfl
      · exact .newline (laidOut_dedents (n + 1))
      · exact .lastDedents (n + 1)
    | content hk hrest =>
      rcases ha.cases with rfl | rfl | rfl | rfl | ha
      · exact .newline (hrest.dedented 0 hk)
      · exact .indent hk hrest
      · exact .dedents 0 hk hrest
      · cases hlead
      · exact .content ha (hrest.cons hk)
    | eof =>
      rcases leadsTo_eof hlead with rfl | rfl
      · exact .newline (laidOut_dedents 0)
      · exact .lastDedents 0

theorem laidOut_of_leads {ks : List Kind} (h : Leads .newline ks .eof) (hks : ∀ k ∈ ks, Known k) : LaidOut ks := by
  cases follows_of_leads h (fun _ => .inl rfl) hks with
  | newline hlaid => exact hlaid
  | content hk _ => cases hk

theorem Line.eof_not_mem {l : List Kind} (h : Line l) : .eof ∉ l := by
  have hcontent {ks : List Kind} (hc : ∀ k ∈ ks, k.isStructural = false) : .eof ∉ ks := by
    intro hmem
    cases hc _ hmem
  cases h with
  | indented _ hc => simp [hcontent hc]
  | dedented n _ hc => simp [hcontent hc]

/-- The end of the source comes once. -/
theorem LaidOut.count_eof {ks : List Kind} (h : LaidOut ks) : ks.count .eof = 1 := by
  obtain ⟨lines, n, hlines, rfl⟩ := h
  have hnone : .eof ∉ lines.flatten := by
    rw [List.mem_flatten]
    rintro ⟨l, hl, hmem⟩
    exact (hlines l hl).eof_not_mem hmem
  simp [List.count_append, List.count_eq_zero.2 hnone, List.count_replicate]

/-! ## Nesting -/

/-- From a number of open blocks the indents and dedents lead to another; none closes a block that is not open. -/
inductive Nests : Nat → List Kind → Nat → Prop
  | nil (d : Nat) : Nests d [] d
  | indent {d d' : Nat} {ks : List Kind} (h : Nests (d + 1) ks d') : Nests d (.indent :: ks) d'
  | dedent {d d' : Nat} {ks : List Kind} (h : Nests d ks d') : Nests (d + 1) (.dedent :: ks) d'
  | other {d d' : Nat} {k : Kind} {ks : List Kind} (hi : k ≠ .indent) (hd : k ≠ .dedent) (h : Nests d ks d') :
      Nests d (k :: ks) d'

section
variable {d d' : Nat} {ks : List Kind}

theorem Nests.append {d'' : Nat} {ls : List Kind} (h : Nests d ks d') (h' : Nests d' ls d'') :
    Nests d (ks ++ ls) d'' := by
  induction h with
  | nil => exact h'
  | indent _ ih => exact .indent (ih h')
  | dedent _ ih => exact .dedent (ih h')
  | other hi hd _ ih => exact .other hi hd (ih h')

theorem Nests.of_append {ls : List Kind} (h : Nests d (ks ++ ls) d') : ∃ d'', Nests d ks d'' := by
  induction ks generalizing d with
  | nil => exact ⟨d, .nil d⟩
  | cons k ks ih =>
    cases h with
    | indent h =>
      obtain ⟨d'', h⟩ := ih h
      exact ⟨d'', .indent h⟩
    | dedent h =>
      obtain ⟨d'', h⟩ := ih h
      exact ⟨d'', .dedent h⟩
    | other hi hd h =>
      obtain ⟨d'', h⟩ := ih h
      exact ⟨d'', .other hi hd h⟩

/-- Every block that was open or has been opened is open still or has been closed. -/
theorem Nests.count (h : Nests d ks d') : d + ks.count .indent = d' + ks.count .dedent := by
  induction h with
  | nil => simp
  | indent _ ih =>
    simp
    omega
  | dedent _ ih =>
    simp
    omega
  | other hi hd _ ih => simpa [List.count_cons_of_ne hi, List.count_cons_of_ne hd] using ih

theorem nests_single {k : Kind} (hi : k ≠ .indent) (hd : k ≠ .dedent) : Nests d [k] d := .other hi hd (.nil d)

theorem nests_dedents (n d : Nat) : Nests (d + n) (List.replicate n .dedent) d := by
  induction n with
  | zero => exact .nil d
  | succ n ih => exact .dedent ih

end

end Token.Kind

namespace Layout

theorem length_unwind {width : Int} {ws left : List Int} {n : Nat} (h : unwind width ws = some (left, n)) :
    ws.length = left.length + n := by
  induction ws generalizing left n with
  | nil =>
    simp only [unwind] at h
    split at h
    · cases h
    · cases h
      rfl
  | cons w ws ih =>
    simp only [unwind] at h
    split at h
    · obtain ⟨⟨left', n'⟩, hunwind, heq⟩ := Option.map_eq_some_iff.1 h
      have hlength := ih hunwind
      cases heq
      rw [List.length_cons, hlength, Nat.add_assoc]
    · cases h
      rfl

/-- What a line can do: it stays in its block, opens one or closes some. It touches no bracket. -/
theorem measure_cases {l : Layout} {width : Int} {m : Measured} (h : l.measure width = some m) :
    m.layout.brackets = l.brackets ∧
      (m.kinds = [.indent] ∧ m.layout.depth = l.depth + 1 ∨
        ∃ n, m.kinds = List.replicate n .dedent ∧ l.depth = m.layout.depth + n) := by
  unfold measure at h
  split at h
  · cases h
    exact ⟨rfl, .inr ⟨0, rfl, rfl⟩⟩
  · split at h
    · cases h
      exact ⟨rfl, .inl ⟨rfl, rfl⟩⟩
    · obtain ⟨⟨left, n⟩, hunwind, rfl⟩ := Option.map_eq_some_iff.1 h
      exact ⟨rfl, .inr ⟨n, rfl, length_unwind hunwind⟩⟩

theorem measure_nests {l : Layout} {width : Int} {m : Measured} (h : l.measure width = some m) :
    Token.Kind.Nests l.depth m.kinds m.layout.depth := by
  rcases (measure_cases h).2 with ⟨hkinds, hdepth⟩ | ⟨n, hkinds, hdepth⟩
  · rw [hkinds, hdepth]
    exact .indent (.nil _)
  · rw [hkinds, hdepth]
    exact Token.Kind.nests_dedents n m.layout.depth

theorem measure_known {l : Layout} {width : Int} {m : Measured} (h : l.measure width = some m) :
    ∀ k ∈ m.kinds, k.Known := by
  rcases (measure_cases h).2 with ⟨hkinds, -⟩ | ⟨n, hkinds, -⟩
  · simp [hkinds, Token.Kind.Known]
  · simp [hkinds, Token.Kind.Known]

end Layout

/-! ## Brackets -/

namespace Token

/-- The kinds of the layout but the end of the source. -/
def Kind.isLayout (k : Kind) : Bool := k == .newline || k == .indent || k == .dedent

/-- How many brackets are open behind a token. A stray closing bracket closes none. -/
def bracketDepth (depth : Nat) (t : Token) : Nat :=
  match t.subtype with
  | .bracket b => if b.isOpening then depth + 1 else depth - 1
  | _ => depth

/-- No token of the layout stands inside brackets, of which `depth` are open at the start. -/
def Flat : (depth : Nat) → List Token → Prop
  | _, [] => True
  | depth, t :: ts => (t.kind.isLayout = true → depth = 0) ∧ Flat (t.bracketDepth depth) ts

section
variable {depth : Nat} {ts us : List Token}

theorem Flat.append (h : Flat depth ts) (h' : Flat (ts.foldl bracketDepth depth) us) : Flat depth (ts ++ us) := by
  induction ts generalizing depth with
  | nil => exact h'
  | cons t ts ih => exact ⟨h.1, ih h.2 h'⟩

theorem Flat.depth_eq_zero {t : Token} (h : Flat depth (ts ++ t :: us)) (ht : t.kind.isLayout = true) :
    ts.foldl bracketDepth depth = 0 := by
  induction ts generalizing depth with
  | nil => exact h.1 ht
  | cons u ts ih => exact ih h.2

/-- Outside brackets any tokens that are no brackets may stand, and leave it at that. -/
theorem flat_of_plain (h : ∀ t ∈ ts, t.subtype = .plain) : Flat 0 ts ∧ ts.foldl bracketDepth 0 = 0 := by
  induction ts with
  | nil => exact ⟨trivial, rfl⟩
  | cons t ts ih =>
    have ht : t.bracketDepth 0 = 0 := by simp [bracketDepth, h t List.mem_cons_self]
    obtain ⟨hflat, hdepth⟩ := ih fun u hu => h u (List.mem_cons_of_mem t hu)
    refine ⟨⟨fun _ => rfl, ?_⟩, ?_⟩
    · rw [ht]
      exact hflat
    · rw [List.foldl_cons, ht]
      exact hdepth

end

end Token

namespace Scanner

open Token Token.Kind

theorem brackets_bracketed (l : Layout) (t : Token) :
    (bracketed l t.subtype).brackets = t.bracketDepth l.brackets := by
  unfold bracketed bracketDepth
  cases t.subtype with
  | bracket b => cases hb : b.isOpening <;> simp [hb, Layout.openBracket, Layout.closeBracket]
  | _ => rfl

theorem depth_bracketed (l : Layout) (sub : Token.Subtype) : (bracketed l sub).depth = l.depth := by
  unfold bracketed
  split
  · split <;> rfl
  · rfl

theorem brackets_eq_zero {l : Layout} (h : l.joined = false) : l.brackets = 0 := by
  simpa [Layout.joined] using h

/-- The kinds of tokens. -/
def kindsOf (ts : List Token) : List Kind := ts.map Token.kind

/-! ## What a step yields -/

/-- A step before the end of the source, by the tokens that it yields. A step that fails yields none, or those that
its line begins with. -/
inductive Advances (s : Scanner) (st : Step) : Prop
  /-- None. -/
  | silent (ht : st.tokens = []) (hl : st.scanner.layout = s.layout)
  /-- Those that a line begins with. -/
  | lineStart {width : Int} {m : Layout.Measured} {place : Scanner} (hj : s.layout.joined = false)
      (hm : s.layout.measure width = some m) (ht : st.tokens = m.kinds.map fun kind => place.token kind)
      (hl : st.scanner.layout = m.layout)
  /-- The end of a line. -/
  | lineEnd {place : Scanner} {literal : Text} (hj : s.layout.joined = false)
      (ht : st.tokens = [place.token .newline .plain literal]) (hl : st.scanner.layout = s.layout)
  /-- A content token. -/
  | content {t : Token} (hk : t.kind.isStructural = false) (hr : Lexeme.Read t) (ht : st.tokens = [t])
      (hl : st.scanner.layout = bracketed s.layout t.subtype)

/-- A step advances, or the source has ended. -/
theorem advances_step {s : Scanner} (hd : s.done = false) :
    Advances s s.step ∧ s.step.scanner.done = false ∨ s.pastBlank.rest = [] ∧ s.step = s.pastBlank.finish := by
  generalize hst : s.step = st
  have ht : Takes s st := hst ▸ takes_step s
  cases ht with
  | blankEnd hs hr => exact .inl ⟨.silent rfl rfl, hd⟩
  | commentLine hs hr =>
    refine .inl ⟨.silent rfl ?_, ?_⟩
    · dsimp only
      split <;> rfl
    · dsimp only
      split <;> exact hd
  | blankLine hs hr hb => exact .inl ⟨.silent rfl rfl, hd⟩
  | enter hs hr hb hc =>
    have hj : s.layout.joined = false := by
      simp only [startsLine, Bool.and_eq_true, Bool.not_eq_true'] at hs
      exact hs.2
    rcases enterLine_cases s.pastBlank (Layout.width s.tabWidth (s.rest.takeWhile Lexeme.isBlank)) with
      ⟨-, he⟩ | ⟨m, hm, hscanner, htokens, -⟩
    · rw [he]
      exact .inl ⟨.silent rfl rfl, hd⟩
    · exact .inl ⟨.lineStart hj hm htokens (by rw [hscanner]), by rw [hscanner]; exact hd⟩
  | finish hs hr => exact .inr ⟨hr, rfl⟩
  | endLine hs hr hb =>
    unfold endLine
    split
    · exact .inl ⟨.silent rfl rfl, hd⟩
    · next hj =>
      have hj' : s.layout.joined = false := Bool.eq_false_iff.2 hj
      exact .inl ⟨.lineEnd hj' rfl rfl, hd⟩
  | comment hs hr => exact .inl ⟨.silent rfl rfl, hd⟩
  | content hs hr hb hc =>
    unfold content
    split
    · next x hx =>
      have hcontent : x.kind.isStructural = false := by simpa [Lexeme.isContent] using (Lexeme.first_ok hx).2
      exact .inl ⟨.content hcontent ⟨_, _, x, hx, rfl, rfl, rfl⟩ rfl rfl, hd⟩
    · exact .inl ⟨.silent rfl rfl, hd⟩
    · exact .inl ⟨.silent rfl rfl, hd⟩

section
variable {s : Scanner} {st : Step}

theorem Advances.known (h : Advances s st) : ∀ k ∈ kindsOf st.tokens, k.Known := by
  cases h with
  | silent ht _ => simp [kindsOf, ht]
  | lineStart _ hm ht _ => simpa [kindsOf, ht, token] using Layout.measure_known hm
  | lineEnd _ ht _ => simp [kindsOf, ht, token, Known]
  | content hk _ ht _ => simp [kindsOf, ht, Known, hk]

theorem Advances.nests (h : Advances s st) : Nests s.layout.depth (kindsOf st.tokens) st.scanner.layout.depth := by
  cases h with
  | silent ht hl =>
    rw [ht, hl]
    exact .nil _
  | lineStart _ hm ht hl =>
    rw [ht, hl]
    simpa [kindsOf, Function.comp_def, token] using Layout.measure_nests hm
  | lineEnd _ ht hl =>
    rw [ht, hl]
    exact nests_single Kind.noConfusion Kind.noConfusion
  | @content t hk _ ht hl =>
    have hkind {k : Kind} (h : k.isStructural = true) : t.kind ≠ k := by
      intro heq
      rw [heq, h] at hk
      cases hk
    rw [ht, hl, depth_bracketed]
    exact nests_single (hkind rfl) (hkind rfl)

/-- Content is read from the source. -/
theorem Advances.read (h : Advances s st) : ∀ t ∈ st.tokens, t.kind.isStructural = false → Lexeme.Read t := by
  intro t ht hk
  cases h with
  | silent htokens _ =>
    rw [htokens] at ht
    cases ht
  | lineStart _ hm htokens _ =>
    rw [htokens] at ht
    obtain ⟨k, hmem, rfl⟩ := List.mem_map.1 ht
    rcases (Layout.measure_cases hm).2 with ⟨hkinds, -⟩ | ⟨n, hkinds, -⟩
    · rw [hkinds] at hmem
      cases List.mem_singleton.1 hmem
      cases hk
    · rw [hkinds] at hmem
      cases List.eq_of_mem_replicate hmem
      cases hk
  | lineEnd _ htokens _ =>
    rw [htokens] at ht
    cases List.mem_singleton.1 ht
    cases hk
  | content _ hr htokens _ =>
    rw [htokens] at ht
    cases List.mem_singleton.1 ht
    exact hr

/-- The layout counts the open brackets, and its tokens come where there are none. -/
theorem Advances.flat (h : Advances s st) :
    Flat s.layout.brackets st.tokens ∧
      st.tokens.foldl bracketDepth s.layout.brackets = st.scanner.layout.brackets := by
  cases h with
  | silent ht hl =>
    rw [ht, hl]
    exact ⟨trivial, rfl⟩
  | lineStart hj hm ht hl =>
    rw [hl, (Layout.measure_cases hm).1, brackets_eq_zero hj]
    exact flat_of_plain (by simp [ht, token])
  | lineEnd hj ht hl =>
    rw [hl, brackets_eq_zero hj]
    exact flat_of_plain (by simp [ht, token])
  | @content t hk _ ht hl =>
    have hlayout : t.kind.isLayout = false := by
      cases hkind : t.kind <;> simp_all [Kind.isLayout, isStructural]
    rw [ht, hl, brackets_bracketed]
    exact ⟨⟨by simp [hlayout], trivial⟩, rfl⟩

end

/-! ## What a run yields -/

/-- Steps that follow one another. -/
inductive Path : Scanner → List Step → Scanner → Prop
  | nil (s : Scanner) : Path s [] s
  | cons {s s' : Scanner} {st : Step} {sts : List Step} (h : Advances s st) (hrest : Path st.scanner sts s') :
      Path s (st :: sts) s'

/-- The tokens of steps. -/
def tokensOf (sts : List Step) : List Token := sts.flatMap Step.tokens

section
variable {s s' : Scanner} {sts : List Step}

theorem Path.known (h : Path s sts s') : ∀ k ∈ kindsOf (tokensOf sts), k.Known := by
  induction h with
  | nil => simp [tokensOf, kindsOf]
  | @cons _ _ st sts h _ ih =>
    have hkinds : kindsOf (tokensOf (st :: sts)) = kindsOf st.tokens ++ kindsOf (tokensOf sts) := by
      simp [tokensOf, kindsOf]
    rw [hkinds]
    exact List.forall_mem_append.2 ⟨h.known, ih⟩

theorem Path.nests (h : Path s sts s') : Nests s.layout.depth (kindsOf (tokensOf sts)) s'.layout.depth := by
  induction h with
  | nil => exact .nil _
  | cons h _ ih => simpa [tokensOf, kindsOf] using h.nests.append ih

theorem Path.flat (h : Path s sts s') : Flat s.layout.brackets (tokensOf sts) := by
  induction h with
  | nil => trivial
  | cons h _ ih =>
    obtain ⟨hflat, hdepth⟩ := h.flat
    exact hflat.append (hdepth ▸ ih)

end

/-- A run that does not fail advances to the end of the source and finishes there. -/
theorem run_path {s : Scanner} (hd : s.done = false) (hh : s.run.halt = none) :
    ∃ sts s', Path s sts s' ∧ s'.pastBlank.rest = [] ∧ s.run.steps = sts ++ [s'.pastBlank.finish] ∧
      s.run.tokens = tokensOf sts ++ s'.pastBlank.finish.tokens := by
  induction s using run_induction with
  | done s hdone => simp [hd] at hdone
  | halt s r _ hstep => simp [run_halt hd hstep] at hh
  | step s _ hstep ih =>
    rw [run_step hd hstep] at hh ⊢
    rcases advances_step hd with ⟨hadvances, hd'⟩ | ⟨hr, hfinish⟩
    · obtain ⟨sts, s', hpath, hr, hsteps, htokens⟩ := ih hd' hh
      refine ⟨s.step :: sts, s', .cons hadvances hpath, hr, ?_, ?_⟩
      · simp [hsteps]
      · simp [htokens, tokensOf]
    · refine ⟨[], s, .nil s, hr, ?_, ?_⟩
      · simp [hfinish, run_done, finish]
      · simp [hfinish, run_done, finish, tokensOf]

theorem kindsOf_finish (s : Scanner) :
    kindsOf s.finish.tokens =
      (if s.lineContent then [.newline] else []) ++ List.replicate s.layout.depth .dedent ++ [.eof] := by
  simp only [kindsOf, finish, token]
  split <;> simp

theorem finish_known (s : Scanner) : ∀ k ∈ kindsOf s.finish.tokens, k.Known := by
  intro k hk _
  simp only [kindsOf_finish, List.mem_append, List.mem_replicate, List.mem_singleton] at hk
  rcases hk with (hk | ⟨-, rfl⟩) | rfl
  · split at hk
    · exact .inl (List.mem_singleton.1 hk)
    · cases hk
  · exact .inr (.inr (.inl rfl))
  · exact .inr (.inr (.inr rfl))

/-- The end of the source closes the open blocks. -/
theorem finish_nests (s : Scanner) : Nests s.layout.depth (kindsOf s.finish.tokens) 0 := by
  rw [kindsOf_finish]
  have hline : Nests s.layout.depth (if s.lineContent then [.newline] else []) s.layout.depth := by
    split
    · exact nests_single Kind.noConfusion Kind.noConfusion
    · exact .nil _
  have hblocks : Nests s.layout.depth (List.replicate s.layout.depth .dedent) 0 := by
    simpa using nests_dedents s.layout.depth 0
  exact (hline.append hblocks).append (nests_single Kind.noConfusion Kind.noConfusion)

/-- The tokens of every run nest, those of a failed one as well. At the end of the source no block is open. -/
theorem run_nests (s : Scanner) : ∃ d, Nests s.layout.depth (kindsOf s.run.tokens) d ∧
    (s.done = false → s.run.halt = none → d = 0) := by
  induction s using run_induction with
  | done s hd =>
    rw [run_done hd]
    exact ⟨_, .nil _, by simp [hd]⟩
  | halt s r hd hr =>
    rw [run_halt hd hr]
    exact ⟨_, .nil _, nofun⟩
  | step s hd hh ih =>
    obtain ⟨d, hrest, hend⟩ := ih
    rw [run_step hd hh, kindsOf, List.map_append]
    rcases advances_step hd with ⟨hadvances, hd'⟩ | ⟨-, hfinish⟩
    · exact ⟨d, hadvances.nests.append hrest, fun _ => hend hd'⟩
    · have hdone : s.step.scanner.done = true := by rw [hfinish]; rfl
      rw [run_done hdone, hfinish, List.map_nil, List.append_nil]
      exact ⟨0, finish_nests s.pastBlank, fun _ _ => rfl⟩

theorem finish_structural (s : Scanner) : ∀ t ∈ s.finish.tokens, t.kind.isStructural = true := by
  intro t ht
  have hk : t.kind ∈ kindsOf s.finish.tokens := List.mem_map_of_mem ht
  simp only [kindsOf_finish, List.mem_append, List.mem_replicate, List.mem_singleton] at hk
  rcases hk with (hk | ⟨-, hk⟩) | hk
  · split at hk
    · rw [List.mem_singleton.1 hk]
      rfl
    · cases hk
  · rw [hk]
    rfl
  · rw [hk]
    rfl

/-- The content of every run is read from the source. -/
theorem run_read (s : Scanner) : ∀ t ∈ s.run.tokens, t.kind.isStructural = false → Lexeme.Read t := by
  induction s using run_induction with
  | done s hd => simp [run_done hd]
  | halt s r hd hr => simp [run_halt hd hr]
  | step s hd hh ih =>
    rw [run_step hd hh]
    refine List.forall_mem_append.2 ⟨?_, ih⟩
    rcases advances_step hd with ⟨hadvances, -⟩ | ⟨-, hfinish⟩
    · exact hadvances.read
    · intro t ht hk
      rw [hfinish] at ht
      rw [finish_structural _ t ht] at hk
      cases hk

/-- The tokens of a source that can be read are laid out. Its indents and dedents nest, and the end comes once.
Up to the last step, which is taken at the end of the source, every token of the layout stands outside
brackets. -/
theorem tokenize_layout {source : Text} {tabWidth : Int} (h : (tokenize source tabWidth).halt = none) :
    let run := tokenize source tabWidth
    let ks := kindsOf run.tokens
    LaidOut ks ∧
    (∀ p, p <+: ks → p.count .dedent ≤ p.count .indent) ∧ ks.count .indent = ks.count .dedent ∧
    ks.count .eof = 1 ∧
    ∃ (sts : List Step) (last : Scanner), last.rest = [] ∧ run.steps = sts ++ [last.finish] ∧
      run.tokens = tokensOf sts ++ last.finish.tokens ∧
      ∀ before t after, tokensOf sts = before ++ t :: after → t.kind.isLayout = true →
        before.foldl bracketDepth 0 = 0 := by
  intro run ks
  obtain ⟨sts, s, hpath, hr, hsteps, htokens⟩ := run_path (s := ofSource source tabWidth) rfl h
  have hks : ks = kindsOf (tokensOf sts) ++ kindsOf s.pastBlank.finish.tokens := by
    change kindsOf (ofSource source tabWidth).run.tokens = _
    rw [htokens]
    exact List.map_append
  have hknown : ∀ k ∈ ks, k.Known := by
    rw [hks]
    exact List.forall_mem_append.2 ⟨hpath.known, finish_known _⟩
  have hnests : Nests 0 ks 0 := by
    rw [hks]
    exact hpath.nests.append (finish_nests s.pastBlank)
  -- The order of the kinds is known from `run_leads`; that each is known rules out all that is no token of a scan.
  have hlaid : LaidOut ks := by
    obtain ⟨k, hleads, hend⟩ := run_leads (Stands.ofSource source tabWidth)
    obtain rfl := hend.2 h
    exact laidOut_of_leads hleads hknown
  have hnested : ∀ p, p <+: ks → p.count .dedent ≤ p.count .indent := by
    rintro p ⟨q, hq⟩
    obtain ⟨d, hp⟩ := Nests.of_append (hq ▸ hnests)
    have hcount := hp.count
    omega
  have hclosed : ks.count .indent = ks.count .dedent := by
    have hcount := hnests.count
    omega
  refine ⟨hlaid, hnested, hclosed, hlaid.count_eof, sts, s.pastBlank, hr, hsteps, htokens, ?_⟩
  intro before t after hsplit ht
  have hflat : Flat 0 (tokensOf sts) := hpath.flat
  rw [hsplit] at hflat
  exact hflat.depth_eq_zero ht

/-- Brackets that join lines, and one that is open where the source ends. -/
theorem tokenize_layout_joined :
    let run := tokenize "if a:\n  f(1,\n2)\n\n  ]\nb(" 4
    run.halt = none ∧ LaidOut (kindsOf run.tokens) ∧
      (kindsOf run.tokens).count .indent = (kindsOf run.tokens).count .dedent := by
  intro run
  have h : run.halt = none := by decide +kernel
  obtain ⟨hlaid, -, hclosed, -⟩ := tokenize_layout h
  exact ⟨h, hlaid, hclosed⟩

end Scanner

end Offside
