import Offside.Proofs.Lexer.Widths

/-!
# Calls behind failures

A lexer can be called again when a call has failed: behind a string without an end it goes on at the end of the line,
at a character that begins no token it fails again, and at a line that fits no block it first hands out the dedents of
the blocks that the line has closed. Whatever the calls, the tokens that were taken and those that wait are the ones
that the scan has produced, and they account for the open blocks (`Balanced`). Main statement: `calls_consistent`.
-/

namespace Offside

namespace Layout

/-- The widths of the levels, from the top level, of width 0, to the innermost block. -/
def stack (l : Layout) : List Int := 0 :: l.blocks.reverse

theorem Rising.stack {l : Layout} (h : l.Rising) : l.stack.Pairwise (· < ·) := by
  refine List.pairwise_cons.2 ⟨fun w hw => ?_, List.pairwise_reverse.2 h.sorted⟩
  exact (h.bounded w (List.mem_reverse.1 hw)).1

end Layout

namespace Scanner

open Token Token.Kind

theorem effectiveTabWidth_pos (asked : Option Int) : 0 < effectiveTabWidth asked := by
  unfold effectiveTabWidth
  split
  · split
    · assumption
    · decide
  · decide

section
variable {s : Scanner} {st : Step}

/-- The tokens of a step, failed or not, open and close the blocks. -/
theorem step_nests (hd : s.done = false) :
    Nests s.layout.depth (kindsOf s.step.tokens) s.step.scanner.layout.depth := by
  rcases advances_step hd with ⟨hadvances, -⟩ | ⟨-, hfinish⟩
  · exact hadvances.nests
  · rw [hfinish]
    exact finish_nests s.pastBlank

/-- Before the end of the source no token says that it has ended. -/
theorem Advances.ne_eof (h : Advances s st) : ∀ t ∈ st.tokens, t.kind ≠ .eof := by
  intro t ht
  cases h with
  | silent htokens _ =>
    rw [htokens] at ht
    cases ht
  | lineStart _ hm htokens _ =>
    rw [htokens] at ht
    obtain ⟨k, hk, rfl⟩ := List.mem_map.1 ht
    rcases (Layout.measure_cases hm).2 with ⟨hkinds, -⟩ | ⟨n, hkinds, -⟩
    · rw [hkinds] at hk
      cases List.mem_singleton.1 hk
      exact Kind.noConfusion
    · rw [hkinds] at hk
      cases List.eq_of_mem_replicate hk
      exact Kind.noConfusion
  | lineEnd _ htokens _ =>
    rw [htokens] at ht
    cases List.mem_singleton.1 ht
    exact Kind.noConfusion
  | content hk _ htokens _ =>
    rw [htokens] at ht
    cases List.mem_singleton.1 ht
    intro heof
    rw [heof] at hk
    cases hk

theorem finish_tokens (s : Scanner) : ∃ ts, s.finish.tokens = ts ++ [s.token .eof] ∧ ∀ t ∈ ts, t.kind ≠ .eof := by
  refine ⟨_, rfl, fun t ht => ?_⟩
  rcases List.mem_append.1 ht with ht | ht
  · split at ht
    · cases List.mem_singleton.1 ht
      exact Kind.noConfusion
    · cases ht
  · cases List.eq_of_mem_replicate ht
    exact Kind.noConfusion

end

end Scanner

namespace Lexer

open Scanner Token Token.Kind

/-- The tokens that the scan has produced. -/
def emitted (l : Lexer) : List Token := l.events.filterMap Event.token?

/-! ## What is taken and what waits -/

/-- The tokens that were taken from a lexer, with those that wait in it, nest as the blocks of its layout. They are the
tokens that its scan has produced, and behind the end of the source that token once more for each call. -/
structure Balanced (taken : List Token) (l : Lexer) : Prop where
  nests : Nests 0 (kindsOf (taken ++ l.queue)) l.scanner.layout.depth
  going : l.scanner.done = false → taken ++ l.queue = l.emitted ∧ ∀ t ∈ l.emitted, t.kind ≠ .eof
  ended : l.scanner.done = true → l.scanner.layout.depth = 0 ∧ ∃ ts k, l.emitted = ts ++ [l.scanner.token .eof] ∧
    taken ++ l.queue = l.emitted ++ List.replicate k (l.scanner.token .eof) ∧ ∀ t ∈ ts, t.kind ≠ .eof

theorem balanced_ofSource (source : Text) (tabWidth : Int) : Balanced [] (ofSource source tabWidth) where
  nests := .nil 0
  going := fun _ => ⟨rfl, List.forall_mem_nil _⟩
  ended := nofun

section
variable {l l' : Lexer} {taken : List Token}

theorem emitted_stepped (l : Lexer) : l.stepped.emitted = l.emitted ++ l.scanner.step.tokens := by
  rw [emitted, stepped, List.filterMap_append, step_events]
  rfl

/-- What a step of the scan keeps. -/
theorem Balanced.stepped (h : Balanced taken l) (hq : l.queue = []) (hd : l.scanner.done = false) :
    Balanced taken l.stepped := by
  obtain ⟨htaken, hnone⟩ := h.going hd
  have hparts : taken ++ l.stepped.queue = l.emitted ++ l.scanner.step.tokens := by
    rw [← htaken, hq, List.append_nil]
    simp [Lexer.stepped, hq]
  have hnests : Nests 0 (kindsOf (taken ++ l.stepped.queue)) l.stepped.scanner.layout.depth := by
    have hfirst := h.nests
    rw [htaken] at hfirst
    rw [hparts, kindsOf, List.map_append]
    exact hfirst.append (step_nests hd)
  rw [← emitted_stepped] at hparts
  rcases advances_step hd with ⟨hadvances, hd'⟩ | ⟨-, hfinish⟩
  · refine ⟨hnests, fun _ => ⟨hparts, ?_⟩, fun hdone => ?_⟩
    · rw [emitted_stepped]
      exact List.forall_mem_append.2 ⟨hnone, hadvances.ne_eof⟩
    · exact absurd hdone (Bool.eq_false_iff.1 hd')
  · have hdone : l.stepped.scanner.done = true := by
      simp only [Lexer.stepped, hfinish]
      rfl
    refine ⟨hnests, fun hd' => absurd hdone (Bool.eq_false_iff.1 hd'), fun _ => ⟨?_, ?_⟩⟩
    · simp only [Lexer.stepped, hfinish]
      rfl
    · obtain ⟨ts, htokens, hts⟩ := finish_tokens l.scanner.pastBlank
      refine ⟨l.emitted ++ ts, 0, ?_, by simpa using hparts, List.forall_mem_append.2 ⟨hnone, hts⟩⟩
      rw [emitted_stepped, hfinish, htokens, List.append_assoc]
      simp only [Lexer.stepped, hfinish]
      rfl

/-- What the end of the source keeps, when it is asked for again. -/
theorem Balanced.again (h : Balanced taken l) (hq : l.queue = []) (hd : l.scanner.done = true) :
    Balanced taken { l with queue := [l.scanner.token .eof] } := by
  obtain ⟨hdepth, ts, k, hemitted, hparts, hts⟩ := h.ended hd
  have hnests := h.nests
  rw [hq, List.append_nil] at hnests hparts
  refine ⟨?_, fun hd' => by simp [hd] at hd', fun _ => ⟨hdepth, ts, k + 1, hemitted, ?_, hts⟩⟩
  · rw [kindsOf, List.map_append]
    exact hnests.append (nests_single Kind.noConfusion Kind.noConfusion)
  · rw [hparts, List.replicate_succ', ← List.append_assoc]
    rfl

/-- What is kept when a token is handed out. -/
theorem Balanced.take (h : Balanced taken l) {t : Token} {queue : List Token} (hq : l.queue = t :: queue) :
    Balanced (taken ++ [t]) { l with queue } := by
  have hsame : taken ++ [t] ++ queue = taken ++ l.queue := by
    rw [hq, List.append_assoc]
    rfl
  obtain ⟨hnests, hgoing, hended⟩ := h
  rw [← hsame] at hnests hgoing hended
  exact ⟨hnests, hgoing, hended⟩

/-- What a lexer keeps as long as it works. -/
theorem Balanced.works {ts : List Token} (h : Balanced taken l) (hworks : Works l ts l') : Balanced (taken ++ ts) l' := by
  induction hworks generalizing taken with
  | refl => simpa using h
  | step hq hd _ ih => exact ih (h.stepped hq hd)
  | ended hq hd _ ih => exact ih (h.again hq hd)
  | take hq _ ih => simpa using ih (h.take hq)

/-! ## Behind the end of the source -/

/-- Nothing waits in the lexer but the end of the source, and the scan is over. -/
structure Ended (t : Token) (l : Lexer) : Prop where
  done : l.scanner.done = true
  token : t = l.scanner.token .eof
  queue : ∀ u ∈ l.queue, u = t

/-- A call behind the end of the source gives the end again. -/
theorem Ended.perform {t : Token} (h : Ended t l) (c : Call) : (l.perform c).1 = .ok t ∧ Ended t (l.perform c).2 := by
  obtain ⟨hdone, htoken, hqueue⟩ := h
  cases hq : l.queue with
  | nil =>
    have hensure : l.ensure = ({ l with queue := [t] }, none) := by simp [ensure, hq, hdone, htoken]
    cases c with
    | next =>
      simp only [Lexer.perform, next, hensure]
      exact ⟨trivial, hdone, htoken, List.forall_mem_nil _⟩
    | peek =>
      simp only [Lexer.perform, peek, hensure]
      exact ⟨trivial, hdone, htoken, by simp⟩
  | cons u queue =>
    have hensure : l.ensure = (l, none) := by simp [ensure, hq]
    rw [hq] at hqueue
    obtain ⟨rfl, hrest⟩ := List.forall_mem_cons.1 hqueue
    cases c with
    | next =>
      simp only [Lexer.perform, next, hensure, hq]
      exact ⟨trivial, hdone, htoken, hrest⟩
    | peek =>
      simp only [Lexer.perform, peek, hensure, hq]
      exact ⟨trivial, hdone, htoken, hq ▸ hqueue⟩

theorem Ended.outcomes {t : Token} (h : Ended t l) (calls : List Call) : ∀ r ∈ l.outcomes calls, r = .ok t := by
  induction calls generalizing l with
  | nil => exact List.forall_mem_nil _
  | cons c calls ih =>
    obtain ⟨hgives, hrest⟩ := h.perform c
    exact List.forall_mem_cons.2 ⟨hgives, ih hrest⟩

theorem Ended.count {t : Token} (h : Ended t l) {k : Kind} (hk : k ≠ .eof) : (kindsOf l.queue).count k = 0 := by
  refine List.count_eq_zero.2 fun hmem => hk ?_
  obtain ⟨u, hu, rfl⟩ := List.mem_map.1 hmem
  rw [h.queue u hu, h.token]
  rfl

/-- When the end of the source has been taken, nothing else waits, and every block that was opened is closed. -/
theorem Balanced.ended_of_mem (h : Balanced taken l) {t : Token} (ht : t ∈ taken) (hk : t.kind = .eof) :
    Ended t l ∧ (kindsOf taken).count .indent = (kindsOf taken).count .dedent := by
  cases hd : l.scanner.done with
  | false =>
    obtain ⟨htaken, hnone⟩ := h.going hd
    exact absurd hk (hnone t (htaken ▸ List.mem_append_left _ ht))
  | true =>
    obtain ⟨hdepth, ts, k, hemitted, hparts, hts⟩ := h.ended hd
    rw [hemitted, List.append_assoc, List.singleton_append, ← List.replicate_succ] at hparts
    -- the tokens before the end were all taken, as the end was
    obtain ⟨ends, rfl, hends⟩ : ∃ ends, taken = ts ++ ends ∧
        List.replicate (k + 1) (l.scanner.token .eof) = ends ++ l.queue := by
      rcases List.append_eq_append_iff.1 hparts with ⟨more, rfl, -⟩ | ⟨ends, hleft, hright⟩
      · exact absurd hk (hts t (List.mem_append_left _ ht))
      · exact ⟨ends, hleft, hright⟩
    have hsame : ∀ u ∈ ends ++ l.queue, u = l.scanner.token .eof := fun u hu =>
      List.eq_of_mem_replicate (hends ▸ hu)
    have htoken : t = l.scanner.token .eof := by
      rcases List.mem_append.1 ht with ht | ht
      · exact absurd hk (hts t ht)
      · exact hsame t (List.mem_append_left _ ht)
    have hended : Ended t l := ⟨hd, htoken, fun u hu => htoken ▸ hsame u (List.mem_append_right _ hu)⟩
    refine ⟨hended, ?_⟩
    have hcount := h.nests.count
    rw [hdepth, kindsOf, List.map_append, List.count_append, List.count_append] at hcount
    have hindent := hended.count (k := .indent) Kind.noConfusion
    have hdedent := hended.count (k := .dedent) Kind.noConfusion
    simp only [kindsOf] at hindent hdedent ⊢
    omega

/-! ## Behind a failure -/

/-- The tokens that wait are the next ones that are taken. -/
theorem Works.queue_taken {ts : List Token} (h : Works l ts l') : l.queue <+: ts ++ l'.queue := by
  induction h with
  | refl l => exact List.prefix_rfl
  | step hq _ _ _ =>
    rw [hq]
    exact List.nil_prefix
  | ended hq _ _ _ =>
    rw [hq]
    exact List.nil_prefix
  | take hq _ ih =>
    rw [hq]
    exact List.cons_prefix_cons.2 ⟨rfl, ih⟩

end

/-- No line of a source is too wide if 64 bits suffice for as many tabs as the source has bytes. -/
theorem Works.ne_crash {source : Text} {tabWidth : Int} {ts : List Token} {l : Lexer} (hpos : 0 < tabWidth)
    (hwidth : tabWidth * (source.length + 1) < 2 ^ 63) (h : Works (ofSource source tabWidth) ts l) (c : Call) :
    (l.perform c).1 ≠ .error .crash := by
  intro hcrash
  obtain ⟨line, width, ⟨before, rest, hplace, rfl⟩, hneg⟩ := h.crash hcrash
  have hlength : (rest.takeWhile Lexeme.isBlank).length ≤ source.length := by
    rw [hplace.parts, List.length_append]
    have hle := (List.takeWhile_prefix Lexeme.isBlank (l := rest)).length_le
    omega
  have hcolumn : Layout.column tabWidth (rest.takeWhile Lexeme.isBlank) < 2 ^ 63 := by
    have hle := Layout.column_le hpos (rest.takeWhile Lexeme.isBlank)
    have hmul : tabWidth * (rest.takeWhile Lexeme.isBlank).length ≤ tabWidth * (source.length + 1) :=
      Int.mul_le_mul_of_nonneg_left (by omega) (Int.le_of_lt hpos)
    omega
  have hnonneg := Layout.column_nonneg hpos (rest.takeWhile Lexeme.isBlank)
  rw [(Layout.width_eq_column_iff hpos _).2 hcolumn] at hneg
  omega

/-- A lexer behind any calls, failed ones among them. The widths of its levels rise from 0; the indents and dedents that
were taken or wait are as many as the open blocks account for, and these tokens are those that the scan has produced,
the end of the source repeated. Once that has been taken, indents and dedents are equal in number, and each further
call gives the end again, at the same place. A call that fails does not crash, takes no token, and is made only when
none waits; those that wait behind it are the next to be taken. -/
theorem calls_consistent {source : Text} {asked : Option Int}
    (hwidth : effectiveTabWidth asked * (source.length + 1) < 2 ^ 63) (calls : List Call) :
    let start := ofSource source (effectiveTabWidth asked)
    let l := start.after calls
    let taken := start.taken calls
    let ks := kindsOf (taken ++ l.queue)
    l.scanner.layout.stack.head? = some 0 ∧ l.scanner.layout.stack.Pairwise (· < ·) ∧
    ks.count .indent + 1 = ks.count .dedent + l.scanner.layout.stack.length ∧
    (∃ k, taken ++ l.queue = l.emitted ++ List.replicate k (l.scanner.token .eof)) ∧
    (∀ t ∈ taken, t.kind = .eof → (kindsOf taken).count .indent = (kindsOf taken).count .dedent ∧
      ∀ more, ∀ r ∈ l.outcomes more, r = .ok t) ∧
    ∀ c h, (l.perform c).1 = .error h → h ≠ .crash ∧ start.taken (calls ++ [c]) = taken ∧ l.queue = [] ∧
      ∀ more, (l.perform c).2.queue <+: (l.perform c).2.taken more ++ ((l.perform c).2.after more).queue := by
  intro start l taken ks
  have hworks := works_after start calls
  have hbalanced : Balanced taken l := (balanced_ofSource source (effectiveTabWidth asked)).works hworks
  refine ⟨rfl, hworks.sound.1.rising.stack, ?_, ?_, fun t ht hk => ?_, fun c h hfails => ?_⟩
  · have hcount : 0 + ks.count .indent = l.scanner.layout.depth + ks.count .dedent := hbalanced.nests.count
    have hlength : l.scanner.layout.stack.length = l.scanner.layout.depth + 1 := by
      simp [Layout.stack, Layout.depth]
    omega
  · cases hd : l.scanner.done with
    | false => exact ⟨0, by simpa using (hbalanced.going hd).1⟩
    | true =>
      obtain ⟨-, -, k, -, hparts, -⟩ := hbalanced.ended hd
      exact ⟨k, hparts⟩
  · obtain ⟨hended, hcount⟩ := hbalanced.ended_of_mem ht hk
    exact ⟨hcount, hended.outcomes⟩
  · refine ⟨?_, ?_, ((works_perform l c).2 h hfails).1, fun more => (works_after _ more).queue_taken⟩
    · rintro rfl
      exact hworks.ne_crash (effectiveTabWidth_pos asked) hwidth c hfails
    · have hnone : c.takes (.error h) = [] := by cases c <;> rfl
      rw [taken_append, Lexer.taken, hfails, hnone]
      exact List.append_nil _

/-- A line that fits no block: the call for its first token fails, and the dedent of the block that it has closed is
handed out behind the failure. -/
theorem calls_consistent_unindent :
    let l := (ofSource "if a:\n    b\n  c\n" (effectiveTabWidth none)).after (List.replicate 7 .next)
    let later := (l.perform .next).2
    effectiveTabWidth none * (("if a:\n    b\n  c\n" : Text).length + 1) < 2 ^ 63 ∧
    (l.perform .next).1 = .error (.report ((Diagnostic.indentationError
      "unindent does not match any outer indentation level" [] 3 3).withFact "width" (.int 2))) ∧
    kindsOf later.queue = [.dedent] ∧
    ∀ more, later.queue <+: later.taken more ++ (later.after more).queue := by
  intro l later
  have hwidth : effectiveTabWidth none * (("if a:\n    b\n  c\n" : Text).length + 1) < 2 ^ 63 := by decide +kernel
  have hfails : (l.perform .next).1 = .error (.report ((Diagnostic.indentationError
      "unindent does not match any outer indentation level" [] 3 3).withFact "width" (.int 2))) := by decide +kernel
  have hdedent : kindsOf later.queue = [.dedent] := by decide +kernel
  have hbehind := ((calls_consistent hwidth (List.replicate 7 .next)).2.2.2.2.2 .next _ hfails).2.2.2
  exact ⟨hwidth, hfails, hdedent, hbehind⟩

end Lexer

end Offside
