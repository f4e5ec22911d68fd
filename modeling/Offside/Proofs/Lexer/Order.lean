import Offside.Proofs.Lexer.Run

/-!
# The order of tokens

Which kinds of tokens follow one another. A line is a run of content tokens and a line end. It begins with
the tokens of the layout, one indent or some dedents, and the end of the source comes behind the last
dedents and nowhere else. Main statement: the tokens of a scan are in this order, and they lead to the end
of the source just when the scan does not fail (`run_leads`).
-/

namespace Offside

namespace Token.Kind

/-- Whether a token of the second kind may stand behind one of the first. The start of a source is like
the end of a line. -/
def leadsTo : Kind → Kind → Bool
  | .newline, k => k != .newline
  | .indent, k => !k.isStructural
  | .dedent, k => k != .newline && k != .indent
  | .eof, _ => false
  | _, k => !k.isStructural || k == .newline

/-- From a token of the first kind the kinds lead to the last. -/
inductive Leads : Kind → List Kind → Kind → Prop
  | nil (a : Kind) : Leads a [] a
  | cons {a k b : Kind} {ks : List Kind} (h : a.leadsTo k = true) (hrest : Leads k ks b) : Leads a (k :: ks) b

theorem Leads.append {a b c : Kind} {ks ls : List Kind} (h : Leads a ks b) (h' : Leads b ls c) :
    Leads a (ks ++ ls) c := by
  induction h with
  | nil => exact h'
  | cons hk _ ih => exact .cons hk (ih h')

theorem Leads.single {a b : Kind} (h : a.leadsTo b = true) : Leads a [b] b := .cons h (.nil b)

theorem leadsTo_content {a k : Kind} (hk : k.isStructural = false) (ha : a ≠ .eof) : a.leadsTo k = true := by
  cases k <;> cases a <;> simp_all [leadsTo, isStructural]

theorem content_leadsTo {a k : Kind} (ha : a.isStructural = false) (hk : k = .newline ∨ k.isStructural = false) :
    a.leadsTo k = true := by
  cases a <;> rcases hk with rfl | hk <;> simp_all [leadsTo, isStructural]

/-- Dedents, if there are any, stand behind the end of a line. -/
theorem leads_dedents (n : Nat) : Leads .newline (List.replicate n .dedent) (if n = 0 then .newline else .dedent) := by
  cases n with
  | zero => exact .nil _
  | succ n =>
    rw [if_neg (Nat.succ_ne_zero n)]
    refine .cons rfl ?_
    induction n with
    | zero => exact .nil _
    | succ n ih => exact .cons rfl ih

theorem leads_end (n : Nat) : Leads .newline (List.replicate n .dedent ++ [.eof]) .eof := by
  refine (leads_dedents n).append (.single ?_)
  split <;> rfl

end Token.Kind

namespace Layout

/-- A line begins with one indent or with some dedents. -/
theorem measure_leads {l : Layout} {width : Int} {m : Measured} (h : l.measure width = some m) :
    ∃ k, Token.Kind.Leads .newline m.kinds k ∧ k ≠ .eof := by
  unfold measure at h
  split at h
  · cases h
    exact ⟨_, .nil _, by decide⟩
  · split at h
    · cases h
      exact ⟨.indent, .single rfl, by decide⟩
    · simp only [Option.map_eq_some_iff] at h
      obtain ⟨⟨left, n⟩, -, rfl⟩ := h
      exact ⟨_, Token.Kind.leads_dedents n, by split <;> decide⟩

end Layout

namespace Scanner

open Token.Kind

/-- Where a scan can stand behind a token of the given kind. -/
inductive Stands : Token.Kind → Scanner → Prop
  /-- At the start of a line, or of the source. -/
  | lineStart {s : Scanner} (hd : s.done = false) (hs : s.startsLine = true) (hl : s.lineContent = false) :
      Stands .newline s
  /-- Behind the tokens of the layout, before the first content of the line. -/
  | entered {s : Scanner} {k : Token.Kind} {b : UInt8} {rest : Text} (hk : k ≠ .eof) (hd : s.done = false)
      (ha : s.atLineStart = false) (hr : s.rest = b :: rest) (hb : Lexeme.isBlank b = false)
      (hl : Lexeme.isLineEnd b = false) (hc : b ≠ 35) : Stands k s
  /-- At the end of the source, with no line begun. -/
  | blankEnd {s : Scanner} (hd : s.done = false) (ha : s.atLineStart = false) (hl : s.lineContent = false)
      (hr : s.rest = []) : Stands .newline s
  /-- Behind content. -/
  | inLine {s : Scanner} {k : Token.Kind} (hk : k.isStructural = false) (hd : s.done = false)
      (ha : s.atLineStart = false) (hl : s.lineContent = true) : Stands k s
  /-- Behind the end of the source. -/
  | done {s : Scanner} (hd : s.done = true) : Stands .eof s

theorem Stands.ofSource (source : Text) (tabWidth : Int) : Stands .newline (ofSource source tabWidth) :=
  .lineStart rfl rfl rfl

theorem Stands.eof_iff {k : Token.Kind} {s : Scanner} (h : Stands k s) : k = .eof ↔ s.done = true := by
  cases h with
  | lineStart hd _ _ => simp [hd]
  | entered hk hd _ _ _ _ _ => simp [hk, hd]
  | blankEnd hd _ _ _ => simp [hd]
  | inLine hk hd _ _ =>
    have hne : k ≠ .eof := by rintro rfl; cases hk
    simp [hne, hd]
  | done hd => simp [hd]

/-- The step at the start of a line. -/
theorem leads_lineStart {s : Scanner} {st : Step} (hd : s.done = false) (hs : s.startsLine = true)
    (hl : s.lineContent = false) (ht : Takes s st) (hh : st.halt = none) :
    ∃ k, Leads .newline (st.tokens.map (·.kind)) k ∧ Stands k st.scanner := by
  cases ht with
  | blankEnd _ hr => exact ⟨_, .nil _, .blankEnd hd rfl hl hr⟩
  | commentLine _ _ =>
    refine ⟨_, .nil _, ?_⟩
    dsimp only
    split
    · exact .lineStart hd hs hl
    · exact .lineStart hd hs hl
  | blankLine _ _ _ => exact ⟨_, .nil _, .lineStart hd hs hl⟩
  | enter _ hr hb hc =>
    obtain ⟨m, hm, -, he⟩ := enterLine_ok hh
    obtain ⟨k, hk, hne⟩ := Layout.measure_leads hm
    rw [he]
    exact ⟨k, by simpa [Function.comp_def, token] using hk, .entered hne hd rfl hr (not_isBlank hr) hb hc⟩
  | finish hs' _ => simp [hs] at hs'
  | endLine hs' _ _ => simp [hs] at hs'
  | comment hs' _ => simp [hs] at hs'
  | content hs' _ _ _ => simp [hs] at hs'

/-- The step that reads a content token. -/
theorem leads_content {s : Scanner} {b : UInt8} {rest : Text} {k : Token.Kind} (hk : k ≠ .eof)
    (hd : s.done = false) (ha : s.atLineStart = false) (hh : (s.content b rest).halt = none) :
    ∃ k', Leads k ((s.content b rest).tokens.map (·.kind)) k' ∧ Stands k' (s.content b rest).scanner := by
  obtain ⟨x, hx, he⟩ := content_ok hh
  have hcontent : x.kind.isStructural = false := by simpa [Lexeme.isContent] using (Lexeme.first_ok hx).2
  rw [he]
  exact ⟨x.kind, .single (leadsTo_content hcontent hk), .inLine hcontent hd ha rfl⟩

/-- The step at the end of the source. -/
theorem leads_finish {s : Scanner} {k : Token.Kind} (hk : if s.lineContent then k.isStructural = false else k = .newline) :
    Leads k (s.finish.tokens.map (·.kind)) .eof := by
  have hend : Leads .newline (List.replicate s.layout.depth .dedent ++ [.eof]) .eof := leads_end _
  simp only [finish, token]
  split at hk
  · next hl => simpa [hl] using (Leads.single (content_leadsTo hk (.inl rfl))).append hend
  · next hl =>
    subst hk
    simpa [hl] using hend

/-- The step inside a line that has content. -/
theorem leads_inLine {s : Scanner} {st : Step} {k : Token.Kind} (hk : k.isStructural = false)
    (hd : s.done = false) (ha : s.atLineStart = false) (hl : s.lineContent = true) (ht : Takes s st)
    (hh : st.halt = none) : ∃ k', Leads k (st.tokens.map (·.kind)) k' ∧ Stands k' st.scanner := by
  have hs : s.startsLine = false := by simp [startsLine, ha]
  have hne : k ≠ .eof := by rintro rfl; cases hk
  cases ht with
  | blankEnd hs' _ => simp [hs] at hs'
  | commentLine hs' _ => simp [hs] at hs'
  | blankLine hs' _ _ => simp [hs] at hs'
  | enter hs' _ _ _ => simp [hs] at hs'
  | finish _ _ =>
    have hl' : s.pastBlank.lineContent = true := hl
    exact ⟨_, leads_finish (by simpa [hl'] using hk), .done rfl⟩
  | endLine _ _ _ =>
    unfold endLine
    split
    · exact ⟨k, .nil _, .inLine hk hd ha hl⟩
    · next hj =>
      have hs' : s.pastBlank.layout.joined = false := by simpa using hj
      exact ⟨_, .single (content_leadsTo hk (.inl rfl)), .lineStart hd (by simp [startsLine, breakLine, hs']) rfl⟩
  | comment _ _ => exact ⟨k, .nil _, .inLine hk hd ha hl⟩
  | content _ _ _ _ => exact leads_content hne hd ha hh

/-- The tokens of a step are in order behind those before it. -/
theorem Stands.step {s : Scanner} {k : Token.Kind} (h : Stands k s) (hd : s.done = false)
    (hh : s.step.halt = none) :
    ∃ k', Leads k (s.step.tokens.map (·.kind)) k' ∧ Stands k' s.step.scanner := by
  generalize hst : s.step = st at hh ⊢
  have ht : Takes s st := hst ▸ takes_step s
  cases h with
  | lineStart _ hs hl => exact leads_lineStart hd hs hl ht hh
  | entered hk _ ha hr hb hl hc =>
    have hs : s.startsLine = false := by simp [startsLine, ha]
    have hpast := pastBlank_of_cons hr hb
    cases ht with
    | blankEnd hs' _ => simp [hs] at hs'
    | commentLine hs' _ => simp [hs] at hs'
    | blankLine hs' _ _ => simp [hs] at hs'
    | enter hs' _ _ _ => simp [hs] at hs'
    | finish _ hr' => simp [hpast, hr] at hr'
    | endLine _ hr' hb' => simp_all
    | comment _ hr' => simp_all
    | content _ _ _ _ =>
      rw [hpast] at hh ⊢
      exact leads_content hk hd ha hh
  | blankEnd _ ha hl hr =>
    have hs : s.startsLine = false := by simp [startsLine, ha]
    have hpast := pastBlank_of_nil hr
    cases ht with
    | blankEnd hs' _ => simp [hs] at hs'
    | commentLine hs' _ => simp [hs] at hs'
    | blankLine hs' _ _ => simp [hs] at hs'
    | enter hs' _ _ _ => simp [hs] at hs'
    | finish _ _ =>
      rw [hpast]
      exact ⟨_, leads_finish (by simp [hl]), .done rfl⟩
    | endLine _ hr' _ => simp [hpast, hr] at hr'
    | comment _ hr' => simp [hpast, hr] at hr'
    | content _ hr' _ _ => simp [hpast, hr] at hr'
  | inLine hk _ ha hl => exact leads_inLine hk hd ha hl ht hh
  | done hd' => simp [hd] at hd'

/-- The tokens of a run are in order, and they lead to the end of the source if the run does not fail. -/
theorem run_leads {s : Scanner} {k : Token.Kind} (h : Stands k s) :
    ∃ k', Leads k (s.run.tokens.map (·.kind)) k' ∧ (k' = .eof ↔ s.run.halt = none) := by
  induction s using run_induction generalizing k with
  | done s hd =>
    rw [run_done hd]
    exact ⟨k, .nil _, by simp [h.eof_iff, hd]⟩
  | halt s r hd hh =>
    rw [run_halt hd hh]
    exact ⟨k, .nil _, by simp [h.eof_iff, hd]⟩
  | step s hd hh ih =>
    obtain ⟨k₁, h₁, hs⟩ := h.step hd hh
    obtain ⟨k₂, h₂, hend⟩ := ih hs
    rw [run_step hd hh]
    exact ⟨k₂, by simpa using h₁.append h₂, hend⟩

end Scanner

end Offside
