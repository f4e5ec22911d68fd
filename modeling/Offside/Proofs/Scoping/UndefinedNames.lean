import Offside.Proofs.Scoping.Judgement
import Offside.Proofs.Scoping.Reading

/-!
# Names that are not visible

If a compilation reports a name, then the name is read at a place that does not see it. The source does not
compile, so there is no tree to look at. But the lines before that of the name are right, and with the name
alone on the next line, all blocks closed behind it, the tokens derive a program: its last observation is the
read of that name, and the judgement says that it is not visible there. What else stands on the line does not
matter, as nothing is declared before the names of a line have been read.
-/

namespace Offside

namespace Statement

open Offside.Grammar Offside.Expression Offside.Resolution Offside.Scoping Offside.Statement.Parser

/-! ## Names on a line -/

/-- Behind a part of a line the parser stands on a name that the scope `f` does not see, and reports it. -/
structure StopsInLine (ctx : Context) (f : Frame) (c : Cursor) (line : List Token) (c' : Cursor) (h : Halt) :
    Prop where
  cursor : c = c'.before line
  content : ∀ t ∈ line, t.kind.isStructural = false
  undefined : Undefined (f :: ctx.outer) c' h

section
variable {ctx : Context} {n : Nat} {s s' : State} {h : Halt}

theorem StopsInLine.behind {s₁ : State} {ts line : List Token} {c' : Cursor} (hr : Reads s ts s₁)
    (hts : ∀ t ∈ ts, t.kind.isStructural = false) (hs : StopsInLine ctx s₁.frame s₁.cursor line c' h) :
    StopsInLine ctx s.frame s.cursor (ts ++ line) c' h := by
  refine ⟨Cursor.before_trans hr.cursor hs.cursor, List.forall_mem_append.2 ⟨hts, hs.content⟩, ?_⟩
  rw [← hr.frame]
  exact hs.undefined

theorem sane_of_calm (hl : s.cursor.Laid) (hs : Calm s) : s.cursor.Sane := ⟨hl.ended, hs⟩

theorem expression_error (hl : s.cursor.Laid) (hs : Calm s) (he : expression (m := Parser) ctx n s = .error h s')
    (hname : h.OnName) : 0 < n ∧ ∃ line, StopsInLine ctx s.frame s.cursor line s'.cursor h := by
  unfold expression at he
  rw [step_of_ok (frame_eq s)] at he
  obtain ⟨he, -⟩ := read_error.1 he
  obtain ⟨⟨line, e, hline⟩, hundefined⟩ := (careful_parse n .expr s.cursor (sane_of_calm hl hs)).2 h _ he hname
  refine ⟨?_, line, e, hline, hundefined⟩
  rcases Nat.eq_zero_or_pos n with rfl | hn
  · exact absurd hname (parse_zero he)
  · exact hn

theorem expressions_error (hl : s.cursor.Laid) (hs : Calm s) (he : expressions (m := Parser) ctx n s = .error h s')
    (hname : h.OnName) : 0 < n ∧ ∃ line, StopsInLine ctx s.frame s.cursor line s'.cursor h := by
  unfold expressions at he
  rw [step_of_ok (frame_eq s)] at he
  obtain ⟨he, -⟩ := read_error.1 he
  obtain ⟨⟨line, e, hline⟩, hundefined⟩ := (careful_items n s.cursor (sane_of_calm hl hs)).2 h _ he hname
  refine ⟨?_, line, e, hline, hundefined⟩
  rcases Nat.eq_zero_or_pos n with rfl | hn
  · -- the first of the expressions is not even begun
    rcases bind_error.1 he with h₁ | ⟨x, c₁, h₁, -⟩
    · exact absurd hname (parse_zero h₁)
    · cases h₁
  · exact hn

theorem arguments_error (hl : s.cursor.Laid) (hs : Calm s) (he : arguments (m := Parser) ctx n s = .error h s')
    (hname : h.OnName) : 0 < n ∧ ∃ line, StopsInLine ctx s.frame s.cursor line s'.cursor h := by
  unfold arguments at he
  rw [step_of_ok (current_eq s)] at he
  split at he
  · cases he
  · exact expressions_error hl hs he hname

theorem Calm.of_before {ts : List Token} (hs : Calm s) (e : s.cursor = s'.cursor.before ts) : Calm s' := by
  unfold Calm at hs ⊢
  rwa [e, Cursor.halt_before] at hs

theorem Reads.calm {ts : List Token} (hr : Reads s ts s') (hs : Calm s) : Calm s' := hs.of_before hr.cursor

end

section
variable {t : Token} {line : List Token} {next : Option Token}

theorem not_binds_of_keyword {k : Keyword} (h : t.isKeyword k = true) (hk : k ≠ .def_ ∧ k ≠ .for_) :
    ¬ Binds (t :: line) next := by
  intro hb
  cases hb with
  | define h' => simp [isKeyword_eq h, hk.1] at h'
  | loop h' => simp [isKeyword_eq h, hk.2] at h'

theorem not_binds_of_kind (h : t.kind ≠ .keyword) : ¬ Binds (t :: line) next := by
  intro hb
  cases hb with
  | define h' => exact h (kind_of_isKeyword h')
  | loop h' => exact h (kind_of_isKeyword h')

theorem not_binds_of_loop {u : Token} (h : t.isKeyword .for_ = true) : ¬ Binds (t :: u :: line) next := by
  intro hb
  cases hb with
  | define h' => simp [isKeyword_eq h] at h'

end

/-! ## The lines before, and the name alone -/

/-- The tokens that end lines, blocks and sources. -/
def Closing (t : Token) : Prop := t.kind ∈ [Token.Kind.newline, .dedent, .eof]

/-- The parser, from `c`, stands at `c'` on a name that is read there, and reports it. The name is on the line
that begins with `line`, behind the lines `pre`. -/
structure Located (c : Cursor) (pre line : List Token) (c' : Cursor) (h : Halt) : Prop where
  cursor : c = c'.before (pre ++ line)
  content : ∀ t ∈ line, t.kind.isStructural = false
  name : c'.cur.kind = .identifier
  read : ¬ Binds line c'.rest.head?
  report : ∃ scope, h = .report (undefinedName scope c'.cur)

/-- With the name `t` alone behind them, and then closed, the lines `pre` are a phrase. The last that its tree
says about its places is that the name is read, at a place that does not see it. -/
def Completed {α : Type} (A : Phrase Token α) (observed : α → List Observation) (pre : List Token) (t : Token) :
    Prop :=
  ∃ closers a before e, (∀ u ∈ closers, Closing u) ∧ A (pre ++ t :: closers) a ∧
    observed a = before ++ [.read e t.literal] ∧ ¬ e.Visible t.literal

/-- The parser has stopped on a name in the middle of such a phrase. -/
def Stopped {α : Type} (A : Phrase Token α) (observed : α → List Observation) (c c' : Cursor) (h : Halt) : Prop :=
  ∃ pre line, Located c pre line c' h ∧ Completed A observed pre c'.cur

section
variable {α β : Type} {A : Phrase Token α} {observed : α → List Observation} {A' : Phrase Token β}
  {observed' : β → List Observation} {c c₀ c' : Cursor} {h : Halt} {us : List Token}

/-- A phrase around the phrase is stopped as well, if it ends with it, up to tokens that close it, and says
nothing of its own behind what it says. -/
theorem Stopped.lift (hs : Stopped A observed c c' h) (e : c₀ = c.before us) (vs : List Token)
    (hvs : ∀ v ∈ vs, Closing v)
    (hA : ∀ ts a, A ts a → observed a ≠ [] → ∃ b before, A' (us ++ (ts ++ vs)) b ∧ observed' b = before ++ observed a) :
    Stopped A' observed' c₀ c' h := by
  obtain ⟨pre, line, hlocated, closers, a, before, env, hclosers, ha, hobserved, hhidden⟩ := hs
  obtain ⟨b, before', hb, hobserved'⟩ := hA _ a ha (by simp [hobserved])
  refine ⟨us ++ pre, line, ⟨?_, hlocated.content, hlocated.name, hlocated.read, hlocated.report⟩,
    closers ++ vs, b, before' ++ before, env, List.forall_mem_append.2 ⟨hclosers, hvs⟩, ?_, ?_, hhidden⟩
  · rw [List.append_assoc]
    exact Cursor.before_trans e hlocated.cursor
  · simpa using hb
  · rw [hobserved', hobserved, List.append_assoc]

end

/-- The token that closes a line. -/
def lineEnd : Token := { kind := .newline, line := 0, column := 0 }

/-- The token that closes a block. -/
def blockEnd : Token := { kind := .dedent, line := 0, column := 0 }

/-- The token that closes a source. -/
def sourceEnd : Token := { kind := .eof, line := 0, column := 0 }

/-- A name by itself is an expression. -/
theorem derives_name {n : Nat} (hn : 0 < n) {t : Token} (ht : t.kind = .identifier) :
    DerivesExpr n [t] (.access t.literal false) := by
  obtain ⟨n, rfl⟩ := Nat.exists_eq_succ_of_ne_zero (Nat.ne_of_gt hn)
  have hpower : Power (fun _ => True) (Derives (fun _ => True) n) [t] (.access t.literal false) :=
    .plain (.plain (.name ht trivial))
  have hnegation : Negation (fun _ => True) (Derives (fun _ => True) n) ([t] ++ []) (.access t.literal false) :=
    .behind (.single (.single (.single hpower))) (.done _)
  exact .single (.single hnegation)

section
variable {ctx : Context} {n : Nat} {B : Phrase Token (List Stmt)} {f : Frame} {c c' : Cursor} {line : List Token}
  {h : Halt}

/-- The name that a line stops on makes a line by itself. -/
theorem StopsInLine.completed (hs : StopsInLine ctx f c line c' h) (hn : 0 < n) :
    Completed (Statements (AnyStatement (DerivesExpr n) B)) (Stmt.observedAll (env ctx.place f)) [] c'.cur := by
  have hx : AnyStatement (DerivesExpr n) B ([c'.cur] ++ [lineEnd]) (.expression (.access c'.cur.literal false)) :=
    .simple (.expression (derives_name hn hs.undefined.name)) rfl
  refine ⟨[lineEnd], [.expression (.access c'.cur.literal false)], [], env ctx.place f, ?_, ?_, rfl, ?_⟩
  · simp [Closing, lineEnd]
  · simpa using Statements.more hx .done
  · rw [visible_env]
    exact Bool.eq_false_iff.1 hs.undefined.hidden

theorem StopsInLine.located (hs : StopsInLine ctx f c line c' h) (hread : ¬ Binds line c'.rest.head?) :
    Located c [] line c' h :=
  ⟨hs.cursor, hs.content, hs.undefined.name, hread, _, hs.undefined.report⟩

theorem StopsInLine.stopped (hs : StopsInLine ctx f c line c' h) (hn : 0 < n)
    (hread : ¬ Binds line c'.rest.head?) :
    Stopped (Statements (AnyStatement (DerivesExpr n) B)) (Stmt.observedAll (env ctx.place f)) c c' h :=
  ⟨[], line, hs.located hread, hs.completed hn⟩

end

/-! ## Statements on one line -/

/-- A statement has stopped on a name. -/
abbrev StatementStops (ctx : Context) (n : Nat) (B : Phrase Token (List Stmt)) (s s' : State) (h : Halt) : Prop :=
  Stopped (Statements (AnyStatement (DerivesExpr n) B)) (Stmt.observedAll (env ctx.place s.frame)) s.cursor s'.cursor h

section
variable {ctx : Context} {n : Nat} {B : Phrase Token (List Stmt)} {s s' : State} {h : Halt}

theorem returnStatement_error (hl : s.cursor.Laid) (hs : Calm s) (ht : s.cursor.cur.isKeyword .return_ = true)
    (he : returnStatement (m := Parser) ctx n s = .error h s') (hname : h.OnName) : StatementStops ctx n B s s' h := by
  unfold returnStatement at he
  rw [step_of_ok (current_eq s), bind_of_ok (inFunction_eq ctx s)] at he
  split at he
  · obtain ⟨_, s₁, h₁, he⟩ := (quiet_advance s).past hs he hname
    have hr₁ := advance_ok hl (keyword_ne_eof ht) h₁
    rw [step_of_ok (current_eq s₁)] at he
    split at he
    · cases he
    · rcases bind_error.1 he with he | ⟨xs, s₂, -, he⟩
      · obtain ⟨hn, line, hline⟩ := expressions_error (hr₁.laid hl) (hr₁.calm hs) he hname
        exact (hline.behind hr₁ (by simpa using content_keyword ht)).stopped hn (not_binds_of_keyword ht (by decide))
      · cases he
  · cases he
    simp at hname

theorem printStatement_error (hl : s.cursor.Laid) (hs : Calm s) (ht : s.cursor.cur.isKeyword .print = true)
    (he : printStatement (m := Parser) ctx n s = .error h s') (hname : h.OnName) : StatementStops ctx n B s s' h := by
  obtain ⟨_, s₀, h₀, he⟩ := (quiet_permit s).past hs he hname
  obtain ⟨-, rfl⟩ := permit_ok.1 h₀
  obtain ⟨_, s₁, h₁, he⟩ := (quiet_advance s).past hs he hname
  have hr₁ := advance_ok hl (keyword_ne_eof ht) h₁
  obtain ⟨_, s₂, h₂, he⟩ := (quiet_expect s₁).past (hr₁.calm hs) he hname
  obtain ⟨hopen, hr₂⟩ := expect_ok (hr₁.laid hl) Reader.bracket_ne_eof h₂
  have hr₂ := hr₁.trans hr₂
  rcases bind_error.1 he with he | ⟨xs, s₃, h₃, he⟩
  · obtain ⟨hn, line, hline⟩ := arguments_error (hr₂.laid hl) (hr₂.calm hs) he hname
    refine (hline.behind hr₂ ?_).stopped hn (not_binds_of_keyword ht (by decide))
    simp [content_keyword ht, content_of_kind (kind_of_isBracket hopen) rfl]
  · -- behind the arguments no name is read
    obtain ⟨ts, hr₃, -, -⟩ := arguments_ok (hr₂.laid hl) h₃
    have hcalm := hr₃.calm (hr₂.calm hs)
    obtain ⟨_, s₄, -, he⟩ := (quiet_expect s₃).past hcalm he hname
    cases he

theorem assignment_error {o : Token} (hl : s.cursor.Laid) (hs : Calm s) (ht : s.cursor.cur.kind = .identifier)
    (hrest : s.cursor.rest.head? = some o) (ho : o.isOperator .assign = true)
    (he : assignment (m := Parser) ctx n s = .error h s') (hname : h.OnName) : StatementStops ctx n B s s' h := by
  unfold assignment at he
  rw [step_of_ok (current_eq s)] at he
  obtain ⟨_, s₁, h₁, he⟩ := (quiet_advance s).past hs he hname
  have hr₁ := advance_ok hl (Reader.kind_ne_eof ht (by decide)) h₁
  have hcur : s₁.cursor.cur = o := by
    rw [hr₁.cursor] at hrest
    exact Option.some.inj hrest
  rw [← hcur] at ho
  obtain ⟨_, s₂, h₂, he⟩ := (quiet_advance s₁).past (hr₁.calm hs) he hname
  have hr₂ := hr₁.trans (advance_ok (hr₁.laid hl) (operator_ne_eof ho) h₂)
  rcases bind_error.1 he with he | ⟨value, s₃, h₃, he⟩
  · obtain ⟨hn, line, hline⟩ := expression_error (hr₂.laid hl) (hr₂.calm hs) he hname
    refine (hline.behind hr₂ ?_).stopped hn (not_binds_of_kind (by simp [ht]))
    simp [content_of_kind ht rfl, content_of_kind (kind_of_isOperator ho) rfl]
  · obtain ⟨ts, hr₃, -, -⟩ := expression_ok (hr₂.laid hl) h₃
    rw [step_of_ok (frame_eq s₃)] at he
    obtain ⟨_, s₄, -, he⟩ := (quiet_declareOnce s₃).past (hr₃.calm (hr₂.calm hs)) he hname
    cases he

theorem peek_of_head {c : Cursor} {t : Token} (h : c.rest.head? = some t) : Reader.peek c = .ok t c := by
  obtain ⟨cur, rest, halt⟩ := c
  cases rest with
  | nil => cases h
  | cons u rest =>
    cases h
    rfl

/-- The token that a line begins with, if the parser has passed over it. -/
theorem StopsInLine.head {f : Frame} {c c' : Cursor} {t : Token} {line : List Token}
    (hs : StopsInLine ctx f c (t :: line) c' h) : c.cur = t := by
  rw [hs.cursor]
  rfl

theorem nameStatement_error (hl : s.cursor.Laid) (hs : Calm s) (ht : s.cursor.cur.kind = .identifier)
    (he : nameStatement (m := Parser) ctx n s = .error h s') (hname : h.OnName) : StatementStops ctx n B s s' h := by
  obtain ⟨next, s₁, h₁, he⟩ := (quiet_peek s).past hs he hname
  obtain ⟨hpeek, hs₁⟩ := read_ok.1 h₁
  obtain ⟨hc, hnext⟩ := Reader.peek_ok hpeek
  obtain rfl : s = s₁ := by rw [hs₁, hc, State.on_cursor]
  split at he
  · next ho =>
    rcases hnext with hrest | rfl
    · exact assignment_error hl hs ht hrest ho he hname
    · simp [Token.isOperator, ht] at ho
  · next ho =>
    rcases bind_error.1 he with he | ⟨x, s₂, -, he⟩
    · obtain ⟨hn, line, hline⟩ := expression_error hl hs he hname
      refine hline.stopped hn ?_
      cases line with
      | nil =>
        -- the parser stands on the name itself, and the token behind it is no `=`
        have hcursor : s.cursor = s'.cursor := hline.cursor
        rw [← hcursor]
        intro hb
        generalize hhead : s.cursor.rest.head? = behind at hb
        cases hb with
        | assign ho' =>
          rw [peek_of_head hhead] at hpeek
          cases hpeek
          exact ho ho'
      | cons t line =>
        refine not_binds_of_kind ?_
        rw [← hline.head, ht]
        decide
    · cases he

theorem expressionStatement_error (hl : s.cursor.Laid) (hs : Calm s)
    (hk : s.cursor.cur.isKeyword .def_ = false ∧ s.cursor.cur.isKeyword .for_ = false)
    (hi : s.cursor.cur.kind ≠ .identifier) (he : expressionStatement ctx n s = .error h s') (hname : h.OnName) :
    StatementStops ctx n B s s' h := by
  rcases bind_error.1 he with he | ⟨x, s₁, -, he⟩
  · obtain ⟨hn, line, hline⟩ := expression_error hl hs he hname
    refine hline.stopped hn ?_
    cases line with
    | nil =>
      have hcursor : s.cursor = s'.cursor := hline.cursor
      rw [hcursor] at hi
      exact absurd hline.undefined.name hi
    | cons t line =>
      rw [hline.head] at hk
      intro hb
      cases hb with
      | define h' => simp [hk.1] at h'
      | loop h' => simp [hk.2] at h'
  · cases he

theorem onOneLine_error {p : Parser Stmt} (hs : Calm s)
    (hok : ∀ x s', p s = .ok x s' → Parsed ctx (Simple (DerivesExpr n)) s x s')
    (herror : ∀ s', p s = .error h s' → StatementStops ctx n B s s' h)
    (he : onOneLine p s = .error h s') (hname : h.OnName) : StatementStops ctx n B s s' h := by
  rcases bind_error.1 he with he | ⟨x, s₁, h₁, he⟩
  · exact herror s' he
  · obtain ⟨ts, e, -, -⟩ := hok x s₁ h₁
    obtain ⟨_, s₂, -, he⟩ := (quiet_endOfLine s₁).past (hs.of_before e) he hname
    cases he

end

/-! ## Statements with blocks -/

/-- Whenever the parser of blocks reports a name, it has stopped on it. -/
def BlockStops (block : BlockParser Parser) (B : Phrase Token (List Stmt)) : Prop :=
  ∀ {ctx : Context} {s s' : State} {h : Halt}, s.cursor.Laid → Calm s → block ctx s = .error h s' → h.OnName →
    Stopped B (Stmt.observedAll (env ctx.place s.frame)) s.cursor s'.cursor h

/-- A conditional from one of its clauses on, which begins with the token `k`, and statements behind it. -/
inductive FromClause (E : Phrase Token Expr) (B : Phrase Token (List Stmt)) (k : Token) :
    Phrase Token (List Clause × List Stmt)
  | mk {ts us vs ws : List Token} {x : Expr} {body : List Stmt} {cs : List Clause} {ss : List Stmt} (hx : E ts x)
      (hb : B us body) (hrest : Elifs E B vs cs) (hss : Statements (AnyStatement E B) ws ss) :
      FromClause E B k (k :: (ts ++ (us ++ vs)) ++ ws) (.mk (some x) body :: cs, ss)

/-- What clauses and the statements behind them say about their places. -/
def observedFrom (e : Env) (p : List Clause × List Stmt) : List Observation :=
  Clause.observedAll e p.1 ++ Stmt.observedAll (Clause.afterAll e p.1) p.2

section
variable {ctx : Context} {n : Nat} {block : BlockParser Parser} {B : Phrase Token (List Stmt)} {h : Halt}

/-- Conditionals stop in the condition of their first clause, or behind it. A name in a later condition is
completed to a statement behind the clauses before it, which declare into the same scope. -/
theorem clauses_error (hb : BlockSound block B) (hbe : BlockStops block B) (fuel : Nat) {s s' : State}
    (hl : s.cursor.Laid) (hs : Calm s) (hk : s.cursor.cur.kind = .keyword)
    (he : clauses (expression ctx n) (block ctx) fuel s = .error h s') (hname : h.OnName) :
    (0 < n ∧ ∃ line, StopsInLine ctx s.frame s.cursor (s.cursor.cur :: line) s'.cursor h) ∨
      Stopped (FromClause (DerivesExpr n) B s.cursor.cur) (observedFrom (env ctx.place s.frame)) s.cursor s'.cursor h := by
  induction fuel generalizing s with
  | zero => cases he
  | succ fuel ih =>
    obtain ⟨_, s₁, h₁, he⟩ := (quiet_advance s).past hs he hname
    have hr₁ := advance_ok hl (Reader.kind_ne_eof hk (by decide)) h₁
    rcases bind_error.1 he with he | ⟨x, s₂, h₂, he⟩
    · obtain ⟨hn, line, hline⟩ := expression_error (hr₁.laid hl) (hr₁.calm hs) he hname
      exact .inl ⟨hn, line, hline.behind hr₁ (by simp [content_of_kind hk rfl])⟩
    right
    obtain ⟨ts, hr₂, hx, -⟩ := expression_ok (hr₁.laid hl) h₂
    have hr₂ := hr₁.trans hr₂
    rcases bind_error.1 he with he | ⟨body, s₃, h₃, he⟩
    · -- the block of the clause
      refine (hbe (hr₂.laid hl) (hr₂.calm hs) he hname).lift hr₂.cursor [] (List.forall_mem_nil _) ?_
      intro us body hbody _
      refine ⟨([.mk (some x) body], []), reads (env ctx.place s.frame) x.names, ?_, ?_⟩
      · simpa using FromClause.mk (k := s.cursor.cur) hx hbody .done .done
      · rw [hr₂.frame]
        simp [observedFrom, Clause.observedAll, Stmt.observedAll, Expr.namesAll]
    obtain ⟨us, e₃, hbody, hf⟩ := hb (hr₂.laid hl) h₃
    rw [hr₂.frame] at hf
    have hafter := (resolveAll_observed hf).2
    have e : s.cursor = s₃.cursor.before (s.cursor.cur :: (ts ++ us)) := by
      simpa using Cursor.before_trans hr₂.cursor e₃
    have hl₃ := Cursor.laid_of_before hl e
    have hs₃ := hs.of_before e
    rw [step_of_ok (current_eq s₃)] at he
    split at he
    · next helif =>
      rcases bind_error.1 he with he | ⟨rest, s₄, -, he⟩
      · rcases ih hl₃ hs₃ (kind_of_isKeyword helif) he with ⟨hn, line, hline⟩ | hstopped
        · -- the condition of the next clause: the name becomes a statement behind this one
          have hread : ¬ Binds (s₃.cursor.cur :: line) s'.cursor.rest.head? := not_binds_of_keyword helif (by decide)
          have hline : Stopped (Statements (AnyStatement (DerivesExpr n) B)) _ _ _ h := hline.stopped hn hread
          refine hline.lift e [] (List.forall_mem_nil _) ?_
          intro ws ss hss _
          refine ⟨([.mk (some x) body], ss), Clause.observedAll (env ctx.place s.frame) [.mk (some x) body], ?_, ?_⟩
          · simpa using FromClause.mk (k := s.cursor.cur) hx hbody .done hss
          · rw [hafter]
            rfl
        · refine hstopped.lift e [] (List.forall_mem_nil _) ?_
          intro _ _ hp _
          cases hp with
          | @mk _ _ _ _ y body' cs ss hy hbody' hrest hss =>
            refine ⟨(.mk (some x) body :: .mk (some y) body' :: cs, ss),
              Clause.observedAll (env ctx.place s.frame) [.mk (some x) body], ?_, ?_⟩
            · simpa using FromClause.mk (k := s.cursor.cur) hx hbody (.elif helif hy hbody' hrest) hss
            · rw [hafter]
              simp [observedFrom, Clause.observedAll, Clause.afterAll]
      · cases he
    · split at he
      · next helse =>
        obtain ⟨_, s₄, h₄, he⟩ := (quiet_advance s₃).past hs₃ he hname
        have hr₄ := advance_ok hl₃ (keyword_ne_eof helse) h₄
        rcases bind_error.1 he with he | ⟨last, s₅, -, he⟩
        · have e₄ : s.cursor = s₄.cursor.before (s.cursor.cur :: (ts ++ us) ++ [s₃.cursor.cur]) :=
            Cursor.before_trans e hr₄.cursor
          refine (hbe (hr₄.laid hl₃) (hr₄.calm hs₃) he hname).lift e₄ [] (List.forall_mem_nil _) ?_
          intro vs last hlast _
          refine ⟨([.mk (some x) body, .mk none last], []),
            Clause.observedAll (env ctx.place s.frame) [.mk (some x) body], ?_, ?_⟩
          · simpa using FromClause.mk (k := s.cursor.cur) hx hbody (.last helse hlast) .done
          · rw [hr₄.frame, hafter]
            simp [observedFrom, Clause.observedAll, Stmt.observedAll, Expr.namesAll, reads]
        · cases he
      · cases he

theorem ifStatement_error (hb : BlockSound block B) (hbe : BlockStops block B) {s s' : State} (hl : s.cursor.Laid)
    (hs : Calm s) (ht : s.cursor.cur.isKeyword .if_ = true) (he : ifStatement ctx n block s = .error h s')
    (hname : h.OnName) : StatementStops ctx n B s s' h := by
  obtain ⟨_, s₀, h₀, he⟩ := (quiet_permit s).past hs he hname
  obtain ⟨-, rfl⟩ := permit_ok.1 h₀
  rw [step_of_ok (bound_eq s)] at he
  rcases bind_error.1 he with he | ⟨cs, s₁, -, he⟩
  · rcases clauses_error hb hbe _ hl hs (kind_of_isKeyword ht) he hname with ⟨hn, line, hline⟩ | hstopped
    · exact hline.stopped hn (not_binds_of_keyword ht (by decide))
    · refine hstopped.lift (Cursor.before_nil _).symm [] (List.forall_mem_nil _) ?_
      intro _ _ hp _
      cases hp with
      | @mk _ _ _ _ x body cs ss hx hbody hrest hss =>
        refine ⟨.ifChain (.mk (some x) body :: cs) :: ss, [], ?_, rfl⟩
        simpa using Statements.more (.compound (.ifChain ht hx hbody hrest)) hss
  · cases he

theorem whileStatement_error (hbe : BlockStops block B) {s s' : State} (hl : s.cursor.Laid) (hs : Calm s)
    (ht : s.cursor.cur.isKeyword .while_ = true) (he : whileStatement ctx n block s = .error h s')
    (hname : h.OnName) : StatementStops ctx n B s s' h := by
  obtain ⟨_, s₀, h₀, he⟩ := (quiet_permit s).past hs he hname
  obtain ⟨-, rfl⟩ := permit_ok.1 h₀
  obtain ⟨_, s₁, h₁, he⟩ := (quiet_advance s).past hs he hname
  have hr₁ := advance_ok hl (keyword_ne_eof ht) h₁
  rcases bind_error.1 he with he | ⟨x, s₂, h₂, he⟩
  · obtain ⟨hn, line, hline⟩ := expression_error (hr₁.laid hl) (hr₁.calm hs) he hname
    exact (hline.behind hr₁ (by simpa using content_keyword ht)).stopped hn (not_binds_of_keyword ht (by decide))
  obtain ⟨ts, hr₂, hx, -⟩ := expression_ok (hr₁.laid hl) h₂
  have hr₂ := hr₁.trans hr₂
  rcases bind_error.1 he with he | ⟨body, s₃, -, he⟩
  · refine (hbe (hr₂.laid hl) (hr₂.calm hs) he hname).lift hr₂.cursor [] (List.forall_mem_nil _) ?_
    intro us body hbody _
    refine ⟨[.whileLoop x body], reads (env ctx.place s.frame) x.names, ?_, ?_⟩
    · simpa using Statements.more (.compound (.whileLoop ht hx hbody)) .done
    · rw [hr₂.frame]
      simp [Stmt.observedAll, Stmt.observed]
  · cases he

theorem forStatement_error (hbe : BlockStops block B) {s s' : State} (hl : s.cursor.Laid) (hs : Calm s)
    (ht : s.cursor.cur.isKeyword .for_ = true) (he : forStatement ctx n block s = .error h s') (hname : h.OnName) :
    StatementStops ctx n B s s' h := by
  obtain ⟨_, s₀, h₀, he⟩ := (quiet_permit s).past hs he hname
  obtain ⟨-, rfl⟩ := permit_ok.1 h₀
  obtain ⟨_, s₁, h₁, he⟩ := (quiet_advance s).past hs he hname
  have hr₁ := advance_ok hl (keyword_ne_eof ht) h₁
  rw [step_of_ok (current_eq s₁)] at he
  split at he
  · next hv =>
    obtain ⟨_, s₂, h₂, he⟩ := (quiet_advance s₁).past (hr₁.calm hs) he hname
    have hr₂ := hr₁.trans (advance_ok (hr₁.laid hl) (Reader.kind_ne_eof hv (by decide)) h₂)
    obtain ⟨_, s₃, h₃, he⟩ := (quiet_expect s₂).past (hr₂.calm hs) he hname
    obtain ⟨hin, hr₃⟩ := expect_ok (hr₂.laid hl) (fun _ => operator_ne_eof) h₃
    have hr₃ := hr₂.trans hr₃
    obtain ⟨_, s₄, h₄, he⟩ := (quiet_expect s₃).past (hr₃.calm hs) he hname
    obtain ⟨hrange, hr₄⟩ := expect_ok (hr₃.laid hl) (fun _ => keyword_ne_eof) h₄
    have hr₄ := hr₃.trans hr₄
    rw [step_of_ok (current_eq s₄)] at he
    obtain ⟨_, s₅, h₅, he⟩ := (quiet_expect s₄).past (hr₄.calm hs) he hname
    obtain ⟨hopen, hr₅⟩ := expect_ok (hr₄.laid hl) Reader.bracket_ne_eof h₅
    have hr₅ := hr₄.trans hr₅
    rcases bind_error.1 he with he | ⟨args, s₆, h₆, he⟩
    · -- the arguments of the range are read in the scope around the loop
      obtain ⟨hn, line, hline⟩ := arguments_error (hr₅.laid hl) (hr₅.calm hs) he hname
      refine (hline.behind hr₅ ?_).stopped hn (not_binds_of_loop ht)
      simp [content_keyword ht, content_of_kind hv rfl, content_of_kind (kind_of_isOperator hin) rfl,
        content_keyword hrange, content_of_kind (kind_of_isBracket hopen) rfl]
    obtain ⟨ts, hr₆, hx, -⟩ := arguments_ok (hr₅.laid hl) h₆
    have hr₆ := hr₅.trans hr₆
    cases hargs : rangeOf? args with
    | none =>
      rw [hargs] at he
      cases he
      simp [rangeArguments, Diagnostic.withFact, Diagnostic.syntaxError] at hname
    | some r =>
      obtain ⟨start, stop, step⟩ := r
      rw [hargs] at he
      obtain ⟨_, s₇, h₇, he⟩ := (quiet_expect s₆).past (hr₆.calm hs) he hname
      obtain ⟨hclose, hr₇⟩ := expect_ok (hr₆.laid hl) Reader.bracket_ne_eof h₇
      have hr₇ := hr₆.trans hr₇
      rw [step_of_ok (frame_eq s₇)] at he
      rcases bind_error.1 he with he | ⟨_, s₈, -, he⟩
      · have he := inScope_error he
        rw [step_of_ok (current_eq _)] at he
        have hs₇ : Calm s₇.entered := hr₇.calm hs
        obtain ⟨_, s₉, h₉, he⟩ := (quiet_declare s₇.entered).past hs₇ he hname
        obtain ⟨-, rfl⟩ := declare_ok.1 h₉
        have hl₇ : s₇.cursor.Laid := hr₇.laid hl
        refine (hbe (by exact hl₇) (by exact hs₇) he hname).lift hr₇.cursor [] (List.forall_mem_nil _) ?_
        intro us body hbody _
        refine ⟨[.forRange s₁.cursor.cur.literal start stop step body []],
          reads (env ctx.place s.frame) (Expr.namesAll [start, stop, step]) ++
            [.scope (Stmt.afterAll ((env ctx.place s.frame).child [s₁.cursor.cur.literal]) body).here []], ?_, ?_⟩
        · have hfor : Compound (DerivesExpr n) B _ (.forRange s₁.cursor.cur.literal start stop step body []) :=
            .forRange ht hv hin hrange hopen (items_of_rangeOf hargs hx) hargs hclose hbody
          simpa using Statements.more (.compound hfor) .done
        · have hchild : env (ctx.inner s₇.frame).place [{ name := s₁.cursor.cur.literal }] =
              (env ctx.place s.frame).child [s₁.cursor.cur.literal] := by
            rw [hr₇.frame, place_inner]
            exact env_inner [s₁.cursor.cur.literal]
          change Stmt.observedAll _ _ = _ ++ Stmt.observedAll (env (ctx.inner s₇.frame).place [_]) body
          rw [hchild]
          simp [Stmt.observedAll, Stmt.observed]
      · cases he
  · cases he
    simp [Token.notExpected] at hname

theorem defStatement_error (hbe : BlockStops block B) {s s' : State} (hl : s.cursor.Laid) (hs : Calm s)
    (ht : s.cursor.cur.isKeyword .def_ = true) (he : defStatement ctx block s = .error h s') (hname : h.OnName) :
    StatementStops ctx n B s s' h := by
  obtain ⟨_, s₀, h₀, he⟩ := (quiet_permit s).past hs he hname
  obtain ⟨-, rfl⟩ := permit_ok.1 h₀
  obtain ⟨_, s₁, h₁, he⟩ := (quiet_advance s).past hs he hname
  have hr₁ := advance_ok hl (keyword_ne_eof ht) h₁
  rw [step_of_ok (current_eq s₁)] at he
  split at he
  · next hv =>
    obtain ⟨_, s₂, h₂, he⟩ := (quiet_declareOnce s₁).past (hr₁.calm hs) he hname
    obtain ⟨f, hf, rfl⟩ := declareOnce_ok.1 h₂
    have hl₁ : (s₁.holding f).cursor.Laid := hr₁.laid hl
    have hs₁ : Calm (s₁.holding f) := hr₁.calm hs
    obtain ⟨_, s₃, h₃, he⟩ := (quiet_advance (s₁.holding f)).past hs₁ he hname
    have hr₃ := advance_ok hl₁ (Reader.kind_ne_eof hv (by decide)) h₃
    obtain ⟨_, s₄, h₄, he⟩ := (quiet_expect s₃).past (hr₃.calm hs₁) he hname
    obtain ⟨hopen, hr₄⟩ := expect_ok (hr₃.laid hl₁) Reader.bracket_ne_eof h₄
    have hr₄ := hr₃.trans hr₄
    rw [step_of_ok (frame_eq s₄)] at he
    rcases bind_error.1 he with he | ⟨_, s₅, -, he⟩
    · have he := inScope_error he
      rw [step_of_ok (bound_eq _)] at he
      have hl₄ : s₄.entered.cursor.Laid := hr₄.laid hl₁
      have hs₄ : Calm s₄.entered := hr₄.calm hs₁
      obtain ⟨params, s₇, h₇, he⟩ := (quiet_parameters _ true s₄.entered).past hs₄ he hname
      obtain ⟨ts, e₇, hclose, hparams, -, hf₇⟩ := parameters_ok hl₄ (Nat.le_refl _) h₇
      have hl₇ := Cursor.laid_of_before hl₄ e₇
      obtain ⟨_, s₈, h₈, he⟩ := (quiet_advance s₇).past (hs₄.of_before e₇) he hname
      have hr₈ := advance_ok hl₇ (Reader.bracket_ne_eof _ hclose) h₈
      rcases bind_error.1 he with he | ⟨_, s₉, -, he⟩
      · have e₁ : s.cursor = (s₁.holding f).cursor.before [s.cursor.cur] := hr₁.cursor
        have e₄ : s₄.cursor = s₈.cursor.before (ts ++ [s₇.cursor.cur]) := Cursor.before_trans e₇ hr₈.cursor
        refine (hbe (hr₈.laid hl₇) (hr₈.calm (hs₄.of_before e₇)) he hname).lift
          (Cursor.before_trans e₁ (Cursor.before_trans hr₄.cursor e₄)) [] (List.forall_mem_nil _) ?_
        intro us body hbody _
        have hafter : env ctx.place f = (env ctx.place s.frame).bind
            { name := s₁.cursor.cur.literal, kind := .function } := by
          rw [← hr₁.frame]
          exact env_declare hf
        have hchild : env (ctx.inner s₄.frame).place s₈.frame = (env ctx.place f).child params := by
          rw [hr₈.frame, hf₇, hr₄.frame, place_inner]
          exact env_inner params
        refine ⟨[.define s₁.cursor.cur.literal params body []],
          [.scope (Stmt.afterAll ((env ctx.place f).child params) body).here []], ?_, ?_⟩
        · have hdef : Compound (DerivesExpr n) B _ (.define s₁.cursor.cur.literal params body []) :=
            .define ht hv hopen hparams hclose hbody
          simpa using Statements.more (.compound hdef) .done
        · change Stmt.observedAll _ _ = _ ++ Stmt.observedAll (env (ctx.inner s₄.frame).place s₈.frame) body
          rw [hchild, hafter]
          simp [Stmt.observedAll, Stmt.observed]
      · cases he
    · cases he
  · cases he
    simp [Token.notExpected] at hname

/-! ## Statements, blocks and programs -/

theorem statement_error (hb : BlockSound block B) (hbe : BlockStops block B) {s s' : State} (hl : s.cursor.Laid)
    (hs : Calm s) (he : statement ctx n block s = .error h s') (hname : h.OnName) :
    StatementStops ctx n B s s' h := by
  have hl' : (s.marked ctx).cursor.Laid := hl
  have hs' : Calm (s.marked ctx) := hs
  change StatementStops ctx n B (s.marked ctx) s' h
  have hother (hk : s.cursor.cur.isKeyword .def_ = false ∧ s.cursor.cur.isKeyword .for_ = false)
      (hi : s.cursor.cur.kind ≠ .identifier)
      (he : onOneLine (expressionStatement ctx n) (s.marked ctx) = .error h s') :
      StatementStops ctx n B (s.marked ctx) s' h :=
    onOneLine_error hs' (fun _ _ => expressionStatement_sound hl')
      (fun _ he => expressionStatement_error hl' hs' hk hi he hname) he hname
  by_cases hk : ∃ k, s.cursor.cur.isKeyword k = true
  · obtain ⟨k, hk⟩ := hk
    have hi : s.cursor.cur.kind ≠ .identifier := by simp [kind_of_isKeyword hk]
    rw [statement_of_keyword hk] at he
    cases k with
    | return_ =>
      exact onOneLine_error hs' (fun _ _ => returnStatement_ok hl' hk)
        (fun _ he => returnStatement_error hl' hs' hk he hname) he hname
    | print =>
      exact onOneLine_error hs' (fun _ _ => printStatement_ok hl' hk)
        (fun _ he => printStatement_error hl' hs' hk he hname) he hname
    | if_ => exact ifStatement_error hb hbe hl' hs' hk he hname
    | for_ => exact forStatement_error hbe hl' hs' hk he hname
    | while_ => exact whileStatement_error hbe hl' hs' hk he hname
    | def_ => exact defStatement_error hbe hl' hs' hk he hname
    | _ => exact hother (by simp [isKeyword_eq hk]) hi he
  · simp only [not_exists, Bool.not_eq_true] at hk
    by_cases hi : s.cursor.cur.kind = .identifier
    · rw [statement_of_identifier hi] at he
      exact onOneLine_error hs' (fun _ _ => nameStatement_ok hl' hi)
        (fun _ he => nameStatement_error hl' hs' hi he hname) he hname
    · rw [statement_of_other hk hi] at he
      exact hother ⟨hk _, hk _⟩ hi he

end

section
variable {ctx : Context} {S : Phrase Token Stmt} {one : Parser Stmt} {inBlock : Bool} {h : Halt}

/-- Statements stop in one of them, behind those that have been read. -/
theorem statements_error (hone : ∀ {s s' : State} {x : Stmt}, s.cursor.Laid → one s = .ok x s' → Parsed ctx S s x s')
    (hstops : ∀ {s s' : State}, s.cursor.Laid → Calm s → one s = .error h s' →
      Stopped (Statements S) (Stmt.observedAll (env ctx.place s.frame)) s.cursor s'.cursor h)
    (hend : EndsLine S) (hname : h.OnName) (fuel : Nat) {s s' : State} (hl : s.cursor.Laid) (hs : Calm s)
    (hn : s.cursor.cur.kind ≠ .newline) (he : statements one inBlock fuel s = .error h s') :
    Stopped (Statements S) (Stmt.observedAll (env ctx.place s.frame)) s.cursor s'.cursor h := by
  induction fuel generalizing s with
  | zero => cases he
  | succ fuel ih =>
    by_cases hk : s.cursor.cur.kind = .eof ∨ s.cursor.cur.kind = .dedent ∨ s.cursor.cur.kind = .indent
    · exfalso
      rw [statements, step_of_ok (current_eq s)] at he
      rcases hk with hk | hk | hk
      · rw [hk] at he
        cases inBlock with
        | true => exact (quiet_misplaced hs).2 h s' he hname
        | false => cases he
      · rw [hk] at he
        cases inBlock with
        | true =>
          obtain ⟨_, s₁, -, he⟩ := (quiet_advance s).past hs he hname
          cases he
        | false => exact (quiet_misplaced hs).2 h s' he hname
      · rw [hk] at he
        exact (quiet_misplaced hs).2 h s' he hname
    · rw [statements_content (by simp_all)] at he
      rcases bind_error.1 he with he | ⟨x, s₁, h₁, he⟩
      · exact hstops hl hs he
      · rw [bind_of_ok (countStatement_eq s₁)] at he
        rcases bind_error.1 he with he | ⟨_, s₂, -, he⟩
        · obtain ⟨ts, e, hx, hf⟩ := hone hl h₁
          have hafter := (resolve_observed hf).2
          have hn₁ : s₁.cursor.cur.kind ≠ .newline := by
            rw [e] at hl
            exact not_newline_of_endsLine hend hx hl
          have hrest := ih (s := s₁.counted) (by exact Cursor.laid_of_before hl e) (by exact hs.of_before e) hn₁ he
          refine hrest.lift (c := s₁.cursor) e [] (List.forall_mem_nil _) ?_
          intro us xs hxs _
          refine ⟨x :: xs, x.observed (env ctx.place s.frame), by simpa using Statements.more hx hxs, ?_⟩
          change _ = _ ++ Stmt.observedAll (env ctx.place s₁.frame) xs
          rw [hafter]
          rfl
        · cases he

end

theorem block_stops (n : Nat) : BlockStops (block n) (DerivesBlock n) := by
  induction n with
  | zero =>
    intro ctx s s' h hl hs he hname
    obtain ⟨_, s₁, h₁, he⟩ := (quiet_blockStart s).past hs he hname
    rw [bind_of_ok (current_eq s₁)] at he
    cases he
    simp [Token.tooDeep] at hname
  | succ n ih =>
    intro ctx s s' h hl hs he hname
    obtain ⟨_, s₁, h₁, he⟩ := (quiet_blockStart s).past hs he hname
    obtain ⟨c, m, i, hc, hm, hi, hr⟩ := blockStart_ok hl h₁
    rw [bind_of_ok (countBlock_eq _ s₁), bind_of_ok (bound_eq _)] at he
    have hl₁ : s₁.cursor.Laid := hr.laid hl
    have hcontent : s₁.cursor.cur.kind.isStructural = false := by
      rw [hr.cursor] at hl
      have hleads := @Cursor.leadsTo_of_laid [c, m] i s₁.cursor hl
      rw [hi] at hleads
      simpa [Token.Kind.leadsTo] using hleads
    have hn : s₁.cursor.cur.kind ≠ .newline := fun hk => by simp [hk, Token.Kind.isStructural] at hcontent
    have hone : ∀ {s s' : State} {x : Stmt}, s.cursor.Laid → statement ctx.inBlock n (block n) s = .ok x s' →
        Parsed ctx.inBlock (AnyStatement (DerivesExpr n) (DerivesBlock n)) s x s' := statement_ok (block_sound n)
    have hstopped := statements_error hone (fun hl hs he => statement_error (block_sound n) ih hl hs he hname)
      (endsLine_block n).statement hname _ (by exact hl₁) (by exact hr.calm hs) (by exact hn) he
    refine hstopped.lift (c := s₁.cursor) hr.cursor [blockEnd] (by simp [Closing, blockEnd]) ?_
    intro ts body hbody hne
    refine ⟨body, [], .mk hc hm hi hbody ?_ rfl, ?_⟩
    · rintro rfl
      exact hne rfl
    · change Stmt.observedAll (env ctx.place s.frame) body = Stmt.observedAll (env ctx.place s₁.frame) body
      rw [hr.frame]

/-- A program that reports a name has stopped on it. -/
theorem program_stops {rules : RuleSet} {n : Nat} {c : Cursor} (hl : c.Laid) (hc : ∀ h ∈ c.halt, ¬ h.OnName)
    (hn : c.cur.kind ≠ .newline) {s' : State} {h : Halt} (he : program rules n { cursor := c } = .error h s')
    (hname : h.OnName) : Stopped (DerivesProgram n) (Stmt.observedAll {}) c s'.cursor h := by
  let ctx : Context := { rules }
  have hone : ∀ {s s' : State} {x : Stmt}, s.cursor.Laid → statement ctx n (block n) s = .ok x s' →
      Parsed ctx (DerivesStatement n) s x s' := statement_ok (block_sound n)
  unfold program at he
  rw [bind_of_ok (bound_eq _)] at he
  have hstopped := statements_error hone
    (fun hl hs he => statement_error (block_sound n) (block_stops n) hl hs he hname)
    (endsLine_block n).statement hname _ (by exact hl) (by exact hc) hn he
  refine hstopped.lift (c := c) (Cursor.before_nil _).symm [sourceEnd] (by simp [Closing, sourceEnd]) ?_
  intro ts body hbody _
  exact ⟨body, [], .mk hbody rfl, rfl⟩

end Statement

namespace Compile

open Offside.Grammar Offside.Statement Offside.Expression

/-- A compilation that reports a name has stopped on it. -/
theorem compile_stops {o : Options} {source : Text} {d : Diagnostic} (h : compile o source = .error (.report d))
    (hd : d.kind = .nameError) :
    ∃ c c' scope, (tokenize source o.tabWidth).tokens = c.tokens ∧ d = (undefinedName scope c'.cur).withSource source ∧
      Stopped (DerivesProgram o.maxDepth) (Stmt.observedAll {}) c c' (.report (undefinedName scope c'.cur)) := by
  have hcalm : ∀ r ∈ (tokenize source o.tabWidth).halt, ¬ r.OnName := Scanner.run_calm _
  rcases compile_error h with ⟨-, e⟩ | ⟨t, rest, r, s', htokens, hp, e⟩
  · obtain ⟨d', hstop, rfl⟩ := withSource_report e.symm
    cases hhalt : (tokenize source o.tabWidth).halt with
    | none => simp [hhalt] at hstop
    | some r =>
      rw [hhalt, Option.getD_some] at hstop
      exact absurd ⟨d', hstop, hd⟩ (hcalm r hhalt)
  · obtain ⟨hl, hn⟩ := start_laid htokens
    let c : Cursor := ⟨t, rest, (tokenize source o.tabWidth).halt⟩
    obtain ⟨d', rfl, rfl⟩ := withSource_report e.symm
    obtain ⟨pre, line, hlocated, hcompleted⟩ := program_stops hl hcalm hn hp ⟨d', rfl, hd⟩
    obtain ⟨scope, hscope⟩ := hlocated.report
    cases hscope
    exact ⟨c, s'.cursor, scope, htokens, rfl, pre, line, hlocated, hcompleted⟩

/-- Names are resolved as the judgement of scoping says. In a compiled program every name that is read or
called is visible there, every assignment is marked just when its name was visible before, and every scope,
that of the program included, records the bindings of the judgement in the order of first declaration. And a
name is reported only where it is read and not visible: with the lines before it, the name alone on the next
line, and then closed, the tokens derive a program whose last observation is the read of that name, which its
place does not see. -/
theorem compile_scoping (o : Options) (source : Text) :
    (∀ out, compile o source = .ok out →
      let observed := Stmt.observedAll {} out.program.statements
      (∀ e x, .read e x ∈ observed → e.Visible x) ∧
      (∀ e x declared, .assigned e x declared ∈ observed → (declared = true ↔ e.Visible x)) ∧
      (∀ bindings recorded, .scope bindings recorded ∈ observed → recorded.bindings = bindings) ∧
      out.program.scope.bindings = (Stmt.afterAll {} out.program.statements).here) ∧
    ∀ d, compile o source = .error (.report d) → d.kind = .nameError →
      ∃ (pre line : List Token) (t : Token) (post : List Token),
        (tokenize source o.tabWidth).tokens = pre ++ line ++ t :: post ∧
        (t.kind = .identifier ∧ (∀ u ∈ line, u.kind.isStructural = false) ∧ ¬ Binds line post.head?) ∧
        (d.token = t.literal ∧ d.line = t.line ∧ d.column = t.column) ∧
        ∃ closers p before e, (∀ u ∈ closers, Closing u) ∧ DerivesProgram o.maxDepth (pre ++ t :: closers) p ∧
          Stmt.observedAll {} p = before ++ [.read e t.literal] ∧ ¬ e.Visible t.literal := by
  constructor
  · intro out h
    obtain ⟨-, -, hf⟩ := compile_iff_resolves.1 ⟨out, h, rfl⟩
    obtain ⟨hright, hafter⟩ := Scoping.resolveAll_observed hf
    exact ⟨fun e x hx => hright _ hx, fun e x d hx => hright _ hx, fun b r hx => hright _ hx,
      congrArg Scoping.Env.here hafter⟩
  · intro d h hd
    obtain ⟨c, c', scope, htokens, rfl, pre, line, hlocated, hcompleted⟩ := compile_stops h hd
    refine ⟨pre, line, c'.cur, c'.rest, ?_, ⟨hlocated.name, hlocated.content, hlocated.read⟩, ⟨rfl, rfl, rfl⟩,
      hcompleted⟩
    rw [htokens, hlocated.cursor, Cursor.tokens_before]
    rfl

end Compile

end Offside
