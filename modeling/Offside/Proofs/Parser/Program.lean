import Offside.Proofs.Parser.Compound
import Offside.Compile

/-!
# Compiling accepts the grammar

Main statement: compiling a source gives a program just when the scan of the source does not fail, its
tokens derive the program, and the names of the program resolve (`compile_iff_derives`).
-/

namespace Offside.Statement

open Offside.Grammar Offside.Resolution Offside.Expression Offside.Statement.Parser

/-! ## One statement -/

section
variable {ctx : Context} {n : Nat} {block : BlockParser Parser} {B : Phrase Token (List Stmt)}

/-- The state in which the beginning of a statement has been noted down. -/
def State.marked (s : State) (ctx : Context) : State :=
  { s with marks :=
      { token := s.cursor.cur, unread := s.cursor.rest.length, depth := ctx.outer.length } :: s.marks }

theorem mark_eq (s : State) : mark ctx s = .ok () (s.marked ctx) := rfl

/-- Parses an expression as a statement. -/
def expressionStatement (ctx : Context) (n : Nat) : Parser Stmt := do
  let x ← expression ctx n
  pure (.expression x)

/-- Parses the statement that begins with a keyword. -/
def keywordStatement (ctx : Context) (n : Nat) (block : BlockParser Parser) : Keyword → Parser Stmt
  | .return_ => onOneLine (returnStatement ctx n)
  | .if_ => ifStatement ctx n block
  | .for_ => forStatement ctx n block
  | .while_ => whileStatement ctx n block
  | .def_ => defStatement ctx block
  | .print => onOneLine (printStatement ctx n)
  | _ => onOneLine (expressionStatement ctx n)

theorem statement_of_keyword {s : State} {k : Keyword} (h : s.cursor.cur.isKeyword k = true) :
    statement ctx n block s = keywordStatement ctx n block k (s.marked ctx) := by
  simp only [Token.isKeyword, Bool.and_eq_true, beq_iff_eq] at h
  have hs : (s.marked ctx).cursor.cur = s.cursor.cur := rfl
  rw [statement, step_of_ok (mark_eq s), step_of_ok (current_eq _), hs, h.1, h.2]
  cases k <;> rfl

theorem statement_of_identifier {s : State} (h : s.cursor.cur.kind = .identifier) :
    statement ctx n block s = onOneLine (m := Parser) (nameStatement ctx n) (s.marked ctx) := by
  have hs : (s.marked ctx).cursor.cur = s.cursor.cur := rfl
  rw [statement, step_of_ok (mark_eq s), step_of_ok (current_eq _), hs, h]

theorem statement_of_other {s : State} (hk : ∀ k, s.cursor.cur.isKeyword k = false)
    (hi : s.cursor.cur.kind ≠ .identifier) :
    statement ctx n block s = onOneLine (expressionStatement ctx n) (s.marked ctx) := by
  have hs : (s.marked ctx).cursor.cur = s.cursor.cur := rfl
  rw [statement, step_of_ok (mark_eq s), step_of_ok (current_eq _), hs]
  cases hkind : s.cursor.cur.kind with
  | keyword =>
    cases hsub : s.cursor.cur.subtype with
    | keyword k => simp [Token.isKeyword, hkind, hsub] at hk
    | _ => rfl
  | identifier => exact absurd hkind hi
  | _ => rfl

theorem expressionStatement_sound {s s' : State} {x : Stmt} (hl : s.cursor.Laid)
    (h : expressionStatement ctx n s = .ok x s') : Parsed ctx (Simple (DerivesExpr n)) s x s' := by
  obtain ⟨y, s₁, h₁, h⟩ := bind_ok.1 h
  obtain ⟨rfl, rfl⟩ := pure_ok.1 h
  exact expressionStatement_ok hl h₁

theorem Parsed.compound {s s' : State} {x : Stmt} (h : Parsed ctx (Compound (DerivesExpr n) B) s x s') :
    Parsed ctx (AnyStatement (DerivesExpr n) B) s x s' := by
  obtain ⟨ts, e, hx, hf⟩ := h
  exact ⟨ts, e, .compound hx, hf⟩

theorem statement_ok (hb : BlockSound block B) {s s' : State} {x : Stmt} (hl : s.cursor.Laid)
    (h : statement ctx n block s = .ok x s') : Parsed ctx (AnyStatement (DerivesExpr n) B) s x s' := by
  have hl' : (s.marked ctx).cursor.Laid := hl
  change Parsed ctx (AnyStatement (DerivesExpr n) B) (s.marked ctx) x s'
  by_cases hk : ∃ k, s.cursor.cur.isKeyword k = true
  · obtain ⟨k, hk⟩ := hk
    rw [statement_of_keyword hk] at h
    cases k with
    | return_ => exact onOneLine_ok hl' (fun _ _ => returnStatement_ok hl' hk) h
    | print => exact onOneLine_ok hl' (fun _ _ => printStatement_ok hl' hk) h
    | if_ => exact (ifStatement_ok hb hl' hk h).compound
    | for_ => exact (forStatement_ok hb hl' hk h).compound
    | while_ => exact (whileStatement_ok hb hl' hk h).compound
    | def_ => exact (defStatement_ok hb hl' hk h).compound
    | _ => exact onOneLine_ok hl' (fun _ _ => expressionStatement_sound hl') h
  · by_cases hi : s.cursor.cur.kind = .identifier
    · rw [statement_of_identifier hi] at h
      exact onOneLine_ok hl' (fun _ _ => nameStatement_ok hl' hi) h
    · rw [statement_of_other (by simpa using hk) hi] at h
      exact onOneLine_ok hl' (fun _ _ => expressionStatement_sound hl') h

theorem expressionStatement_on {s : State} {ts : List Token} {y : Expr} {c : Cursor} (hx : DerivesExpr n ts y)
    (hsees : ctx.place.sees s.frame y.names = true) (hc : c.cur.kind = .newline) :
    expressionStatement ctx n (s.on (c.before ts)) = .ok (.expression y) (s.on c) := by
  unfold expressionStatement
  rw [bind_of_ok (expression_on hx hsees (newline_stops hc).1)]
  rfl

/-- The beginning of a statement at `c` has been noted down. -/
def State.noted (s : State) (ctx : Context) (c : Cursor) : State := (s.on c).marked ctx

section
variable {s : State} {t : Token} {c : Cursor}

theorem keyword_on {k : Keyword} (h : t.isKeyword k = true) :
    statement ctx n block (s.on (c.back t)) =
      keywordStatement ctx n block k ((s.noted ctx (c.back t)).on (c.back t)) :=
  statement_of_keyword (by exact h)

theorem identifier_on (h : t.kind = .identifier) :
    statement ctx n block (s.on (c.back t)) =
      onOneLine (m := Parser) (nameStatement ctx n) ((s.noted ctx (c.back t)).on (c.back t)) :=
  statement_of_identifier (by exact h)

theorem other_on (hk : ∀ k, t.isKeyword k = false) (hi : t.kind ≠ .identifier) :
    statement ctx n block (s.on (c.back t)) =
      onOneLine (expressionStatement ctx n) ((s.noted ctx (c.back t)).on (c.back t)) :=
  statement_of_other (by exact hk) (by exact hi)

end

/-- A statement that is an expression, by its first token. -/
theorem statement_expression {s : State} {ts : List Token} {y : Expr} {t : Token} {c : Cursor}
    (hx : DerivesExpr n ts y) (hsees : ctx.place.sees s.frame y.names = true) (ht : t.kind = .newline) :
    ∃ s' : State, statement ctx n block (s.on ((c.back t).before ts)) = .ok (.expression y) (s'.on c) ∧
      s'.frame = s.frame := by
  obtain ⟨u, us, rfl, hu⟩ := heads_derives n ts y hx
  let s₀ : State := s.noted ctx ((c.back t).before (u :: us))
  have hname : nameStatement (m := Parser) ctx n (s₀.on ((c.back t).before (u :: us))) =
      .ok (.expression y) (s₀.on (c.back t)) := nameStatement_expression hx hsees ht
  have hother : expressionStatement ctx n (s₀.on ((c.back t).before (u :: us))) =
      .ok (.expression y) (s₀.on (c.back t)) := expressionStatement_on hx hsees ht
  refine ⟨s₀, ?_, rfl⟩
  rw [Cursor.before_cons]
  by_cases hi : u.kind = .identifier
  · rw [identifier_on hi]
    exact onOneLine_on ht hname
  · by_cases hk : ∃ k, u.isKeyword k = true
    · obtain ⟨k, hk⟩ := hk
      rw [keyword_on hk]
      simp only [Begins, BeginsUnary, BeginsPrimary, kind_of_isKeyword hk, isKeyword_eq hk, Token.isBracket,
        Token.isOperator] at hu
      cases k <;> first | exact onOneLine_on ht hother | simp at hu
    · rw [other_on (by simpa using hk) hi]
      exact onOneLine_on ht hother

theorem statement_simple {s : State} {ts : List Token} {x : Stmt} {t : Token} {f : Frame} {c : Cursor}
    (hx : Simple (DerivesExpr n) ts x) (ht : t.kind = .newline) (hf : x.resolve ctx.place s.frame = some f) :
    ∃ s' : State, statement ctx n block (s.on ((c.back t).before ts)) = .ok x (s'.on c) ∧ s'.frame = f := by
  have hf' : x.resolve ctx.place (s.noted ctx ((c.back t).before ts)).frame = some f := hf
  cases hx with
  | ret hu =>
    rw [Cursor.before_cons, keyword_on hu]
    obtain ⟨h, hs⟩ := returnStatement_none (c := c.back t) hf' ht
    exact ⟨_, onOneLine_on ht h, hs⟩
  | values hu hx =>
    rw [Cursor.before_cons, keyword_on hu]
    obtain ⟨h, hs⟩ := returnStatement_values (c := c.back t) hx hf' ht
    exact ⟨_, onOneLine_on ht h, hs⟩
  | print hu hl hx hr =>
    rw [Cursor.before_cons, keyword_on hu]
    obtain ⟨h, hs⟩ := printStatement_on (c := c.back t) hl hx hr hf'
    exact ⟨_, onOneLine_on ht h, hs⟩
  | assign hu ho hx =>
    rw [Cursor.before_cons, identifier_on hu]
    have h := nameStatement_assign (c := c.back t) ho hx hf' ht
    exact ⟨_, onOneLine_on ht h, rfl⟩
  | expression hx =>
    simp only [Stmt.resolve, Option.ite_none_right_eq_some, Option.some.injEq] at hf
    obtain ⟨hsees, rfl⟩ := hf
    exact statement_expression hx hsees ht

theorem statement_compound (hb : BlockComplete block B) (hB : Colon B) {s : State} {ts : List Token} {x : Stmt}
    {f : Frame} {c : Cursor} (hx : Compound (DerivesExpr n) B ts x) (hf : x.resolve ctx.place s.frame = some f)
    (hc : StopsClauses c.cur) :
    ∃ s' : State, statement ctx n block (s.on (c.before ts)) = .ok x (s'.on c) ∧ s'.frame = f := by
  have hf' : x.resolve ctx.place (s.noted ctx (c.before ts)).frame = some f := hf
  cases hx with
  | ifChain ht hx hbody hrest =>
    rw [Cursor.before_cons, keyword_on ht]
    exact ifStatement_on hb hB hx hbody hrest hf' hc
  | whileLoop ht hx hbody =>
    rw [Cursor.before_cons, keyword_on ht]
    exact whileStatement_on hb hB hx hbody hf'
  | forRange ht hn hi hk hl hx hargs hr hbody =>
    rw [Cursor.before_cons, keyword_on ht]
    exact forStatement_on hb hn hi hk hl hx hargs hr hbody hf'
  | define ht hn hl hx hr hbody =>
    rw [Cursor.before_cons, keyword_on ht]
    exact defStatement_on hb hn hl hx hr hbody hf'

theorem statement_on (hb : BlockComplete block B) (hB : Colon B) {s : State} {ts : List Token} {x : Stmt}
    {f : Frame} {c : Cursor} (hx : AnyStatement (DerivesExpr n) B ts x)
    (hf : x.resolve ctx.place s.frame = some f) (hc : StopsClauses c.cur) :
    ∃ s' : State, statement ctx n block (s.on (c.before ts)) = .ok x (s'.on c) ∧ s'.frame = f := by
  cases hx with
  | simple hx ht =>
    rw [Cursor.before_append]
    exact statement_simple hx ht hf
  | compound hx => exact statement_compound hb hB hx hf hc

end

/-! ## Statements one after another -/

/-- The tokens that a statement begins with: content, and not that of a further clause. -/
def Opens (t : Token) : Prop := t.kind.isStructural = false ∧ StopsClauses t

/-- Each phrase ends its line: with a line end, or with the end of a block. -/
def EndsLine {α : Type} (A : Phrase Token α) : Prop :=
  ∀ ts x, A ts x → ∃ us t, ts = us ++ [t] ∧ (t.kind = .newline ∨ t.kind = .dedent)

section
variable {n : Nat} {B : Phrase Token (List Stmt)}

theorem opens_of_keyword {t : Token} {k : Keyword} (h : t.isKeyword k = true) (hk : k ≠ .elif ∧ k ≠ .else_) :
    Opens t := by
  refine ⟨by rw [kind_of_isKeyword h]; rfl, ?_⟩
  simpa [StopsClauses, isKeyword_eq h] using hk

theorem opens_of_begins {t : Token} (h : Begins t) : Opens t := by
  refine ⟨h.content, ?_⟩
  by_cases hk : ∃ k, t.isKeyword k = true
  · obtain ⟨k, hk⟩ := hk
    simp only [Begins, BeginsUnary, BeginsPrimary, kind_of_isKeyword hk, isKeyword_eq hk, Token.isBracket,
      Token.isOperator] at h
    simp only [StopsClauses, isKeyword_eq hk]
    cases k <;> simp_all
  · simp only [not_exists, Bool.not_eq_true] at hk
    exact ⟨hk _, hk _⟩

/-- No statement begins with a token of the layout. -/
theorem Opens.kind_ne {t : Token} (h : Opens t) :
    ∀ k ∈ [Token.Kind.eof, .dedent, .indent, .newline], t.kind ≠ k := by
  rintro k hk rfl
  have hcontent := h.1
  simp only [List.mem_cons, List.not_mem_nil, or_false] at hk
  rcases hk with hk | hk | hk | hk <;> simp [hk, Token.Kind.isStructural] at hcontent

theorem opens_of_name {t : Token} (h : t.kind = .identifier) : Opens t :=
  opens_of_begins (.inl (.inl (.inr (.inr (.inl h)))))

theorem opens_simple : Heads Opens (Simple (DerivesExpr n)) := by
  intro ts x h
  cases h with
  | ret ht => exact ⟨_, _, rfl, opens_of_keyword ht (by decide)⟩
  | values ht _ => exact ⟨_, _, rfl, opens_of_keyword ht (by decide)⟩
  | print ht _ _ _ => exact ⟨_, _, rfl, opens_of_keyword ht (by decide)⟩
  | assign ht _ _ => exact ⟨_, _, rfl, opens_of_name ht⟩
  | expression hx =>
    obtain ⟨t, us, rfl, ht⟩ := heads_derives n _ _ hx
    exact ⟨t, us, rfl, opens_of_begins ht⟩

theorem opens_statement : Heads Opens (AnyStatement (DerivesExpr n) B) := by
  intro ts x h
  cases h with
  | simple h _ =>
    obtain ⟨t, us, rfl, ht⟩ := opens_simple _ _ h
    exact ⟨t, _, rfl, ht⟩
  | compound h =>
    cases h with
    | ifChain ht _ _ _ => exact ⟨_, _, rfl, opens_of_keyword ht (by decide)⟩
    | forRange ht _ _ _ _ _ _ _ _ => exact ⟨_, _, rfl, opens_of_keyword ht (by decide)⟩
    | whileLoop ht _ _ => exact ⟨_, _, rfl, opens_of_keyword ht (by decide)⟩
    | define ht _ _ _ _ _ => exact ⟨_, _, rfl, opens_of_keyword ht (by decide)⟩

theorem EndsLine.elifs {E : Phrase Token Expr} (hB : EndsLine B) {ts : List Token} {cs : List Clause}
    (h : Elifs E B ts cs) : ts = [] ∨ ∃ us t, ts = us ++ [t] ∧ (t.kind = .newline ∨ t.kind = .dedent) := by
  induction h with
  | done => exact .inl rfl
  | @elif t ts us vs x body cs _ _ hb _ ih =>
    right
    obtain ⟨us', d, rfl, hd⟩ := hB _ _ hb
    rcases ih with rfl | ⟨vs', e, rfl, he⟩
    · exact ⟨t :: (ts ++ us'), d, by simp, hd⟩
    · exact ⟨t :: (ts ++ (us' ++ [d] ++ vs')), e, by simp, he⟩
  | @last t us body _ hb =>
    obtain ⟨us', d, rfl, hd⟩ := hB _ _ hb
    exact .inr ⟨t :: us', d, rfl, hd⟩

theorem EndsLine.statement {E : Phrase Token Expr} (hB : EndsLine B) : EndsLine (AnyStatement E B) := by
  intro ts x h
  cases h with
  | simple _ hn => exact ⟨_, _, rfl, .inl hn⟩
  | compound h =>
    cases h with
    | @ifChain t ts us vs x body cs _ _ hb hrest =>
      obtain ⟨us', d, rfl, hd⟩ := hB _ _ hb
      rcases hB.elifs hrest with rfl | ⟨vs', e, rfl, he⟩
      · exact ⟨t :: (ts ++ us'), d, by simp, hd⟩
      · exact ⟨t :: (ts ++ (us' ++ [d] ++ vs')), e, by simp, he⟩
    | @forRange t n i k l r ts us args start stop step body scope _ _ _ _ _ _ _ _ hb =>
      obtain ⟨us', d, rfl, hd⟩ := hB _ _ hb
      exact ⟨t :: n :: i :: k :: l :: (ts ++ r :: us'), d, by simp, hd⟩
    | @whileLoop t ts us x body _ _ hb =>
      obtain ⟨us', d, rfl, hd⟩ := hB _ _ hb
      exact ⟨t :: (ts ++ us'), d, by simp, hd⟩
    | @define t n l r ts us params body scope _ _ _ _ _ hb =>
      obtain ⟨us', d, rfl, hd⟩ := hB _ _ hb
      exact ⟨t :: n :: l :: (ts ++ r :: us'), d, by simp, hd⟩

end

/-- How statements end: with the tokens passed over behind the last of them, and where the parser then
stands. In a block that is behind a dedent, in a program at the end of the source. -/
inductive Closes : Bool → List Token → Cursor → Prop
  | dedent {d : Token} {c : Cursor} (h : d.kind = .dedent) : Closes true [d] c
  | eof {c : Cursor} (h : c.cur.kind = .eof) : Closes false [] c

/-- No conditional goes on behind the last statement. -/
theorem Closes.stops {inBlock : Bool} {us : List Token} {c : Cursor} (h : Closes inBlock us c) :
    StopsClauses (c.before us).cur := by
  cases h with
  | dedent h => simp [StopsClauses, Token.isKeyword, h]
  | eof h => simp [StopsClauses, Token.isKeyword, h]

/-- The state in which a further statement has been counted. -/
def State.counted (s : State) : State :=
  { s with tally := { s.tally with statements := s.tally.statements + 1 } }

theorem countStatement_eq (s : State) : countStatement s = .ok () s.counted := rfl

section
variable {one : Parser Stmt} {inBlock : Bool} {fuel : Nat} {s s' : State} {xs : List Stmt}

theorem statements_content (hk : ∀ k ∈ [Token.Kind.eof, .dedent, .indent, .newline], s.cursor.cur.kind ≠ k) :
    statements one inBlock (fuel + 1) s = (do
      let x ← one
      countStatement
      let rest ← statements one inBlock fuel
      pure (x :: rest)) s := by
  rw [statements, step_of_ok (current_eq s)]
  cases h : s.cursor.cur.kind with
  | eof | dedent | indent | newline => exact absurd h (hk _ (by decide))
  | _ => rfl

/-- Where the parser ends without a statement. -/
theorem statements_nil (hl : s.cursor.Laid)
    (hk : s.cursor.cur.kind = .eof ∨ s.cursor.cur.kind = .dedent ∨ s.cursor.cur.kind = .indent)
    (h : statements one inBlock (fuel + 1) s = .ok xs s') :
    xs = [] ∧ ∃ us, Closes inBlock us s'.cursor ∧ Reads s us s' := by
  rw [statements, step_of_ok (current_eq s)] at h
  rcases hk with hk | hk | hk
  · rw [hk] at h
    cases inBlock with
    | true => cases h
    | false =>
      obtain ⟨rfl, rfl⟩ := pure_ok.1 h
      exact ⟨rfl, [], .eof hk, rfl, rfl⟩
  · rw [hk] at h
    cases inBlock with
    | false => cases h
    | true =>
      obtain ⟨_, s₁, h₁, h⟩ := bind_ok.1 h
      obtain ⟨rfl, rfl⟩ := pure_ok.1 h
      exact ⟨rfl, _, .dedent hk, advance_ok hl (Reader.kind_ne_eof hk (by decide)) h₁⟩
  · rw [hk] at h
    cases h

theorem closes_on {us : List Token} {c : Cursor} (h : Closes inBlock us c) (s : State) :
    statements one inBlock (fuel + 1) (s.on (c.before us)) = .ok [] (s.on c) := by
  rw [statements, step_of_ok (current_eq _)]
  cases h with
  | @dedent d _ hd =>
    rw [Cursor.before_cons, State.cursor_on, Cursor.cur_back, hd]
    exact bind_of_ok (advance_on s d c)
  | eof hk =>
    rw [Cursor.before_nil, State.cursor_on, hk]
    rfl

end

section
variable {ctx : Context} {S : Phrase Token Stmt} {one : Parser Stmt} {inBlock : Bool}

theorem resolveAll_cons {p : Place} {f f' : Frame} {x : Stmt} {xs : List Stmt} :
    Stmt.resolveAll p f (x :: xs) = some f' ↔
      ∃ g, x.resolve p f = some g ∧ Stmt.resolveAll p g xs = some f' := by
  simp [Stmt.resolveAll, Option.bind_eq_some_iff]

/-- Behind a statement no line end stands, as the statement has passed over its own. -/
theorem not_newline_of_endsLine (hend : EndsLine S) {ts : List Token} {x : Stmt} {c : Cursor} (hx : S ts x)
    (hl : (c.before ts).Laid) : c.cur.kind ≠ .newline := by
  obtain ⟨us, t, rfl, ht⟩ := hend _ _ hx
  have hleads := Cursor.leadsTo_of_laid hl
  intro hc
  rw [hc] at hleads
  rcases ht with ht | ht
  · rw [ht] at hleads
    cases hleads
  · rw [ht] at hleads
    cases hleads

theorem statements_ok (hone : ∀ {s s' : State} {x : Stmt}, s.cursor.Laid → one s = .ok x s' → Parsed ctx S s x s')
    (hend : EndsLine S) (fuel : Nat) {s s' : State} {xs : List Stmt} (hl : s.cursor.Laid)
    (hn : s.cursor.cur.kind ≠ .newline) (hfuel : s.cursor.bound ≤ fuel)
    (h : statements one inBlock fuel s = .ok xs s') :
    ∃ ts us, Statements S ts xs ∧ Closes inBlock us s'.cursor ∧ s.cursor = s'.cursor.before (ts ++ us) ∧
      Stmt.resolveAll ctx.place s.frame xs = some s'.frame := by
  induction fuel generalizing s xs with
  | zero => exact absurd (bound_pos s.cursor) (by omega)
  | succ fuel ih =>
    by_cases hk : s.cursor.cur.kind = .eof ∨ s.cursor.cur.kind = .dedent ∨ s.cursor.cur.kind = .indent
    · obtain ⟨rfl, us, hus, hr⟩ := statements_nil hl hk h
      exact ⟨[], us, .done, hus, hr.cursor, by rw [hr.frame]; rfl⟩
    · rw [statements_content (by simp_all)] at h
      obtain ⟨x, s₁, h₁, h⟩ := bind_ok.1 h
      rw [bind_of_ok (countStatement_eq s₁)] at h
      obtain ⟨rest, s₂, h₂, h⟩ := bind_ok.1 h
      obtain ⟨rfl, rfl⟩ := pure_ok.1 h
      obtain ⟨ts, e, hx, hf⟩ := hone hl h₁
      rw [e] at hl hfuel
      have hbound : s₁.cursor.bound ≤ fuel := by
        obtain ⟨us, t, rfl, -⟩ := hend _ _ hx
        rw [Cursor.bound_before, List.length_append, List.length_singleton] at hfuel
        omega
      obtain ⟨us, vs, hus, hvs, e₂, hf₂⟩ := ih (s := s₁.counted) (by exact Cursor.laid_before hl)
        (by exact not_newline_of_endsLine hend hx hl) (by exact hbound) h₂
      refine ⟨ts ++ us, vs, .more hx hus, hvs, ?_, resolveAll_cons.2 ⟨_, hf, hf₂⟩⟩
      rw [List.append_assoc]
      exact Cursor.before_trans e e₂

theorem statements_on (hone : ∀ {s : State} {ts : List Token} {x : Stmt} {f : Frame} {c : Cursor}, S ts x →
      x.resolve ctx.place s.frame = some f → StopsClauses c.cur →
      ∃ s' : State, one (s.on (c.before ts)) = .ok x (s'.on c) ∧ s'.frame = f)
    (hopens : Heads Opens S) {ts us : List Token} {xs : List Stmt} {c : Cursor} (hx : Statements S ts xs)
    (hus : Closes inBlock us c) {fuel : Nat} (hfuel : ts.length < fuel) {s : State} {f : Frame}
    (hf : Stmt.resolveAll ctx.place s.frame xs = some f) :
    ∃ s' : State, statements one inBlock fuel (s.on (c.before (ts ++ us))) = .ok xs (s'.on c) ∧ s'.frame = f := by
  induction hx generalizing fuel s with
  | done =>
    cases hf
    obtain ⟨fuel, rfl⟩ := Nat.exists_eq_succ_of_ne_zero (Nat.ne_zero_of_lt hfuel)
    exact ⟨s, closes_on hus s, rfl⟩
  | @more ts vs x xs hx hrest ih =>
    obtain ⟨g, hg, hf⟩ := resolveAll_cons.1 hf
    obtain ⟨fuel, rfl⟩ := Nat.exists_eq_succ_of_ne_zero (Nat.ne_zero_of_lt hfuel)
    have hstops : StopsClauses (c.before (vs ++ us)).cur := by
      cases hrest with
      | done => exact hus.stops
      | more hy _ =>
        obtain ⟨t, ws, rfl, ht⟩ := hopens _ _ hy
        exact ht.2
    obtain ⟨s₁, h₁, rfl⟩ := hone hx hg hstops
    obtain ⟨t, ws, rfl, ht⟩ := hopens _ _ hx
    obtain ⟨s₂, h₂, hs₂⟩ := @ih fuel (by simp at hfuel; omega) s₁.counted hf
    refine ⟨s₂, ?_, hs₂⟩
    rw [List.append_assoc, Cursor.before_append, statements_content ht.kind_ne, bind_of_ok h₁,
      bind_of_ok (countStatement_eq _)]
    exact bind_of_ok h₂

end

/-! ## Blocks -/

section
variable {s s' : State}

theorem delimiter_ne_eof {d : Delimiter} {t : Token} (h : t.isDelimiter d = true) : t.kind ≠ .eof := by
  simp only [Token.isDelimiter, Bool.and_eq_true, beq_iff_eq] at h
  exact Reader.kind_ne_eof h.1 (by decide)

theorem blockStart_ok (hl : s.cursor.Laid) (h : blockStart s = .ok () s') :
    ∃ c n i : Token, c.isDelimiter .colon = true ∧ n.kind = .newline ∧ i.kind = .indent ∧ Reads s [c, n, i] s' := by
  obtain ⟨_, s₁, h₁, h⟩ := bind_ok.1 h
  obtain ⟨hc, hr₁⟩ := expect_ok hl (fun _ => delimiter_ne_eof) h₁
  rw [bind_of_ok (current_eq s₁)] at h
  split at h
  · next hn =>
    obtain ⟨_, s₂, h₂, h⟩ := bind_ok.1 h
    have hr₂ := hr₁.trans (advance_ok (hr₁.laid hl) (Reader.kind_ne_eof hn (by decide)) h₂)
    rw [bind_of_ok (current_eq s₂)] at h
    split at h
    · next hi =>
      have hr₃ := hr₂.trans (advance_ok (hr₂.laid hl) (Reader.kind_ne_eof hi (by decide)) h)
      exact ⟨_, _, _, hc, hn, hi, hr₃⟩
    · cases h
  · cases h

theorem blockStart_on {c n i : Token} (hc : c.isDelimiter .colon = true) (hn : n.kind = .newline)
    (hi : i.kind = .indent) (s : State) (d : Cursor) : blockStart (s.on (d.before [c, n, i])) = .ok () (s.on d) := by
  simp only [Cursor.before_cons, Cursor.before_nil]
  unfold blockStart
  rw [bind_of_ok (expect_on hc s _), bind_of_ok (current_eq _), State.cursor_on, Cursor.cur_back, if_pos hn,
    bind_of_ok (advance_on s n _), bind_of_ok (current_eq _), State.cursor_on, Cursor.cur_back, if_pos hi]
  exact advance_on s i d

end

/-- What surrounds the statements of a block. -/
def Context.inBlock (ctx : Context) : Context := { ctx with blockDepth := ctx.blockDepth + 1 }

/-- The state in which the depth of a block has been noted. -/
def State.deepened (s : State) (depth : Nat) : State :=
  { s with tally := { s.tally with maxBlockDepth := max s.tally.maxBlockDepth depth } }

theorem countBlock_eq (depth : Nat) (s : State) : countBlock depth s = .ok () (s.deepened depth) := rfl

theorem colon_block (n : Nat) : Colon (DerivesBlock n) := by
  intro ts body h
  cases n with
  | zero => cases h
  | succ n =>
    obtain ⟨hc, _, _, _, _, _⟩ := h
    exact ⟨_, _, rfl, hc⟩

theorem endsLine_block (n : Nat) : EndsLine (DerivesBlock n) := by
  intro ts body h
  cases n with
  | zero => cases h
  | @succ n =>
    cases h with
    | @mk c n i d ts ss _ _ _ _ _ hd => exact ⟨c :: n :: i :: ts, d, rfl, .inr hd⟩

theorem block_sound (n : Nat) : BlockSound (block n) (DerivesBlock n) := by
  induction n with
  | zero =>
    intro ctx s s' body hl h
    obtain ⟨_, s₁, h₁, h⟩ := bind_ok.1 h
    cases h
  | succ n ih =>
    intro ctx s s' body hl h
    obtain ⟨_, s₁, h₁, h⟩ := bind_ok.1 h
    obtain ⟨c, m, i, hc, hm, hi, hr⟩ := blockStart_ok hl h₁
    rw [bind_of_ok (countBlock_eq _ s₁), bind_of_ok (bound_eq _)] at h
    have hl₁ : s₁.cursor.Laid := hr.laid hl
    have hcontent : s₁.cursor.cur.kind.isStructural = false := by
      rw [hr.cursor] at hl
      have hleads := @Cursor.leadsTo_of_laid [c, m] i s₁.cursor hl
      rw [hi] at hleads
      simpa [Token.Kind.leadsTo] using hleads
    have hone : ∀ {s s' : State} {x : Stmt}, s.cursor.Laid → statement ctx.inBlock n (block n) s = .ok x s' →
        Parsed ctx.inBlock (AnyStatement (DerivesExpr n) (DerivesBlock n)) s x s' := statement_ok ih
    have hn : s₁.cursor.cur.kind ≠ .newline := fun hk => by simp [hk, Token.Kind.isStructural] at hcontent
    obtain ⟨ts, us, hts, hus, e, hf⟩ := statements_ok hone (endsLine_block n).statement _ (by exact hl₁)
      (by exact hn) (Nat.le_refl _) h
    cases hus with
    | @dedent d _ hd =>
      refine ⟨_, Cursor.before_trans hr.cursor e, .mk hc hm hi hts ?_ hd, ?_⟩
      · -- no dedent stands behind an indent, so there is a statement
        rintro rfl
        cases hts
        have hcur : s₁.cursor.cur = d := congrArg Cursor.cur e
        simp [hcur, hd, Token.Kind.isStructural] at hcontent
      · rw [← hr.frame]
        exact hf

theorem block_complete (n : Nat) : BlockComplete (block n) (DerivesBlock n) := by
  induction n with
  | zero =>
    intro ctx s ts body f c h
    cases h
  | succ n ih =>
    intro ctx s ts body f c h hf
    cases h with
    | @mk k m i d ts ss hk hm hi hts _ hd =>
      have hone : ∀ {s : State} {ts : List Token} {x : Stmt} {f : Frame} {c : Cursor},
          AnyStatement (DerivesExpr n) (DerivesBlock n) ts x → x.resolve ctx.inBlock.place s.frame = some f →
          StopsClauses c.cur → ∃ s' : State, statement ctx.inBlock n (block n) (s.on (c.before ts)) = .ok x (s'.on c) ∧
            s'.frame = f := statement_on ih (colon_block n)
      have hfuel : ts.length < (c.before (ts ++ [d])).bound := by
        rw [Cursor.bound_before, List.length_append, List.length_singleton]
        omega
      obtain ⟨s₁, h₁, hs₁⟩ := @statements_on _ _ _ true hone opens_statement _ _ _ _ hts (.dedent hd) _ hfuel
        (s.deepened (ctx.blockDepth + 1)) f hf
      refine ⟨s₁, ?_, hs₁⟩
      have hstart : c.before (k :: m :: i :: (ts ++ [d])) = (c.before (ts ++ [d])).before [k, m, i] := rfl
      rw [hstart, block, bind_of_ok (blockStart_on hk hm hi s _), bind_of_ok (countBlock_eq _ _),
        bind_of_ok (bound_eq _)]
      exact h₁

/-! ## Programs -/

/-- The statements of a program are read from the start of its tokens. -/
theorem program_iff {rules : RuleSet} {n : Nat} {c : Cursor} (hl : c.Laid) (hn : c.cur.kind ≠ .newline)
    {p : List Stmt} {f : Frame} :
    (∃ s', program rules n { cursor := c } = .ok p s' ∧ s'.frame = f) ↔
      c.halt = none ∧ DerivesProgram n c.tokens p ∧ Stmt.resolveAll { rules } [] p = some f := by
  let ctx : Context := { rules }
  constructor
  · rintro ⟨s', h, rfl⟩
    have hone : ∀ {s s' : State} {x : Stmt}, s.cursor.Laid → statement ctx n (block n) s = .ok x s' →
        Parsed ctx (DerivesStatement n) s x s' := statement_ok (block_sound n)
    unfold program at h
    rw [bind_of_ok (bound_eq _)] at h
    obtain ⟨ts, us, hts, hus, e, hf⟩ := statements_ok hone (endsLine_block n).statement _ (by exact hl) hn
      (Nat.le_refl _) h
    cases hus with
    | eof hk =>
      rw [List.append_nil] at e
      have e : c = s'.cursor.before ts := e
      rw [e] at hl
      obtain ⟨hrest, hhalt⟩ := (Cursor.laid_before hl).at_eof hk
      refine ⟨by rw [e, Cursor.halt_before, hhalt], ?_, hf⟩
      rw [e, Cursor.tokens_before, Cursor.tokens, hrest]
      exact .mk hts hk
  · rintro ⟨hhalt, hp, hf⟩
    have hone : ∀ {s : State} {ts : List Token} {x : Stmt} {f : Frame} {c : Cursor}, DerivesStatement n ts x →
        x.resolve ctx.place s.frame = some f → StopsClauses c.cur →
        ∃ s' : State, statement ctx n (block n) (s.on (c.before ts)) = .ok x (s'.on c) ∧ s'.frame = f :=
      statement_on (block_complete n) (colon_block n)
    generalize htokens : c.tokens = tokens at hp
    cases hp with
    | @mk t ts _ hts ht =>
      let e : Cursor := { cur := t, rest := [] }
      obtain rfl : c = e.before ts :=
        Cursor.eq_of_tokens (htokens.trans (Cursor.tokens_before ts e).symm) (by simpa using hhalt)
      have hfuel : ts.length < (e.before ts).bound := by
        rw [Cursor.bound_before]
        exact Nat.lt_add_of_pos_right (bound_pos e)
      obtain ⟨s', h, hs'⟩ := @statements_on _ _ _ false hone opens_statement _ _ _ e hts (.eof ht) _ hfuel
        { cursor := e } f hf
      rw [List.append_nil] at h
      refine ⟨s'.on e, ?_, hs'⟩
      unfold program
      rw [bind_of_ok (bound_eq _)]
      exact h

end Offside.Statement

namespace Offside.Compile

open Offside.Grammar Offside.Resolution Offside.Statement

/-- Where parsing starts, if the scan gives a first token. -/
theorem start_laid {source : Text} {tabWidth : Int} {t : Token} {rest : List Token}
    (h : (tokenize source tabWidth).tokens = t :: rest) :
    Cursor.Laid { cur := t, rest, halt := (tokenize source tabWidth).halt } ∧ t.kind ≠ .newline := by
  obtain ⟨k, hleads, hend⟩ := Scanner.run_leads (Scanner.Stands.ofSource source tabWidth)
  change Token.Kind.Leads .newline ((tokenize source tabWidth).tokens.map (·.kind)) k at hleads
  rw [h] at hleads
  cases hleads with
  | cons hstep hrest =>
    refine ⟨⟨k, hrest, hend⟩, fun ht => ?_⟩
    simp [ht, Token.Kind.leadsTo] at hstep

theorem withSource_report {source : Text} {h : Halt} {d : Diagnostic} (e : withSource source h = .report d) :
    ∃ d', h = .report d' ∧ d = d'.withSource source := by
  cases h with
  | report d' =>
    cases e
    exact ⟨d', rfl, rfl⟩
  | _ => cases e

theorem ok_of_toOption {ε α : Type} {r : Except ε α} {a : α} (h : r.toOption = some a) : r = .ok a := by
  cases r with
  | error e => cases h
  | ok b =>
    cases h
    rfl

/-- Compiling succeeds just when parsing does, from the first token of the scan. -/
theorem compile_ok {o : Options} {source : Text} {p : List Stmt} {f : Frame} :
    (∃ out, compile o source = .ok out ∧ out.program = { statements := p, scope := f }) ↔
      ∃ t rest, (tokenize source o.tabWidth).tokens = t :: rest ∧
        ∃ s', program o.rules o.maxDepth { cursor := ⟨t, rest, (tokenize source o.tabWidth).halt⟩ } = .ok p s' ∧
          s'.frame = f := by
  unfold compile run parseTokens
  cases (tokenize source o.tabWidth).tokens with
  | nil => simp
  | cons t rest =>
    dsimp only
    simp only [List.cons.injEq]
    constructor
    · intro h
      refine ⟨t, rest, ⟨rfl, rfl⟩, ?_⟩
      cases hp : program o.rules o.maxDepth { cursor := ⟨t, rest, (tokenize source o.tabWidth).halt⟩ } with
      | ok statements s' =>
        obtain ⟨rfl, rfl⟩ : statements = p ∧ s'.frame = f := by simpa [hp] using h
        exact ⟨s', rfl, rfl⟩
      | error e s' => simp [hp] at h
    · rintro ⟨t, rest, ⟨rfl, rfl⟩, s', hp, rfl⟩
      simp [hp]

/-- Compiling fails where parsing does, or there is no first token to parse from. -/
theorem compile_error {o : Options} {source : Text} {h : Halt} (he : compile o source = .error h) :
    ((tokenize source o.tabWidth).tokens = [] ∧
        h = withSource source ((tokenize source o.tabWidth).halt.getD .crash)) ∨
      ∃ t rest r s', (tokenize source o.tabWidth).tokens = t :: rest ∧
        program o.rules o.maxDepth { cursor := ⟨t, rest, (tokenize source o.tabWidth).halt⟩ } = .error r s' ∧
        h = withSource source r := by
  unfold compile run parseTokens at he
  cases htokens : (tokenize source o.tabWidth).tokens with
  | nil =>
    simp only [htokens, Except.error.injEq] at he
    exact .inl ⟨rfl, he.symm⟩
  | cons t rest =>
    simp only [htokens] at he
    cases hp : program o.rules o.maxDepth { cursor := ⟨t, rest, (tokenize source o.tabWidth).halt⟩ } with
    | ok statements s' =>
      rw [hp] at he
      cases he
    | error r s' =>
      rw [hp] at he
      simp only [Except.error.injEq] at he
      exact .inr ⟨t, rest, r, s', rfl, hp, he.symm⟩

/-- Under any rules, compiling gives a program just when the scan does not fail, its tokens derive the
program, and the rules and the names allow it. -/
theorem compile_iff_resolves {o : Options} {source : Text} {p : List Stmt} {f : Frame} :
    (∃ out, compile o source = .ok out ∧ out.program = { statements := p, scope := f }) ↔
      (tokenize source o.tabWidth).halt = none ∧ DerivesProgram o.maxDepth (tokenize source o.tabWidth).tokens p ∧
        Stmt.resolveAll { rules := o.rules } [] p = some f := by
  rw [compile_ok]
  cases htokens : (tokenize source o.tabWidth).tokens with
  | nil =>
    -- a program has at least the token that ends it
    refine iff_of_false (by simp) ?_
    rintro ⟨-, hp, -⟩
    generalize hnil : ([] : List Token) = tokens at hp
    cases hp with
    | mk _ _ => simp at hnil
  | cons t rest =>
    obtain ⟨hl, hn⟩ := start_laid htokens
    refine Iff.trans ⟨?_, fun h => ⟨t, rest, rfl, h⟩⟩ (program_iff hl hn)
    rintro ⟨t', rest', e, h⟩
    cases e
    exact h

/-- What derives from the tokens of a scan, and is right about its names, is compiled. -/
theorem compile_of_derives {source : Text} {tabWidth : Int} {maxDepth : Nat} {p : List Stmt} {f : Frame}
    (hhalt : (tokenize source tabWidth).halt = none)
    (hp : DerivesProgram maxDepth (tokenize source tabWidth).tokens p) (hf : Stmt.resolveAll {} [] p = some f) :
    ∃ out, compile { tabWidth, maxDepth } source = .ok out ∧ out.program = { statements := p, scope := f } :=
  compile_iff_resolves.2 ⟨hhalt, hp, hf⟩

/-- Compiling accepts the grammar: it gives a program just when the scan does not fail and its tokens derive
the program, with no more nesting than is allowed, and the program is right about its names. -/
theorem compile_iff_derives (source : Text) (tabWidth : Int) (maxDepth : Nat) (p : List Stmt) (f : Frame) :
    (∃ out, compile { tabWidth, maxDepth } source = .ok out ∧ out.program = { statements := p, scope := f }) ↔
      (tokenize source tabWidth).halt = none ∧ DerivesProgram maxDepth (tokenize source tabWidth).tokens p ∧
        Stmt.resolveAll {} [] p = some f := by
  refine ⟨fun h => ?_, fun ⟨hhalt, hp, hf⟩ => compile_of_derives hhalt hp hf⟩
  obtain ⟨t, rest, htokens, h⟩ := compile_ok.1 h
  obtain ⟨hl, hn⟩ := start_laid htokens
  rw [htokens]
  exact (program_iff hl hn).1 h

end Offside.Compile
