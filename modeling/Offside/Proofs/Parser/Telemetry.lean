import Offside.Proofs.Lexer.OnDemand
import Offside.Proofs.Parser.Blocks
import Offside.Proofs.Rules

/-!
# What a compilation counts

The parser counts statements and scopes and the depth of blocks as it goes. Most of its parts count nothing
(`Keeps`). The others count what is in the trees that they give (`Counts`). Main statement: the numbers of a
compilation are measures of its program and of the tokens of its source (`compile_telemetry`).
-/

namespace Offside

/-- The statement has a scope of its own. -/
def Stmt.opensScope : Stmt → Bool
  | .forRange .. | .define .. => true
  | .expression _ | .assign .. | .ifChain _ | .whileLoop .. | .ret _ | .print _ | .block _ => false

namespace Statement

open Offside.Grammar Offside.Expression Offside.Statement.Parser Token.Kind

/-! ## Tallies -/

/-- The tally behind statements, of which blocks lie up to `height` deeper than the `d` that are open. -/
def Tally.grown (t : Tally) (d : Nat) (nodes : List Stmt) (height : Nat) : Tally where
  statements := t.statements + nodes.length
  scopes := t.scopes + nodes.countP Stmt.opensScope
  maxBlockDepth := max t.maxBlockDepth (d + height)

section
variable {t : Tally} {d : Nat} {xs ys : List Stmt} {m n : Nat}

theorem Tally.grown_nil (h : d ≤ t.maxBlockDepth) : t.grown d [] 0 = t := by
  simp [Tally.grown, Nat.max_eq_left h]

theorem Tally.grown_grown : (t.grown d xs m).grown d ys n = t.grown d (xs ++ ys) (max m n) := by
  simp only [Tally.grown, List.length_append, List.countP_append, Tally.mk.injEq]
  omega

theorem Tally.le_grown (h : d ≤ t.maxBlockDepth) : d ≤ (t.grown d xs m).maxBlockDepth :=
  Nat.le_trans h (Nat.le_max_left _ _)

/-- The statement itself is counted behind those inside it. -/
theorem State.tally_counted {s : State} {x : Stmt} (h : s.tally = t.grown d xs m) (hx : x.opensScope = false) :
    s.counted.tally = t.grown d (x :: xs) m := by
  simp [State.counted, h, Tally.grown, hx, Nat.add_assoc]

/-- The scope of a statement is counted before what is inside it. -/
theorem State.tally_scope {s s' : State} {x : Stmt} (h : s'.tally = s.entered.tally.grown d xs m)
    (hx : x.opensScope = true) : s'.counted.tally = s.tally.grown d (x :: xs) m := by
  simp only [State.counted, State.entered, h, Tally.grown, List.length_cons, List.countP_cons, hx, if_true,
    Tally.mk.injEq, and_true]
  omega

end

/-! ## Parsers that count nothing -/

/-- Whenever it succeeds, the parser leaves the tally as it is, and gives what satisfies `P`. -/
def Keeps {α : Type} (P : α → Prop) (p : Parser α) : Prop :=
  ∀ ⦃s s' : State⦄ ⦃a : α⦄, p s = .ok a s' → s'.tally = s.tally ∧ P a

section
variable {α β : Type} {P : α → Prop} {Q : β → Prop}

theorem keeps_bind {x : Parser α} {f : α → Parser β} (hx : Keeps P x) (hf : ∀ a, P a → Keeps Q (f a)) :
    Keeps Q (x >>= f) := by
  intro s s' b h
  obtain ⟨a, s₁, h₁, h₂⟩ := bind_ok.1 h
  obtain ⟨ht₁, ha⟩ := hx h₁
  obtain ⟨ht₂, hb⟩ := hf a ha h₂
  exact ⟨ht₂.trans ht₁, hb⟩

theorem keeps_pure {a : α} (ha : P a) : Keeps P (pure a) := by
  intro s s' b h
  obtain ⟨rfl, rfl⟩ := pure_ok.1 h
  exact ⟨rfl, ha⟩

theorem keeps_fail (d : Diagnostic) : Keeps P (fail d) := by
  intro s s' a h
  cases h

theorem keeps_read (r : Reader α) : Keeps (fun _ => True) (read r) := by
  intro s s' a h
  rw [(read_ok.1 h).2]
  exact ⟨rfl, trivial⟩

/-- A reader that a parser runs as its own. -/
theorem keeps_step (r : Reader α) : Keeps (fun _ => True) (liftM (read r) : Parser α) := keeps_read r

theorem keeps_frame : Keeps (fun _ => True) frame := by
  intro s s' f h
  cases h
  exact ⟨rfl, trivial⟩

theorem keeps_permit {ctx : Context} {what : Text} {c : Construct} : Keeps (fun _ => True) (permit ctx what c) := by
  intro s s' u h
  obtain ⟨-, rfl⟩ := permit_ok.1 h
  exact ⟨rfl, trivial⟩

theorem keeps_declare {rules : RuleSet} {r : Reference} {t : Token} :
    Keeps (fun _ => True) (declare rules r t) := by
  intro s s' u h
  obtain ⟨-, rfl⟩ := declare_ok.1 h
  exact ⟨rfl, trivial⟩

theorem keeps_declareOnce {rules : RuleSet} {r : Reference} {t : Token} :
    Keeps (fun _ => True) (declareOnce rules r t) := by
  refine keeps_bind keeps_frame fun f _ => ?_
  split
  · exact keeps_pure trivial
  · exact keeps_declare

theorem keeps_expression {ctx : Context} {n : Nat} : Keeps (fun _ => True) (expression ctx n) :=
  keeps_bind keeps_frame fun _ _ => keeps_read _

theorem keeps_expressions {ctx : Context} {n : Nat} : Keeps (fun _ => True) (expressions ctx n) :=
  keeps_bind keeps_frame fun _ _ => keeps_read _

theorem keeps_arguments {ctx : Context} {n : Nat} : Keeps (fun _ => True) (arguments ctx n) := by
  refine keeps_bind (keeps_step _) fun t _ => ?_
  split
  · exact keeps_pure trivial
  · exact keeps_expressions

theorem keeps_endOfLine : Keeps (fun _ => True) endOfLine := by
  refine keeps_bind (keeps_read _) fun t _ => ?_
  split
  · exact keeps_read _
  · exact keeps_pure trivial
  · exact keeps_fail _

theorem keeps_inFunction {ctx : Context} : Keeps (fun _ => True) (MonadNesting.inFunction (m := Parser) ctx) :=
  keeps_pure trivial

theorem keeps_onOneLine {P : Stmt → Prop} {p : Parser Stmt} (hp : Keeps P p) : Keeps P (onOneLine p) :=
  keeps_bind hp fun _ hx => keeps_bind keeps_endOfLine fun _ _ => keeps_pure hx

theorem keeps_parameters {rules : RuleSet} (fuel : Nat) (first : Bool) :
    Keeps (fun _ => True) (parameters rules fuel first) := by
  induction fuel generalizing first with
  | zero => exact keeps_pure trivial
  | succ fuel ih =>
    have hparameter : Keeps (fun _ => True) (parameter rules fuel) := by
      refine keeps_bind (keeps_read _) fun t _ => ?_
      split
      · refine keeps_bind keeps_frame fun f _ => ?_
        split
        · exact keeps_fail _
        · refine keeps_bind keeps_declare fun _ _ => keeps_bind (keeps_read _) fun _ _ => ?_
          exact keeps_bind (ih false) fun _ _ => keeps_pure trivial
      · exact keeps_fail _
    intro s s' ps h
    cases hclose : s.cursor.cur.isBracket .roundClose with
    | true =>
      rw [parameters_close hclose] at h
      exact keeps_pure (P := fun _ => True) trivial h
    | false =>
      cases first with
      | true =>
        rw [parameters_first hclose] at h
        exact hparameter h
      | false =>
        rw [parameters_more hclose] at h
        exact keeps_bind (keeps_read _) (fun _ _ => hparameter) h

theorem keeps_blockStart : Keeps (fun _ => True) blockStart := by
  refine keeps_bind (keeps_read _) fun _ _ => keeps_bind (keeps_read _) fun t _ => ?_
  split
  · refine keeps_bind (keeps_read _) fun _ _ => keeps_bind (keeps_read _) fun t _ => ?_
    split
    · exact keeps_read _
    · exact keeps_fail _
  · exact keeps_fail _

end

/-- The statement has no body. -/
structure Bodiless (x : Stmt) : Prop where
  inside : x.inside = []
  opensScope : x.opensScope = false
  height : x.height = 0

section
variable {ctx : Context} {n : Nat}

theorem keeps_returnStatement : Keeps Bodiless (returnStatement ctx n) := by
  refine keeps_bind (keeps_step _) fun t _ => keeps_bind keeps_inFunction fun _ _ => ?_
  split
  · refine keeps_bind (keeps_step _) fun _ _ => keeps_bind (keeps_step _) fun t _ => ?_
    split
    · exact keeps_pure ⟨rfl, rfl, rfl⟩
    · exact keeps_bind keeps_expressions fun _ _ => keeps_pure ⟨rfl, rfl, rfl⟩
  · exact keeps_fail _

theorem keeps_printStatement : Keeps Bodiless (printStatement ctx n) :=
  keeps_bind keeps_permit fun _ _ => keeps_bind (keeps_step _) fun _ _ => keeps_bind (keeps_step _) fun _ _ =>
    keeps_bind keeps_arguments fun _ _ => keeps_bind (keeps_step _) fun _ _ => keeps_pure ⟨rfl, rfl, rfl⟩

theorem keeps_expressionStatement : Keeps Bodiless (expressionStatement ctx n) :=
  keeps_bind keeps_expression fun _ _ => keeps_pure ⟨rfl, rfl, rfl⟩

theorem keeps_assignment : Keeps Bodiless (assignment ctx n) :=
  keeps_bind (keeps_step _) fun _ _ => keeps_bind (keeps_step _) fun _ _ => keeps_bind (keeps_step _) fun _ _ =>
    keeps_bind keeps_expression fun _ _ => keeps_bind keeps_frame fun _ _ =>
      keeps_bind keeps_declareOnce fun _ _ => keeps_pure ⟨rfl, rfl, rfl⟩

theorem keeps_nameStatement : Keeps Bodiless (nameStatement ctx n) := by
  refine keeps_bind (keeps_step _) fun t _ => ?_
  split
  · exact keeps_assignment
  · exact keeps_expressionStatement

end

/-! ## Parsers that count -/

/-- Whenever it succeeds with `d` blocks open, the parser has counted these statements of what it gives, and their
depth. -/
def Counts {α : Type} (d : Nat) (nodes : α → List Stmt) (height : α → Nat) (p : Parser α) : Prop :=
  ∀ ⦃s s' : State⦄ ⦃a : α⦄, d ≤ s.tally.maxBlockDepth → p s = .ok a s' →
    s'.tally = s.tally.grown d (nodes a) (height a)

/-- Once the statement that the parser gives is counted too, that is all there is to count. -/
def CountsInside (d : Nat) (p : Parser Stmt) : Prop :=
  ∀ ⦃s s' : State⦄ ⦃x : Stmt⦄, d ≤ s.tally.maxBlockDepth → p s = .ok x s' →
    s'.counted.tally = s.tally.grown d (x :: x.inside) x.height

/-- The parser of blocks counts what is in them, and one block more. -/
def BlockCounts (block : BlockParser Parser) : Prop :=
  ∀ ctx, Counts ctx.blockDepth Stmt.nodes (fun body => Stmt.heightAll body + 1) (block ctx)

section
variable {α : Type} {P : α → Prop} {d : Nat}

theorem countsInside_bind {x : Parser α} {f : α → Parser Stmt} (hx : Keeps P x) (hf : ∀ a, CountsInside d (f a)) :
    CountsInside d (x >>= f) := by
  intro s s' y hd h
  obtain ⟨a, s₁, h₁, h₂⟩ := bind_ok.1 h
  have ht := (hx h₁).1
  rw [← ht] at hd ⊢
  exact hf a hd h₂

theorem countsInside_fail (e : Diagnostic) : CountsInside d (fail e) := by
  intro s s' x _ h
  cases h

theorem countsInside_of_keeps {p : Parser Stmt} (hp : Keeps Bodiless p) : CountsInside d p := by
  intro s s' x hd h
  obtain ⟨ht, hx⟩ := hp h
  rw [hx.inside, hx.height]
  refine State.tally_counted ?_ hx.opensScope
  rw [ht, Tally.grown_nil hd]

theorem inScope_tally {p : Parser α} {s s' : State} {a : α} {g : Frame} (h : inScope p s = .ok (a, g) s') :
    ∃ s₁ : State, p s.entered = .ok a s₁ ∧ s'.tally = s₁.tally := by
  unfold inScope at h
  rw [step_of_ok (enterScope_eq s)] at h
  obtain ⟨b, s₁, h₁, h⟩ := bind_ok.1 h
  cases h
  exact ⟨s₁, h₁, rfl⟩

end

section
variable {ctx : Context} {n : Nat} {block : BlockParser Parser} (hblock : BlockCounts block)
include hblock

/-- The clauses of a conditional, by induction on the fuel. -/
theorem counts_clauses (fuel : Nat) : Counts ctx.blockDepth Clause.nodes Clause.heightAll
    (clauses (expression ctx n) (block ctx) fuel) := by
  induction fuel with
  | zero =>
    intro s s' cs hd h
    cases h
    exact (Tally.grown_nil hd).symm
  | succ fuel ih =>
    intro s s' cs hd h
    obtain ⟨_, s₁, h₁, h⟩ := bind_ok.1 h
    obtain ⟨x, s₂, h₂, h⟩ := bind_ok.1 h
    obtain ⟨body, s₃, h₃, h⟩ := bind_ok.1 h
    have hkeeps : s₂.tally = s.tally := (keeps_expression h₂).1.trans (keeps_step _ h₁).1
    have hbody := hblock ctx (hkeeps ▸ hd) h₃
    rw [hkeeps] at hbody
    have hd₃ : ctx.blockDepth ≤ s₃.tally.maxBlockDepth := hbody ▸ Tally.le_grown hd
    rw [step_of_ok (current_eq s₃)] at h
    split at h
    · obtain ⟨rest, s₄, h₄, h⟩ := bind_ok.1 h
      obtain ⟨rfl, rfl⟩ := pure_ok.1 h
      rw [ih hd₃ h₄, hbody, Tally.grown_grown]
      rfl
    · split at h
      · obtain ⟨_, s₄, h₄, h⟩ := bind_ok.1 h
        obtain ⟨last, s₅, h₅, h⟩ := bind_ok.1 h
        obtain ⟨rfl, rfl⟩ := pure_ok.1 h
        have hkeeps₄ := (keeps_step _ h₄).1
        rw [hblock ctx (hkeeps₄ ▸ hd₃) h₅, hkeeps₄, hbody, Tally.grown_grown]
        simp [Clause.nodes, Clause.heightAll]
      · obtain ⟨rfl, rfl⟩ := pure_ok.1 h
        simp [hbody, Clause.nodes, Clause.heightAll]

theorem counts_ifStatement : CountsInside ctx.blockDepth (ifStatement ctx n block) := by
  refine countsInside_bind keeps_permit fun _ => countsInside_bind (keeps_step _) fun fuel => ?_
  intro s s' x hd h
  obtain ⟨cs, s₁, h₁, h⟩ := bind_ok.1 h
  obtain ⟨rfl, rfl⟩ := pure_ok.1 h
  exact State.tally_counted (counts_clauses hblock fuel hd h₁) rfl

theorem counts_whileStatement : CountsInside ctx.blockDepth (whileStatement ctx n block) := by
  refine countsInside_bind keeps_permit fun _ => countsInside_bind (keeps_step _) fun _ =>
    countsInside_bind keeps_expression fun test => ?_
  intro s s' x hd h
  obtain ⟨body, s₁, h₁, h⟩ := bind_ok.1 h
  obtain ⟨rfl, rfl⟩ := pure_ok.1 h
  exact State.tally_counted (hblock ctx hd h₁) rfl

theorem counts_forStatement : CountsInside ctx.blockDepth (forStatement ctx n block) := by
  refine countsInside_bind keeps_permit fun _ => countsInside_bind (keeps_step _) fun _ =>
    countsInside_bind (keeps_step _) fun v => ?_
  split
  · refine countsInside_bind (keeps_step _) fun _ => countsInside_bind (keeps_step _) fun _ =>
      countsInside_bind (keeps_step _) fun _ => countsInside_bind (keeps_step _) fun _ =>
      countsInside_bind (keeps_step _) fun _ => countsInside_bind keeps_arguments fun args => ?_
    split
    · exact countsInside_fail _
    · refine countsInside_bind (keeps_step _) fun _ => countsInside_bind keeps_frame fun f => ?_
      intro s s' x hd h
      obtain ⟨⟨body, scope⟩, s₁, h₁, h⟩ := bind_ok.1 h
      obtain ⟨rfl, rfl⟩ := pure_ok.1 h
      obtain ⟨s₂, h₂, ht⟩ := inScope_tally h₁
      obtain ⟨_, s₃, h₃, h₂⟩ := bind_ok.1 h₂
      obtain ⟨_, s₄, h₄, h₂⟩ := bind_ok.1 h₂
      have hkeeps : s₄.tally = s.entered.tally := (keeps_declare h₄).1.trans (keeps_step _ h₃).1
      have hbody := hblock (ctx.inner f) (hkeeps ▸ hd) h₂
      rw [hkeeps] at hbody
      exact State.tally_scope (ht.trans hbody) rfl
  · exact countsInside_fail _

theorem counts_defStatement : CountsInside ctx.blockDepth (defStatement ctx block) := by
  refine countsInside_bind keeps_permit fun _ => countsInside_bind (keeps_step _) fun _ =>
    countsInside_bind (keeps_step _) fun t => ?_
  split
  · refine countsInside_bind keeps_declareOnce fun _ => countsInside_bind (keeps_step _) fun _ =>
      countsInside_bind (keeps_step _) fun _ => countsInside_bind keeps_frame fun f => ?_
    intro s s' x hd h
    obtain ⟨⟨⟨params, body⟩, scope⟩, s₁, h₁, h⟩ := bind_ok.1 h
    obtain ⟨rfl, rfl⟩ := pure_ok.1 h
    obtain ⟨s₂, h₂, ht⟩ := inScope_tally h₁
    obtain ⟨fuel, s₃, h₃, h₂⟩ := bind_ok.1 h₂
    obtain ⟨ps, s₄, h₄, h₂⟩ := bind_ok.1 h₂
    obtain ⟨_, s₅, h₅, h₂⟩ := bind_ok.1 h₂
    obtain ⟨bs, s₆, h₆, h₂⟩ := bind_ok.1 h₂
    obtain ⟨e, rfl⟩ := pure_ok.1 h₂
    cases e
    have hkeeps : s₅.tally = s.entered.tally :=
      (keeps_step _ h₅).1.trans ((keeps_parameters _ _ h₄).1.trans (keeps_step _ h₃).1)
    have hbody := hblock { ctx.inner f with inFunction := true } (hkeeps ▸ hd) h₆
    rw [hkeeps] at hbody
    exact State.tally_scope (ht.trans hbody) rfl
  · exact countsInside_fail _

theorem counts_keywordStatement (k : Keyword) : CountsInside ctx.blockDepth (keywordStatement ctx n block k) := by
  unfold keywordStatement
  split
  · exact countsInside_of_keeps (keeps_onOneLine keeps_returnStatement)
  · exact counts_ifStatement hblock
  · exact counts_forStatement hblock
  · exact counts_whileStatement hblock
  · exact counts_defStatement hblock
  · exact countsInside_of_keeps (keeps_onOneLine keeps_printStatement)
  · exact countsInside_of_keeps (keeps_onOneLine keeps_expressionStatement)

theorem counts_statement : CountsInside ctx.blockDepth (statement ctx n block) := by
  intro s s' x hd h
  -- noting down where the statement begins counts nothing
  have hmarked {p : Parser Stmt} (heq : statement ctx n block s = p (s.marked ctx))
      (hp : CountsInside ctx.blockDepth p) : s'.counted.tally = s.tally.grown ctx.blockDepth (x :: x.inside) x.height :=
    hp (s := s.marked ctx) hd (heq ▸ h)
  by_cases hk : ∃ k, s.cursor.cur.isKeyword k = true
  · obtain ⟨k, hk⟩ := hk
    exact hmarked (statement_of_keyword hk) (counts_keywordStatement hblock k)
  · by_cases hi : s.cursor.cur.kind = .identifier
    · exact hmarked (statement_of_identifier hi) (countsInside_of_keeps (keeps_onOneLine keeps_nameStatement))
    · have hother : ∀ k, s.cursor.cur.isKeyword k = false := by simpa using hk
      exact hmarked (statement_of_other hother hi)
        (countsInside_of_keeps (keeps_onOneLine keeps_expressionStatement))

end

/-- Statements one after another, by induction on the fuel. -/
theorem counts_statements {d : Nat} {one : Parser Stmt} (hone : CountsInside d one) (inBlock : Bool) (fuel : Nat) :
    Counts d Stmt.nodes Stmt.heightAll (statements one inBlock fuel) := by
  induction fuel with
  | zero =>
    intro s s' xs hd h
    cases h
    exact (Tally.grown_nil hd).symm
  | succ fuel ih =>
    intro s s' xs hd h
    by_cases hk : ∀ k ∈ [Token.Kind.eof, .dedent, .indent, .newline], s.cursor.cur.kind ≠ k
    · rw [statements_content hk] at h
      obtain ⟨x, s₁, h₁, h⟩ := bind_ok.1 h
      rw [bind_of_ok (countStatement_eq s₁)] at h
      obtain ⟨rest, s₂, h₂, h⟩ := bind_ok.1 h
      obtain ⟨rfl, rfl⟩ := pure_ok.1 h
      have hfirst := hone hd h₁
      rw [ih (hfirst ▸ Tally.le_grown hd) h₂, hfirst, Tally.grown_grown]
      rfl
    · rw [statements, step_of_ok (current_eq s)] at h
      have hcases : s.cursor.cur.kind = .eof ∨ s.cursor.cur.kind = .dedent ∨ s.cursor.cur.kind = .indent ∨
          s.cursor.cur.kind = .newline := by
        simp at hk
        grind
      rcases hcases with hk | hk | hk | hk
      · rw [hk] at h
        cases inBlock with
        | true => cases h
        | false =>
          cases h
          exact (Tally.grown_nil hd).symm
      · rw [hk] at h
        cases inBlock with
        | false => cases h
        | true =>
          obtain ⟨_, s₁, h₁, h⟩ := bind_ok.1 h
          obtain ⟨rfl, rfl⟩ := pure_ok.1 h
          exact (keeps_step _ h₁).1.trans (Tally.grown_nil hd).symm
      · rw [hk] at h
        cases h
      · rw [hk] at h
        obtain ⟨_, s₁, h₁, h⟩ := bind_ok.1 h
        have ht := (keeps_step _ h₁).1
        rw [ih (ht ▸ hd) h, ht]

theorem counts_block (n : Nat) : BlockCounts (block n) := by
  induction n with
  | zero =>
    intro ctx s s' body _ h
    obtain ⟨_, s₁, h₁, h⟩ := bind_ok.1 h
    cases h
  | succ n ih =>
    intro ctx s s' body hd h
    obtain ⟨_, s₁, h₁, h⟩ := bind_ok.1 h
    rw [bind_of_ok (countBlock_eq _ s₁), bind_of_ok (bound_eq _)] at h
    have hone : CountsInside ctx.inBlock.blockDepth (statement ctx.inBlock n (block n)) := counts_statement ih
    have hdeep : ctx.blockDepth + 1 ≤ (s₁.deepened (ctx.blockDepth + 1)).tally.maxBlockDepth := Nat.le_max_right _ _
    have hbody := counts_statements hone true _ hdeep h
    rw [hbody]
    simp only [State.deepened, Context.inBlock, Tally.grown, (keeps_blockStart h₁).1, Tally.mk.injEq, true_and]
    omega

/-- A program is tallied as its tree is measured. -/
theorem program_tally {rules : RuleSet} {n : Nat} {c : Cursor} {s' : State} {p : List Stmt}
    (h : program rules n { cursor := c } = .ok p s') :
    s'.tally = Tally.grown {} 0 (Stmt.nodes p) (Stmt.heightAll p) := by
  let ctx : Context := { rules }
  have hone : CountsInside ctx.blockDepth (statement ctx n (block n)) := counts_statement (counts_block n)
  unfold program at h
  rw [bind_of_ok (bound_eq _)] at h
  exact counts_statements hone false _ (Nat.zero_le _) h

/-- Behind a program no token is to come. -/
theorem program_rest {rules : RuleSet} {n : Nat} {c : Cursor} (hl : c.Laid) (hn : c.cur.kind ≠ .newline) {s' : State}
    {p : List Stmt} (h : program rules n { cursor := c } = .ok p s') : s'.cursor.rest = [] := by
  have hone : ∀ {s s' : State} {x : Stmt}, s.cursor.Laid → statement { rules } n (block n) s = .ok x s' →
      Parsed { rules } (DerivesStatement n) s x s' := statement_ok (block_sound n)
  unfold program at h
  rw [bind_of_ok (bound_eq _)] at h
  obtain ⟨ts, us, -, hcloses, e, -⟩ := statements_ok hone (endsLine_block n).statement _ (by exact hl) hn
    (Nat.le_refl _) h
  cases hcloses with
  | eof hk => exact ((Cursor.laid_of_before hl e).at_eof hk).1

end Statement

/-! ## Compilations -/

namespace Compile

open Offside.Grammar Offside.Statement Offside.Scanner Token.Kind

/-- The numbers of a compilation are those of the scan and of the state that the parser ends in. -/
theorem telemetry_of_state {o : Options} {source : Text} {out : Output} (h : compile o source = .ok out) :
    ∃ t rest s', (tokenize source o.tabWidth).tokens = t :: rest ∧
      program o.rules o.maxDepth { cursor := ⟨t, rest, (tokenize source o.tabWidth).halt⟩ } =
        .ok out.program.statements s' ∧
      out.telemetry =
        { tokens := (Stats.ofEvents (tokenize source o.tabWidth).events).tokens
          statements := s'.tally.statements
          scopes := s'.tally.scopes
          maxBlockDepth := s'.tally.maxBlockDepth } ∧
      (run o source).2.unread = s'.cursor.rest.length := by
  unfold compile at h
  unfold run parseTokens at h ⊢
  cases htokens : (tokenize source o.tabWidth).tokens with
  | nil => simp [htokens] at h
  | cons t rest =>
    refine ⟨t, rest, ?_⟩
    simp only [htokens] at h ⊢
    cases hp : program o.rules o.maxDepth { cursor := ⟨t, rest, (tokenize source o.tabWidth).halt⟩ } with
    | error r s' => simp [hp] at h
    | ok p s' =>
      rw [hp] at h
      cases h
      exact ⟨s', trivial, rfl, rfl, rfl⟩

/-- The numbers of a compilation measure its program. It has counted each statement of the program, at any
depth, the scope of the program with those of its loops over ranges and its functions, and how many bodies lie
inside one another, which is how many more blocks the tokens of the source open than they close, at most, in front
of any place. And it has counted the tokens of the source with the one for its end: the parser has left none of
them, and whoever takes them all from a lexer, looking ahead or not, has the lexer note down as many. -/
theorem compile_telemetry {o : Options} {source : Text} {out : Output} (h : compile o source = .ok out) :
    out.telemetry.statements = (Stmt.nodes out.program.statements).length ∧
    out.telemetry.scopes = 1 + (Stmt.nodes out.program.statements).countP Stmt.opensScope ∧
    (out.telemetry.maxBlockDepth = Stmt.heightAll out.program.statements ∧
      Peak (kindsOf (tokenize source o.tabWidth).tokens) out.telemetry.maxBlockDepth) ∧
    (out.telemetry.tokens = (tokenize source o.tabWidth).tokens.length ∧
      (kindsOf (tokenize source o.tabWidth).tokens).getLast? = some .eof ∧
      (run o source).2.unread = 0 ∧
      ∀ calls : List Lexer.Call, (tokenize source o.tabWidth).tokens.length ≤ calls.count .next →
        (Stats.ofEvents ((Lexer.ofSource source o.tabWidth).after calls).events).tokens = out.telemetry.tokens) := by
  obtain ⟨hhalt, hp, -⟩ := compile_iff_resolves.1 ⟨out, h, rfl⟩
  obtain ⟨t, rest, s', htokens, hprogram, htelemetry, hunread⟩ := telemetry_of_state h
  obtain ⟨hl, hn⟩ := start_laid htokens
  have htally := program_tally hprogram
  have hcount : out.telemetry.tokens = (tokenize source o.tabWidth).tokens.length := by
    rw [htelemetry]
    simp only [Stats.ofEvents, List.length_map]
    rw [tokenize, run_events hhalt]
  have hdepth : out.telemetry.maxBlockDepth = Stmt.heightAll out.program.statements := by
    simp [htelemetry, htally, Tally.grown]
  refine ⟨?_, ?_, ⟨hdepth, hdepth ▸ (blocks_program hp).peak⟩, hcount, ?_, ?_, ?_⟩
  · simp [htelemetry, htally, Tally.grown]
  · simp [htelemetry, htally, Tally.grown]
  · generalize (tokenize source o.tabWidth).tokens = tokens at hp
    cases hp with
    | mk _ ht => simp [kindsOf, ht]
  · rw [hunread, program_rest hl hn hprogram, List.length_nil]
  · intro calls hcalls
    rw [Lexer.events_after hhalt hcalls, htelemetry]

/-- A conditional in a function, and a loop. Each token is looked at before it is taken, and the end of the source
is taken more than once. -/
theorem compile_telemetry_function_and_loop :
    ∃ out, compile {} "def f(a):\n if a:\n  return 2\nfor i in range(3):\n print(i)\n" = .ok out ∧
      out.telemetry = { tokens := 35, statements := 5, scopes := 3, maxBlockDepth := 2 } ∧
      5 = (Stmt.nodes out.program.statements).length ∧
      3 = 1 + (Stmt.nodes out.program.statements).countP Stmt.opensScope ∧
      2 = Stmt.heightAll out.program.statements ∧
      (Stats.ofEvents ((Lexer.ofSource "def f(a):\n if a:\n  return 2\nfor i in range(3):\n print(i)\n"
        defaultTabWidth).after (List.replicate 40 [Lexer.Call.peek, .next]).flatten).events).tokens = 35 := by
  have hrun : (compile {} "def f(a):\n if a:\n  return 2\nfor i in range(3):\n print(i)\n").toOption.map
      (·.telemetry) = some { tokens := 35, statements := 5, scopes := 3, maxBlockDepth := 2 } := by decide +kernel
  obtain ⟨out, hout, htelemetry⟩ := Option.map_eq_some_iff.1 hrun
  have h := ok_of_toOption hout
  obtain ⟨hstatements, hscopes, ⟨hdepth, -⟩, htokens, -, -, hlexer⟩ := compile_telemetry h
  rw [htelemetry] at hstatements hscopes hdepth htokens hlexer
  have hcalls : 35 ≤ ((List.replicate 40 [Lexer.Call.peek, .next]).flatten).count .next := by decide
  have htaken := hlexer _ (Nat.le_trans (Nat.le_of_eq htokens.symm) hcalls)
  exact ⟨out, h, htelemetry, hstatements, hscopes, hdepth, htaken⟩

end Compile

end Offside
