import Offside.Proofs.Parser.Statement

/-!
# Reading blocks and programs

The statements with blocks, and the statements of a block and of a program one after another. Each is read
under what the parser of blocks does, and the induction on the budget closes the circle. The loops of the
parser have more fuel than tokens to come.
-/

namespace Offside.Statement

open Offside.Grammar Offside.Resolution Offside.Expression Offside.Statement.Parser

/-- Whenever the parser of blocks succeeds, it has passed over a block and declared what the block
declares. -/
def BlockSound (block : BlockParser Parser) (B : Phrase Token (List Stmt)) : Prop :=
  ∀ {ctx : Context} {s s' : State} {body : List Stmt}, s.cursor.Laid → block ctx s = .ok body s' →
    ∃ ts, s.cursor = s'.cursor.before ts ∧ B ts body ∧ Stmt.resolveAll ctx.place s.frame body = some s'.frame

/-- The parser of blocks reads every block whose names resolve. -/
def BlockComplete (block : BlockParser Parser) (B : Phrase Token (List Stmt)) : Prop :=
  ∀ {ctx : Context} {s : State} {ts : List Token} {body : List Stmt} {f : Frame} {c : Cursor}, B ts body →
    Stmt.resolveAll ctx.place s.frame body = some f →
    ∃ s' : State, block ctx (s.on (c.before ts)) = .ok body (s'.on c) ∧ s'.frame = f

theorem bound_pos (c : Cursor) : 0 < c.bound := Nat.succ_pos _

/-! ## Conditionals -/

section
variable {ctx : Context} {n : Nat} {block : BlockParser Parser} {B : Phrase Token (List Stmt)}

theorem resolveAll_clause {p : Place} {f f' : Frame} {cond : Option Expr} {body : List Stmt} {cs : List Clause} :
    Clause.resolveAll p f (.mk cond body :: cs) = some f' ↔
      p.sees f (Expr.namesAll cond.toList) = true ∧
        ∃ g, Stmt.resolveAll p f body = some g ∧ Clause.resolveAll p g cs = some f' := by
  simp [Clause.resolveAll, Option.bind_eq_some_iff]

theorem namesAll_some (x : Expr) : Expr.namesAll (some x).toList = x.names := by
  simp [Expr.namesAll]

theorem clauses_ok (hb : BlockSound block B) (fuel : Nat) {s s' : State} {cs : List Clause}
    (hl : s.cursor.Laid) (hk : s.cursor.cur.kind ≠ .eof) (hfuel : s.cursor.bound ≤ fuel)
    (h : clauses (expression ctx n) (block ctx) fuel s = .ok cs s') :
    ∃ ts us vs x body rest, cs = .mk (some x) body :: rest ∧
      s.cursor = s'.cursor.before (s.cursor.cur :: (ts ++ (us ++ vs))) ∧ DerivesExpr n ts x ∧ B us body ∧
      Elifs (DerivesExpr n) B vs rest ∧ Clause.resolveAll ctx.place s.frame cs = some s'.frame := by
  induction fuel generalizing s s' cs with
  | zero => exact absurd (bound_pos s.cursor) (by omega)
  | succ fuel ih =>
    obtain ⟨_, s₁, h₁, h⟩ := bind_ok.1 h
    obtain ⟨x, s₂, h₂, h⟩ := bind_ok.1 h
    obtain ⟨body, s₃, h₃, h⟩ := bind_ok.1 h
    have hr₁ := advance_ok hl hk h₁
    obtain ⟨ts, hr₂, hx, hsees⟩ := expression_ok (hr₁.laid hl) h₂
    have hr₂ := hr₁.trans hr₂
    obtain ⟨us, e₃, hbody, hf⟩ := hb (hr₂.laid hl) h₃
    rw [hr₁.frame] at hsees
    rw [hr₂.frame] at hf
    have e : s.cursor = s₃.cursor.before (s.cursor.cur :: (ts ++ us)) := by
      simpa using Cursor.before_trans hr₂.cursor e₃
    have hl₃ : s₃.cursor.Laid := by rw [e] at hl; exact Cursor.laid_before hl
    have hfirst : ∀ {rest : List Clause} {f : Frame}, Clause.resolveAll ctx.place s₃.frame rest = some f →
        Clause.resolveAll ctx.place s.frame (.mk (some x) body :: rest) = some f := fun hrest =>
      resolveAll_clause.2 ⟨by rwa [namesAll_some], _, hf, hrest⟩
    rw [step_of_ok (current_eq s₃)] at h
    split at h
    · next hif =>
      obtain ⟨rest, s₄, h₄, h⟩ := bind_ok.1 h
      obtain ⟨rfl, rfl⟩ := pure_ok.1 h
      have hbound : s₃.cursor.bound ≤ fuel := by
        rw [e, Cursor.bound_before] at hfuel
        simp only [List.length_cons] at hfuel
        omega
      obtain ⟨ts', us', vs, y, body', rest', rfl, e₄, hy, hbody', hrest, hf₄⟩ :=
        ih hl₃ (keyword_ne_eof hif) hbound h₄
      refine ⟨ts, us, _, x, body, _, rfl, ?_, hx, hbody, .elif hif hy hbody' hrest, hfirst hf₄⟩
      simpa using Cursor.before_trans e e₄
    · split at h
      · next helse =>
        obtain ⟨_, s₄, h₄, h⟩ := bind_ok.1 h
        obtain ⟨last, s₅, h₅, h⟩ := bind_ok.1 h
        obtain ⟨rfl, rfl⟩ := pure_ok.1 h
        have hr₄ := advance_ok hl₃ (keyword_ne_eof helse) h₄
        obtain ⟨vs, e₅, hlast, hf₅⟩ := hb (hr₄.laid hl₃) h₅
        rw [hr₄.frame] at hf₅
        refine ⟨ts, us, _, x, body, _, rfl, ?_, hx, hbody, .last helse hlast, hfirst ?_⟩
        · simpa using Cursor.before_trans e (Cursor.before_trans hr₄.cursor e₅)
        · exact resolveAll_clause.2 ⟨rfl, _, hf₅, rfl⟩
      · obtain ⟨rfl, rfl⟩ := pure_ok.1 h
        exact ⟨ts, us, [], x, body, [], rfl, by simpa using e, hx, hbody, .done, hfirst rfl⟩

theorem isKeyword_eq {t : Token} {k : Keyword} (h : t.isKeyword k = true) (k' : Keyword) :
    t.isKeyword k' = decide (k = k') := by
  simp only [Token.isKeyword, Bool.and_eq_true, beq_iff_eq] at h
  by_cases hk : k = k' <;> simp [Token.isKeyword, h, hk]

/-- A block begins with a colon. -/
abbrev Colon (B : Phrase Token (List Stmt)) : Prop := Heads (fun t => t.isDelimiter .colon = true) B

theorem Colon.stops (hB : Colon B) {us : List Token} {body : List Stmt} (hbody : B us body) (c : Cursor) :
    StopsExpr (c.before us).cur := by
  obtain ⟨t, us', rfl, ht⟩ := hB us body hbody
  exact Terminates.stops (.inr (.inr (.inl ht)))

/-- The tokens that no conditional goes on with. -/
def StopsClauses (t : Token) : Prop := t.isKeyword .elif = false ∧ t.isKeyword .else_ = false

theorem clauses_on (hb : BlockComplete block B) (hB : Colon B) {vs : List Token} {cs : List Clause}
    (hrest : Elifs (DerivesExpr n) B vs cs) {c : Cursor} (hc : StopsClauses c.cur) :
    ∀ {fuel : Nat} {s : State} {t : Token} {ts us : List Token} {x : Expr} {body : List Stmt} {f : Frame},
      DerivesExpr n ts x → B us body →
      Clause.resolveAll ctx.place s.frame (.mk (some x) body :: cs) = some f → vs.length < fuel →
      ∃ s' : State, clauses (expression ctx n) (block ctx) fuel (s.on (c.before (t :: (ts ++ (us ++ vs))))) =
        .ok (.mk (some x) body :: cs) (s'.on c) ∧ s'.frame = f := by
  induction hrest with
  | done =>
    rintro (_ | fuel) s t ts us x body f hx hbody hf hfuel
    · cases hfuel
    obtain ⟨hsees, g, hg, hf⟩ := resolveAll_clause.1 hf
    rw [namesAll_some] at hsees
    obtain ⟨s₁, h₁, hs₁⟩ := hb (c := c) hbody hg
    cases hf
    refine ⟨s₁, ?_, hs₁⟩
    rw [List.append_nil, Cursor.before_cons, Cursor.before_append, clauses, step_of_ok (advance_on s t _),
      bind_of_ok (expression_on hx hsees (hB.stops hbody c)), bind_of_ok h₁, step_of_ok (current_eq _),
      State.cursor_on, if_neg (Bool.eq_false_iff.1 hc.1), if_neg (Bool.eq_false_iff.1 hc.2)]
    rfl
  | @elif t' ts' us' vs y body' cs ht hy hbody' hrest ih =>
    rintro (_ | fuel) s t ts us x body f hx hbody hf hfuel
    · cases hfuel
    obtain ⟨hsees, g, hg, hf⟩ := resolveAll_clause.1 hf
    rw [namesAll_some] at hsees
    obtain ⟨s₁, h₁, rfl⟩ := hb (c := c.before (t' :: (ts' ++ (us' ++ vs)))) hbody hg
    obtain ⟨s₂, h₂, hs₂⟩ := @ih fuel _ t' _ _ _ _ _ hy hbody' hf (by simp at hfuel ⊢; omega)
    refine ⟨s₂, ?_, hs₂⟩
    rw [Cursor.before_cons, Cursor.before_append, Cursor.before_append, clauses, step_of_ok (advance_on s t _),
      bind_of_ok (expression_on hx hsees (hB.stops hbody _)), bind_of_ok h₁, step_of_ok (current_eq _),
      State.cursor_on, if_pos (show (c.before (t' :: (ts' ++ (us' ++ vs)))).cur.isKeyword .elif = true from ht),
      bind_of_ok h₂]
    rfl
  | @last t' us' body' ht hbody' =>
    rintro (_ | fuel) s t ts us x body f hx hbody hf hfuel
    · cases hfuel
    obtain ⟨hsees, g, hg, hf⟩ := resolveAll_clause.1 hf
    rw [namesAll_some] at hsees
    obtain ⟨-, g', hg', hf⟩ := resolveAll_clause.1 hf
    cases hf
    obtain ⟨s₁, h₁, rfl⟩ := hb (c := c.before (t' :: us')) hbody hg
    obtain ⟨s₂, h₂, hs₂⟩ := hb (c := c) hbody' hg'
    have hnot : (c.before (t' :: us')).cur.isKeyword .elif = false := by
      change t'.isKeyword .elif = false
      simp [isKeyword_eq ht]
    refine ⟨s₂, ?_, hs₂⟩
    rw [Cursor.before_cons, Cursor.before_append, Cursor.before_append, clauses, step_of_ok (advance_on s t _),
      bind_of_ok (expression_on hx hsees (hB.stops hbody _)), bind_of_ok h₁, step_of_ok (current_eq _),
      State.cursor_on, if_neg (Bool.eq_false_iff.1 hnot),
      if_pos (show (c.before (t' :: us')).cur.isKeyword .else_ = true from ht), Cursor.before_cons,
      step_of_ok (advance_on s₁ t' _), bind_of_ok h₂]
    rfl

theorem ifStatement_ok (hb : BlockSound block B) {s s' : State} {x : Stmt} (hl : s.cursor.Laid)
    (ht : s.cursor.cur.isKeyword .if_ = true) (h : ifStatement ctx n block s = .ok x s') :
    Parsed ctx (Compound (DerivesExpr n) B) s x s' := by
  obtain ⟨_, s₀, h₀, h⟩ := bind_ok.1 h
  obtain ⟨hrule, rfl⟩ := permit_ok.1 h₀
  obtain ⟨fuel, s₁, h₁, h⟩ := bind_ok.1 h
  cases h₁
  obtain ⟨cs, s₂, h₂, h⟩ := bind_ok.1 h
  obtain ⟨rfl, rfl⟩ := pure_ok.1 h
  obtain ⟨ts, us, vs, y, body, rest, rfl, e, hy, hbody, hrest, hf⟩ :=
    clauses_ok hb _ hl (keyword_ne_eof ht) (Nat.le_refl _) h₂
  refine ⟨_, e, .ifChain ht hy hbody hrest, ?_⟩
  have hrule' : ctx.place.rules.disabled .ifStatement = false := hrule
  simpa [Stmt.resolve, hrule'] using hf

theorem ifStatement_on (hb : BlockComplete block B) (hB : Colon B) {s : State} {t : Token}
    {ts us vs : List Token} {x : Expr} {body : List Stmt} {cs : List Clause} {f : Frame} {c : Cursor}
    (hx : DerivesExpr n ts x) (hbody : B us body) (hrest : Elifs (DerivesExpr n) B vs cs)
    (hf : (Stmt.ifChain (.mk (some x) body :: cs)).resolve ctx.place s.frame = some f)
    (hc : StopsClauses c.cur) :
    ∃ s' : State, ifStatement ctx n block (s.on (c.before (t :: (ts ++ (us ++ vs))))) =
      .ok (.ifChain (.mk (some x) body :: cs)) (s'.on c) ∧ s'.frame = f := by
  simp only [Stmt.resolve, Option.ite_none_left_eq_some] at hf
  have hfuel : vs.length < (c.before (t :: (ts ++ (us ++ vs)))).bound := by
    rw [Cursor.bound_before]
    simp
    omega
  obtain ⟨s₁, h₁, hs₁⟩ := clauses_on hb hB hrest hc (t := t) hx hbody hf.2 hfuel
  refine ⟨s₁, ?_, hs₁⟩
  unfold ifStatement
  rw [step_of_ok (permit_ok.2 ⟨Bool.eq_false_iff.2 hf.1, rfl⟩), step_of_ok (bound_eq _), State.cursor_on,
    bind_of_ok h₁]
  rfl

/-! ## Loops -/

theorem whileStatement_ok (hb : BlockSound block B) {s s' : State} {x : Stmt} (hl : s.cursor.Laid)
    (ht : s.cursor.cur.isKeyword .while_ = true) (h : whileStatement ctx n block s = .ok x s') :
    Parsed ctx (Compound (DerivesExpr n) B) s x s' := by
  obtain ⟨_, s₀, h₀, h⟩ := bind_ok.1 h
  obtain ⟨hrule, rfl⟩ := permit_ok.1 h₀
  obtain ⟨_, s₁, h₁, h⟩ := bind_ok.1 h
  obtain ⟨test, s₂, h₂, h⟩ := bind_ok.1 h
  obtain ⟨body, s₃, h₃, h⟩ := bind_ok.1 h
  obtain ⟨rfl, rfl⟩ := pure_ok.1 h
  have hr₁ := advance_ok hl (keyword_ne_eof ht) h₁
  obtain ⟨ts, hr₂, hx, hsees⟩ := expression_ok (hr₁.laid hl) h₂
  have hr₂ := hr₁.trans hr₂
  obtain ⟨us, e₃, hbody, hf⟩ := hb (hr₂.laid hl) h₃
  refine ⟨_, by simpa using Cursor.before_trans hr₂.cursor e₃, .whileLoop ht hx hbody, ?_⟩
  rw [hr₁.frame] at hsees
  rw [hr₂.frame] at hf
  have hrule' : ctx.place.rules.disabled .whileStatement = false := hrule
  simpa [Stmt.resolve, hrule', hsees] using hf

theorem whileStatement_on (hb : BlockComplete block B) (hB : Colon B) {s : State} {t : Token}
    {ts us : List Token} {x : Expr} {body : List Stmt} {f : Frame} {c : Cursor} (hx : DerivesExpr n ts x)
    (hbody : B us body) (hf : (Stmt.whileLoop x body).resolve ctx.place s.frame = some f) :
    ∃ s' : State, whileStatement ctx n block (s.on (c.before (t :: (ts ++ us)))) =
      .ok (.whileLoop x body) (s'.on c) ∧ s'.frame = f := by
  simp only [Stmt.resolve, Option.ite_none_left_eq_some, Option.ite_none_right_eq_some] at hf
  obtain ⟨hrule, hsees, hf⟩ := hf
  obtain ⟨s₁, h₁, hs₁⟩ := hb (c := c) hbody hf
  refine ⟨s₁, ?_, hs₁⟩
  rw [Cursor.before_cons, Cursor.before_append]
  unfold whileStatement
  rw [step_of_ok (permit_ok.2 ⟨Bool.eq_false_iff.2 hrule, rfl⟩), step_of_ok (advance_on s t _),
    bind_of_ok (expression_on hx hsees (hB.stops hbody c)), bind_of_ok h₁]
  rfl

/-- The range adds no names to those of its arguments. -/
theorem names_rangeOf {args : List Expr} {start stop step : Expr} (h : rangeOf? args = some (start, stop, step)) :
    Expr.namesAll [start, stop, step] = Expr.namesAll args := by
  match args, h with
  | [_], h =>
    cases h
    simp [Expr.namesAll, Expr.ofInt, Expr.names]
  | [_, _], h =>
    cases h
    simp [Expr.namesAll, Expr.ofInt, Expr.names]
  | [_, _, _], h =>
    cases h
    rfl

/-- What holds of the arguments holds of the range, as far as it holds of the numbers that stand for what is
left out. -/
theorem forall_rangeOf {P : Expr → Prop} {args : List Expr} {start stop step : Expr}
    (h : rangeOf? args = some (start, stop, step)) (hargs : ∀ x ∈ args, P x) (hzero : P (.ofInt 0))
    (hone : P (.ofInt 1)) : P start ∧ P stop ∧ P step := by
  unfold rangeOf? at h
  split at h <;> cases h <;> simp_all

theorem items_of_rangeOf {args : List Expr} {r : Expr × Expr × Expr} (h : rangeOf? args = some r)
    {ts : List Token} (hx : Arguments (DerivesExpr n) ts args) : Items isComma (DerivesExpr n) ts args := by
  cases hx with
  | none => cases h
  | some hx => exact hx

/-- The state at the start of a new scope. -/
def State.entered (s : State) : State :=
  { s with frame := [], tally := { s.tally with scopes := s.tally.scopes + 1 } }

theorem enterScope_eq (s : State) : enterScope s = .ok s.frame s.entered := rfl

/-- A parser in a new scope leaves the scope around it alone. -/
theorem inScope_ok {α : Type} {p : Parser α} {s s' : State} {a : α} {g : Frame}
    (h : inScope p s = .ok (a, g) s') :
    ∃ s₁ : State, p s.entered = .ok a s₁ ∧ s₁.frame = g ∧ s'.cursor = s₁.cursor ∧ s'.frame = s.frame := by
  unfold inScope at h
  rw [step_of_ok (enterScope_eq s)] at h
  obtain ⟨b, s₁, h₁, h⟩ := bind_ok.1 h
  cases h
  exact ⟨s₁, h₁, rfl, rfl, rfl⟩

theorem inScope_error {α : Type} {p : Parser α} {s s' : State} {h : Halt} (he : inScope p s = .error h s') :
    p s.entered = .error h s' := by
  unfold inScope at he
  rw [step_of_ok (enterScope_eq s)] at he
  rcases bind_error.1 he with he | ⟨a, s₁, -, he⟩
  · exact he
  · cases he

theorem inScope_on {α : Type} {p : Parser α} {a : α} {c d : Cursor} {s s₁ : State}
    (hp : p (s.entered.on d) = .ok a (s₁.on c)) :
    inScope p (s.on d) = .ok (a, s₁.frame) ((s₁.holding s.frame).on c) := by
  unfold inScope
  rw [step_of_ok (enterScope_eq _)]
  exact (bind_of_ok hp).trans rfl

theorem resolve_forRange {p : Place} {f f' : Frame} {name : Text} {start stop step : Expr} {body : List Stmt}
    {scope : Frame} :
    (Stmt.forRange name start stop step body scope).resolve p f = some f' ↔
      p.rules.disabled .forStatement = false ∧ p.sees f (Expr.namesAll [start, stop, step]) = true ∧
        p.rules.blacklisted name = false ∧ Stmt.resolveAll (p.inner f) [{ name }] body = some scope ∧ f = f' := by
  have hdeclare : ∀ g, p.declare [] { name } = some g ↔ p.rules.blacklisted name = false ∧ g = [{ name }] := by
    simp [Place.declare_iff, Frame.names]
  simp only [Stmt.resolve, Option.ite_none_left_eq_some, Option.ite_none_right_eq_some,
    Option.bind_eq_some_iff, hdeclare, Bool.not_eq_true]
  grind

theorem place_inner (ctx : Context) (f : Frame) : (ctx.inner f).place = ctx.place.inner f := rfl

theorem forStatement_ok (hb : BlockSound block B) {s s' : State} {x : Stmt} (hl : s.cursor.Laid)
    (ht : s.cursor.cur.isKeyword .for_ = true) (h : forStatement ctx n block s = .ok x s') :
    Parsed ctx (Compound (DerivesExpr n) B) s x s' := by
  obtain ⟨_, s₀, h₀, h⟩ := bind_ok.1 h
  obtain ⟨hrule, rfl⟩ := permit_ok.1 h₀
  obtain ⟨_, s₁, h₁, h⟩ := bind_ok.1 h
  have hr₁ := advance_ok hl (keyword_ne_eof ht) h₁
  rw [step_of_ok (current_eq s₁)] at h
  split at h
  · next hn =>
    obtain ⟨_, s₂, h₂, h⟩ := bind_ok.1 h
    obtain ⟨_, s₃, h₃, h⟩ := bind_ok.1 h
    obtain ⟨_, s₄, h₄, h⟩ := bind_ok.1 h
    rw [step_of_ok (current_eq s₄)] at h
    obtain ⟨_, s₅, h₅, h⟩ := bind_ok.1 h
    obtain ⟨args, s₆, h₆, h⟩ := bind_ok.1 h
    have hr₂ := hr₁.trans (advance_ok (hr₁.laid hl) (Reader.kind_ne_eof hn (by decide)) h₂)
    obtain ⟨hi, hr₃⟩ := expect_ok (hr₂.laid hl) (fun _ => operator_ne_eof) h₃
    have hr₃ := hr₂.trans hr₃
    obtain ⟨hk, hr₄⟩ := expect_ok (hr₃.laid hl) (fun _ => keyword_ne_eof) h₄
    have hr₄ := hr₃.trans hr₄
    obtain ⟨ho, hr₅⟩ := expect_ok (hr₄.laid hl) Reader.bracket_ne_eof h₅
    have hr₅ := hr₄.trans hr₅
    obtain ⟨ts, hr₆, hx, hsees⟩ := arguments_ok (hr₅.laid hl) h₆
    have hr₆ := hr₅.trans hr₆
    rw [hr₅.frame] at hsees
    cases hargs : rangeOf? args with
    | none =>
      rw [hargs] at h
      cases h
    | some r =>
      obtain ⟨start, stop, step⟩ := r
      rw [hargs] at h
      obtain ⟨_, s₇, h₇, h⟩ := bind_ok.1 h
      obtain ⟨hclose, hr₇⟩ := expect_ok (hr₆.laid hl) Reader.bracket_ne_eof h₇
      have hr₇ := hr₆.trans hr₇
      rw [step_of_ok (frame_eq s₇)] at h
      obtain ⟨⟨body, scope⟩, s₈, h₈, h⟩ := bind_ok.1 h
      obtain ⟨rfl, rfl⟩ := pure_ok.1 h
      obtain ⟨s₉, h₉, rfl, hc₈, hf₈⟩ := inScope_ok h₈
      rw [step_of_ok (current_eq _)] at h₉
      obtain ⟨_, s₁₀, h₁₀, h₉⟩ := bind_ok.1 h₉
      obtain ⟨hname, rfl⟩ := declare_ok.1 h₁₀
      obtain ⟨us, e₉, hbody, hf⟩ := hb (by exact hr₇.laid hl) h₉
      have e₉ : s₇.cursor = s₈.cursor.before us := hc₈ ▸ e₉
      refine ⟨_, by simpa using Cursor.before_trans hr₇.cursor e₉,
        .forRange ht hn hi hk ho (items_of_rangeOf hargs hx) hargs hclose hbody, ?_⟩
      rw [hr₇.frame, place_inner] at hf
      rw [hf₈, hr₇.frame]
      exact resolve_forRange.2 ⟨hrule, by rwa [names_rangeOf hargs], hname, hf, rfl⟩
  · cases h

theorem forStatement_on (hb : BlockComplete block B) {s : State} {t v i k l r : Token} {ts us : List Token}
    {args : List Expr} {start stop step : Expr} {body : List Stmt} {scope f : Frame} {c : Cursor}
    (hn : v.kind = .identifier) (hi : i.isOperator .in_ = true) (hk : k.isKeyword .range = true)
    (ho : l.isBracket .roundOpen = true) (hx : Items isComma (DerivesExpr n) ts args)
    (hargs : rangeOf? args = some (start, stop, step)) (hclose : r.isBracket .roundClose = true) (hbody : B us body)
    (hf : (Stmt.forRange v.literal start stop step body scope).resolve ctx.place s.frame = some f) :
    ∃ s' : State, forStatement ctx n block (s.on (c.before (t :: v :: i :: k :: l :: (ts ++ r :: us)))) =
      .ok (.forRange v.literal start stop step body scope) (s'.on c) ∧ s'.frame = f := by
  obtain ⟨hrule, hsees, hname, hscope, rfl⟩ := resolve_forRange.1 hf
  rw [names_rangeOf hargs] at hsees
  let s₀ : State := s.entered.holding [{ name := v.literal }]
  obtain ⟨s₁, h₁, rfl⟩ := @hb (ctx.inner s.frame) s₀ us body scope c hbody hscope
  have hdeclare : declare ctx.rules { name := v.literal } (c.before us).cur (s.entered.on (c.before us)) =
      .ok () (s₀.on (c.before us)) := declare_ok.2 ⟨hname, rfl⟩
  refine ⟨s₁.holding s.frame, ?_, rfl⟩
  simp only [Cursor.before_cons, Cursor.before_append]
  unfold forStatement
  rw [step_of_ok (permit_ok.2 ⟨hrule, rfl⟩), step_of_ok (advance_on s t _), step_of_ok (current_eq _),
    State.cursor_on, Cursor.cur_back, if_pos hn, step_of_ok (advance_on s v _), step_of_ok (expect_on hi s _),
    step_of_ok (expect_on hk s _), step_of_ok (current_eq _), step_of_ok (expect_on ho s _),
    bind_of_ok (arguments_on (.some hx) hsees hclose), hargs]
  refine (step_of_ok (expect_on hclose s _)).trans ?_
  rw [step_of_ok (frame_eq _), State.frame_on]
  refine (bind_of_ok (inScope_on (s := s) ?_)).trans rfl
  rw [step_of_ok (current_eq _)]
  exact (step_of_ok hdeclare).trans h₁

end

/-! ## Parameters -/

section
variable {rules : RuleSet} {s s' : State} {ps : List Text}

theorem holds_iff {f : Frame} {x : Text} : f.holds x = true ↔ ∃ r ∈ f, r.name = x := by
  simp [Frame.holds, Frame.find]

/-- The names can be declared one after another, none of them twice, in a scope with the names `f`. -/
def Fresh (rules : RuleSet) (f : Frame) (ps : List Text) : Prop :=
  ps.Nodup ∧ ∀ x ∈ ps, f.holds x = false ∧ rules.blacklisted x = false

/-- The scope behind the declaration of names. -/
def declareAll (f : Frame) (ps : List Text) : Frame := f ++ ps.map fun name => { name := name }

theorem insert_new {f : Frame} {x : Text} (h : f.holds x = false) : f.insert { name := x } = declareAll f [x] := by
  simp [Frame.insert, h, declareAll]

theorem fresh_cons {f : Frame} {x : Text} :
    Fresh rules f (x :: ps) ↔
      f.holds x = false ∧ rules.blacklisted x = false ∧ Fresh rules (declareAll f [x]) ps := by
  have hholds : ∀ y, (declareAll f [x]).holds y = false ↔ f.holds y = false ∧ x ≠ y := by
    intro y
    simp only [← Bool.not_eq_true, holds_iff, declareAll, List.mem_append, List.map_cons, List.map_nil,
      List.mem_singleton]
    grind
  simp only [Fresh, List.nodup_cons, List.forall_mem_cons, hholds]
  grind

theorem declareAll_cons (f : Frame) (x : Text) (ps : List Text) :
    declareAll f (x :: ps) = declareAll (declareAll f [x]) ps := by
  simp [declareAll]

theorem fresh_nil {p : Place} {g : Frame} :
    p.parameters ps = some g ↔ Fresh p.rules [] ps ∧ declareAll [] ps = g := by
  simp [Place.parameters, Fresh, declareAll, Frame.holds, Frame.find]

/-- Parses one parameter and those behind it. -/
def parameter (rules : RuleSet) (fuel : Nat) : Parser (List Text) := do
  let t ← current
  if t.kind = .identifier then
    let f ← frame
    if f.holds t.literal then
      fail (t.unexpected ("duplicate argument '" ++ t.literal ++ "' in function definition"))
    else
      declare rules { name := t.literal } t
      advance
      let rest ← parameters rules fuel false
      pure (t.literal :: rest)
  else fail (t.notExpected "a parameter name")

theorem parameters_close {fuel : Nat} {first : Bool} (h : s.cursor.cur.isBracket .roundClose = true) :
    parameters rules (fuel + 1) first s = .ok [] s := by
  rw [parameters, bind_of_ok (current_eq s), if_pos h]
  rfl

theorem parameters_first {fuel : Nat} (h : s.cursor.cur.isBracket .roundClose = false) :
    parameters rules (fuel + 1) true s = parameter rules fuel s := by
  rw [parameters, bind_of_ok (current_eq s), if_neg (Bool.eq_false_iff.1 h)]
  rfl

theorem parameters_more {fuel : Nat} (h : s.cursor.cur.isBracket .roundClose = false) :
    parameters rules (fuel + 1) false s =
      (expect (·.isDelimiter .comma) "',' or ')'" >>= fun _ => parameter rules fuel) s := by
  rw [parameters, bind_of_ok (current_eq s), if_neg (Bool.eq_false_iff.1 h)]
  rfl

/-- The parser has passed over names up to a closing parenthesis and declared them. -/
def Declared (rules : RuleSet) (A : Phrase Token (List Text)) (s : State) (ps : List Text) (s' : State) : Prop :=
  ∃ ts, s.cursor = s'.cursor.before ts ∧ s'.cursor.cur.isBracket .roundClose = true ∧ A ts ps ∧
    Fresh rules s.frame ps ∧ s'.frame = declareAll s.frame ps

theorem parameter_ok {fuel : Nat} (hl : s.cursor.Laid)
    (hmore : ∀ {s s' : State} {ps : List Text}, s.cursor.Laid → s.cursor.bound ≤ fuel →
      parameters rules fuel false s = .ok ps s' → Declared rules (MoreItems isComma Name) s ps s')
    (hfuel : s.cursor.bound ≤ fuel + 1) (h : parameter rules fuel s = .ok ps s') :
    Declared rules (Items isComma Name) s ps s' := by
  unfold parameter at h
  rw [bind_of_ok (current_eq s)] at h
  split at h
  · next hn =>
    rw [bind_of_ok (frame_eq s)] at h
    split at h
    · cases h
    · next hnew =>
      obtain ⟨_, s₁, h₁, h⟩ := bind_ok.1 h
      obtain ⟨_, s₂, h₂, h⟩ := bind_ok.1 h
      obtain ⟨rest, s₃, h₃, h⟩ := bind_ok.1 h
      obtain ⟨rfl, rfl⟩ := pure_ok.1 h
      obtain ⟨hname, rfl⟩ := declare_ok.1 h₁
      have hnew' : s.frame.holds s.cursor.cur.literal = false := Bool.eq_false_iff.2 hnew
      have hr₂ := advance_ok (by exact hl) (by exact Reader.kind_ne_eof hn (by decide)) h₂
      have e₂ : s.cursor = s₂.cursor.before [s.cursor.cur] := hr₂.cursor
      have hbound : s₂.cursor.bound ≤ fuel := by
        rw [e₂, Cursor.bound_before] at hfuel
        simp only [List.length_singleton] at hfuel
        omega
      obtain ⟨ts, e₃, hclose, hrest, hfresh, hf⟩ := hmore (hr₂.laid hl) hbound h₃
      rw [hr₂.frame, insert_new hnew'] at hfresh hf
      refine ⟨[s.cursor.cur] ++ ts, Cursor.before_trans e₂ e₃, hclose, .mk (.mk hn) hrest, ?_, ?_⟩
      · exact fresh_cons.2 ⟨hnew', hname, hfresh⟩
      · rw [hf, State.frame_holding, ← declareAll_cons]
  · cases h

theorem moreParameters_ok (fuel : Nat) (hl : s.cursor.Laid) (hfuel : s.cursor.bound ≤ fuel)
    (h : parameters rules fuel false s = .ok ps s') : Declared rules (MoreItems isComma Name) s ps s' := by
  induction fuel generalizing s s' ps with
  | zero => exact absurd (bound_pos s.cursor) (by omega)
  | succ fuel ih =>
    cases hclose : s.cursor.cur.isBracket .roundClose with
    | true =>
      rw [parameters_close hclose] at h
      cases h
      exact ⟨[], rfl, hclose, .done, by simp [Fresh], by simp [declareAll]⟩
    | false =>
      rw [parameters_more hclose] at h
      obtain ⟨_, s₁, h₁, h⟩ := bind_ok.1 h
      obtain ⟨hcomma, hr₁⟩ :=
        expect_ok hl (fun t ht => Reader.kind_ne_eof (kind_of_isDelimiter ht) (by decide)) h₁
      have hbound : s₁.cursor.bound ≤ fuel + 1 := by
        rw [hr₁.cursor, Cursor.bound_before] at hfuel
        omega
      obtain ⟨ts, e, hc, ⟨hx, hrest⟩, hfresh, hf⟩ := parameter_ok (hr₁.laid hl) ih hbound h
      rw [hr₁.frame] at hfresh hf
      refine ⟨s.cursor.cur :: (_ ++ _), ?_, hc, .more hcomma hx hrest, hfresh, hf⟩
      exact Cursor.before_trans hr₁.cursor e

theorem parameters_ok {fuel : Nat} (hl : s.cursor.Laid) (hfuel : s.cursor.bound ≤ fuel)
    (h : parameters rules fuel true s = .ok ps s') : Declared rules (OptItems isComma Name) s ps s' := by
  obtain ⟨fuel, rfl⟩ : ∃ k, fuel = k + 1 := ⟨fuel - 1, by have := bound_pos s.cursor; omega⟩
  cases hclose : s.cursor.cur.isBracket .roundClose with
  | true =>
    rw [parameters_close hclose] at h
    cases h
    exact ⟨[], rfl, hclose, .none, by simp [Fresh], by simp [declareAll]⟩
  | false =>
    rw [parameters_first hclose] at h
    obtain ⟨ts, e, hc, hx, hfresh, hf⟩ :=
      parameter_ok hl (fun hl hb h => moreParameters_ok fuel hl hb h) hfuel h
    exact ⟨ts, e, hc, .some hx, hfresh, hf⟩

theorem parameter_on {t : Token} {fuel : Nat} {c d : Cursor} (ht : t.kind = .identifier)
    (hfresh : Fresh rules s.frame (t.literal :: ps))
    (hmore : ∀ s : State, Fresh rules s.frame ps →
      parameters rules fuel false (s.on d) = .ok ps ((s.holding (declareAll s.frame ps)).on c)) :
    parameter rules fuel (s.on (d.back t)) =
      .ok (t.literal :: ps) ((s.holding (declareAll s.frame (t.literal :: ps))).on c) := by
  obtain ⟨hnew, hname, hfresh⟩ := fresh_cons.1 hfresh
  have hdeclare : declare rules { name := t.literal } t (s.on (d.back t)) =
      .ok () ((s.holding (declareAll s.frame [t.literal])).on (d.back t)) :=
    declare_ok.2 ⟨hname, by rw [State.frame_on, insert_new hnew]; rfl⟩
  unfold parameter
  rw [bind_of_ok (current_eq _), State.cursor_on, Cursor.cur_back, if_pos ht, bind_of_ok (frame_eq _),
    State.frame_on, if_neg (Bool.eq_false_iff.1 hnew), bind_of_ok hdeclare, bind_of_ok (advance_on _ t d),
    bind_of_ok (hmore _ hfresh), declareAll_cons s.frame t.literal ps]
  rfl

theorem moreParameters_on {ts : List Token} (hx : MoreItems isComma Name ts ps) {c : Cursor}
    (hc : c.cur.isBracket .roundClose = true) : ∀ {fuel : Nat} {s : State}, ts.length < fuel →
      Fresh rules s.frame ps → parameters rules fuel false (s.on (c.before ts)) =
        .ok ps ((s.holding (declareAll s.frame ps)).on c) := by
  induction hx with
  | done =>
    rintro (_ | fuel) s hfuel hfresh
    · cases hfuel
    · rw [Cursor.before_nil, parameters_close hc]
      simp [declareAll]
  | @more t ts us x xs ht hx hrest ih =>
    rintro (_ | fuel) s hfuel hfresh
    · cases hfuel
    · have hopen : (s.on ((c.before (ts ++ us)).back t)).cursor.cur.isBracket .roundClose = false := by
        change t.isBracket .roundClose = false
        simp [Token.isBracket, kind_of_isDelimiter ht]
      rw [Cursor.before_cons, parameters_more hopen, bind_of_ok (expect_on ht s _)]
      obtain ⟨hn⟩ := hx
      exact parameter_on hn hfresh fun s hs => ih (by simp at hfuel ⊢; omega) hs

theorem parameters_on {ts : List Token} (hx : OptItems isComma Name ts ps) {c : Cursor}
    (hc : c.cur.isBracket .roundClose = true) {fuel : Nat} (hfuel : ts.length < fuel)
    (hfresh : Fresh rules s.frame ps) :
    parameters rules fuel true (s.on (c.before ts)) = .ok ps ((s.holding (declareAll s.frame ps)).on c) := by
  obtain ⟨fuel, rfl⟩ : ∃ k, fuel = k + 1 := ⟨fuel - 1, by omega⟩
  cases hx with
  | none =>
    rw [Cursor.before_nil, parameters_close hc]
    simp [declareAll]
  | some hx =>
    obtain ⟨⟨hn⟩, hrest⟩ := hx
    rename_i us xs t
    have hopen : (s.on (c.before ([t] ++ us))).cursor.cur.isBracket .roundClose = false := by
      change t.isBracket .roundClose = false
      simp [Token.isBracket, hn]
    rw [parameters_first hopen]
    exact parameter_on hn hfresh fun s hs => moreParameters_on hrest hc (by simp at hfuel ⊢; omega) hs

end

/-! ## Functions -/

section
variable {ctx : Context} {n : Nat} {block : BlockParser Parser} {B : Phrase Token (List Stmt)}

theorem resolve_define {p : Place} {f f' : Frame} {name : Text} {params : List Text} {body : List Stmt}
    {scope : Frame} :
    (Stmt.define name params body scope).resolve p f = some f' ↔
      p.rules.disabled .functionDefinition = false ∧ p.declare f { name, kind := .function } = some f' ∧
        Fresh p.rules [] params ∧
        Stmt.resolveAll { p.inner f' with inFunction := true } (declareAll [] params) body = some scope := by
  simp only [Stmt.resolve, Option.ite_none_left_eq_some, Option.ite_none_right_eq_some,
    Option.bind_eq_some_iff, fresh_nil, Bool.not_eq_true]
  grind

theorem defStatement_ok (hb : BlockSound block B) {s s' : State} {x : Stmt} (hl : s.cursor.Laid)
    (ht : s.cursor.cur.isKeyword .def_ = true) (h : defStatement ctx block s = .ok x s') :
    Parsed ctx (Compound (DerivesExpr n) B) s x s' := by
  obtain ⟨_, s₀, h₀, h⟩ := bind_ok.1 h
  obtain ⟨hrule, rfl⟩ := permit_ok.1 h₀
  obtain ⟨_, s₁, h₁, h⟩ := bind_ok.1 h
  have hr₁ := advance_ok hl (keyword_ne_eof ht) h₁
  rw [step_of_ok (current_eq s₁)] at h
  split at h
  · next hn =>
    obtain ⟨_, s₂, h₂, h⟩ := bind_ok.1 h
    obtain ⟨_, s₃, h₃, h⟩ := bind_ok.1 h
    obtain ⟨_, s₄, h₄, h⟩ := bind_ok.1 h
    rw [step_of_ok (frame_eq s₄)] at h
    obtain ⟨⟨⟨params, body⟩, scope⟩, s₅, h₅, h⟩ := bind_ok.1 h
    obtain ⟨rfl, rfl⟩ := pure_ok.1 h
    obtain ⟨f, hf, rfl⟩ := declareOnce_ok.1 h₂
    have hl₁ : (s₁.holding f).cursor.Laid := hr₁.laid hl
    have hr₃ := advance_ok hl₁ (Reader.kind_ne_eof hn (by decide)) h₃
    obtain ⟨hopen, hr₄⟩ := expect_ok (hr₃.laid hl₁) Reader.bracket_ne_eof h₄
    have hr₄ := hr₃.trans hr₄
    obtain ⟨s₆, h₆, rfl, hc₅, hf₅⟩ := inScope_ok h₅
    rw [step_of_ok (bound_eq _)] at h₆
    obtain ⟨params, s₇, h₇, h₆⟩ := bind_ok.1 h₆
    obtain ⟨_, s₈, h₈, h₆⟩ := bind_ok.1 h₆
    obtain ⟨body, s₉, h₉, h₆⟩ := bind_ok.1 h₆
    obtain ⟨e, rfl⟩ := pure_ok.1 h₆
    cases e
    have hl₄ : s₄.entered.cursor.Laid := hr₄.laid hl₁
    obtain ⟨ts, e₇, hclose, hparams, hfresh, hf₇⟩ := parameters_ok hl₄ (Nat.le_refl _) h₇
    have hl₇ : s₇.cursor.Laid := by rw [e₇] at hl₄; exact Cursor.laid_before hl₄
    have hr₈ := advance_ok hl₇ (Reader.bracket_ne_eof _ hclose) h₈
    obtain ⟨us, e₉, hbody, hf₉⟩ := hb (hr₈.laid hl₇) h₉
    have e₁ : s.cursor = (s₁.holding f).cursor.before [s.cursor.cur] := hr₁.cursor
    have e₄ : s₄.cursor = s₅.cursor.before (ts ++ ([s₇.cursor.cur] ++ us)) := by
      rw [hc₅]
      exact Cursor.before_trans e₇ (Cursor.before_trans hr₈.cursor e₉)
    refine ⟨_, by simpa using Cursor.before_trans e₁ (Cursor.before_trans hr₄.cursor e₄),
      .define ht hn hopen hparams hclose hbody, ?_⟩
    rw [hr₁.frame] at hf
    rw [hr₈.frame, hf₇, hr₄.frame, State.frame_holding] at hf₉
    rw [hf₅, hr₄.frame, State.frame_holding]
    exact resolve_define.2 ⟨hrule, hf, hfresh, hf₉⟩
  · cases h

theorem defStatement_on (hb : BlockComplete block B) {s : State} {t v l r : Token} {ts us : List Token}
    {params : List Text} {body : List Stmt} {scope f : Frame} {c : Cursor} (hn : v.kind = .identifier)
    (ho : l.isBracket .roundOpen = true) (hx : OptItems isComma Name ts params)
    (hclose : r.isBracket .roundClose = true) (hbody : B us body)
    (hf : (Stmt.define v.literal params body scope).resolve ctx.place s.frame = some f) :
    ∃ s' : State, defStatement ctx block (s.on (c.before (t :: v :: l :: (ts ++ r :: us)))) =
      .ok (.define v.literal params body scope) (s'.on c) ∧ s'.frame = f := by
  obtain ⟨hrule, hname, hfresh, hscope⟩ := resolve_define.1 hf
  let s₀ : State := (s.holding f).entered
  have hparams : parameters ctx.rules (c.before (ts ++ r :: us)).bound true (s₀.on (c.before (ts ++ r :: us))) =
      .ok params ((s₀.holding (declareAll [] params)).on ((c.before us).back r)) := by
    have hfuel : ts.length < (c.before (ts ++ r :: us)).bound := by
      rw [Cursor.bound_before]
      simp
      omega
    rw [Cursor.before_append] at hfuel ⊢
    exact parameters_on hx hclose hfuel hfresh
  obtain ⟨s₁, h₁, rfl⟩ := @hb { ctx.inner f with inFunction := true } (s₀.holding (declareAll [] params)) us body
    scope c hbody hscope
  refine ⟨s₁.holding f, ?_, rfl⟩
  simp only [Cursor.before_cons]
  unfold defStatement
  rw [step_of_ok (permit_ok.2 ⟨hrule, rfl⟩), step_of_ok (advance_on s t _), step_of_ok (current_eq _),
    State.cursor_on, Cursor.cur_back, if_pos hn, step_of_ok (declareOnce_on hname _),
    step_of_ok (advance_on _ v _), step_of_ok (expect_on ho _ _), step_of_ok (frame_eq _), State.frame_on,
    State.frame_holding]
  refine (bind_of_ok (inScope_on (s := s.holding f) (a := (params, body)) ?_)).trans rfl
  rw [step_of_ok (bound_eq _), State.cursor_on]
  refine (bind_of_ok hparams).trans ?_
  rw [step_of_ok (advance_on _ r _)]
  exact (bind_of_ok h₁).trans rfl

end

end Offside.Statement
