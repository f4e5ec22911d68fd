import Offside.Proofs.Parser.Expression
import Offside.Proofs.Lexer.Order
import Offside.Proofs.Resolution

/-!
# Reading statements and deriving them

The parser of statements accepts what the grammar derives and the resolution of names allows. It passes
over a line end where no statement stands and takes the end of the source for the end of a line, but on
tokens in the order of a scan it never has to (`Cursor.Laid`).
-/

namespace Offside

open Offside.Grammar Offside.Resolution

namespace Cursor

open Token.Kind

/-- The tokens are in the order of a scan, and lead to the end of the source or stop for a reason. -/
def Laid (c : Cursor) : Prop :=
  ∃ k, Leads c.cur.kind (c.rest.map (·.kind)) k ∧ (k = .eof ↔ c.halt = none)

theorem laid_back {t : Token} {c : Cursor} :
    (c.back t).Laid ↔ t.kind.leadsTo c.cur.kind = true ∧ c.Laid := by
  constructor
  · rintro ⟨k, h, hk⟩
    cases h with
    | cons h hrest => exact ⟨h, k, hrest, hk⟩
  · rintro ⟨h, k, hrest, hk⟩
    exact ⟨k, .cons h hrest, hk⟩

theorem laid_before {ts : List Token} {c : Cursor} (h : (c.before ts).Laid) : c.Laid := by
  induction ts with
  | nil => exact h
  | cons t ts ih => exact ih (laid_back.1 h).2

theorem laid_of_before {c c' : Cursor} {ts : List Token} (hl : c.Laid) (e : c = c'.before ts) : c'.Laid := by
  rw [e] at hl
  exact laid_before hl

/-- The token behind a phrase may stand behind the last one in it. -/
theorem leadsTo_of_laid {ts : List Token} {t : Token} {c : Cursor} (h : (c.before (ts ++ [t])).Laid) :
    t.kind.leadsTo c.cur.kind = true := by
  rw [before_append] at h
  exact (laid_back.1 (laid_before h)).1

theorem leads_getLast {a b : Token.Kind} {ks : List Token.Kind} (h : Leads a ks b) :
    (a :: ks).getLast? = some b := by
  induction h with
  | nil => rfl
  | cons _ _ ih => simpa using ih

theorem Laid.ended {c : Cursor} (h : c.Laid) : c.Ended := by
  intro hh
  obtain ⟨k, hleads, hk⟩ := h
  have hlast := leads_getLast hleads
  rw [hk.2 hh, ← List.map_cons, List.getLast?_map, Option.map_eq_some_iff] at hlast
  exact hlast

/-- The end of the source is the last token, and then the scan has not failed. -/
theorem Laid.at_eof {c : Cursor} (h : c.Laid) (hk : c.cur.kind = .eof) :
    c.rest = [] ∧ c.halt = none := by
  obtain ⟨k, hleads, hend⟩ := h
  generalize hks : c.rest.map (·.kind) = ks at hleads
  rw [hk] at hleads
  cases hleads with
  | nil => exact ⟨List.map_eq_nil_iff.1 hks, hend.1 rfl⟩
  | cons hstep _ => cases hstep

end Cursor

namespace Statement

open Offside.Statement.Parser Offside.Expression

/-! ## Reading tokens -/

/-- The state with its cursor elsewhere. -/
def State.on (s : State) (c : Cursor) : State := { s with cursor := c }

@[simp] theorem State.cursor_on (s : State) (c : Cursor) : (s.on c).cursor = c := rfl

@[simp] theorem State.frame_on (s : State) (c : Cursor) : (s.on c).frame = s.frame := rfl

@[simp] theorem State.on_on (s : State) (c d : Cursor) : (s.on c).on d = s.on d := rfl

@[simp] theorem State.on_cursor (s : State) : s.on s.cursor = s := rfl

/-- The state with other names in its innermost scope. -/
def State.holding (s : State) (f : Frame) : State := { s with frame := f }

@[simp] theorem State.cursor_holding (s : State) (f : Frame) : (s.holding f).cursor = s.cursor := rfl

@[simp] theorem State.frame_holding (s : State) (f : Frame) : (s.holding f).frame = f := rfl

@[simp] theorem State.holding_frame (s : State) : s.holding s.frame = s := rfl

/-- From the first state to the second the parser has passed over the tokens and done nothing else. -/
structure Reads (s : State) (ts : List Token) (s' : State) : Prop where
  cursor : s.cursor = s'.cursor.before ts
  state : s' = s.on s'.cursor

theorem Reads.trans {s s₁ s₂ : State} {ts us : List Token} (h : Reads s ts s₁) (h' : Reads s₁ us s₂) :
    Reads s (ts ++ us) s₂ := by
  refine ⟨?_, ?_⟩
  · rw [h.cursor, h'.cursor, Cursor.before_append]
  · rw [h'.state, h.state]
    rfl

theorem Reads.frame {s s' : State} {ts : List Token} (h : Reads s ts s') : s'.frame = s.frame := by
  rw [h.state]
  rfl

theorem Reads.laid {s s' : State} {ts : List Token} (h : Reads s ts s') (hl : s.cursor.Laid) :
    s'.cursor.Laid := by
  rw [h.cursor] at hl
  exact Cursor.laid_before hl

theorem read_ok {α : Type} {r : Reader α} {s s' : State} {a : α} :
    read r s = .ok a s' ↔ r s.cursor = .ok a s'.cursor ∧ s' = s.on s'.cursor := by
  unfold Parser.read
  cases r s.cursor with
  | ok b c =>
    simp only [EStateM.Result.ok.injEq]
    constructor
    · rintro ⟨rfl, rfl⟩
      exact ⟨⟨rfl, rfl⟩, rfl⟩
    · rintro ⟨⟨rfl, rfl⟩, h⟩
      exact ⟨rfl, h.symm⟩
  | error e c => simp

theorem read_error {α : Type} {r : Reader α} {s s' : State} {h : Halt} :
    read r s = .error h s' ↔ r s.cursor = .error h s'.cursor ∧ s' = s.on s'.cursor := by
  unfold Parser.read
  cases r s.cursor with
  | error e c =>
    simp only [EStateM.Result.error.injEq]
    constructor
    · rintro ⟨rfl, rfl⟩
      exact ⟨⟨rfl, rfl⟩, rfl⟩
    · rintro ⟨⟨rfl, rfl⟩, h⟩
      exact ⟨rfl, h.symm⟩
  | ok a c => simp

theorem read_on {α : Type} {r : Reader α} {a : α} {c c' : Cursor} (h : r c = .ok a c') (s : State) :
    read r (s.on c) = .ok a (s.on c') :=
  read_ok.2 ⟨h, rfl⟩

theorem current_eq (s : State) : current s = .ok s.cursor.cur s := rfl

theorem frame_eq (s : State) : frame s = .ok s.frame s := rfl

theorem bound_eq (s : State) : bound s = .ok s.cursor.bound s := rfl

theorem inFunction_eq (ctx : Context) (s : State) :
    MonadNesting.inFunction (m := Parser) ctx s = .ok ctx.inFunction s := rfl

theorem advance_ok {s s' : State} (hl : s.cursor.Laid) (hk : s.cursor.cur.kind ≠ .eof)
    (h : advance s = .ok () s') : Reads s [s.cursor.cur] s' := by
  obtain ⟨h, hs⟩ := read_ok.1 h
  exact ⟨(Reader.advance_ok hl.ended hk h).1, hs⟩

theorem advance_on (s : State) (t : Token) (c : Cursor) : advance (s.on (c.back t)) = .ok () (s.on c) :=
  read_on (Reader.advance_back t c) s

theorem expect_ok {is : Token → Bool} {what : Text} {s s' : State} (hl : s.cursor.Laid)
    (hk : ∀ t, is t = true → t.kind ≠ .eof) (h : expect is what s = .ok () s') :
    is s.cursor.cur = true ∧ Reads s [s.cursor.cur] s' := by
  obtain ⟨h, hs⟩ := read_ok.1 h
  obtain ⟨ht, e, -⟩ := Reader.expect_ok hl.ended hk h
  exact ⟨ht, e, hs⟩

theorem expect_eq {is : Token → Bool} {what : Text} (s : State) :
    expect is what s = if is s.cursor.cur then advance s else fail (s.cursor.cur.notExpected what) s := by
  unfold Parser.expect Parser.advance Parser.fail Parser.read Reader.expect
  rw [bind_of_ok (Reader.current_eq _)]
  by_cases ht : is s.cursor.cur = true
  · rw [if_pos ht, if_pos ht]
  · rw [if_neg ht, if_neg ht]

theorem expect_on {is : Token → Bool} {what : Text} {t : Token} (ht : is t = true) (s : State) (c : Cursor) :
    expect is what (s.on (c.back t)) = .ok () (s.on c) :=
  read_on (Reader.expect_back ht c) s

/-! ## Expressions -/

/-- What surrounds a statement, as far as names go. -/
def Context.place (ctx : Context) : Place := { rules := ctx.rules, outer := ctx.outer, inFunction := ctx.inFunction }

section
variable {ctx : Context} {n : Nat} {s s' : State}

theorem sees_iff {ctx : Context} {f : Frame} {names : List Text} :
    ctx.place.sees f names = true ↔ ∀ x ∈ names, Sees (f :: ctx.outer) x := by
  simp [Place.sees, Context.place]

theorem expression_ok {x : Expr} (hl : s.cursor.Laid) (h : expression (m := Parser) ctx n s = .ok x s') :
    ∃ ts, Reads s ts s' ∧ DerivesExpr n ts x ∧ ctx.place.sees s.frame x.names = true := by
  unfold expression at h
  rw [step_of_ok (frame_eq s)] at h
  obtain ⟨h, hs⟩ := read_ok.1 h
  obtain ⟨ts, hts, hx⟩ := parse_sound _ n .expr _ _ _ hl.ended h
  obtain ⟨hx, hsees⟩ := derives_iff_names.1 hx
  exact ⟨ts, ⟨hts, hs⟩, hx, sees_iff.2 hsees⟩

theorem expression_on {x : Expr} {ts : List Token} {c : Cursor} (hx : DerivesExpr n ts x)
    (hsees : ctx.place.sees s.frame x.names = true) (hstop : StopsExpr c.cur) :
    expression (m := Parser) ctx n (s.on (c.before ts)) = .ok x (s.on c) := by
  have hd := derives_iff_names.2 ⟨hx, sees_iff.1 hsees⟩
  unfold expression
  rw [step_of_ok (frame_eq _)]
  exact read_on ((parse_complete _ n).complete .expr ts x c hd hstop) s

theorem expressions_ok {xs : List Expr} (hl : s.cursor.Laid) (h : expressions (m := Parser) ctx n s = .ok xs s') :
    ∃ ts, Reads s ts s' ∧ Items isComma (DerivesExpr n) ts xs ∧
      ctx.place.sees s.frame (Expr.namesAll xs) = true := by
  unfold expressions at h
  rw [step_of_ok (frame_eq s)] at h
  obtain ⟨h, hs⟩ := read_ok.1 h
  obtain ⟨ts, hts, hx⟩ := Reader.items_sound (parse_sound _ n .expr) _ _ _ hl.ended h
  obtain ⟨hx, hsees⟩ := items_iff_names.1 hx
  exact ⟨ts, ⟨hts, hs⟩, hx, sees_iff.2 hsees⟩

theorem expressions_on {xs : List Expr} {ts : List Token} {c : Cursor} (hx : Items isComma (DerivesExpr n) ts xs)
    (hsees : ctx.place.sees s.frame (Expr.namesAll xs) = true) (hstop : StopsExpr c.cur)
    (hcomma : isComma c.cur = false) : expressions (m := Parser) ctx n (s.on (c.before ts)) = .ok xs (s.on c) := by
  have hd := items_iff_names.2 ⟨hx, sees_iff.1 hsees⟩
  unfold expressions
  rw [step_of_ok (frame_eq _)]
  exact read_on (Reader.items_complete ((parse_complete _ n).complete .expr) comma_stops ts xs c hd
    ⟨hstop, hcomma⟩) s

theorem arguments_ok {xs : List Expr} (hl : s.cursor.Laid) (h : arguments (m := Parser) ctx n s = .ok xs s') :
    ∃ ts, Reads s ts s' ∧ Arguments (DerivesExpr n) ts xs ∧ ctx.place.sees s.frame (Expr.namesAll xs) = true := by
  unfold arguments at h
  rw [step_of_ok (current_eq s)] at h
  split at h
  · obtain ⟨rfl, rfl⟩ := pure_ok.1 h
    exact ⟨[], ⟨rfl, rfl⟩, .none, rfl⟩
  · obtain ⟨ts, hts, hx, hsees⟩ := expressions_ok hl h
    exact ⟨ts, hts, .some hx, hsees⟩

theorem arguments_on {xs : List Expr} {ts : List Token} {c : Cursor} (hx : Arguments (DerivesExpr n) ts xs)
    (hsees : ctx.place.sees s.frame (Expr.namesAll xs) = true) (hc : c.cur.isBracket .roundClose = true) :
    arguments (m := Parser) ctx n (s.on (c.before ts)) = .ok xs (s.on c) := by
  unfold arguments
  rw [step_of_ok (current_eq _)]
  cases hx with
  | none =>
    rw [Cursor.before_nil, State.cursor_on, if_pos hc]
    rfl
  | some hx =>
    obtain ⟨t, us, e, ht⟩ := (heads_derives n).items _ _ hx
    have hopen : ((s.on (c.before ts)).cursor.cur).isBracket .roundClose = false := by
      rw [e]
      exact begins_not_close ht (by decide) (by decide)
    rw [if_neg (Bool.eq_false_iff.1 hopen)]
    exact expressions_on hx hsees (close_stops (by decide) _ hc)
      (by simp [isComma, Token.isDelimiter, kind_of_isBracket hc])

end

/-! ## Names and rules -/

section
variable {ctx : Context} {s s' : State}

theorem permit_ok {what : Text} {c : Construct} :
    permit ctx what c s = .ok () s' ↔ ctx.rules.disabled c = false ∧ s = s' := by
  unfold permit
  rw [bind_of_ok (current_eq s)]
  cases ctx.rules.disabled c with
  | true =>
    simp only [if_true, Bool.true_eq_false, false_and, iff_false]
    exact fun h => by cases h
  | false => simp [pure_ok]

theorem push_one {rules : RuleSet} {f : Frame} {r : Reference} :
    f.push rules [r] = if rules.blacklisted r.name then .error (Frame.blacklisted r.name) else .ok (f.insert r) := by
  cases h : rules.blacklisted r.name <;> simp [Frame.push, List.find?, h]

theorem declare_ok {rules : RuleSet} {r : Reference} {t : Token} :
    declare rules r t s = .ok () s' ↔
      rules.blacklisted r.name = false ∧ s' = s.holding (s.frame.insert r) := by
  unfold declare
  rw [push_one]
  cases rules.blacklisted r.name with
  | true => simp
  | false => simp [State.holding, eq_comm]

theorem declareOnce_ok {r : Reference} {t : Token} :
    declareOnce ctx.rules r t s = .ok () s' ↔
      ∃ f, ctx.place.declare s.frame r = some f ∧ s' = s.holding f := by
  unfold declareOnce Place.declare
  rw [bind_of_ok (frame_eq s)]
  split
  · simp only [pure_ok, true_and, Option.some.injEq, exists_eq_left']
    exact eq_comm
  · rw [declare_ok]
    change (ctx.place.rules.blacklisted r.name = false ∧ _) ↔ _
    cases ctx.place.rules.blacklisted r.name with
    | true => simp
    | false => simp

theorem declareOnce_on {r : Reference} {t : Token} {f : Frame} (hf : ctx.place.declare s.frame r = some f)
    (c : Cursor) : declareOnce ctx.rules r t (s.on c) = .ok () ((s.holding f).on c) :=
  declareOnce_ok.2 ⟨f, hf, rfl⟩

end

/-! ## Statements on one line -/

section
variable {ctx : Context} {n : Nat} {s s' : State} {x : Stmt}

/-- The parser has passed over the phrase of a statement and declared what the statement declares. -/
def Parsed (ctx : Context) (A : Phrase Token Stmt) (s : State) (x : Stmt) (s' : State) : Prop :=
  ∃ ts, s.cursor = s'.cursor.before ts ∧ A ts x ∧ x.resolve ctx.place s.frame = some s'.frame

theorem names_sequenceOf (xs : List Expr) : (sequenceOf xs).names = Expr.namesAll xs := by
  match xs with
  | [] => rfl
  | [x] => simp [sequenceOf, Expr.namesAll]
  | _ :: _ :: _ => rfl

theorem keyword_ne_eof {k : Keyword} {t : Token} (h : t.isKeyword k = true) : t.kind ≠ .eof :=
  Reader.kind_ne_eof (kind_of_isKeyword h) (by decide)

theorem returnStatement_ok (hl : s.cursor.Laid) (ht : s.cursor.cur.isKeyword .return_ = true)
    (h : returnStatement (m := Parser) ctx n s = .ok x s') : Parsed ctx (Simple (DerivesExpr n)) s x s' := by
  unfold returnStatement at h
  rw [step_of_ok (current_eq s), bind_of_ok (inFunction_eq ctx s)] at h
  split at h
  · next hin =>
    obtain ⟨_, s₁, h₁, h⟩ := bind_ok.1 h
    have hr₁ := advance_ok hl (keyword_ne_eof ht) h₁
    rw [step_of_ok (current_eq s₁)] at h
    split at h
    · obtain ⟨rfl, rfl⟩ := pure_ok.1 h
      refine ⟨_, hr₁.cursor, .ret ht, ?_⟩
      simp [Stmt.resolve, Context.place, hin, hr₁.frame, Expr.namesAll, Place.sees]
    · obtain ⟨xs, s₂, h₂, h⟩ := bind_ok.1 h
      obtain ⟨rfl, rfl⟩ := pure_ok.1 h
      obtain ⟨ts, hr₂, hx, hsees⟩ := expressions_ok (hr₁.laid hl) h₂
      refine ⟨_, (hr₁.trans hr₂).cursor, .values ht hx, ?_⟩
      rw [hr₁.frame] at hsees
      have hin' : ctx.place.inFunction = true := hin
      simp [Stmt.resolve, hin', Expr.namesAll, names_sequenceOf, hsees, (hr₁.trans hr₂).frame]
  · cases h

theorem printStatement_ok (hl : s.cursor.Laid) (ht : s.cursor.cur.isKeyword .print = true)
    (h : printStatement (m := Parser) ctx n s = .ok x s') : Parsed ctx (Simple (DerivesExpr n)) s x s' := by
  obtain ⟨_, s₀, h₀, h⟩ := bind_ok.1 h
  obtain ⟨hrule, rfl⟩ := permit_ok.1 h₀
  obtain ⟨_, s₁, h₁, h⟩ := bind_ok.1 h
  obtain ⟨_, s₂, h₂, h⟩ := bind_ok.1 h
  obtain ⟨xs, s₃, h₃, h⟩ := bind_ok.1 h
  obtain ⟨_, s₄, h₄, h⟩ := bind_ok.1 h
  obtain ⟨rfl, rfl⟩ := pure_ok.1 h
  have hr₁ := advance_ok hl (keyword_ne_eof ht) h₁
  obtain ⟨hopen, hr₂⟩ := expect_ok (hr₁.laid hl) Reader.bracket_ne_eof h₂
  have hr₂ := hr₁.trans hr₂
  obtain ⟨ts, hr₃, hx, hsees⟩ := arguments_ok (hr₂.laid hl) h₃
  have hr₃ := hr₂.trans hr₃
  obtain ⟨hclose, hr₄⟩ := expect_ok (hr₃.laid hl) Reader.bracket_ne_eof h₄
  have hr₄ := hr₃.trans hr₄
  refine ⟨_, by simpa using hr₄.cursor, .print ht hopen hx hclose, ?_⟩
  have hrule' : ctx.place.rules.disabled .print = false := hrule
  rw [hr₂.frame] at hsees
  simp [Stmt.resolve, hrule', hsees, hr₄.frame]

theorem assignment_ok {o : Token} (hl : s.cursor.Laid) (ht : s.cursor.cur.kind = .identifier)
    (hrest : s.cursor.rest.head? = some o) (ho : o.isOperator .assign = true)
    (h : assignment (m := Parser) ctx n s = .ok x s') : Parsed ctx (Simple (DerivesExpr n)) s x s' := by
  unfold assignment at h
  rw [step_of_ok (current_eq s)] at h
  obtain ⟨_, s₁, h₁, h⟩ := bind_ok.1 h
  obtain ⟨_, s₂, h₂, h⟩ := bind_ok.1 h
  obtain ⟨value, s₃, h₃, h⟩ := bind_ok.1 h
  rw [step_of_ok (frame_eq s₃)] at h
  obtain ⟨_, s₄, h₄, h⟩ := bind_ok.1 h
  obtain ⟨rfl, rfl⟩ := pure_ok.1 h
  have hr₁ := advance_ok hl (Reader.kind_ne_eof ht (by decide)) h₁
  have hcur : s₁.cursor.cur = o := by
    rw [hr₁.cursor] at hrest
    exact Option.some.inj hrest
  rw [← hcur] at ho
  have hr₂ := hr₁.trans (advance_ok (hr₁.laid hl) (operator_ne_eof ho) h₂)
  obtain ⟨ts, hr₃, hx, hsees⟩ := expression_ok (hr₂.laid hl) h₃
  have hr₃ := hr₂.trans hr₃
  obtain ⟨f, hf, rfl⟩ := declareOnce_ok.1 h₄
  refine ⟨_, hr₃.cursor, .assign ht ho hx, ?_⟩
  rw [hr₂.frame] at hsees
  rw [hr₃.frame] at hf ⊢
  simp only [Stmt.resolve]
  rw [if_pos ⟨hsees, rfl⟩]
  exact hf

theorem expressionStatement_ok {y : Expr} (hl : s.cursor.Laid) (h : expression (m := Parser) ctx n s = .ok y s') :
    Parsed ctx (Simple (DerivesExpr n)) s (.expression y) s' := by
  obtain ⟨ts, hr, hx, hsees⟩ := expression_ok hl h
  exact ⟨ts, hr.cursor, .expression hx, by simp [Stmt.resolve, hsees, hr.frame]⟩

theorem nameStatement_ok (hl : s.cursor.Laid) (ht : s.cursor.cur.kind = .identifier)
    (h : nameStatement (m := Parser) ctx n s = .ok x s') : Parsed ctx (Simple (DerivesExpr n)) s x s' := by
  obtain ⟨next, s₁, h₁, h⟩ := bind_ok.1 h
  obtain ⟨hpeek, hs₁⟩ := read_ok.1 h₁
  obtain ⟨hc, hnext⟩ := Reader.peek_ok hpeek
  obtain rfl : s = s₁ := by rw [hs₁, hc, State.on_cursor]
  split at h
  · next ho =>
    rcases hnext with hrest | rfl
    · exact assignment_ok hl ht hrest ho h
    · simp [Token.isOperator, ht] at ho
  · obtain ⟨y, s₂, h₂, h⟩ := bind_ok.1 h
    obtain ⟨rfl, rfl⟩ := pure_ok.1 h
    exact expressionStatement_ok hl h₂

/-! ### Completeness -/

theorem newline_stops {t : Token} (h : t.kind = .newline) : StopsExpr t ∧ isComma t = false :=
  ⟨Terminates.stops (.inl h), by simp [isComma, Token.isDelimiter, h]⟩

theorem begins_in_line {t : Token} (h : Begins t) : ¬ (t.kind = .newline ∨ t.kind = .eof) := by
  have hcontent := h.content
  rintro (h | h)
  · rw [h] at hcontent
    cases hcontent
  · rw [h] at hcontent
    cases hcontent

theorem returnStatement_none {t : Token} {f : Frame} {c : Cursor}
    (hf : (Stmt.ret none).resolve ctx.place s.frame = some f) (hc : c.cur.kind = .newline) :
    returnStatement (m := Parser) ctx n (s.on (c.back t)) = .ok (.ret none) (s.on c) ∧ s.frame = f := by
  simp only [Stmt.resolve, Option.ite_none_right_eq_some, Option.some.injEq] at hf
  obtain ⟨⟨hin, -⟩, rfl⟩ := hf
  have hin' : ctx.inFunction = true := hin
  refine ⟨?_, rfl⟩
  unfold returnStatement
  rw [step_of_ok (current_eq _), bind_of_ok (inFunction_eq ctx _), if_pos hin', step_of_ok (advance_on s t c),
    step_of_ok (current_eq _), State.cursor_on, if_pos (.inl hc)]
  rfl

theorem returnStatement_values {t : Token} {ts : List Token} {xs : List Expr} {f : Frame} {c : Cursor}
    (hx : Items isComma (DerivesExpr n) ts xs)
    (hf : (Stmt.ret (some (sequenceOf xs))).resolve ctx.place s.frame = some f) (hc : c.cur.kind = .newline) :
    returnStatement (m := Parser) ctx n (s.on ((c.before ts).back t)) = .ok (.ret (some (sequenceOf xs))) (s.on c) ∧
      s.frame = f := by
  simp only [Stmt.resolve, Option.ite_none_right_eq_some, Option.some.injEq] at hf
  obtain ⟨⟨hin, hsees⟩, rfl⟩ := hf
  have hin' : ctx.inFunction = true := hin
  have hsees' : ctx.place.sees s.frame (Expr.namesAll xs) = true := by
    simpa [Expr.namesAll, names_sequenceOf] using hsees
  have hnext : ¬ ((c.before ts).cur.kind = .newline ∨ (c.before ts).cur.kind = .eof) := by
    obtain ⟨u, us, rfl, hu⟩ := (heads_derives n).items _ _ hx
    exact begins_in_line hu
  refine ⟨?_, rfl⟩
  unfold returnStatement
  rw [step_of_ok (current_eq _), bind_of_ok (inFunction_eq ctx _), if_pos hin', step_of_ok (advance_on s t _),
    step_of_ok (current_eq _), State.cursor_on, if_neg hnext,
    bind_of_ok (expressions_on hx hsees' (newline_stops hc).1 (newline_stops hc).2)]
  rfl

theorem printStatement_on {t l r : Token} {ts : List Token} {xs : List Expr} {f : Frame} {c : Cursor}
    (hl : l.isBracket .roundOpen = true) (hx : Arguments (DerivesExpr n) ts xs)
    (hr : r.isBracket .roundClose = true) (hf : (Stmt.print xs).resolve ctx.place s.frame = some f) :
    printStatement (m := Parser) ctx n (s.on (c.before (t :: l :: (ts ++ [r])))) = .ok (.print xs) (s.on c) ∧
      s.frame = f := by
  simp only [Stmt.resolve, Option.ite_none_left_eq_some, Option.ite_none_right_eq_some,
    Option.some.injEq] at hf
  obtain ⟨hrule, hsees, rfl⟩ := hf
  refine ⟨?_, rfl⟩
  rw [Cursor.before_cons, Cursor.before_cons, Cursor.before_append]
  unfold printStatement
  rw [step_of_ok (permit_ok.2 ⟨Bool.eq_false_iff.2 hrule, rfl⟩), step_of_ok (advance_on s t _),
    step_of_ok (expect_on hl s _), bind_of_ok (arguments_on hx hsees hr), Cursor.before_cons,
    Cursor.before_nil, step_of_ok (expect_on hr s c)]
  rfl

theorem assignment_on {t o : Token} {ts : List Token} {y : Expr} {declared : Bool} {f : Frame} {c : Cursor}
    (hx : DerivesExpr n ts y) (hf : (Stmt.assign t.literal y declared).resolve ctx.place s.frame = some f)
    (hc : c.cur.kind = .newline) :
    assignment (m := Parser) ctx n (s.on (c.before (t :: o :: ts))) =
      .ok (.assign t.literal y declared) ((s.holding f).on c) := by
  simp only [Stmt.resolve, Option.ite_none_right_eq_some] at hf
  obtain ⟨⟨hsees, rfl⟩, hf⟩ := hf
  rw [Cursor.before_cons, Cursor.before_cons]
  unfold assignment
  rw [step_of_ok (current_eq _), step_of_ok (advance_on s t _), step_of_ok (advance_on s o _),
    bind_of_ok (expression_on hx hsees (newline_stops hc).1), step_of_ok (frame_eq _)]
  exact (step_of_ok (declareOnce_on hf c)).trans rfl

/-- No equals sign stands in an expression. -/
theorem not_assign {ts : List Token} {y : Expr} (h : DerivesExpr n ts y) {t : Token} (ht : t ∈ ts) :
    t.isOperator .assign = false := by
  cases ho : t.isOperator .assign with
  | false => rfl
  | true =>
    have hmem : symbol? t ∈ (ts.filter fun t => !t.isOperator .not).map symbol? :=
      List.mem_map_of_mem (List.mem_filter.2 ⟨ht, by simp [isOperator_eq ho]⟩)
    rw [h.keeps.1] at hmem
    obtain ⟨y, -, hy⟩ := List.mem_map.1 hmem
    simp only [Token.isOperator, Bool.and_eq_true, beq_iff_eq] at ho
    have hassign : binops.lookup .assign = none := rfl
    simp [symbol?, ho, hassign] at hy

/-- The token that is looked at behind the first one of a phrase. -/
theorem peek_on (s : State) (t : Token) (c : Cursor) :
    read Reader.peek (s.on (c.back t)) = .ok c.cur (s.on (c.back t)) := rfl

theorem cur_before_mem (ts : List Token) (c : Cursor) : (c.before ts).cur ∈ ts ∨ (c.before ts).cur = c.cur := by
  cases ts with
  | nil => exact .inr rfl
  | cons t ts => exact .inl List.mem_cons_self

theorem nameStatement_expression {t : Token} {ts : List Token} {y : Expr} {c : Cursor}
    (hx : DerivesExpr n (t :: ts) y) (hsees : ctx.place.sees s.frame y.names = true) (hc : c.cur.kind = .newline) :
    nameStatement (m := Parser) ctx n (s.on (c.before (t :: ts))) = .ok (.expression y) (s.on c) := by
  have hnext : (c.before ts).cur.isOperator .assign = false := by
    rcases cur_before_mem ts c with h | h
    · exact not_assign hx (List.mem_cons_of_mem _ h)
    · rw [h]
      simp [Token.isOperator, hc]
  have hexpr : expression (m := Parser) ctx n (s.on ((c.before ts).back t)) = .ok y (s.on c) :=
    expression_on hx hsees (newline_stops hc).1
  rw [Cursor.before_cons]
  unfold nameStatement
  rw [step_of_ok (peek_on s t _), if_neg (Bool.eq_false_iff.1 hnext), bind_of_ok hexpr]
  rfl

theorem nameStatement_assign {t o : Token} {ts : List Token} {y : Expr} {declared : Bool} {f : Frame} {c : Cursor}
    (ho : o.isOperator .assign = true) (hx : DerivesExpr n ts y)
    (hf : (Stmt.assign t.literal y declared).resolve ctx.place s.frame = some f) (hc : c.cur.kind = .newline) :
    nameStatement (m := Parser) ctx n (s.on (c.before (t :: o :: ts))) =
      .ok (.assign t.literal y declared) ((s.holding f).on c) := by
  have hnext : (c.before (o :: ts)).cur.isOperator .assign = true := ho
  rw [Cursor.before_cons]
  unfold nameStatement
  rw [step_of_ok (peek_on s t _), if_pos hnext]
  exact assignment_on hx hf hc

/-! ### The end of the line -/

theorem items_content {ts : List Token} {xs : List Expr} (h : Items isComma (DerivesExpr n) ts xs) :
    ∀ t ∈ ts, t.kind.isStructural = false := by
  have hcomma : ∀ t, isComma t = true → t.kind.isStructural = false := fun t ht => by
    rw [kind_of_isDelimiter ht]
    rfl
  exact ((Items.only_iff hcomma).1 (h.imp fun _ _ hx => ⟨hx, Derives.content hx⟩)).2

/-- A statement on one line ends with a token of content. -/
theorem simple_last {ts : List Token} (h : Simple (DerivesExpr n) ts x) :
    ∃ us t, ts = us ++ [t] ∧ t.kind.isStructural = false := by
  have hlast : ∀ {ts : List Token}, ts ≠ [] → (∀ t ∈ ts, t.kind.isStructural = false) →
      ∃ us t, ts = us ++ [t] ∧ t.kind.isStructural = false := fun hne hts =>
    ⟨_, _, (List.dropLast_concat_getLast hne).symm, hts _ (List.getLast_mem hne)⟩
  cases h with
  | ret ht => exact ⟨[], _, rfl, by rw [kind_of_isKeyword ht]; rfl⟩
  | values ht hx =>
    refine hlast (List.cons_ne_nil _ _) (List.forall_mem_cons.2 ⟨?_, items_content hx⟩)
    rw [kind_of_isKeyword ht]
    rfl
  | @print t l r ts xs _ _ _ hr => exact ⟨t :: l :: ts, r, rfl, by rw [kind_of_isBracket hr]; rfl⟩
  | @assign t o ts y _ ht ho hx =>
    refine hlast (List.cons_ne_nil _ _) (List.forall_mem_cons.2 ⟨?_, List.forall_mem_cons.2 ⟨?_, hx.content⟩⟩)
    · rw [ht]
      rfl
    · rw [kind_of_isOperator ho]
      rfl
  | expression hx =>
    obtain ⟨t, us, rfl, -⟩ := heads_derives n _ _ hx
    exact hlast (List.cons_ne_nil _ _) hx.content

theorem endOfLine_ok {k : Token.Kind} (hl : s.cursor.Laid) (hk : k.isStructural = false)
    (hnext : k.leadsTo s.cursor.cur.kind = true) (h : endOfLine s = .ok () s') :
    s.cursor.cur.kind = .newline ∧ Reads s [s.cursor.cur] s' := by
  unfold endOfLine at h
  rw [bind_of_ok (current_eq s)] at h
  cases hcur : s.cursor.cur.kind with
  | newline =>
    rw [hcur] at h
    exact ⟨rfl, advance_ok hl (by rw [hcur]; decide) h⟩
  | eof =>
    rw [hcur] at hnext
    cases k <;> simp_all [Token.Kind.leadsTo, Token.Kind.isStructural]
  | _ =>
    rw [hcur] at h
    cases h

theorem endOfLine_on (s : State) {t : Token} (ht : t.kind = .newline) (c : Cursor) :
    endOfLine (s.on (c.back t)) = .ok () (s.on c) := by
  unfold endOfLine
  rw [bind_of_ok (current_eq _), State.cursor_on, Cursor.cur_back, ht]
  exact advance_on s t c

theorem onOneLine_ok {B : Phrase Token (List Stmt)} {p : Parser Stmt} (hl : s.cursor.Laid)
    (hp : ∀ x s', p s = .ok x s' → Parsed ctx (Simple (DerivesExpr n)) s x s')
    (h : onOneLine p s = .ok x s') : Parsed ctx (AnyStatement (DerivesExpr n) B) s x s' := by
  obtain ⟨y, s₁, h₁, h⟩ := bind_ok.1 h
  obtain ⟨_, s₂, h₂, h⟩ := bind_ok.1 h
  obtain ⟨rfl, rfl⟩ := pure_ok.1 h
  obtain ⟨ts, hts, hx, hf⟩ := hp y s₁ h₁
  obtain ⟨us, t, rfl, ht⟩ := simple_last hx
  rw [hts] at hl
  obtain ⟨hn, hr⟩ := endOfLine_ok (Cursor.laid_before hl) ht (Cursor.leadsTo_of_laid hl) h₂
  refine ⟨(us ++ [t]) ++ [s₁.cursor.cur], ?_, .simple hx hn, ?_⟩
  · rw [hts, Cursor.before_append _ [s₁.cursor.cur], ← hr.cursor]
  · rw [hf, hr.frame]

theorem onOneLine_on {p : Parser Stmt} {t : Token} {c d : Cursor} {s₁ : State} (ht : t.kind = .newline)
    (hp : p (s.on d) = .ok x (s₁.on (c.back t))) : onOneLine p (s.on d) = .ok x (s₁.on c) := by
  unfold onOneLine
  rw [bind_of_ok hp, step_of_ok (endOfLine_on s₁ ht c)]
  rfl

end

end Statement

end Offside
