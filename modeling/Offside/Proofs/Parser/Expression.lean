import Offside.Proofs.Parser.Reader
import Offside.Proofs.Grammar.Symbols

/-!
# Reading expressions and deriving them

The parser of expressions accepts what the grammar derives, and builds the tree of the derivation. Each
level is sound and complete for its phrase; the budget for nesting is the depth of the derivation. Main
statement: a phrase that ends before a terminator is read to a tree just when it derives that tree.
-/

namespace Offside.Expression

open Offside.Grammar Offside.Grammar.Operators Offside.Reader

/-! ## Tokens that stop a phrase -/

/-- Tokens behind which a name stays a name. -/
def StopsPrimary (t : Token) : Prop := t.isBracket .roundOpen = false

/-- Tokens that no power goes on with. -/
def StopsPower (t : Token) : Prop := StopsPrimary t ∧ t.isOperator .power = false

/-- Tokens that no product goes on with. -/
def StopsProduct (t : Token) : Prop := StopsPower t ∧ mulop.node? t = none

/-- Tokens that no sum goes on with. -/
def StopsSum (t : Token) : Prop := StopsProduct t ∧ addop.node? t = none

/-- Tokens that no comparison goes on with. -/
def StopsComparison (t : Token) : Prop := StopsSum t ∧ cmpop.node? t = none

/-- Tokens that no negation goes on with. -/
def StopsNegation (t : Token) : Prop := StopsComparison t ∧ t.isOperator .not = false

/-- Tokens that no conjunction goes on with. -/
def StopsConjunction (t : Token) : Prop := StopsNegation t ∧ andop.node? t = none

/-- Tokens that no expression goes on with. -/
def StopsExpr (t : Token) : Prop := StopsConjunction t ∧ orop.node? t = none

/-- Tokens that the phrases which nest do not go on with. -/
def Entry.Stops : Entry → Token → Prop
  | .expr => StopsExpr
  | .not => StopsNegation
  | .power => StopsPower

/-- The tokens that end an expression: the end of a line or of the source, a colon, a comma, and the
closing brackets. -/
def Terminates (t : Token) : Prop :=
  t.kind = .newline ∨ t.kind = .eof ∨ t.isDelimiter .colon = true ∨ t.isDelimiter .comma = true ∨
    t.isBracket .roundClose = true ∨ t.isBracket .squareClose = true

section
variable {t : Token} {o : Operator}

theorem stopsPrimary_of_isOperator (h : t.isOperator o = true) : StopsPrimary t := by
  simp [StopsPrimary, Token.isBracket, kind_of_isOperator h]

theorem stopsExpr_of_kind (hk : t.kind ≠ .operator) (hb : t.isBracket .roundOpen = false) : StopsExpr t := by
  have hop : ∀ o, t.isOperator o = false := fun o => by simp [Token.isOperator, hk]
  have hlevel : ∀ ops : Operators, ops.node? t = none := node?_eq_none hk
  exact ⟨⟨⟨⟨⟨⟨⟨hb, hop _⟩, hlevel _⟩, hlevel _⟩, hlevel _⟩, hop _⟩, hlevel _⟩, hlevel _⟩

theorem Terminates.stops (h : Terminates t) : StopsExpr t := by
  refine stopsExpr_of_kind ?_ ?_
  · rcases h with h | h | h | h | h | h
    · simp [h]
    · simp [h]
    · simp [kind_of_isDelimiter h]
    · simp [kind_of_isDelimiter h]
    · simp [kind_of_isBracket h]
    · simp [kind_of_isBracket h]
  · simp only [Token.isDelimiter, Token.isBracket, Bool.and_eq_true, beq_iff_eq, Terminates] at h ⊢
    rcases h with h | h | h | h | h | h <;> simp [h]

end

/-! ### The operators of a level stop the level inside it -/

theorem multiplicativeLevel_eq : multiplicativeLevel.ofToken? = mulop.node? :=
  ofToken?_eq_node? fun o => by cases o <;> rfl

theorem additiveLevel_eq : additiveLevel.ofToken? = addop.node? :=
  ofToken?_eq_node? fun o => by cases o <;> rfl

theorem comparisonLevel_eq : comparisonLevel.ofToken? = cmpop.node? :=
  ofToken?_eq_node? fun o => by cases o <;> rfl

theorem andLevel_eq : andLevel.ofToken? = andop.node? :=
  ofToken?_eq_node? fun o => by cases o <;> rfl

theorem orLevel_eq : orLevel.ofToken? = orop.node? :=
  ofToken?_eq_node? fun o => by cases o <;> rfl

section
variable {t : Token} {o : Operator} (ht : t.isOperator o = true) (hpower : o ≠ .power)
include ht hpower

theorem stopsPower_of_operator : StopsPower t :=
  ⟨stopsPrimary_of_isOperator ht, by simp [isOperator_eq ht, hpower]⟩

theorem stopsProduct_of_operator (hmul : mulop.lookup o = none) : StopsProduct t :=
  ⟨stopsPower_of_operator ht hpower, by rwa [node?_eq_lookup ht]⟩

theorem stopsSum_of_operator (hmul : mulop.lookup o = none) (hadd : addop.lookup o = none) : StopsSum t :=
  ⟨stopsProduct_of_operator ht hpower hmul, by rwa [node?_eq_lookup ht]⟩

theorem stopsComparison_of_operator (hmul : mulop.lookup o = none) (hadd : addop.lookup o = none)
    (hcmp : cmpop.lookup o = none) : StopsComparison t :=
  ⟨stopsSum_of_operator ht hpower hmul hadd, by rwa [node?_eq_lookup ht]⟩

end

theorem multiplicative_stops (t : Token) (op : BinaryOp) (h : mulop.node? t = some op) : StopsPower t := by
  have hall : ∀ p ∈ mulop, p.1 ≠ .power := by decide
  obtain ⟨o, ho, ht⟩ := isOperator_of_node? h
  exact stopsPower_of_operator ht (hall _ ho)

theorem additive_stops (t : Token) (op : BinaryOp) (h : addop.node? t = some op) : StopsProduct t := by
  have hall : ∀ p ∈ addop, p.1 ≠ .power ∧ mulop.lookup p.1 = none := by decide
  obtain ⟨o, ho, ht⟩ := isOperator_of_node? h
  obtain ⟨hpower, hmul⟩ := hall _ ho
  exact stopsProduct_of_operator ht hpower hmul

theorem comparison_stops (t : Token) (op : BinaryOp) (h : cmpop.node? t = some op) : StopsSum t := by
  have hall : ∀ p ∈ cmpop, p.1 ≠ .power ∧ mulop.lookup p.1 = none ∧ addop.lookup p.1 = none := by decide
  obtain ⟨o, ho, ht⟩ := isOperator_of_node? h
  obtain ⟨hpower, hmul, hadd⟩ := hall _ ho
  exact stopsSum_of_operator ht hpower hmul hadd

theorem not_stops (t : Token) (h : t.isOperator .not = true) : StopsComparison t :=
  stopsComparison_of_operator h (by decide) rfl rfl rfl

theorem and_stops (t : Token) (op : BinaryOp) (h : andop.node? t = some op) : StopsNegation t := by
  obtain ⟨o, ho, ht⟩ := isOperator_of_node? h
  obtain ⟨rfl, rfl⟩ := Prod.mk.inj (List.mem_singleton.1 ho)
  exact ⟨stopsComparison_of_operator ht (by decide) rfl rfl rfl, by simp [isOperator_eq ht]⟩

theorem or_stops (t : Token) (op : BinaryOp) (h : orop.node? t = some op) : StopsConjunction t := by
  obtain ⟨o, ho, ht⟩ := isOperator_of_node? h
  obtain ⟨rfl, rfl⟩ := Prod.mk.inj (List.mem_singleton.1 ho)
  refine ⟨⟨stopsComparison_of_operator ht (by decide) rfl rfl rfl, by simp [isOperator_eq ht]⟩, ?_⟩
  rw [node?_eq_lookup ht]
  rfl

theorem comma_stops (t : Token) (h : isComma t = true) : StopsExpr t :=
  Terminates.stops (.inr (.inr (.inr (.inl h))))

/-! ## Primary expressions -/

section
variable {scope : Chain} {nested : Nested Reader} {N : Nesting}

/-- The names that the scope sees. -/
abbrev Sees (scope : Chain) (x : Text) : Prop := scope.sees x = true

theorem primary_of_keyword {c : Cursor} {k : Keyword} (h : c.cur.isKeyword k = true) :
    primary scope nested c = (match k with
      | .true_ | .false_ => literal .boolean c.cur
      | .none_ => literal .null c.cur
      | .len => length nested
      | _ => Reader.fail c.cur.invalid) c := by
  simp only [Token.isKeyword, Bool.and_eq_true, beq_iff_eq] at h
  rw [primary, step_of_ok (current_eq c), h.1, h.2]
  cases k <;> rfl

theorem primary_of_bracket {c : Cursor} {b : Bracket} (h : c.cur.isBracket b = true) :
    primary scope nested c = (match b with
      | .roundOpen => enclosure nested
      | .squareOpen => list nested
      | _ => Reader.fail c.cur.invalid) c := by
  simp only [Token.isBracket, Bool.and_eq_true, beq_iff_eq] at h
  rw [primary, step_of_ok (current_eq c), h.1, h.2]
  cases b <;> rfl

theorem primary_of_number {c : Cursor} (h : c.cur.kind = .number) :
    primary scope nested c = literal .number c.cur c := by
  rw [primary, step_of_ok (current_eq c), h]
  rfl

theorem primary_of_string {c : Cursor} (h : c.cur.kind = .string) :
    primary scope nested c = literal .string c.cur c := by
  rw [primary, step_of_ok (current_eq c), h]
  rfl

theorem primary_of_identifier {c : Cursor} (h : c.cur.kind = .identifier) :
    primary scope nested c = name scope nested c.cur c := by
  rw [primary, step_of_ok (current_eq c), h]

/-- A primary expression begins with one of these kinds of tokens. -/
theorem primary_kinds {c c' : Cursor} {e : Expr} (h : primary scope nested c = .ok e c') :
    c.cur.kind = .number ∨ c.cur.kind = .string ∨ c.cur.kind = .identifier ∨
      (∃ k, c.cur.isKeyword k = true) ∨ ∃ b, c.cur.isBracket b = true := by
  cases hk : c.cur.kind with
  | number => exact .inl rfl
  | string => exact .inr (.inl rfl)
  | identifier => exact .inr (.inr (.inl rfl))
  | keyword =>
    cases hs : c.cur.subtype with
    | keyword k => exact .inr (.inr (.inr (.inl ⟨k, by simp [Token.isKeyword, hk, hs]⟩)))
    | _ =>
      rw [primary, step_of_ok (current_eq c), hk, hs] at h
      cases h
  | bracket =>
    cases hs : c.cur.subtype with
    | bracket b => exact .inr (.inr (.inr (.inr ⟨b, by simp [Token.isBracket, hk, hs]⟩)))
    | _ =>
      rw [primary, step_of_ok (current_eq c), hk, hs] at h
      cases h
  | _ =>
    rw [primary, step_of_ok (current_eq c), hk] at h
    cases h

theorem literal_sound {kind : LiteralKind} {c c' : Cursor} {e : Expr} (hc : c.Ended)
    (hk : c.cur.kind ≠ .eof) (h : literal kind c.cur c = .ok e c') :
    c = c'.before [c.cur] ∧ e = .literal kind c.cur.literal := by
  obtain ⟨_, c₁, h₁, h₂⟩ := bind_ok.1 h
  obtain ⟨rfl, rfl⟩ := pure_ok.1 h₂
  exact ⟨(advance_ok hc hk h₁).1, rfl⟩

theorem enclosure_sound (hN : ∀ s, Sound (nested s) (N s)) {c c' : Cursor} {e : Expr} (hc : c.Ended)
    (hl : c.cur.isBracket .roundOpen = true) (h : enclosure nested c = .ok e c') :
    ∃ ts, c = c'.before ts ∧ Primary (Sees scope) N ts e := by
  obtain ⟨_, c₁, h₁, h⟩ := bind_ok.1 h
  obtain ⟨inner, c₂, h₂, h⟩ := bind_ok.1 h
  obtain ⟨_, c₃, h₃, h⟩ := bind_ok.1 h
  obtain ⟨rfl, rfl⟩ := pure_ok.1 h
  obtain ⟨e₁, hc₁⟩ := advance_ok hc (bracket_ne_eof _ hl) h₁
  obtain ⟨ts, rfl, hx⟩ := hN .expr c₁ inner c₂ hc₁ h₂
  obtain ⟨hr, e₃, _⟩ := expect_ok (Cursor.ended_before.1 hc₁) bracket_ne_eof h₃
  refine ⟨c.cur :: (ts ++ [c₂.cur]), ?_, .enclosure hl hx hr⟩
  rw [Cursor.before_cons, Cursor.before_append, Cursor.before_cons, Cursor.before_nil, ← e₃, ← e₁]

theorem list_sound (hN : ∀ s, Sound (nested s) (N s)) {c c' : Cursor} {e : Expr} (hc : c.Ended)
    (hl : c.cur.isBracket .squareOpen = true) (h : list nested c = .ok e c') :
    ∃ ts, c = c'.before ts ∧ Primary (Sees scope) N ts e := by
  obtain ⟨_, c₁, h₁, h⟩ := bind_ok.1 h
  obtain ⟨xs, c₂, h₂, h⟩ := bind_ok.1 h
  obtain ⟨rfl, rfl⟩ := pure_ok.1 h
  obtain ⟨e₁, hc₁⟩ := advance_ok hc (bracket_ne_eof _ hl) h₁
  obtain ⟨ts, r, rfl, hx, hr⟩ := itemsUntil_sound (hN .expr) hc₁ h₂
  exact ⟨c.cur :: (ts ++ [r]), e₁, .list hl hx hr⟩

theorem length_sound (hN : ∀ s, Sound (nested s) (N s)) {c c' : Cursor} {e : Expr} (hc : c.Ended)
    (hk : c.cur.isKeyword .len = true) (h : length nested c = .ok e c') :
    ∃ ts, c = c'.before ts ∧ Primary (Sees scope) N ts e := by
  obtain ⟨_, c₁, h₁, h⟩ := bind_ok.1 h
  obtain ⟨_, c₂, h₂, h⟩ := bind_ok.1 h
  obtain ⟨operand, c₃, h₃, h⟩ := bind_ok.1 h
  obtain ⟨_, c₄, h₄, h⟩ := bind_ok.1 h
  obtain ⟨rfl, rfl⟩ := pure_ok.1 h
  obtain ⟨e₁, hc₁⟩ := advance_ok hc (kind_ne_eof (kind_of_isKeyword hk) (by decide)) h₁
  obtain ⟨hl, e₂, hc₂⟩ := expect_ok hc₁ bracket_ne_eof h₂
  obtain ⟨ts, rfl, hx⟩ := hN .expr c₂ operand c₃ hc₂ h₃
  obtain ⟨hr, e₄, _⟩ := expect_ok (Cursor.ended_before.1 hc₂) bracket_ne_eof h₄
  refine ⟨c.cur :: c₁.cur :: (ts ++ [c₃.cur]), ?_, .length hk hl hx hr⟩
  rw [Cursor.before_cons, Cursor.before_cons, Cursor.before_append, Cursor.before_cons, Cursor.before_nil,
    ← e₄, ← e₂, ← e₁]

theorem name_sound (hN : ∀ s, Sound (nested s) (N s)) {c c' : Cursor} {e : Expr} (hc : c.Ended)
    (hk : c.cur.kind = .identifier) (h : name scope nested c.cur c = .ok e c') :
    ∃ ts, c = c'.before ts ∧ Primary (Sees scope) N ts e := by
  unfold name at h
  split at h
  · next hs =>
    obtain ⟨_, c₁, h₁, h⟩ := bind_ok.1 h
    obtain ⟨e₁, hc₁⟩ := advance_ok hc (kind_ne_eof hk (by decide)) h₁
    rw [step_of_ok (current_eq c₁)] at h
    split at h
    · next hl =>
      obtain ⟨_, c₂, h₂, h⟩ := bind_ok.1 h
      obtain ⟨xs, c₃, h₃, h⟩ := bind_ok.1 h
      obtain ⟨rfl, rfl⟩ := pure_ok.1 h
      obtain ⟨e₂, hc₂⟩ := advance_ok hc₁ (bracket_ne_eof _ hl) h₂
      obtain ⟨ts, r, rfl, hx, hr⟩ := itemsUntil_sound (hN .expr) hc₂ h₃
      refine ⟨c.cur :: c₁.cur :: (ts ++ [r]), ?_, .call hk hs hl hx hr⟩
      rw [Cursor.before_cons, Cursor.before_cons, ← e₂, ← e₁]
    · obtain ⟨rfl, rfl⟩ := pure_ok.1 h
      exact ⟨[c.cur], e₁, .name hk hs⟩
  · cases h

theorem primary_sound (hN : ∀ s, Sound (nested s) (N s)) :
    Sound (primary scope nested) (Primary (Sees scope) N) := by
  intro c e c' hc h
  rcases primary_kinds h with hk | hk | hk | ⟨k, hk⟩ | ⟨b, hb⟩
  · rw [primary_of_number hk] at h
    obtain ⟨e₁, rfl⟩ := literal_sound hc (kind_ne_eof hk (by decide)) h
    exact ⟨_, e₁, .number hk⟩
  · rw [primary_of_string hk] at h
    obtain ⟨e₁, rfl⟩ := literal_sound hc (kind_ne_eof hk (by decide)) h
    exact ⟨_, e₁, .string hk⟩
  · rw [primary_of_identifier hk] at h
    exact name_sound hN hc hk h
  · rw [primary_of_keyword hk] at h
    have hend := kind_ne_eof (kind_of_isKeyword hk) (by decide)
    cases k with
    | true_ =>
      obtain ⟨e₁, rfl⟩ := literal_sound hc hend h
      exact ⟨_, e₁, .true_ hk⟩
    | false_ =>
      obtain ⟨e₁, rfl⟩ := literal_sound hc hend h
      exact ⟨_, e₁, .false_ hk⟩
    | none_ =>
      obtain ⟨e₁, rfl⟩ := literal_sound hc hend h
      exact ⟨_, e₁, .none_ hk⟩
    | len => exact length_sound hN hc hk h
    | _ => cases h
  · rw [primary_of_bracket hb] at h
    cases b with
    | roundOpen => exact enclosure_sound hN hc hb h
    | squareOpen => exact list_sound hN hc hb h
    | _ => cases h

/-! ### Completeness -/

theorem isBracket_eq {t : Token} {b : Bracket} (h : t.isBracket b = true) (b' : Bracket) :
    t.isBracket b' = decide (b = b') := by
  simp only [Token.isBracket, Bool.and_eq_true, beq_iff_eq] at h
  by_cases hb : b = b' <;> simp [Token.isBracket, h, hb]

/-- No expression begins with a closing bracket. -/
theorem begins_not_close {t : Token} {b : Bracket} (h : Begins t) (hr : b ≠ .roundOpen)
    (hs : b ≠ .squareOpen) : t.isBracket b = false := by
  cases hb : t.isBracket b with
  | false => rfl
  | true =>
    have hk := kind_of_isBracket hb
    simp only [Begins, BeginsUnary, BeginsPrimary, hk, Token.isKeyword, Token.isOperator, isBracket_eq hb, hr, hs]
      at h
    simp at h

theorem close_stops {b : Bracket} (hr : b ≠ .roundOpen) (t : Token) (h : t.isBracket b = true) : StopsExpr t :=
  stopsExpr_of_kind (by simp [kind_of_isBracket h]) (by simp [isBracket_eq h, hr])

/-- The readers of nested expressions read the nested phrases. -/
structure ReadsNested (nested : Nested Reader) (N : Nesting) : Prop where
  complete : ∀ s, Complete (nested s) (N s) s.Stops
  heads : Heads Begins (N .expr)

theorem arguments_complete (hN : ReadsNested nested N) {b : Bracket} (ho : b ≠ .roundOpen)
    (hs : b ≠ .squareOpen) {what : Text} {ts : List Token} {xs : List Expr} {r : Token}
    (hx : Arguments (N .expr) ts xs) (hr : r.isBracket b = true) (c : Cursor) :
    itemsUntil (nested .expr) b what (c.before (ts ++ [r])) = .ok xs c := by
  refine itemsUntil_complete (hN.complete .expr) comma_stops (close_stops ho) (fun ts e h => ?_) hx hr c
  obtain ⟨t, us, e, ht⟩ := hN.heads ts e h
  exact ⟨t, us, e, begins_not_close ht ho hs⟩

/-- An expression in parentheses, behind the opening one. -/
theorem inner_complete (hN : ReadsNested nested N) {ts : List Token} {e : Expr} {r : Token}
    (hx : N .expr ts e) (hr : r.isBracket .roundClose = true) (c : Cursor) :
    nested .expr (c.before (ts ++ [r])) = .ok e (c.back r) := by
  rw [Cursor.before_append]
  exact hN.complete .expr ts e _ hx (close_stops (by decide) r hr)

theorem name_complete {t : Token} (hs : Sees scope t.literal) {c : Cursor}
    (hc : StopsPrimary c.cur) : name scope nested t (c.back t) = .ok (.access t.literal false) c := by
  unfold name
  rw [if_pos hs, step_of_ok (advance_back _ _), step_of_ok (current_eq _), if_neg (Bool.eq_false_iff.1 hc)]
  rfl

theorem call_complete (hN : ReadsNested nested N) {t l r : Token} (hs : Sees scope t.literal)
    (hl : l.isBracket .roundOpen = true) {ts : List Token} {xs : List Expr} (hx : Arguments (N .expr) ts xs)
    (hr : r.isBracket .roundClose = true) (c : Cursor) :
    name scope nested t (((c.before (ts ++ [r])).back l).back t) = .ok (.call t.literal xs) c := by
  unfold name
  rw [if_pos hs, step_of_ok (advance_back _ _), step_of_ok (current_eq _), Cursor.cur_back, if_pos hl,
    step_of_ok (advance_back _ _), bind_of_ok (arguments_complete hN (by decide) (by decide) hx hr c)]
  rfl

theorem primary_complete (hN : ReadsNested nested N) :
    Complete (primary scope nested) (Primary (Sees scope) N) StopsPrimary := by
  intro ts e c h hc
  have hclose : ∀ {r : Token} {what : Text}, r.isBracket .roundClose = true →
      Reader.expect (·.isBracket .roundClose) what (c.back r) = .ok () c := fun hr => expect_back hr c
  cases h with
  | number hk => rw [Cursor.before_cons, primary_of_number hk]; rfl
  | string hk => rw [Cursor.before_cons, primary_of_string hk]; rfl
  | true_ hk => rw [Cursor.before_cons, primary_of_keyword hk]; rfl
  | false_ hk => rw [Cursor.before_cons, primary_of_keyword hk]; rfl
  | none_ hk => rw [Cursor.before_cons, primary_of_keyword hk]; rfl
  | enclosure hl hx hr =>
    rw [Cursor.before_cons, primary_of_bracket hl]
    simp only [enclosure]
    rw [step_of_ok (advance_back _ _), bind_of_ok (inner_complete hN hx hr c), step_of_ok (hclose hr)]
    rfl
  | list hl hx hr =>
    rw [Cursor.before_cons, primary_of_bracket hl]
    simp only [list]
    rw [step_of_ok (advance_back _ _), bind_of_ok (arguments_complete hN (by decide) (by decide) hx hr c)]
    rfl
  | @length k l r ts e hk hl hx hr =>
    have hopen : Reader.expect (·.isBracket .roundOpen) "'('" ((c.before (ts ++ [r])).back l) =
        .ok () (c.before (ts ++ [r])) := expect_back hl _
    rw [Cursor.before_cons, Cursor.before_cons, primary_of_keyword hk]
    simp only [length]
    rw [step_of_ok (advance_back _ _), step_of_ok hopen, bind_of_ok (inner_complete hN hx hr c),
      step_of_ok (hclose hr)]
    rfl
  | name hk hs =>
    rw [Cursor.before_cons, primary_of_identifier hk]
    exact name_complete hs hc
  | call hk hs hl hx hr =>
    rw [Cursor.before_cons, Cursor.before_cons, primary_of_identifier hk]
    exact call_complete hN hs hl hx hr c

end

/-! ## The levels -/

section
variable {scope : Chain} {nested : Nested Reader} {N : Nesting}

theorem operator_ne_eof {o : Operator} {t : Token} (h : t.isOperator o = true) : t.kind ≠ .eof :=
  kind_ne_eof (kind_of_isOperator h) (by decide)

theorem unary_sound (hN : ∀ s, Sound (nested s) (N s)) :
    Sound (unary scope nested) (Unary (Sees scope) N) := by
  intro c e c' hc h
  unfold unary at h
  rw [step_of_ok (current_eq c)] at h
  split at h
  · next ht =>
    obtain ⟨_, c₁, h₁, h⟩ := bind_ok.1 h
    obtain ⟨e₁, hc₁⟩ := advance_ok hc (operator_ne_eof ht) h₁
    rw [step_of_ok (current_eq c₁)] at h
    split at h
    · cases h
    · obtain ⟨x, c₂, h₂, h⟩ := bind_ok.1 h
      obtain ⟨rfl, rfl⟩ := pure_ok.1 h
      obtain ⟨ts, rfl, hx⟩ := primary_sound hN c₁ x c₂ hc₁ h₂
      exact ⟨c.cur :: ts, e₁, .negate ht hx⟩
  · obtain ⟨ts, e₁, hx⟩ := primary_sound hN c e c' hc h
    exact ⟨ts, e₁, .plain hx⟩

theorem primary_not_subtract {ts : List Token} {e : Expr} (h : Primary (Sees scope) N ts e) (c : Cursor) :
    (c.before ts).cur.isOperator .subtract = false := by
  obtain ⟨t, us, rfl, ht⟩ := heads_primary ts e h
  cases ho : t.isOperator .subtract with
  | false => exact ho
  | true =>
    simp [BeginsPrimary, kind_of_isOperator ho, Token.isKeyword, Token.isBracket] at ht

theorem unary_complete (hN : ReadsNested nested N) :
    Complete (unary scope nested) (Unary (Sees scope) N) StopsPrimary := by
  intro ts e c h hc
  unfold unary
  rw [step_of_ok (current_eq _)]
  cases h with
  | plain h =>
    rw [if_neg (Bool.eq_false_iff.1 (primary_not_subtract h c))]
    exact primary_complete hN _ _ c h hc
  | negate ht h =>
    rw [Cursor.before_cons, Cursor.cur_back, if_pos ht, step_of_ok (advance_back _ _),
      step_of_ok (current_eq _), if_neg (Bool.eq_false_iff.1 (primary_not_subtract h c)),
      bind_of_ok (primary_complete hN _ _ c h hc)]
    rfl

theorem power_sound (hN : ∀ s, Sound (nested s) (N s)) :
    Sound (power scope nested) (Power (Sees scope) N) := by
  intro c e c' hc h
  obtain ⟨base, c₁, h₁, hr⟩ := bind_ok.1 h
  obtain ⟨ts, rfl, hx⟩ := unary_sound hN c base c₁ hc h₁
  rw [step_of_ok (current_eq c₁)] at hr
  split at hr
  · next ht =>
    obtain ⟨_, c₂, h₂, hr⟩ := bind_ok.1 hr
    obtain ⟨exponent, c₃, h₃, hr⟩ := bind_ok.1 hr
    obtain ⟨rfl, rfl⟩ := pure_ok.1 hr
    obtain ⟨e₂, hc₂⟩ := advance_ok (Cursor.ended_before.1 hc) (operator_ne_eof ht) h₂
    obtain ⟨us, rfl, hy⟩ := hN .power c₂ exponent c₃ hc₂ h₃
    refine ⟨ts ++ c₁.cur :: us, ?_, .power hx ht hy⟩
    rw [Cursor.before_append, Cursor.before_cons, ← e₂]
  · obtain ⟨rfl, rfl⟩ := pure_ok.1 hr
    exact ⟨ts, rfl, .plain hx⟩

theorem power_complete (hN : ReadsNested nested N) :
    Complete (power scope nested) (Power (Sees scope) N) StopsPower := by
  intro ts e c h hc
  unfold power
  cases h with
  | plain h =>
    rw [bind_of_ok (unary_complete hN _ _ c h hc.1), step_of_ok (current_eq _),
      if_neg (Bool.eq_false_iff.1 hc.2)]
    rfl
  | @power t ts us base exponent h ht hx =>
    have hu : unary scope nested (((c.before us).back t).before ts) = .ok base ((c.before us).back t) :=
      unary_complete hN _ _ _ h (stopsPrimary_of_isOperator ht)
    rw [Cursor.before_append, Cursor.before_cons, bind_of_ok hu, step_of_ok (current_eq _), Cursor.cur_back,
      if_pos ht, step_of_ok (advance_back _ _), bind_of_ok (hN.complete .power _ _ c hx hc)]
    rfl

theorem comparison_sound (hN : ∀ s, Sound (nested s) (N s)) :
    Sound (comparison scope nested) (Comparison (Sees scope) N) :=
  foldLeft_sound comparisonLevel_eq (foldLeft_sound additiveLevel_eq
    (foldLeft_sound multiplicativeLevel_eq (power_sound hN)))

theorem comparison_complete (hN : ReadsNested nested N) :
    Complete (comparison scope nested) (Comparison (Sees scope) N) StopsComparison :=
  foldLeft_complete comparisonLevel_eq (foldLeft_complete additiveLevel_eq (foldLeft_complete multiplicativeLevel_eq
    (power_complete hN) multiplicative_stops) additive_stops) comparison_stops

theorem notsBehind_sound :
    ∀ (fuel : Nat) (x : Expr) (c : Cursor) (e : Expr) (c' : Cursor), c.Ended →
      notsBehind fuel x c = .ok e c' → ∃ ts, c = c'.before ts ∧ NotsRest x ts e := by
  intro fuel
  induction fuel with
  | zero =>
    intro x c e c' _ h
    obtain ⟨rfl, rfl⟩ := pure_ok.1 h
    exact ⟨[], rfl, .done x⟩
  | succ fuel ih =>
    intro x c e c' hc h
    rw [notsBehind, bind_of_ok (current_eq c)] at h
    split at h
    · next ht =>
      obtain ⟨_, c₁, h₁, h⟩ := bind_ok.1 h
      obtain ⟨e₁, hc₁⟩ := advance_ok hc (operator_ne_eof ht) h₁
      obtain ⟨ts, rfl, hx⟩ := ih _ c₁ e c' hc₁ h
      exact ⟨c.cur :: ts, e₁, .more ht hx⟩
    · obtain ⟨rfl, rfl⟩ := pure_ok.1 h
      exact ⟨[], rfl, .done x⟩

theorem notsBehind_complete {x e : Expr} {ts : List Token} (h : NotsRest x ts e) (c : Cursor)
    (hc : c.cur.isOperator .not = false) :
    ∀ fuel, ts.length < fuel → notsBehind fuel x (c.before ts) = .ok e c := by
  induction h with
  | done x =>
    rintro (_ | fuel) _
    · rfl
    · rw [notsBehind, Cursor.before_nil, bind_of_ok (current_eq _), if_neg (Bool.eq_false_iff.1 hc)]
      rfl
  | more ht _ ih =>
    rintro (_ | fuel) hf
    · simp at hf
    · rw [notsBehind, Cursor.before_cons, bind_of_ok (current_eq _), Cursor.cur_back, if_pos ht,
        bind_of_ok (advance_back _ _)]
      exact ih fuel (by simpa using hf)

theorem negation_sound (hN : ∀ s, Sound (nested s) (N s)) :
    Sound (negation scope nested) (Negation (Sees scope) N) := by
  intro c e c' hc h
  unfold negation at h
  rw [step_of_ok (current_eq c)] at h
  split at h
  · next ht =>
    obtain ⟨_, c₁, h₁, h⟩ := bind_ok.1 h
    obtain ⟨x, c₂, h₂, h⟩ := bind_ok.1 h
    obtain ⟨rfl, rfl⟩ := pure_ok.1 h
    obtain ⟨e₁, hc₁⟩ := advance_ok hc (operator_ne_eof ht) h₁
    obtain ⟨ts, rfl, hx⟩ := hN .not c₁ x c₂ hc₁ h₂
    exact ⟨c.cur :: ts, e₁, .before ht hx⟩
  · obtain ⟨x, c₁, h₁, hr⟩ := bind_ok.1 h
    obtain ⟨ts, rfl, hx⟩ := comparison_sound hN c x c₁ hc h₁
    obtain ⟨us, rfl, hrest⟩ := notsBehind_sound _ x c₁ e c' (Cursor.ended_before.1 hc) hr
    exact ⟨ts ++ us, (Cursor.before_append ..).symm, .behind hx hrest⟩

theorem comparison_not_not {ts : List Token} {e : Expr} (h : Comparison (Sees scope) N ts e) (c : Cursor) :
    (c.before ts).cur.isOperator .not = false := by
  obtain ⟨t, us, rfl, ht⟩ := heads_comparison ts e h
  cases ho : t.isOperator .not with
  | false => exact ho
  | true =>
    simp [BeginsUnary, BeginsPrimary, kind_of_isOperator ho, Token.isKeyword, Token.isBracket,
      isOperator_eq ho] at ht

theorem negation_complete (hN : ReadsNested nested N) :
    Complete (negation scope nested) (Negation (Sees scope) N) StopsNegation := by
  intro ts e c h hc
  unfold negation
  rw [step_of_ok (current_eq _)]
  cases h with
  | before ht hx =>
    rw [Cursor.before_cons, Cursor.cur_back, if_pos ht, step_of_ok (advance_back _ _),
      bind_of_ok (hN.complete .not _ _ c hx hc)]
    rfl
  | @behind ts us x e hx hrest =>
    have hstop : StopsComparison (c.before us).cur := by
      cases hrest with
      | done => exact hc.1
      | more ht _ => exact not_stops _ ht
    have hfuel : us.length < (c.before us).bound := by
      rw [Cursor.bound_before]
      simp [Cursor.bound]
    rw [Cursor.before_append, if_neg (Bool.eq_false_iff.1 (comparison_not_not hx _)),
      bind_of_ok (comparison_complete hN _ _ _ hx hstop)]
    exact notsBehind_complete hrest c hc.2 _ hfuel

theorem disjunction_sound (hN : ∀ s, Sound (nested s) (N s)) :
    Sound (disjunction scope nested) (Disjunction (Sees scope) N) :=
  foldLeft_sound orLevel_eq (foldLeft_sound andLevel_eq (negation_sound hN))

theorem disjunction_complete (hN : ReadsNested nested N) :
    Complete (disjunction scope nested) (Disjunction (Sees scope) N) StopsExpr :=
  foldLeft_complete orLevel_eq (foldLeft_complete andLevel_eq (negation_complete hN) and_stops) or_stops

end

/-! ## Whole expressions -/

/-- Whatever is read with a budget derives within it. -/
theorem parse_sound (scope : Chain) (budget : Nat) (s : Entry) :
    Sound (parse scope budget s) (Derives (Sees scope) budget s) := by
  induction budget generalizing s with
  | zero =>
    intro c e c' _ h
    cases h
  | succ budget ih =>
    cases s with
    | expr => exact disjunction_sound ih
    | not => exact negation_sound ih
    | power => exact power_sound ih

/-- Whatever derives within a budget is read with it. -/
theorem parse_complete (scope : Chain) (budget : Nat) :
    ReadsNested (parse scope budget) (Derives (Sees scope) budget) := by
  induction budget with
  | zero => exact ⟨fun _ _ _ _ h => h.elim, heads_derives 0⟩
  | succ budget ih =>
    refine ⟨fun s => ?_, heads_derives _⟩
    cases s with
    | expr => exact disjunction_complete ih
    | not => exact negation_complete ih
    | power => exact power_complete ih

/-- Where all names of a phrase are seen, its tree is the only one. -/
theorem derives_unique {scope : Chain} {ts : List Token} {e e' : Expr} {n n' : Nat} {c : Cursor}
    (hterm : Terminates c.cur) (hseen : ∀ t ∈ ts, t.kind = .identifier → Sees scope t.literal)
    (h : Derives (fun _ => True) n .expr ts e) (h' : Derives (fun _ => True) n' .expr ts e') : e = e' := by
  have hread : ∀ {m x}, m ≤ max n n' → Derives (fun _ => True) m .expr ts x →
      parse scope (max n n') .expr (c.before ts) = .ok x c := by
    intro m x hm hx
    have hx' : Derives (Sees scope) (max n n') .expr ts x := derives_iff_seen.2 ⟨hx.mono hm, hseen⟩
    exact (parse_complete scope _).complete .expr ts x c hx' hterm.stops
  have e₁ := hread (Nat.le_max_left n n') h
  rw [hread (Nat.le_max_right n n') h'] at e₁
  cases e₁
  rfl

/-- A phrase before a terminator, all of whose names are seen, is read to a tree just when it derives
the tree within the budget. The tree is the only one that the phrase derives at any depth, and it has
the symbols of the phrase, each once and in order. -/
theorem parse_iff_derives {scope : Chain} {budget : Nat} {ts : List Token} {e : Expr} {c : Cursor}
    (hend : c.Ended) (hterm : Terminates c.cur)
    (hseen : ∀ t ∈ ts, t.kind = .identifier → scope.sees t.literal = true) :
    (parse scope budget .expr (c.before ts) = .ok e c ↔ Derives (fun _ => True) budget .expr ts e) ∧
      (Derives (fun _ => True) budget .expr ts e →
        (∀ n e', Derives (fun _ => True) n .expr ts e' → e' = e) ∧ Keeps ts e) := by
  refine ⟨⟨fun h => ?_, fun h => ?_⟩, fun h => ⟨fun n e' h' => ?_, h.keeps⟩⟩
  · obtain ⟨us, hus, hd⟩ := parse_sound scope budget .expr _ e c (Cursor.ended_before.2 hend) h
    have htokens : ts ++ c.tokens = us ++ c.tokens := by
      simpa using congrArg Cursor.tokens hus
    rw [List.append_cancel_right htokens]
    exact (derives_iff_seen.1 hd).1
  · exact (parse_complete scope budget).complete .expr ts e c (derives_iff_seen.2 ⟨h, hseen⟩) hterm.stops
  · exact derives_unique hterm hseen h' h

/-- `x ** -x < 2` before a colon, with `x` in scope: a power, folded before the comparison. -/
theorem parse_iff_derives_power :
    let ts : List Token :=
      [⟨.identifier, .plain, "x", 1, 4⟩, ⟨.operator, .operator .power, "**", 1, 6⟩,
        ⟨.operator, .operator .subtract, "-", 1, 9⟩, ⟨.identifier, .plain, "x", 1, 10⟩,
        ⟨.operator, .operator .lesser, "<", 1, 12⟩, ⟨.number, .literal .integer, "2", 1, 14⟩]
    let e : Expr := .binary .lesser (.binary .power (.access "x" false) (.unary .negate (.access "x" false)))
      (.literal .number "2")
    Derives (fun _ => True) 2 .expr ts e ∧ ∀ n e', Derives (fun _ => True) n .expr ts e' → e' = e := by
  intro ts e
  let c : Cursor :=
    { cur := ⟨.delimiter, .delimiter .colon, ":", 1, 15⟩, rest := [⟨.eof, .plain, [], 1, 16⟩] }
  have hend : c.Ended := fun _ => ⟨_, rfl, rfl⟩
  have hterm : Terminates c.cur := .inr (.inr (.inl rfl))
  have hseen : ∀ t ∈ ts, t.kind = .identifier → Chain.sees [[{ name := "x" }]] t.literal = true := by decide
  obtain ⟨hread, hunique⟩ := @parse_iff_derives [[{ name := "x" }]] 2 ts e c hend hterm hseen
  have hderives := hread.1 rfl
  exact ⟨hderives, (hunique hderives).1⟩

end Offside.Expression
