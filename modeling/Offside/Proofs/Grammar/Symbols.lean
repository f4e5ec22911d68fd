import Offside.Proofs.Grammar.Expression

/-!
# No token is lost

The symbols of a tree, in the order in which its tokens stand in the source. A `not` stands before or
behind its operand, which the tree does not tell, so these are counted apart. Main statement: the
tokens of a derivation spell the symbols of its tree, one by one and in order (`Derives.keeps`).
-/

namespace Offside.Grammar

open Offside.Expression Operators

/-- A token without its place in the source. -/
inductive Symbol where
  | literal (kind : LiteralKind) (text : Text)
  | name (text : Text)
  /-- An operator, the minus sign before an operand among them. -/
  | operator (op : BinaryOp)
  | bracket (b : Bracket)
  | comma
  | length
deriving Repr, DecidableEq

/-- The operators that stand between two operands. -/
def binops : Operators := (.power, .power) :: (mulop ++ addop ++ cmpop ++ andop ++ orop)

/-- The symbol that a token spells. -/
def symbol? (t : Token) : Option Symbol :=
  match t.kind, t.subtype with
  | .number, _ => some (.literal .number t.literal)
  | .string, _ => some (.literal .string t.literal)
  | .identifier, _ => some (.name t.literal)
  | .keyword, .keyword .true_ => some (.literal .boolean t.literal)
  | .keyword, .keyword .false_ => some (.literal .boolean t.literal)
  | .keyword, .keyword .none_ => some (.literal .null t.literal)
  | .keyword, .keyword .len => some .length
  | .bracket, .bracket b => some (.bracket b)
  | .delimiter, .delimiter .comma => some .comma
  | .operator, .operator o => (binops.lookup o).map .operator
  | _, _ => none

end Offside.Grammar

namespace Offside.Expr

open Offside.Grammar

mutual

/-- The symbols of an expression, each `not` left out. -/
def symbols : Expr → List Symbol
  | .absent => []
  | .literal kind text => [.literal kind text]
  | .atom _ => []
  | .atomOf inner => .bracket .roundOpen :: (inner.symbols ++ [.bracket .roundClose])
  | .enclosure inner => .bracket .roundOpen :: (inner.symbols ++ [.bracket .roundClose])
  | .unary .negate operand => .operator .subtract :: operand.symbols
  | .unary _ operand => operand.symbols
  | .binary op left right => left.symbols ++ .operator op :: right.symbols
  | .access name _ => [.name name]
  | .call name args => .name name :: .bracket .roundOpen :: (symbolsAll args ++ [.bracket .roundClose])
  | .sequence items => symbolsAll items
  | .list items => .bracket .squareOpen :: (symbolsAll items ++ [.bracket .squareClose])
  | .length operand => .length :: .bracket .roundOpen :: (operand.symbols ++ [.bracket .roundClose])

/-- The symbols of expressions with commas between them. -/
def symbolsAll : List Expr → List Symbol
  | [] => []
  | x :: xs => x.symbols ++ symbolsMore xs

/-- The symbols of expressions with a comma before each. -/
def symbolsMore : List Expr → List Symbol
  | [] => []
  | x :: xs => .comma :: (x.symbols ++ symbolsMore xs)

end

mutual

/-- How many `not`s an expression has. -/
def nots : Expr → Nat
  | .absent | .literal .. | .atom _ | .access .. => 0
  | .atomOf inner | .enclosure inner | .length inner => inner.nots
  | .unary .not operand => operand.nots + 1
  | .unary _ operand => operand.nots
  | .binary _ left right => left.nots + right.nots
  | .call _ args | .sequence args | .list args => notsAll args

/-- How many `not`s expressions have. -/
def notsAll : List Expr → Nat
  | [] => 0
  | x :: xs => x.nots + notsAll xs

end

end Offside.Expr

namespace Offside.Grammar

open Offside.Expression

/-- The tokens spell the symbols of the expression in order, with its `not`s among them. -/
def Keeps (ts : List Token) (e : Expr) : Prop :=
  (ts.filter fun t => !t.isOperator .not).map symbol? = e.symbols.map some ∧
    ts.countP (·.isOperator .not) = e.nots

/-- As `Keeps`, for expressions with a comma before each. -/
def KeepsMore (ts : List Token) (xs : List Expr) : Prop :=
  (ts.filter fun t => !t.isOperator .not).map symbol? = (Expr.symbolsMore xs).map some ∧
    ts.countP (·.isOperator .not) = Expr.notsAll xs

theorem isOperator_eq_false {t : Token} {k : Token.Kind} {o : Operator} (h : t.kind = k)
    (hk : k ≠ .operator) : t.isOperator o = false := by
  simp [Token.isOperator, h, hk]

theorem symbol?_bracket {t : Token} {b : Bracket} (h : t.isBracket b = true) :
    t.isOperator .not = false ∧ symbol? t = some (.bracket b) := by
  simp only [Token.isBracket, Bool.and_eq_true, beq_iff_eq] at h
  exact ⟨isOperator_eq_false h.1 (by decide), by simp [symbol?, h]⟩

theorem symbol?_keyword {t : Token} {k : Keyword} (h : t.isKeyword k = true) :
    t.isOperator .not = false ∧ t.kind = .keyword ∧ t.subtype = .keyword k := by
  simp only [Token.isKeyword, Bool.and_eq_true, beq_iff_eq] at h
  exact ⟨isOperator_eq_false h.1 (by decide), h⟩

theorem symbol?_operator {t : Token} {o : Operator} {op : BinaryOp} (h : t.isOperator o = true)
    (ho : binops.lookup o = some op) : t.isOperator .not = false ∧ symbol? t = some (.operator op) := by
  constructor
  · have hnot : o ≠ .not := by
      rintro rfl
      cases ho
    rw [isOperator_eq h]
    exact decide_eq_false hnot
  · simp only [Token.isOperator, Bool.and_eq_true, beq_iff_eq] at h
    simp [symbol?, h, ho]

theorem symbol?_comma {t : Token} (h : t.isDelimiter .comma = true) :
    t.isOperator .not = false ∧ symbol? t = some .comma := by
  simp only [Token.isDelimiter, Bool.and_eq_true, beq_iff_eq] at h
  exact ⟨isOperator_eq_false h.1 (by decide), by simp [symbol?, h]⟩

theorem keeps_foldLeft {ops : Operators} {X : Phrase Token Expr}
    (hops : ∀ p ∈ ops, binops.lookup p.1 = some p.2) (hX : ∀ ts e, X ts e → Keeps ts e)
    {ts : List Token} {e : Expr} (h : FoldLeft ops.node? X ts e) : Keeps ts e := by
  have hrest : ∀ {left e : Expr} {us : List Token}, FoldRest ops.node? X left us e →
      ∀ {ts : List Token}, Keeps ts left → Keeps (ts ++ us) e := by
    intro left e us h
    induction h with
    | done => exact fun h => by simpa using h
    | @more left right e t op us vs ht hx _ ih =>
      intro ts hl
      obtain ⟨o, ho, hto⟩ := isOperator_of_node? ht
      obtain ⟨h1, h2⟩ := symbol?_operator hto (hops _ ho)
      have hr := hX _ _ hx
      have hstep : Keeps (ts ++ t :: us) (.binary op left right) :=
        ⟨by simp [Expr.symbols, h1, h2, hl.1, hr.1], by simp [Expr.nots, h1, hl.2, hr.2]⟩
      simpa using ih hstep
  obtain ⟨hx, h⟩ := h
  exact hrest h (hX _ _ hx)

theorem keeps_moreItems {X : Phrase Token Expr} (hX : ∀ ts e, X ts e → Keeps ts e) {ts : List Token}
    {xs : List Expr} (h : MoreItems (·.isDelimiter .comma) X ts xs) : KeepsMore ts xs := by
  induction h with
  | done => simp [KeepsMore, Expr.symbolsMore, Expr.notsAll]
  | more ht hx _ ih =>
    obtain ⟨h1, h2⟩ := symbol?_comma ht
    have hx := hX _ _ hx
    exact ⟨by simp [Expr.symbolsMore, h1, h2, hx.1, ih.1], by simp [Expr.notsAll, h1, hx.2, ih.2]⟩

theorem keeps_arguments {X : Phrase Token Expr} (hX : ∀ ts e, X ts e → Keeps ts e) {ts : List Token}
    {xs : List Expr} (h : Arguments X ts xs) :
    (ts.filter fun t => !t.isOperator .not).map symbol? = (Expr.symbolsAll xs).map some ∧
      ts.countP (·.isOperator .not) = Expr.notsAll xs := by
  obtain _ | ⟨hx, hrest⟩ := h
  · simp [Expr.symbolsAll, Expr.notsAll]
  · have hx := hX _ _ hx
    have hrest := keeps_moreItems hX hrest
    exact ⟨by simp [Expr.symbolsAll, hx.1, hrest.1], by simp [Expr.notsAll, hx.2, hrest.2]⟩

section
variable {sees : Text → Prop} {N : Nesting} {ts : List Token} {e : Expr}

theorem keeps_primary (hN : ∀ s ts e, N s ts e → Keeps ts e) (h : Primary sees N ts e) : Keeps ts e := by
  cases h with
  | number h => simp [Keeps, isOperator_eq_false h, symbol?, h, Expr.symbols, Expr.nots]
  | string h => simp [Keeps, isOperator_eq_false h, symbol?, h, Expr.symbols, Expr.nots]
  | true_ h => simp [Keeps, symbol?_keyword h, symbol?, Expr.symbols, Expr.nots]
  | false_ h => simp [Keeps, symbol?_keyword h, symbol?, Expr.symbols, Expr.nots]
  | none_ h => simp [Keeps, symbol?_keyword h, symbol?, Expr.symbols, Expr.nots]
  | enclosure hl hx hr =>
    have hx := hN _ _ _ hx
    simp [Keeps, symbol?_bracket hl, symbol?_bracket hr, Expr.symbols, Expr.nots, hx.1, hx.2]
  | list hl hx hr =>
    have hx := keeps_arguments (hN .expr) hx
    simp [Keeps, symbol?_bracket hl, symbol?_bracket hr, Expr.symbols, Expr.nots, hx.1, hx.2]
  | @length k _ _ _ _ hk hl hx hr =>
    have hx := hN _ _ _ hx
    have hlen : symbol? k = some .length := by simp [symbol?, symbol?_keyword hk]
    simp [Keeps, symbol?_keyword hk, hlen, symbol?_bracket hl, symbol?_bracket hr, Expr.symbols, Expr.nots,
      hx.1, hx.2]
  | name h _ => simp [Keeps, isOperator_eq_false h, symbol?, h, Expr.symbols, Expr.nots]
  | @call t _ _ _ _ h _ hl hx hr =>
    have hx := keeps_arguments (hN .expr) hx
    have hname : symbol? t = some (.name t.literal) := by simp only [symbol?, h]
    simp [Keeps, isOperator_eq_false h, hname, symbol?_bracket hl, symbol?_bracket hr, Expr.symbols,
      Expr.nots, hx.1, hx.2]

theorem keeps_power (hN : ∀ s ts e, N s ts e → Keeps ts e) (h : Power sees N ts e) : Keeps ts e := by
  have hunary : ∀ {ts e}, Unary sees N ts e → Keeps ts e := by
    intro ts e h
    cases h with
    | plain h => exact keeps_primary hN h
    | negate ht h =>
      obtain ⟨h1, h2⟩ := symbol?_operator ht (show binops.lookup .subtract = some .subtract from rfl)
      have hx := keeps_primary hN h
      exact ⟨by simp [Expr.symbols, h1, h2, hx.1], by simp [Expr.nots, h1, hx.2]⟩
  cases h with
  | plain h => exact hunary h
  | power h ht hx =>
    obtain ⟨h1, h2⟩ := symbol?_operator ht (show binops.lookup .power = some .power from rfl)
    have hb := hunary h
    have hx := hN _ _ _ hx
    exact ⟨by simp [Expr.symbols, h1, h2, hb.1, hx.1], by simp [Expr.nots, h1, hb.2, hx.2]⟩

theorem keeps_negation (hN : ∀ s ts e, N s ts e → Keeps ts e) (h : Negation sees N ts e) : Keeps ts e := by
  have hrest : ∀ {x e us}, NotsRest x us e → ∀ {ts}, Keeps ts x → Keeps (ts ++ us) e := by
    intro x e us h
    induction h with
    | done => exact fun h => by simpa using h
    | @more x e t us ht _ ih =>
      intro ts hx
      have hstep : Keeps (ts ++ [t]) (.unary .not x) :=
        ⟨by simp [Expr.symbols, ht, hx.1], by simp [Expr.nots, ht, hx.2]⟩
      simpa using ih hstep
  cases h with
  | before ht hx =>
    have hx := hN _ _ _ hx
    exact ⟨by simp [Expr.symbols, ht, hx.1], by simp [Expr.nots, ht, hx.2]⟩
  | behind hx h =>
    refine hrest h ?_
    exact keeps_foldLeft (by decide) (fun _ _ h => keeps_foldLeft (by decide) (fun _ _ h => keeps_foldLeft (by decide)
      (fun _ _ h => keeps_power hN h) h) h) hx

end

theorem Derives.keeps {sees : Text → Prop} : ∀ {n : Nat} {s : Entry} {ts : List Token} {e : Expr},
    Derives sees n s ts e → Keeps ts e
  | 0, _, _, _, h => h.elim
  | n + 1, .power, _, _, h => keeps_power (fun _ _ _ => Derives.keeps) h
  | n + 1, .not, _, _, h => keeps_negation (fun _ _ _ => Derives.keeps) h
  | n + 1, .expr, _, _, h => by
    exact keeps_foldLeft (by decide) (fun _ _ h => keeps_foldLeft (by decide)
      (fun _ _ h => keeps_negation (fun _ _ _ => Derives.keeps) h) h) h

end Offside.Grammar
