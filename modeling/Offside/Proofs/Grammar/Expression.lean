import Offside.Proofs.Grammar.Basic
import Offside.Parser.Expression

/-!
# The grammar of expressions

    Or      := And ('or' And)*
    And     := Not ('and' Not)*
    Not     := 'not' Not | Cmp 'not'*
    Cmp     := Add (cmpop Add)*
    Add     := Mul (('+' | '-') Mul)*
    Mul     := Pow (('*' | '/' | '%') Pow)*
    Pow     := Unary ['**' Pow]
    Unary   := ['-'] Primary
    Primary := number | string | True | False | None | '(' Or ')' | '[' [Or (',' Or)*] ']'
             | 'len' '(' Or ')' | name | name '(' [Or (',' Or)*] ')'

A derivation nests where one of the three phrases `Or`, `Not` and `Pow` stands inside another: in
brackets, behind a `not` and behind a `**`. Each level is a relation over what the nested phrases
derive, and `Derives n` ties the knot for the derivations that nest at most `n` deep. The names that
may be read are a parameter.
-/

namespace Offside.Grammar

open Offside.Expression

/-- What the phrases that nest derive. -/
abbrev Nesting := Entry → Phrase Token Expr

/-- The token is a comma. -/
abbrev isComma (t : Token) : Bool := t.isDelimiter .comma

/-- `[X (',' X)*]`. -/
abbrev Arguments (X : Phrase Token Expr) : Phrase Token (List Expr) := OptItems isComma X

/-- `Primary`. A name is `sees`ed where it is read. -/
inductive Primary (sees : Text → Prop) (N : Nesting) : Phrase Token Expr
  | number {t : Token} (h : t.kind = .number) : Primary sees N [t] (.literal .number t.literal)
  | string {t : Token} (h : t.kind = .string) : Primary sees N [t] (.literal .string t.literal)
  | true_ {t : Token} (h : t.isKeyword .true_ = true) : Primary sees N [t] (.literal .boolean t.literal)
  | false_ {t : Token} (h : t.isKeyword .false_ = true) : Primary sees N [t] (.literal .boolean t.literal)
  | none_ {t : Token} (h : t.isKeyword .none_ = true) : Primary sees N [t] (.literal .null t.literal)
  | enclosure {l r : Token} {ts : List Token} {e : Expr} (hl : l.isBracket .roundOpen = true)
      (hx : N .expr ts e) (hr : r.isBracket .roundClose = true) :
      Primary sees N (l :: (ts ++ [r])) (.enclosure e)
  | list {l r : Token} {ts : List Token} {xs : List Expr} (hl : l.isBracket .squareOpen = true)
      (hx : Arguments (N .expr) ts xs) (hr : r.isBracket .squareClose = true) :
      Primary sees N (l :: (ts ++ [r])) (.list xs)
  | length {k l r : Token} {ts : List Token} {e : Expr} (hk : k.isKeyword .len = true)
      (hl : l.isBracket .roundOpen = true) (hx : N .expr ts e) (hr : r.isBracket .roundClose = true) :
      Primary sees N (k :: l :: (ts ++ [r])) (.length e)
  | name {t : Token} (h : t.kind = .identifier) (hs : sees t.literal) :
      Primary sees N [t] (.access t.literal false)
  | call {t l r : Token} {ts : List Token} {xs : List Expr} (h : t.kind = .identifier)
      (hs : sees t.literal) (hl : l.isBracket .roundOpen = true) (hx : Arguments (N .expr) ts xs)
      (hr : r.isBracket .roundClose = true) : Primary sees N (t :: l :: (ts ++ [r])) (.call t.literal xs)

/-- `Unary := ['-'] Primary`. -/
inductive Unary (sees : Text → Prop) (N : Nesting) : Phrase Token Expr
  | plain {ts : List Token} {e : Expr} (h : Primary sees N ts e) : Unary sees N ts e
  | negate {t : Token} {ts : List Token} {e : Expr} (ht : t.isOperator .subtract = true)
      (h : Primary sees N ts e) : Unary sees N (t :: ts) (.unary .negate e)

/-- `Pow := Unary ['**' Pow]`. -/
inductive Power (sees : Text → Prop) (N : Nesting) : Phrase Token Expr
  | plain {ts : List Token} {e : Expr} (h : Unary sees N ts e) : Power sees N ts e
  | power {t : Token} {ts us : List Token} {base exponent : Expr} (h : Unary sees N ts base)
      (ht : t.isOperator .power = true) (hx : N .power us exponent) :
      Power sees N (ts ++ t :: us) (.binary .power base exponent)

/-- Operators with the nodes that they make of their operands. -/
abbrev Operators := List (Operator × BinaryOp)

namespace Operators

/-- `'*' | '/' | '%'`. -/
def mulop : Operators := [(.multiply, .multiply), (.divide, .divide), (.modulo, .modulo)]

/-- `'+' | '-'`. -/
def addop : Operators := [(.add, .add), (.subtract, .subtract)]

/-- `'<' | '>' | '<=' | '>=' | '==' | '!='`. -/
def cmpop : Operators :=
  [(.lesser, .lesser), (.greater, .greater), (.lesserEquals, .lesserEquals), (.greaterEquals, .greaterEquals),
    (.equals, .equals), (.notEquals, .notEquals)]

/-- `'and'`. -/
def andop : Operators := [(.and, .and)]

/-- `'or'`. -/
def orop : Operators := [(.or, .or)]

/-- The node that a token makes, if it is one of the operators. -/
def node? (ops : Operators) (t : Token) : Option BinaryOp := (ops.find? fun o => t.isOperator o.1).map (·.2)

end Operators

open Operators

/-- `Mul := Pow (('*' | '/' | '%') Pow)*`. -/
def Product (sees : Text → Prop) (N : Nesting) : Phrase Token Expr := FoldLeft mulop.node? (Power sees N)

/-- `Add := Mul (('+' | '-') Mul)*`. -/
def Sum (sees : Text → Prop) (N : Nesting) : Phrase Token Expr := FoldLeft addop.node? (Product sees N)

/-- `Cmp := Add (cmpop Add)*`. -/
def Comparison (sees : Text → Prop) (N : Nesting) : Phrase Token Expr := FoldLeft cmpop.node? (Sum sees N)

/-- `'not'*` behind `x`. -/
inductive NotsRest : Expr → List Token → Expr → Prop
  | done (x : Expr) : NotsRest x [] x
  | more {x e : Expr} {t : Token} {ts : List Token} (ht : t.isOperator .not = true)
      (hrest : NotsRest (.unary .not x) ts e) : NotsRest x (t :: ts) e

/-- `Not := 'not' Not | Cmp 'not'*`. -/
inductive Negation (sees : Text → Prop) (N : Nesting) : Phrase Token Expr
  | before {t : Token} {ts : List Token} {e : Expr} (ht : t.isOperator .not = true) (hx : N .not ts e) :
      Negation sees N (t :: ts) (.unary .not e)
  | behind {ts us : List Token} {x e : Expr} (hx : Comparison sees N ts x) (hrest : NotsRest x us e) :
      Negation sees N (ts ++ us) e

/-- `And := Not ('and' Not)*`. -/
def Conjunction (sees : Text → Prop) (N : Nesting) : Phrase Token Expr := FoldLeft andop.node? (Negation sees N)

/-- `Or := And ('or' And)*`. -/
def Disjunction (sees : Text → Prop) (N : Nesting) : Phrase Token Expr := FoldLeft orop.node? (Conjunction sees N)

/-- The derivations of the phrases that nest, up to a depth of nesting. -/
def Derives (sees : Text → Prop) : Nat → Nesting
  | 0, _ => fun _ _ => False
  | n + 1, .expr => Disjunction sees (Derives sees n)
  | n + 1, .not => Negation sees (Derives sees n)
  | n + 1, .power => Power sees (Derives sees n)

/-! ## Classes of tokens -/

theorem kind_of_isKeyword {t : Token} {k : Keyword} (h : t.isKeyword k = true) : t.kind = .keyword := by
  simp only [Token.isKeyword, Bool.and_eq_true, beq_iff_eq] at h
  exact h.1

theorem kind_of_isOperator {t : Token} {o : Operator} (h : t.isOperator o = true) : t.kind = .operator := by
  simp only [Token.isOperator, Bool.and_eq_true, beq_iff_eq] at h
  exact h.1

theorem kind_of_isDelimiter {t : Token} {d : Delimiter} (h : t.isDelimiter d = true) :
    t.kind = .delimiter := by
  simp only [Token.isDelimiter, Bool.and_eq_true, beq_iff_eq] at h
  exact h.1

theorem kind_of_isBracket {t : Token} {b : Bracket} (h : t.isBracket b = true) : t.kind = .bracket := by
  simp only [Token.isBracket, Bool.and_eq_true, beq_iff_eq] at h
  exact h.1

theorem isOperator_eq {t : Token} {o : Operator} (h : t.isOperator o = true) (o' : Operator) :
    t.isOperator o' = decide (o = o') := by
  simp only [Token.isOperator, Bool.and_eq_true, beq_iff_eq] at h
  by_cases ho : o = o' <;> simp [Token.isOperator, h, ho]

/-- Which of the operators a token is. -/
theorem isOperator_of_node? {ops : Operators} {t : Token} {op : BinaryOp} (h : ops.node? t = some op) :
    ∃ o, (o, op) ∈ ops ∧ t.isOperator o = true := by
  obtain ⟨⟨o, node⟩, hfind, rfl⟩ := Option.map_eq_some_iff.1 h
  have ht : t.isOperator o = true := by simpa using List.find?_some hfind
  exact ⟨o, List.mem_of_find?_eq_some hfind, ht⟩

theorem kind_of_node? {ops : Operators} {t : Token} {op : BinaryOp} (h : ops.node? t = some op) :
    t.kind = .operator := by
  obtain ⟨o, -, ht⟩ := isOperator_of_node? h
  exact kind_of_isOperator ht

theorem node?_eq_none {t : Token} (h : t.kind ≠ .operator) (ops : Operators) : ops.node? t = none := by
  cases hnode : ops.node? t with
  | none => rfl
  | some op => exact absurd (kind_of_node? hnode) h

/-- The node of a token is that of the operator that it is. -/
theorem node?_eq_lookup {t : Token} {o : Operator} (h : t.isOperator o = true) (ops : Operators) :
    ops.node? t = ops.lookup o := by
  induction ops with
  | nil => rfl
  | cons p ops ih =>
    have hrest : (ops.find? fun o => t.isOperator o.1).map (·.2) = ops.lookup o := ih
    rw [Operators.node?, List.find?_cons, List.lookup_cons, isOperator_eq h]
    by_cases ho : o = p.1
    · simp [ho]
    · have hbeq : (o == p.1) = false := beq_false_of_ne ho
      simp [ho, hbeq, hrest]

/-! ## More names and deeper nesting -/

section
variable {sees sees' : Text → Prop} {N M : Nesting} {ts : List Token} {e : Expr}

theorem Primary.imp (hs : ∀ x, sees x → sees' x) (hN : ∀ s ts e, N s ts e → M s ts e)
    (h : Primary sees N ts e) : Primary sees' M ts e := by
  cases h with
  | number h => exact .number h
  | string h => exact .string h
  | true_ h => exact .true_ h
  | false_ h => exact .false_ h
  | none_ h => exact .none_ h
  | enclosure hl hx hr => exact .enclosure hl (hN _ _ _ hx) hr
  | list hl hx hr => exact .list hl (hx.imp (hN .expr)) hr
  | length hk hl hx hr => exact .length hk hl (hN _ _ _ hx) hr
  | name h hx => exact .name h (hs _ hx)
  | call h hx hl ha hr => exact .call h (hs _ hx) hl (ha.imp (hN .expr)) hr

theorem Unary.imp (hs : ∀ x, sees x → sees' x) (hN : ∀ s ts e, N s ts e → M s ts e)
    (h : Unary sees N ts e) : Unary sees' M ts e := by
  cases h with
  | plain h => exact .plain (h.imp hs hN)
  | negate ht h => exact .negate ht (h.imp hs hN)

theorem Power.imp (hs : ∀ x, sees x → sees' x) (hN : ∀ s ts e, N s ts e → M s ts e)
    (h : Power sees N ts e) : Power sees' M ts e := by
  cases h with
  | plain h => exact .plain (h.imp hs hN)
  | power h ht hx => exact .power (h.imp hs hN) ht (hN _ _ _ hx)

theorem Comparison.imp (hs : ∀ x, sees x → sees' x) (hN : ∀ s ts e, N s ts e → M s ts e)
    (h : Comparison sees N ts e) : Comparison sees' M ts e :=
  FoldLeft.imp h fun _ _ h => FoldLeft.imp h fun _ _ h => FoldLeft.imp h fun _ _ h => h.imp hs hN

theorem Negation.imp (hs : ∀ x, sees x → sees' x) (hN : ∀ s ts e, N s ts e → M s ts e)
    (h : Negation sees N ts e) : Negation sees' M ts e := by
  cases h with
  | before ht hx => exact .before ht (hN _ _ _ hx)
  | behind hx hrest => exact .behind (hx.imp hs hN) hrest

theorem Disjunction.imp (hs : ∀ x, sees x → sees' x) (hN : ∀ s ts e, N s ts e → M s ts e)
    (h : Disjunction sees N ts e) : Disjunction sees' M ts e :=
  FoldLeft.imp h fun _ _ h => FoldLeft.imp h fun _ _ h => h.imp hs hN

end

theorem Derives.imp {sees sees' : Text → Prop} (hs : ∀ x, sees x → sees' x) :
    ∀ {n m : Nat} {s : Entry} {ts : List Token} {e : Expr}, n ≤ m → Derives sees n s ts e → Derives sees' m s ts e
  | 0, _, _, _, _, _, h => h.elim
  | _ + 1, 0, _, _, _, hnm, _ => by omega
  | n + 1, m + 1, .expr, _, _, hnm, h => Disjunction.imp hs (fun _ _ _ => Derives.imp hs (by omega)) h
  | n + 1, m + 1, .not, _, _, hnm, h => Negation.imp hs (fun _ _ _ => Derives.imp hs (by omega)) h
  | n + 1, m + 1, .power, _, _, hnm, h => Power.imp hs (fun _ _ _ => Derives.imp hs (by omega)) h

theorem Derives.mono {sees : Text → Prop} {n m : Nat} {s : Entry} {ts : List Token} {e : Expr} (hnm : n ≤ m)
    (h : Derives sees n s ts e) : Derives sees m s ts e :=
  h.imp (fun _ hx => hx) hnm

/-! ## The tokens of a derivation -/

/-- The kinds of tokens that stand in expressions beside names. -/
def isMark : Token.Kind → Bool
  | .number | .string | .keyword | .bracket | .delimiter | .operator => true
  | _ => false

/-- `Q` holds of every mark, and of a name just when it is seen. -/
structure Admits (sees : Text → Prop) (Q : Token → Prop) : Prop where
  mark : ∀ t : Token, isMark t.kind = true → Q t
  name : ∀ t : Token, t.kind = .identifier → (Q t ↔ sees t.literal)

section
variable {sees : Text → Prop} {Q : Token → Prop} {N : Nesting}

theorem Admits.of_kind (hQ : Admits sees Q) {t : Token} {k : Token.Kind} (h : t.kind = k)
    (hk : isMark k = true) : Q t := hQ.mark t (h ▸ hk)

theorem Admits.of_op (hQ : Admits sees Q) {ops : Operators} (t : Token) (op : BinaryOp)
    (h : ops.node? t = some op) : Q t := hQ.of_kind (kind_of_node? h) rfl

theorem Admits.of_comma (hQ : Admits sees Q) (t : Token) (h : t.isDelimiter .comma = true) : Q t :=
  hQ.of_kind (kind_of_isDelimiter h) rfl

theorem Admits.bracketed (hQ : Admits sees Q) {l r : Token} {ts : List Token} {b b' : Bracket}
    (hl : l.isBracket b = true) (hts : ∀ t ∈ ts, Q t) (hr : r.isBracket b' = true) :
    ∀ t ∈ l :: (ts ++ [r]), Q t := by
  simp only [List.mem_cons, List.mem_append, List.not_mem_nil, or_false]
  rintro u (rfl | hu | rfl)
  · exact hQ.of_kind (kind_of_isBracket hl) rfl
  · exact hts u hu
  · exact hQ.of_kind (kind_of_isBracket hr) rfl

/-- The nested phrases whose tokens all satisfy `Q`. -/
abbrev OnlyNested (Q : Token → Prop) (N : Nesting) : Nesting := fun s => Only Q (N s)

theorem primary_only (hQ : Admits sees Q) :
    Primary sees (OnlyNested Q N) = Only Q (Primary (fun _ => True) N) := by
  have hargs : Arguments (OnlyNested Q N .expr) = Only Q (Arguments (N .expr)) := OptItems.only hQ.of_comma
  funext ts e
  refine propext ⟨fun h => ?_, fun ⟨h, ho⟩ => ?_⟩
  · cases h with
    | number h => exact ⟨.number h, by simpa using hQ.of_kind h rfl⟩
    | string h => exact ⟨.string h, by simpa using hQ.of_kind h rfl⟩
    | true_ h => exact ⟨.true_ h, by simpa using hQ.of_kind (kind_of_isKeyword h) rfl⟩
    | false_ h => exact ⟨.false_ h, by simpa using hQ.of_kind (kind_of_isKeyword h) rfl⟩
    | none_ h => exact ⟨.none_ h, by simpa using hQ.of_kind (kind_of_isKeyword h) rfl⟩
    | enclosure hl hx hr =>
      exact ⟨.enclosure hl hx.1 hr, hQ.bracketed hl hx.2 hr⟩
    | list hl hx hr =>
      rw [hargs] at hx
      exact ⟨.list hl hx.1 hr, hQ.bracketed hl hx.2 hr⟩
    | length hk hl hx hr =>
      have h0 := hQ.of_kind (kind_of_isKeyword hk) rfl
      exact ⟨.length hk hl hx.1 hr, List.forall_mem_cons.2 ⟨h0, hQ.bracketed hl hx.2 hr⟩⟩
    | name h hs => exact ⟨.name h trivial, by simpa using (hQ.name _ h).2 hs⟩
    | call h hs hl hx hr =>
      rw [hargs] at hx
      have h0 := (hQ.name _ h).2 hs
      exact ⟨.call h trivial hl hx.1 hr, List.forall_mem_cons.2 ⟨h0, hQ.bracketed hl hx.2 hr⟩⟩
  · cases h with
    | number h => exact .number h
    | string h => exact .string h
    | true_ h => exact .true_ h
    | false_ h => exact .false_ h
    | none_ h => exact .none_ h
    | enclosure hl hx hr => exact .enclosure hl ⟨hx, fun u hu => ho u (by simp [hu])⟩ hr
    | list hl hx hr =>
      refine .list hl ?_ hr
      rw [hargs]
      exact ⟨hx, fun u hu => ho u (by simp [hu])⟩
    | length hk hl hx hr => exact .length hk hl ⟨hx, fun u hu => ho u (by simp [hu])⟩ hr
    | name h _ => exact .name h ((hQ.name _ h).1 (ho _ (by simp)))
    | call h _ hl hx hr =>
      refine .call h ((hQ.name _ h).1 (ho _ (by simp))) hl ?_ hr
      rw [hargs]
      exact ⟨hx, fun u hu => ho u (by simp [hu])⟩

theorem unary_only (hQ : Admits sees Q) :
    Unary sees (OnlyNested Q N) = Only Q (Unary (fun _ => True) N) := by
  funext ts e
  refine propext ⟨fun h => ?_, fun ⟨h, ho⟩ => ?_⟩
  · cases h with
    | plain h =>
      rw [primary_only hQ] at h
      exact ⟨.plain h.1, h.2⟩
    | negate ht h =>
      rw [primary_only hQ] at h
      exact ⟨.negate ht h.1, List.forall_mem_cons.2 ⟨hQ.of_kind (kind_of_isOperator ht) rfl, h.2⟩⟩
  · cases h with
    | plain h => exact .plain (by rw [primary_only hQ]; exact ⟨h, ho⟩)
    | negate ht h => exact .negate ht (by rw [primary_only hQ]; exact ⟨h, fun u hu => ho u (by simp [hu])⟩)

theorem power_only (hQ : Admits sees Q) :
    Power sees (OnlyNested Q N) = Only Q (Power (fun _ => True) N) := by
  funext ts e
  refine propext ⟨fun h => ?_, fun ⟨h, ho⟩ => ?_⟩
  · cases h with
    | plain h =>
      rw [unary_only hQ] at h
      exact ⟨.plain h.1, h.2⟩
    | power h ht hx =>
      rw [unary_only hQ] at h
      have h0 := hQ.of_kind (kind_of_isOperator ht) rfl
      exact ⟨.power h.1 ht hx.1, List.forall_mem_append.2 ⟨h.2, List.forall_mem_cons.2 ⟨h0, hx.2⟩⟩⟩
  · cases h with
    | plain h => exact .plain (by rw [unary_only hQ]; exact ⟨h, ho⟩)
    | power h ht hx =>
      exact .power (by rw [unary_only hQ]; exact ⟨h, fun u hu => ho u (by simp [hu])⟩) ht
        ⟨hx, fun u hu => ho u (by simp [hu])⟩

theorem comparison_only (hQ : Admits sees Q) :
    Comparison sees (OnlyNested Q N) = Only Q (Comparison (fun _ => True) N) := by
  unfold Comparison Sum Product
  rw [power_only hQ, FoldLeft.only hQ.of_op, FoldLeft.only hQ.of_op, FoldLeft.only hQ.of_op]

theorem NotsRest.admitted (hQ : Admits sees Q) {x e : Expr} {ts : List Token} (h : NotsRest x ts e) :
    ∀ t ∈ ts, Q t := by
  induction h with
  | done => simp
  | more ht _ ih => exact List.forall_mem_cons.2 ⟨hQ.of_kind (kind_of_isOperator ht) rfl, ih⟩

theorem negation_only (hQ : Admits sees Q) :
    Negation sees (OnlyNested Q N) = Only Q (Negation (fun _ => True) N) := by
  funext ts e
  refine propext ⟨fun h => ?_, fun ⟨h, ho⟩ => ?_⟩
  · cases h with
    | before ht hx =>
      exact ⟨.before ht hx.1, List.forall_mem_cons.2 ⟨hQ.of_kind (kind_of_isOperator ht) rfl, hx.2⟩⟩
    | behind hx hrest =>
      rw [comparison_only hQ] at hx
      exact ⟨.behind hx.1 hrest, List.forall_mem_append.2 ⟨hx.2, hrest.admitted hQ⟩⟩
  · cases h with
    | before ht hx => exact .before ht ⟨hx, fun u hu => ho u (by simp [hu])⟩
    | behind hx hrest =>
      exact .behind (by rw [comparison_only hQ]; exact ⟨hx, fun u hu => ho u (by simp [hu])⟩) hrest

theorem disjunction_only (hQ : Admits sees Q) :
    Disjunction sees (OnlyNested Q N) = Only Q (Disjunction (fun _ => True) N) := by
  unfold Disjunction Conjunction
  rw [negation_only hQ, FoldLeft.only hQ.of_op, FoldLeft.only hQ.of_op]

/-- A derivation over the seen names is a derivation all of whose tokens satisfy `Q`. -/
theorem derives_only (hQ : Admits sees Q) (n : Nat) :
    Derives sees n = OnlyNested Q (Derives (fun _ => True) n) := by
  induction n with
  | zero =>
    funext s ts e
    exact propext ⟨False.elim, fun h => h.1⟩
  | succ n ih =>
    funext s
    cases s with
    | expr => rw [Derives, ih, disjunction_only hQ]; rfl
    | not => rw [Derives, ih, negation_only hQ]; rfl
    | power => rw [Derives, ih, power_only hQ]; rfl

end

/-- A derivation over the seen names is a derivation in which every name is seen. -/
theorem derives_iff_seen {sees : Text → Prop} {n : Nat} {s : Entry} {ts : List Token} {e : Expr} :
    Derives sees n s ts e ↔
      Derives (fun _ => True) n s ts e ∧ ∀ t ∈ ts, t.kind = .identifier → sees t.literal := by
  have hQ : Admits sees fun t => t.kind = .identifier → sees t.literal :=
    ⟨fun t h hk => by simp [hk, isMark] at h, fun t hk => ⟨fun h => h hk, fun h _ => h⟩⟩
  rw [derives_only hQ]
  rfl

/-- The layout has no part in an expression. -/
theorem Derives.content {sees : Text → Prop} {n : Nat} {s : Entry} {ts : List Token} {e : Expr}
    (h : Derives sees n s ts e) : ∀ t ∈ ts, t.kind.isStructural = false := by
  have hQ : Admits (fun _ => True) fun t => t.kind.isStructural = false :=
    ⟨fun t h => by cases hk : t.kind <;> simp_all [isMark, Token.Kind.isStructural],
      fun t hk => by simp [hk, Token.Kind.isStructural]⟩
  have h' := (derives_iff_seen.1 h).1
  rw [derives_only hQ] at h'
  exact h'.2

theorem content_of_kind {t : Token} {k : Token.Kind} (h : t.kind = k) (hk : k.isStructural = false) :
    t.kind.isStructural = false := h ▸ hk

theorem content_keyword {t : Token} {k : Keyword} (h : t.isKeyword k = true) : t.kind.isStructural = false :=
  content_of_kind (kind_of_isKeyword h) rfl

theorem content_bracket {t : Token} {b : Bracket} (h : t.isBracket b = true) : t.kind.isStructural = false :=
  content_of_kind (kind_of_isBracket h) rfl

theorem content_operator {t : Token} {o : Operator} (h : t.isOperator o = true) : t.kind.isStructural = false :=
  content_of_kind (kind_of_isOperator h) rfl

theorem content_identifier {t : Token} (h : t.kind = .identifier) : t.kind.isStructural = false :=
  content_of_kind h rfl

/-! ## How expressions begin -/

/-- The tokens that a primary expression begins with. -/
def BeginsPrimary (t : Token) : Prop :=
  t.kind = .number ∨ t.kind = .string ∨ t.kind = .identifier ∨ t.isKeyword .true_ = true ∨
    t.isKeyword .false_ = true ∨ t.isKeyword .none_ = true ∨ t.isKeyword .len = true ∨
    t.isBracket .roundOpen = true ∨ t.isBracket .squareOpen = true

/-- The tokens that a comparison begins with. -/
def BeginsUnary (t : Token) : Prop := BeginsPrimary t ∨ t.isOperator .subtract = true

/-- The tokens that an expression begins with. -/
def Begins (t : Token) : Prop := BeginsUnary t ∨ t.isOperator .not = true

theorem Begins.content {t : Token} (h : Begins t) : t.kind.isStructural = false := by
  simp only [Begins, BeginsUnary, BeginsPrimary, Token.isKeyword, Token.isBracket, Token.isOperator,
    Bool.and_eq_true, beq_iff_eq] at h
  rcases h with ((h | h | h | h | h | h | h | h | h) | h) | h <;> simp [h, Token.Kind.isStructural]

section
variable {sees : Text → Prop} {N : Nesting}

theorem heads_primary : Heads BeginsPrimary (Primary sees N) := by
  intro ts e h
  cases h <;> exact ⟨_, _, rfl, by simp_all [BeginsPrimary]⟩

theorem heads_unary : Heads BeginsUnary (Unary sees N) := by
  intro ts e h
  cases h with
  | plain h =>
    obtain ⟨t, us, rfl, ht⟩ := heads_primary _ _ h
    exact ⟨t, us, rfl, .inl ht⟩
  | negate ht _ => exact ⟨_, _, rfl, .inr ht⟩

theorem heads_power : Heads BeginsUnary (Power sees N) := by
  intro ts e h
  cases h with
  | plain h => exact heads_unary _ _ h
  | power h _ _ =>
    obtain ⟨t, us, rfl, ht⟩ := heads_unary _ _ h
    exact ⟨t, _, rfl, ht⟩

theorem heads_comparison : Heads BeginsUnary (Comparison sees N) := heads_power.foldLeft.foldLeft.foldLeft

theorem heads_negation : Heads Begins (Negation sees N) := by
  intro ts e h
  cases h with
  | before ht _ => exact ⟨_, _, rfl, .inr ht⟩
  | behind hx _ =>
    obtain ⟨t, us, rfl, ht⟩ := heads_comparison _ _ hx
    exact ⟨t, _, rfl, .inl ht⟩

theorem heads_derives (n : Nat) : Heads Begins (Derives sees n .expr) := by
  cases n with
  | zero => exact fun _ _ h => h.elim
  | succ n => exact heads_negation.foldLeft.foldLeft

end

end Offside.Grammar
