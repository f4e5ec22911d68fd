import Offside.Proofs.Grammar.Statement

/-!
# The resolution of names

What a program says about its names, read off its tree alone. Statements are taken in order, each with the
names declared so far. The branches of a conditional and the body of a loop with a test declare into the
scope around them. The body of a loop over a range has a scope of its own, which begins with the loop
variable, and so has the body of a function, which begins with the parameters. A name has to be visible
where it is read, a function has no parameter twice, and only a function returns.
-/

namespace Offside

mutual

/-- The names that an expression reads, in order. -/
def Expr.names : Expr → List Text
  | .absent | .literal .. | .atom _ => []
  | .atomOf inner | .enclosure inner | .length inner => inner.names
  | .unary _ operand => operand.names
  | .binary _ left right => left.names ++ right.names
  | .access name _ => [name]
  | .call name args => name :: Expr.namesAll args
  | .sequence items | .list items => Expr.namesAll items

/-- The names that expressions read, in order. -/
def Expr.namesAll : List Expr → List Text
  | [] => []
  | x :: xs => x.names ++ Expr.namesAll xs

end

/-! ## The names of a derivation -/

namespace Grammar

/-- The name that a symbol is. -/
def Symbol.name? : Symbol → Option Text
  | .name x => some x
  | _ => none

mutual

theorem filterMap_symbols : ∀ e : Expr, e.symbols.filterMap Symbol.name? = e.names
  | .absent | .literal .. | .atom _ | .access .. => rfl
  | .atomOf inner | .enclosure inner | .length inner => by
    simp [Expr.symbols, Expr.names, Symbol.name?, List.filterMap_cons, filterMap_symbols inner]
  | .unary .negate operand | .unary .not operand | .unary (.other _) operand => by
    simp [Expr.symbols, Expr.names, Symbol.name?, List.filterMap_cons, filterMap_symbols operand]
  | .binary _ left right => by
    simp [Expr.symbols, Expr.names, Symbol.name?, List.filterMap_cons, filterMap_symbols left, filterMap_symbols right]
  | .call _ xs | .sequence xs | .list xs => by
    simp [Expr.symbols, Expr.names, Symbol.name?, List.filterMap_cons, filterMap_symbolsAll xs]

theorem filterMap_symbolsAll : ∀ xs : List Expr, (Expr.symbolsAll xs).filterMap Symbol.name? = Expr.namesAll xs
  | [] => rfl
  | x :: xs => by simp [Expr.symbolsAll, Expr.namesAll, filterMap_symbols x, filterMap_symbolsMore xs]

theorem filterMap_symbolsMore :
    ∀ xs : List Expr, (Expr.symbolsMore xs).filterMap Symbol.name? = Expr.namesAll xs
  | [] => rfl
  | x :: xs => by
    simp [Expr.symbolsMore, Expr.namesAll, Symbol.name?, List.filterMap_cons, filterMap_symbols x, filterMap_symbolsMore xs]

end

theorem symbol?_eq_name {t : Token} {x : Text} :
    symbol? t = some (.name x) ↔ t.kind = .identifier ∧ t.literal = x := by
  unfold symbol?
  split <;> simp_all

theorem Keeps.mem_names {ts : List Token} {e : Expr} (h : Keeps ts e) {x : Text} :
    x ∈ e.names ↔ ∃ t ∈ ts, t.kind = .identifier ∧ t.literal = x := by
  have hsymbol : x ∈ e.names ↔ some (.name x) ∈ e.symbols.map some := by
    rw [← filterMap_symbols, List.mem_filterMap]
    constructor
    · rintro ⟨y, hy, hx⟩
      cases y with
      | name z =>
        cases hx
        exact List.mem_map_of_mem hy
      | _ => cases hx
    · intro hx
      exact ⟨.name x, by simpa using hx, rfl⟩
  rw [hsymbol, ← h.1]
  simp only [List.mem_map, List.mem_filter, symbol?_eq_name]
  constructor
  · rintro ⟨t, ⟨ht, -⟩, hx⟩
    exact ⟨t, ht, hx⟩
  · rintro ⟨t, ht, hx⟩
    exact ⟨t, ⟨ht, by simp [Token.isOperator, hx.1]⟩, hx⟩

/-- The names of an expression are those of its tokens. -/
theorem derives_iff_names {sees : Text → Prop} {n : Nat} {ts : List Token} {e : Expr} :
    Derives sees n .expr ts e ↔ DerivesExpr n ts e ∧ ∀ x ∈ e.names, sees x := by
  rw [derives_iff_seen]
  refine and_congr_right fun h => ⟨fun hs x hx => ?_, fun hs t ht hk => ?_⟩
  · obtain ⟨t, ht, hk, rfl⟩ := h.keeps.mem_names.1 hx
    exact hs t ht hk
  · exact hs _ (h.keeps.mem_names.2 ⟨t, ht, hk, rfl⟩)

theorem mem_namesAll {xs : List Expr} {x : Text} : x ∈ Expr.namesAll xs ↔ ∃ e ∈ xs, x ∈ e.names := by
  induction xs with
  | nil => simp [Expr.namesAll]
  | cons e xs ih => simp [Expr.namesAll, ih]

theorem items_iff_names {sees : Text → Prop} {n : Nat} {ts : List Token} {xs : List Expr} :
    Items isComma (Derives sees n .expr) ts xs ↔
      Items isComma (DerivesExpr n) ts xs ∧ ∀ x ∈ Expr.namesAll xs, sees x := by
  have hd : Derives sees n .expr = fun ts e => DerivesExpr n ts e ∧ ∀ x ∈ e.names, sees x := by
    funext ts e
    exact propext derives_iff_names
  rw [hd, Items.such_iff]
  refine and_congr_right fun _ => ⟨fun h x hx => ?_, fun h e he x hx => ?_⟩
  · obtain ⟨e, he, hx⟩ := mem_namesAll.1 hx
    exact h e he x hx
  · exact h x (mem_namesAll.2 ⟨e, he, hx⟩)

end Grammar

/-! ## Resolution -/

namespace Resolution

/-- What surrounds a scope. -/
structure Place where
  rules : RuleSet := []
  /-- The scopes around it, innermost first. -/
  outer : Chain := []
  /-- Whether it lies in the body of a function. -/
  inFunction : Bool := false

namespace Place

/-- Whether names are visible in a scope with the names `f`. -/
def sees (p : Place) (f : Frame) (names : List Text) : Bool := names.all (Chain.sees (f :: p.outer))

/-- What surrounds a scope inside one with the names `f`. -/
def inner (p : Place) (f : Frame) : Place := { p with outer := f :: p.outer }

/-- Declares a name unless the scope holds it already. No rule may forbid the name. -/
def declare (p : Place) (f : Frame) (r : Reference) : Option Frame :=
  if f.holds r.name then some f else if p.rules.blacklisted r.name then none else some (f.insert r)

/-- The scope of a function before its body: the parameters, none of them twice. -/
def parameters (p : Place) (params : List Text) : Option Frame :=
  if params.Nodup ∧ ∀ x ∈ params, p.rules.blacklisted x = false then some (params.map fun name => { name })
  else none

end Place

end Resolution

open Offside.Resolution

mutual

/-- The names of the scope behind a statement, if the statement is right about its names. -/
def Stmt.resolve (p : Place) (f : Frame) : Stmt → Option Frame
  | .expression x => if p.sees f x.names then some f else none
  | .assign name value declared =>
    if p.sees f value.names ∧ declared = Chain.sees (f :: p.outer) name then p.declare f { name, declared }
    else none
  | .ifChain clauses => if p.rules.disabled .ifStatement then none else Clause.resolveAll p f clauses
  | .whileLoop test body =>
    if p.rules.disabled .whileStatement then none
    else if p.sees f test.names then Stmt.resolveAll p f body else none
  | .forRange name start stop step body scope =>
    if p.rules.disabled .forStatement then none
    else if p.sees f (Expr.namesAll [start, stop, step]) then
      (p.declare [] { name }).bind fun g =>
        (Stmt.resolveAll (p.inner f) g body).bind fun g => if g = scope then some f else none
    else none
  | .define name params body scope =>
    if p.rules.disabled .functionDefinition then none
    else (p.declare f { name, kind := .function }).bind fun f =>
      (p.parameters params).bind fun g =>
        (Stmt.resolveAll { p.inner f with inFunction := true } g body).bind fun g =>
          if g = scope then some f else none
  | .ret value => if p.inFunction ∧ p.sees f (Expr.namesAll value.toList) then some f else none
  | .print args =>
    if p.rules.disabled .print then none else if p.sees f (Expr.namesAll args) then some f else none
  | .block _ => none

/-- The names of the scope behind statements. -/
def Stmt.resolveAll (p : Place) (f : Frame) : List Stmt → Option Frame
  | [] => some f
  | s :: ss => (s.resolve p f).bind fun f => Stmt.resolveAll p f ss

/-- The names of the scope behind the clauses of a conditional. -/
def Clause.resolveAll (p : Place) (f : Frame) : List Clause → Option Frame
  | [] => some f
  | .mk cond body :: cs =>
    if p.sees f (Expr.namesAll cond.toList) then
      (Stmt.resolveAll p f body).bind fun f => Clause.resolveAll p f cs
    else none

end

/-! ## What a statement that resolves says -/

theorem Frame.holds_iff_names {f : Frame} {x : Text} : f.holds x = true ↔ x ∈ f.names := by
  simp [Frame.holds, Frame.find, Frame.names]

/-- A name is visible in a scope if the scope has it, or if it is visible around the scope. -/
theorem Chain.sees_cons {f : Frame} {c : Chain} {x : Text} :
    Chain.sees (f :: c) x = true ↔ x ∈ f.names ∨ Chain.sees c x = true := by
  rw [← Frame.holds_iff_names]
  simp only [Chain.sees, Chain.lookup, Frame.holds, List.findSome?_cons]
  cases f.find x <;> simp

@[simp] theorem Chain.sees_nil (x : Text) : Chain.sees [] x = false := rfl

namespace Resolution

section
variable {p : Place} {f f' : Frame}

theorem Place.sees_iff {names : List Text} :
    p.sees f names = true ↔ ∀ x ∈ names, Chain.sees (f :: p.outer) x = true := by
  simp [Place.sees]

/-- A scope that has the name is left alone, and another one gets it as its last, if no rule forbids it. -/
theorem Place.declare_iff {r : Reference} :
    p.declare f r = some f' ↔
      r.name ∈ f.names ∧ f' = f ∨
        r.name ∉ f.names ∧ p.rules.blacklisted r.name = false ∧ f' = f ++ [r] := by
  rw [← Frame.holds_iff_names]
  unfold Place.declare Frame.insert
  by_cases hholds : f.holds r.name = true
  · simp [hholds, eq_comm (a := f)]
  · simp [hholds, eq_comm (a := f ++ [r])]

theorem resolve_expression {x : Expr} :
    (Stmt.expression x).resolve p f = some f' ↔ p.sees f x.names = true ∧ f = f' := by
  simp [Stmt.resolve]

theorem resolve_assign {name : Text} {value : Expr} {declared : Bool} :
    (Stmt.assign name value declared).resolve p f = some f' ↔
      p.sees f value.names = true ∧ declared = Chain.sees (f :: p.outer) name ∧
        p.declare f { name, declared } = some f' := by
  simp [Stmt.resolve, and_assoc]

theorem resolve_ifChain {cs : List Clause} :
    (Stmt.ifChain cs).resolve p f = some f' ↔
      p.rules.disabled .ifStatement = false ∧ Clause.resolveAll p f cs = some f' := by
  simp [Stmt.resolve]

theorem resolve_whileLoop {test : Expr} {body : List Stmt} :
    (Stmt.whileLoop test body).resolve p f = some f' ↔
      p.rules.disabled .whileStatement = false ∧ p.sees f test.names = true ∧
        Stmt.resolveAll p f body = some f' := by
  simp [Stmt.resolve]

theorem resolve_ret {value : Option Expr} :
    (Stmt.ret value).resolve p f = some f' ↔
      p.inFunction = true ∧ p.sees f (Expr.namesAll value.toList) = true ∧ f = f' := by
  simp [Stmt.resolve, and_assoc]

theorem resolve_print {args : List Expr} :
    (Stmt.print args).resolve p f = some f' ↔
      p.rules.disabled .print = false ∧ p.sees f (Expr.namesAll args) = true ∧ f = f' := by
  simp [Stmt.resolve]

end

end Resolution

end Offside
