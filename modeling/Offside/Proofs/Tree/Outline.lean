import Offside.Proofs.Grammar.Binders
import Offside.Proofs.Tree.Headings
import Offside.Proofs.Tree.WellFormed

/-!
# Outlines tell trees apart

The outline of a tree consists of the lines of its headings (`Stmt.outlined`), and from the headings the statements of a
compiled program are read back, but for their scopes (`shows_stmt`). Main statement: two compiled programs have
the same outline exactly if they are the same tree, scopes aside (`compile_outline`).
-/

namespace Offside

open Offside.Lexeme

/-! ## Trees without scopes -/

mutual

/-- The statement with its scopes emptied. -/
def Stmt.unscoped : Stmt → Stmt
  | .expression x => .expression x
  | .assign name value declared => .assign name value declared
  | .ifChain clauses => .ifChain (Clause.unscopedAll clauses)
  | .whileLoop test body => .whileLoop test (Stmt.unscopedAll body)
  | .forRange name start stop step body _ => .forRange name start stop step (Stmt.unscopedAll body) []
  | .define name params body _ => .define name params (Stmt.unscopedAll body) []
  | .ret value => .ret value
  | .print args => .print args
  | .block body => .block (Stmt.unscopedAll body)

/-- The statements with their scopes emptied. -/
def Stmt.unscopedAll : List Stmt → List Stmt
  | [] => []
  | s :: ss => s.unscoped :: Stmt.unscopedAll ss

/-- The clauses with the scopes in them emptied. -/
def Clause.unscopedAll : List Clause → List Clause
  | [] => []
  | .mk cond body :: cs => .mk cond (Stmt.unscopedAll body) :: Clause.unscopedAll cs

end

/-! ## The headings of a tree -/

/-- What stands behind the heading of an assignment. -/
def assignDetail (name : Text) (declared : Bool) : Text := name ++ " declared=" ++ Text.ofBool declared

/-- What stands behind the heading of a function. -/
def defineDetail (name : Text) (params : List Text) : Text := name ++ "(" ++ Text.join ", " params ++ ")"

mutual

/-- The headings of an expression. -/
def Expr.outlined : Expr → Outline
  | .absent => .item { heading := .absent } []
  | .literal kind text => .item { heading := .literal kind, detail := some text } []
  | .atom text => .item { heading := .atom, detail := some text } []
  | .atomOf inner => .item { heading := .atom } [.item { heading := .enclosure } [inner.outlined]]
  | .enclosure inner => .item { heading := .enclosure } [inner.outlined]
  | .unary op operand => .item { heading := .unary op } [operand.outlined]
  | .binary op left right => .item { heading := .binary op } [left.outlined, right.outlined]
  | .access name _ => .item { heading := .access, detail := some name } []
  | .call name args => .item { heading := .call, detail := some name } (Expr.outlinedAll args)
  | .sequence items => .item { heading := .sequence } (Expr.outlinedAll items)
  | .list items => .item { heading := .list } (Expr.outlinedAll items)
  | .length operand => .item { heading := .length } [operand.outlined]

/-- The headings of expressions. -/
def Expr.outlinedAll : List Expr → List Outline
  | [] => []
  | x :: xs => x.outlined :: Expr.outlinedAll xs

end

mutual

/-- The headings of a statement. -/
def Stmt.outlined : Stmt → Outline
  | .expression x => .item { heading := .expression } [x.outlined]
  | .assign name value declared =>
    .item { heading := .assign, detail := some (assignDetail name declared) } [value.outlined]
  | .ifChain clauses => .item { heading := .ifChain } (Clause.outlinedAll clauses)
  | .whileLoop test body =>
    .item { heading := .whileLoop } [test.outlined, .item { heading := .block } (Stmt.outlinedAll body)]
  | .forRange name start stop step body _ =>
    .item { heading := .forRange, detail := some name }
      [start.outlined, stop.outlined, step.outlined, .item { heading := .block } (Stmt.outlinedAll body)]
  | .define name params body _ =>
    .item { heading := .define, detail := some (defineDetail name params) }
      [.item { heading := .block } (Stmt.outlinedAll body)]
  | .ret none => .item { heading := .ret } []
  | .ret (some x) => .item { heading := .ret } [x.outlined]
  | .print args => .item { heading := .print } (Expr.outlinedAll args)
  | .block body => .item { heading := .block } (Stmt.outlinedAll body)

/-- The headings of statements. -/
def Stmt.outlinedAll : List Stmt → List Outline
  | [] => []
  | s :: ss => s.outlined :: Stmt.outlinedAll ss

/-- The headings of clauses. -/
def Clause.outlinedAll : List Clause → List Outline
  | [] => []
  | .mk none body :: rest =>
    .item { heading := .otherwise } [.item { heading := .block } (Stmt.outlinedAll body)] :: Clause.outlinedAll rest
  | .mk (some cond) body :: rest =>
    .item { heading := .clause } [cond.outlined, .item { heading := .block } (Stmt.outlinedAll body)] ::
      Clause.outlinedAll rest

end

section

open Outline

mutual

/-- The outline of an expression is made of its headings. -/
theorem Expr.outline_eq (depth : Nat) : ∀ x : Expr, x.outline depth = x.outlined.lines depth
  | .absent | .atom _ | .access .. => rfl
  | .literal kind text => by
    rw [Expr.outline, Expr.outlined, lines, Label.text, List.append_assoc]
    rfl
  | .atomOf x => by
    rw [Expr.outline, Expr.outlined, lines, linesAll_single, lines, linesAll_single, Expr.outline_eq _ x]
    rfl
  | .enclosure x | .unary _ x | .length x => by
    rw [Expr.outline, Expr.outlined, lines, linesAll_single, Expr.outline_eq _ x, Label.text_bare]
    rfl
  | .binary _ x y => by
    rw [Expr.outline, Expr.outlined, lines, linesAll, linesAll_single, Expr.outline_eq _ x, Expr.outline_eq _ y,
      Label.text_bare]
    rfl
  | .call _ xs | .sequence xs | .list xs => by
    rw [Expr.outline, Expr.outlined, lines, Expr.outlineAll_eq _ xs]
    rfl

theorem Expr.outlineAll_eq (depth : Nat) :
    ∀ xs : List Expr, Expr.outlineAll depth xs = linesAll depth (Expr.outlinedAll xs)
  | [] => rfl
  | x :: xs => by rw [Expr.outlineAll, Expr.outlinedAll, linesAll, Expr.outline_eq depth x, Expr.outlineAll_eq depth xs]

end

mutual

/-- The outline of a statement is made of its headings. -/
theorem Stmt.outline_eq (depth : Nat) : ∀ s : Stmt, s.outline depth = s.outlined.lines depth
  | .expression x | .assign _ x _ | .ret (some x) => by
    rw [Stmt.outline, Stmt.outlined, lines, linesAll_single, Expr.outline_eq _ x]
    rfl
  | .ret none => rfl
  | .ifChain cs => by
    rw [Stmt.outline, Stmt.outlined, lines, Clause.outlineAll_eq _ cs]
    rfl
  | .whileLoop x body => by
    rw [Stmt.outline, Stmt.outlined, lines, linesAll, linesAll_single, lines, Expr.outline_eq _ x,
      Stmt.outlineAll_eq _ body]
    rfl
  | .forRange _ x y z body _ => by
    rw [Stmt.outline, Stmt.outlined, lines, linesAll, linesAll, linesAll, linesAll_single, lines, Expr.outline_eq _ x,
      Expr.outline_eq _ y, Expr.outline_eq _ z, Stmt.outlineAll_eq _ body, List.append_assoc, List.append_assoc]
    rfl
  | .define _ _ body _ => by
    rw [Stmt.outline, Stmt.outlined, lines, linesAll_single, lines, Stmt.outlineAll_eq _ body]
    rfl
  | .print xs => by
    rw [Stmt.outline, Stmt.outlined, lines, Expr.outlineAll_eq]
    rfl
  | .block body => by
    rw [Stmt.outline, Stmt.outlined, lines, Stmt.outlineAll_eq _ body]
    rfl

theorem Stmt.outlineAll_eq (depth : Nat) :
    ∀ ss : List Stmt, Stmt.outlineAll depth ss = linesAll depth (Stmt.outlinedAll ss)
  | [] => rfl
  | s :: ss => by rw [Stmt.outlineAll, Stmt.outlinedAll, linesAll, Stmt.outline_eq depth s, Stmt.outlineAll_eq depth ss]

theorem Clause.outlineAll_eq (depth : Nat) :
    ∀ cs : List Clause, Clause.outlineAll depth cs = linesAll depth (Clause.outlinedAll cs)
  | [] => rfl
  | .mk none body :: cs => by
    rw [Clause.outlineAll, Clause.outlinedAll, linesAll, lines, linesAll_single, lines, Stmt.outlineAll_eq _ body,
      Clause.outlineAll_eq depth cs]
    rfl
  | .mk (some x) body :: cs => by
    rw [Clause.outlineAll, Clause.outlinedAll, linesAll, lines, linesAll, linesAll_single, lines, Expr.outline_eq _ x,
      Stmt.outlineAll_eq _ body, Clause.outlineAll_eq depth cs]
    rfl

end

/-- The outline of a program is made of the headings of its statements, below one line. -/
theorem Program.outline_eq (p : Program) :
    p.outline = (item { heading := .block } (Stmt.outlinedAll p.statements)).lines 0 :=
  Stmt.outline_eq 0 (.block p.statements)

end

/-! ## The words of a line -/

namespace Outline

/-- The words in a text, without what stands between them. -/
def words (s : Text) : List Text := (s.splitOnP fun b => !isWordPart b).filter (· ≠ [])

theorem words_gap {b : UInt8} (hb : isWordPart b = false) (s : Text) : words (b :: s) = words s := by
  simp [words, List.splitOnP_cons_eq_if_modifyHead, hb]

theorem words_word {w : Text} (hw : isWord w = true) {b : UInt8} (hb : isWordPart b = false) (s : Text) :
    words (w ++ b :: s) = w :: words s := by
  have hparts : ∀ c ∈ w, (!isWordPart c) = false := fun c hc => by simp [isWord_part hw c hc]
  have hne : w ≠ [] := by
    rintro rfl
    cases hw
  rw [words, List.splitOnP_append_cons_of_forall_mem hparts b (by simp [hb]) s]
  simp [words, hne]

theorem words_assign {name : Text} (h : isWord name = true) (declared : Bool) :
    words (assignDetail name declared) = [name, "declared", Text.ofBool declared] := by
  have hdetail : assignDetail name declared = name ++ 32 :: (("declared=" : Text) ++ Text.ofBool declared) := by
    rw [assignDetail, List.append_assoc]
    rfl
  have hflag : ∀ b, words (("declared=" : Text) ++ Text.ofBool b) = [("declared" : Text), Text.ofBool b] := by
    decide +kernel
  rw [hdetail, words_word h (by decide), hflag]

/-- The words of a list of parameters, up to the parenthesis behind it. -/
theorem words_parameters : ∀ {params : List Text}, (∀ x ∈ params, isWord x = true) →
    words (Text.join ", " params ++ [41]) = params
  | [], _ => by decide +kernel
  | [x], h => by
    have hclose : words [] = [] := rfl
    rw [Text.join, words_word (h x List.mem_cons_self) (by decide), hclose]
  | x :: y :: params, h => by
    have hdetail : Text.join ", " (x :: y :: params) ++ [41] =
        x ++ 44 :: 32 :: (Text.join ", " (y :: params) ++ [41]) := by
      change x ++ [44, 32] ++ Text.join ", " (y :: params) ++ [41] = _
      simp
    obtain ⟨hx, hparams⟩ := List.forall_mem_cons.1 h
    rw [hdetail, words_word hx (by decide), words_gap (by decide), words_parameters hparams]

theorem words_define {name : Text} {params : List Text} (h : isWord name = true) (hp : ∀ x ∈ params, isWord x = true) :
    words (defineDetail name params) = name :: params := by
  have hdetail : defineDetail name params = name ++ 40 :: (Text.join ", " params ++ [41]) := by
    change name ++ [40] ++ Text.join ", " params ++ [41] = _
    simp
  rw [hdetail, words_word h (by decide), words_parameters hp]

/-! ## Reading a tree back -/

mutual

/-- The expression that headings stand for. Headings that no compiled program has stand for nothing. -/
def expr : Outline → Expr
  | item ⟨.literal kind, some text⟩ _ => .literal kind text
  | item ⟨.access, some name⟩ _ => .access name false
  | item ⟨.call, some name⟩ args => .call name (exprs args)
  | item ⟨.sequence, _⟩ items => .sequence (exprs items)
  | item ⟨.list, _⟩ items => .list (exprs items)
  | item ⟨.enclosure, _⟩ [x] => .enclosure x.expr
  | item ⟨.length, _⟩ [x] => .length x.expr
  | item ⟨.unary op, _⟩ [x] => .unary op x.expr
  | item ⟨.binary op, _⟩ [x, y] => .binary op x.expr y.expr
  | item _ _ => .absent

/-- The expressions that headings stand for. -/
def exprs : List Outline → List Expr
  | [] => []
  | t :: ts => t.expr :: exprs ts

end

mutual

/-- The statement that headings stand for, without its scopes. -/
def stmt : Outline → Stmt
  | item ⟨.expression, _⟩ [x] => .expression x.expr
  | item ⟨.assign, some detail⟩ [x] =>
    .assign ((words detail).headD []) x.expr ((words detail).getLast? == some (Text.ofBool true))
  | item ⟨.ifChain, _⟩ cs => .ifChain (clauses cs)
  | item ⟨.whileLoop, _⟩ [x, item _ body] => .whileLoop x.expr (stmts body)
  | item ⟨.forRange, some name⟩ [x, y, z, item _ body] => .forRange name x.expr y.expr z.expr (stmts body) []
  | item ⟨.define, some detail⟩ [item _ body] => .define ((words detail).headD []) (words detail).tail (stmts body) []
  | item ⟨.ret, _⟩ [] => .ret none
  | item ⟨.ret, _⟩ [x] => .ret (some x.expr)
  | item ⟨.print, _⟩ xs => .print (exprs xs)
  | item _ _ => .block []

/-- The statements that headings stand for. -/
def stmts : List Outline → List Stmt
  | [] => []
  | t :: ts => t.stmt :: stmts ts

/-- The clauses that headings stand for. -/
def clauses : List Outline → List Clause
  | [] => []
  | item _ [item _ body] :: cs => .mk none (stmts body) :: clauses cs
  | item _ [x, item _ body] :: cs => .mk (some x.expr) (stmts body) :: clauses cs
  | _ :: cs => clauses cs

end

/-! ## Trees that are read back -/

/-- The headings are legible, and what they stand for is read from them. -/
structure Shows {α : Type} (t : Outline) (read : Outline → α) (a : α) : Prop where
  legible : t.Legible
  reads : read t = a

/-- All of the headings are legible, and what they stand for is read from them. -/
structure AllShow {α : Type} (ts : List Outline) (read : List Outline → α) (a : α) : Prop where
  legible : AreLegible ts
  reads : read ts = a

/-- The body of a block stands below a line of its own. -/
theorem AllShow.block {α : Type} {ts : List Outline} {read : List Outline → α} {a : α} (h : AllShow ts read a) :
    (item { heading := .block } ts).Legible :=
  ⟨.bare (by decide), h.legible⟩

end Outline

open Outline

section
variable {s : Text}

theorem not_mem_of_inLine (h : ∀ b ∈ s, isLineEnd b = false) : 10 ∉ s := fun hmem => by cases h 10 hmem

theorem not_mem_of_isWord (h : isWord s = true) : 10 ∉ s := not_mem_of_inLine (word_in_line (isWord_part h))

theorem not_mem_join {b : UInt8} (hs : b ∉ s) : ∀ {ts : List Text}, (∀ t ∈ ts, b ∉ t) → b ∉ Text.join s ts
  | [], _ => List.not_mem_nil
  | [t], h => h t List.mem_cons_self
  | t :: u :: ts, h => by
    obtain ⟨ht, hts⟩ := List.forall_mem_cons.1 h
    rw [Text.join]
    · exact List.not_mem_append (List.not_mem_append ht hs) (not_mem_join hs hts)
    · simp

theorem legible_literal {kind : LiteralKind} (h : Expr.literalSpelled kind s) :
    Label.Legible { heading := .literal kind, detail := some s } := by
  cases kind with
  | string => exact .detail (by decide) (not_mem_of_inLine h)
  | number =>
    obtain ⟨whole, part, power, hform, rfl⟩ := emits_number h
    exact .detail (by decide) (not_mem_of_inLine hform.in_line)
  | boolean =>
    refine .detail (by decide) ?_
    rcases h with rfl | rfl <;> decide +kernel
  | null =>
    refine .detail (by decide) ?_
    rw [show s = "None" from h]
    decide +kernel
  | other code => exact h.elim

theorem legible_assign (h : isWord s = true) (declared : Bool) :
    Label.Legible { heading := .assign, detail := some (assignDetail s declared) } := by
  have hflag : ∀ b, 10 ∉ (" declared=" : Text) ++ Text.ofBool b := by decide +kernel
  refine .detail (by decide) ?_
  rw [assignDetail, List.append_assoc]
  exact List.not_mem_append (not_mem_of_isWord h) (hflag declared)

theorem legible_define {params : List Text} (h : isWord s = true) (hp : ∀ x ∈ params, isWord x = true) :
    Label.Legible { heading := .define, detail := some (defineDetail s params) } := by
  have hjoin : 10 ∉ Text.join ", " params := not_mem_join (by decide) fun x hx => not_mem_of_isWord (hp x hx)
  have hopen : 10 ∉ ("(" : Text) := by decide
  have hclose : 10 ∉ (")" : Text) := by decide
  refine .detail (by decide) ?_
  simp [defineDetail, not_mem_of_isWord h, hopen, hjoin, hclose]

end

mutual

/-- The headings of an expression show it. -/
theorem shows_expr : ∀ {x : Expr}, x.WellSpelled → x.outlined.Shows expr x
  | .literal kind text, h => by
    rw [Expr.WellSpelled] at h
    exact ⟨⟨legible_literal h, trivial⟩, rfl⟩
  | .access name quoted, h => by
    rw [Expr.WellSpelled] at h
    obtain ⟨hname, rfl⟩ := h
    exact ⟨⟨.detail (by decide) (not_mem_of_isWord hname), trivial⟩, rfl⟩
  | .call name xs, h => by
    rw [Expr.WellSpelled] at h
    have hxs := show_exprs h.2
    exact ⟨⟨.detail (by decide) (not_mem_of_isWord h.1), hxs.legible⟩, by rw [Expr.outlined, expr, hxs.reads]⟩
  | .list xs, h => by
    rw [Expr.WellSpelled] at h
    have hxs := show_exprs h
    exact ⟨⟨.bare (by decide), hxs.legible⟩, by rw [Expr.outlined, expr, hxs.reads]⟩
  | .enclosure x, h | .length x, h => by
    rw [Expr.WellSpelled] at h
    have hx := shows_expr h
    exact ⟨⟨.bare (by decide), hx.legible, trivial⟩, by rw [Expr.outlined, expr, hx.reads]⟩
  | .unary op x, h => by
    rw [Expr.WellSpelled] at h
    have hx := shows_expr h.2
    refine ⟨⟨.bare ?_, hx.legible, trivial⟩, by rw [Expr.outlined, expr, hx.reads]⟩
    rcases h.1 with rfl | rfl <;> decide
  | .binary op x y, h => by
    rw [Expr.WellSpelled] at h
    have hx := shows_expr h.2.1
    have hy := shows_expr h.2.2
    refine ⟨⟨.bare ?_, hx.legible, hy.legible, trivial⟩, by rw [Expr.outlined, expr, hx.reads, hy.reads]⟩
    cases op with
    | other code => cases h.1
    | _ => decide
  | .absent, h | .atom _, h | .atomOf _, h | .sequence _, h => by
    rw [Expr.WellSpelled] at h
    exact h.elim

theorem show_exprs : ∀ {xs : List Expr}, Expr.AreWellSpelled xs → AllShow (Expr.outlinedAll xs) exprs xs
  | [], _ => ⟨trivial, rfl⟩
  | x :: xs, h => by
    rw [Expr.AreWellSpelled] at h
    have hx := shows_expr h.1
    have hxs := show_exprs h.2
    exact ⟨⟨hx.legible, hxs.legible⟩, by rw [Expr.outlinedAll, exprs, hx.reads, hxs.reads]⟩

end

theorem shows_returned {x : Expr} (h : Expr.WellReturned (some x)) : x.outlined.Shows expr x := by
  cases x with
  | sequence items =>
    have hitems := show_exprs h.2
    exact ⟨⟨.bare (by decide), hitems.legible⟩, by rw [Expr.outlined, expr, hitems.reads]⟩
  | _ => exact shows_expr h

/-- The names that the statements declare are words. -/
def Stmt.Named (ss : List Stmt) : Prop := ∀ x ∈ Resolution.bound ss, isWord x = true

theorem Stmt.named_cons {s : Stmt} {ss : List Stmt} :
    Named (s :: ss) ↔ (∀ x ∈ s.binders, isWord x = true) ∧ Named ss := by
  simp only [Named, Grammar.bound_cons, List.forall_mem_append]

theorem Stmt.named_append {ss ss' : List Stmt} : Named (ss ++ ss') ↔ Named ss ∧ Named ss' := by
  simp only [Named, Grammar.bound_append, List.forall_mem_append]

open Stmt

mutual

/-- The headings of a statement show it, but for its scopes. -/
theorem shows_stmt {inFunction : Bool} :
    ∀ {s : Stmt}, s.WellFormed inFunction → Named (s :: s.inside) → s.outlined.Shows stmt s.unscoped
  | .expression x, h, _ => by
    rw [WellFormed] at h
    have hx := shows_expr h
    exact ⟨⟨.bare (by decide), hx.legible, trivial⟩, by rw [outlined, stmt, hx.reads, unscoped]⟩
  | .assign name x declared, h, hn => by
    rw [WellFormed] at h
    have hname := (named_cons.1 hn).1 name List.mem_cons_self
    have hx := shows_expr h
    refine ⟨⟨legible_assign hname declared, hx.legible, trivial⟩, ?_⟩
    rw [outlined, stmt, words_assign hname, hx.reads, unscoped]
    cases declared <;> rfl
  | .ifChain cs, h, hn => by
    rw [WellFormed] at h
    have hcs := show_clauses h (named_cons.1 hn).2
    exact ⟨⟨.bare (by decide), hcs.legible⟩, by rw [outlined, stmt, hcs.reads, unscoped]⟩
  | .whileLoop x body, h, hn => by
    rw [WellFormed] at h
    have hx := shows_expr h.1
    have hbody := show_stmts h.2 (named_cons.1 hn).2
    refine ⟨⟨.bare (by decide), hx.legible, hbody.block, trivial⟩, ?_⟩
    rw [outlined, stmt, hx.reads, hbody.reads, unscoped]
  | .forRange name x y z body _, h, hn => by
    rw [WellFormed] at h
    obtain ⟨⟨hx, hy, hz⟩, hbody⟩ := h
    obtain ⟨hname, hinside⟩ := named_cons.1 hn
    have hx := shows_expr hx
    have hy := shows_expr hy
    have hz := shows_expr hz
    have hbody := show_stmts hbody hinside
    have hline := not_mem_of_isWord (hname name List.mem_cons_self)
    refine ⟨⟨.detail (by decide) hline, hx.legible, hy.legible, hz.legible, hbody.block, trivial⟩, ?_⟩
    rw [outlined, stmt, hx.reads, hy.reads, hz.reads, hbody.reads, unscoped]
  | .define name params body _, h, hn => by
    rw [WellFormed] at h
    obtain ⟨hnames, hinside⟩ := named_cons.1 hn
    obtain ⟨hname, hparams⟩ := List.forall_mem_cons.1 hnames
    have hbody := show_stmts h hinside
    refine ⟨⟨legible_define hname hparams, hbody.block, trivial⟩, ?_⟩
    rw [outlined, stmt, words_define hname hparams, hbody.reads, unscoped]
    rfl
  | .ret none, _, _ => ⟨⟨.bare (by decide), trivial⟩, rfl⟩
  | .ret (some x), h, _ => by
    rw [WellFormed] at h
    have hx := shows_returned h.2
    exact ⟨⟨.bare (by decide), hx.legible, trivial⟩, by rw [outlined, stmt, hx.reads, unscoped]⟩
  | .print xs, h, _ => by
    rw [WellFormed] at h
    have hxs := show_exprs h
    exact ⟨⟨.bare (by decide), hxs.legible⟩, by rw [outlined, stmt, hxs.reads, unscoped]⟩
  | .block _, h, _ => by
    rw [WellFormed] at h
    exact h.elim

theorem show_stmts {inFunction : Bool} :
    ∀ {ss : List Stmt}, AreWellFormed inFunction ss → Named (Stmt.nodes ss) →
      AllShow (outlinedAll ss) stmts (unscopedAll ss)
  | [], _, _ => ⟨trivial, rfl⟩
  | s :: ss, h, hn => by
    rw [AreWellFormed] at h
    obtain ⟨hs, hss⟩ := named_append.1 hn
    have hs := shows_stmt h.1 hs
    have hss := show_stmts h.2 hss
    exact ⟨⟨hs.legible, hss.legible⟩, by rw [outlinedAll, stmts, hs.reads, hss.reads, unscopedAll]⟩

theorem show_clauses {inFunction first : Bool} : ∀ {cs : List Clause},
    Clause.AreWellFormed inFunction first cs → Named (Clause.nodes cs) →
      AllShow (Clause.outlinedAll cs) clauses (Clause.unscopedAll cs)
  | [], _, _ => ⟨trivial, rfl⟩
  | .mk none body :: cs, h, hn => by
    rw [Clause.AreWellFormed] at h
    obtain ⟨⟨-, rfl⟩, hbody⟩ := h
    have hbody := show_stmts hbody (named_append.1 hn).1
    refine ⟨⟨⟨.bare (by decide), hbody.block, trivial⟩, trivial⟩, ?_⟩
    rw [Clause.outlinedAll, clauses, hbody.reads]
    rfl
  | .mk (some x) body :: cs, h, hn => by
    rw [Clause.AreWellFormed] at h
    obtain ⟨⟨hx, hbody⟩, hcs⟩ := h
    obtain ⟨hnbody, hncs⟩ := named_append.1 hn
    have hx := shows_expr hx
    have hbody := show_stmts hbody hnbody
    have hcs := show_clauses hcs hncs
    refine ⟨⟨⟨.bare (by decide), hx.legible, hbody.block, trivial⟩, hcs.legible⟩, ?_⟩
    rw [Clause.outlinedAll, clauses, hx.reads, hbody.reads, hcs.reads, Clause.unscopedAll]

end

mutual

/-- The headings of a statement say nothing of its scopes. -/
theorem outlined_unscoped : ∀ s : Stmt, s.unscoped.outlined = s.outlined
  | .expression _ | .assign _ _ _ | .ret none | .ret (some _) | .print _ => rfl
  | .ifChain cs => by rw [unscoped, outlined, outlined, outlined_unscopedClauses cs]
  | .whileLoop _ body => by rw [unscoped, outlined, outlined, outlined_unscopedAll body]
  | .forRange _ _ _ _ body _ => by rw [unscoped, outlined, outlined, outlined_unscopedAll body]
  | .define _ _ body _ => by rw [unscoped, outlined, outlined, outlined_unscopedAll body]
  | .block body => by rw [unscoped, outlined, outlined, outlined_unscopedAll body]

theorem outlined_unscopedAll : ∀ ss : List Stmt, outlinedAll (unscopedAll ss) = outlinedAll ss
  | [] => rfl
  | s :: ss => by rw [unscopedAll, outlinedAll, outlinedAll, outlined_unscoped s, outlined_unscopedAll ss]

theorem outlined_unscopedClauses : ∀ cs : List Clause,
    Clause.outlinedAll (Clause.unscopedAll cs) = Clause.outlinedAll cs
  | [] => rfl
  | .mk none body :: cs | .mk (some _) body :: cs => by
    rw [Clause.unscopedAll, Clause.outlinedAll, Clause.outlinedAll, outlined_unscopedAll body,
      outlined_unscopedClauses cs]

end

namespace Compile

/-- The statements of a compiled program are read back from their headings. -/
theorem compile_shows {o : Options} {source : Text} {out : Output} (h : compile o source = .ok out) :
    AllShow (outlinedAll out.program.statements) stmts (unscopedAll out.program.statements) :=
  show_stmts (compile_wellFormed h) (compile_bound h)

/-- Two sources that compile, under whatever options, have the same outline exactly if they have the same statements,
scopes aside: the same nodes with the same operators, types, names, texts, parameters and flags, the same clauses, and
the same children in the same order. -/
theorem compile_outline {o o' : Options} {source source' : Text} {out out' : Output} (h : compile o source = .ok out)
    (h' : compile o' source' = .ok out') :
    outlineText out.program.outline = outlineText out'.program.outline ↔
      unscopedAll out.program.statements = unscopedAll out'.program.statements := by
  have hshow := compile_shows h
  have hshow' := compile_shows h'
  rw [Program.outline_eq, Program.outline_eq]
  constructor
  · intro htext
    obtain ⟨-, hbelow⟩ := Outline.item.inj (outlineText_inj hshow.block hshow'.block htext)
    rw [← hshow.reads, hbelow, hshow'.reads]
  · intro hstatements
    rw [← outlined_unscopedAll out.program.statements, hstatements, outlined_unscopedAll]

/-- Two layouts of one program, with other quotes and a comment. -/
theorem compile_outline_layouts :
    ∃ out out', compile {} "def f(a, b):\n if a:\n  return b, 's'\n else:\n  return\n" = .ok out ∧
      compile { tabWidth := 8 } "def f( a,b ):  # two\n\tif a:\n\t\treturn b,\"s\"\n\telse:\n\t\treturn" = .ok out' ∧
      outlineText out.program.outline = outlineText out'.program.outline ∧
      unscopedAll out.program.statements = unscopedAll out'.program.statements := by
  have hout : (compile {} "def f(a, b):\n if a:\n  return b, 's'\n else:\n  return\n").toOption.isSome = true := by
    decide +kernel
  have hout' : (compile { tabWidth := 8 }
      "def f( a,b ):  # two\n\tif a:\n\t\treturn b,\"s\"\n\telse:\n\t\treturn").toOption.map
        (outlineText ·.program.outline) =
      (compile {} "def f(a, b):\n if a:\n  return b, 's'\n else:\n  return\n").toOption.map
        (outlineText ·.program.outline) := by
    decide +kernel
  obtain ⟨out, hout⟩ := Option.isSome_iff_exists.1 hout
  rw [hout] at hout'
  obtain ⟨out', hout', htext⟩ := Option.map_eq_some_iff.1 hout'
  have h := ok_of_toOption hout
  have h' := ok_of_toOption hout'
  exact ⟨out, out', h, h', htext.symm, (compile_outline h h').1 htext.symm⟩

end Compile

end Offside
