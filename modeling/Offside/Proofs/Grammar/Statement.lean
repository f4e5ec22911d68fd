import Offside.Proofs.Grammar.Symbols
import Offside.Parser.Statement

/-!
# The grammar of statements

    Program := Stmt* EOF
    Stmt    := Simple NEWLINE | If | For | While | Def
    Simple  := 'return' [Expr (',' Expr)*] | 'print' '(' [Expr (',' Expr)*] ')' | name '=' Expr | Expr
    If      := 'if' Expr Block ('elif' Expr Block)* ['else' Block]
    For     := 'for' name 'in' 'range' '(' Expr (',' Expr)* ')' Block
    While   := 'while' Expr Block
    Def     := 'def' name '(' [name (',' name)*] ')' Block
    Block   := ':' NEWLINE INDENT Stmt Stmt* DEDENT

A range has one to three arguments. Statements are read under what their expressions and blocks derive,
and `DerivesBlock n` ties the knot for blocks that nest at most `n` deep. What a tree says about the
names it declares is left open here: that is for the resolution of names to say.
-/

namespace Offside.Grammar

open Offside.Statement

/-- `name`. -/
inductive Name : Phrase Token Text
  | mk {t : Token} (h : t.kind = .identifier) : Name [t] t.literal

/-- `Simple`. -/
inductive Simple (E : Phrase Token Expr) : Phrase Token Stmt
  | ret {t : Token} (ht : t.isKeyword .return_ = true) : Simple E [t] (.ret none)
  | values {t : Token} {ts : List Token} {xs : List Expr} (ht : t.isKeyword .return_ = true)
      (hx : Items isComma E ts xs) : Simple E (t :: ts) (.ret (some (sequenceOf xs)))
  | print {t l r : Token} {ts : List Token} {xs : List Expr} (ht : t.isKeyword .print = true)
      (hl : l.isBracket .roundOpen = true) (hx : Arguments E ts xs)
      (hr : r.isBracket .roundClose = true) : Simple E (t :: l :: (ts ++ [r])) (.print xs)
  | assign {t o : Token} {ts : List Token} {x : Expr} {declared : Bool} (ht : t.kind = .identifier)
      (ho : o.isOperator .assign = true) (hx : E ts x) :
      Simple E (t :: o :: ts) (.assign t.literal x declared)
  | expression {ts : List Token} {x : Expr} (hx : E ts x) : Simple E ts (.expression x)

/-- `('elif' Expr Block)* ['else' Block]`. -/
inductive Elifs (E : Phrase Token Expr) (B : Phrase Token (List Stmt)) : Phrase Token (List Clause)
  | done : Elifs E B [] []
  | elif {t : Token} {ts us vs : List Token} {x : Expr} {body : List Stmt} {cs : List Clause}
      (ht : t.isKeyword .elif = true) (hx : E ts x) (hb : B us body) (hrest : Elifs E B vs cs) :
      Elifs E B (t :: (ts ++ (us ++ vs))) (.mk (some x) body :: cs)
  | last {t : Token} {us : List Token} {body : List Stmt} (ht : t.isKeyword .else_ = true) (hb : B us body) :
      Elifs E B (t :: us) [.mk none body]

/-- `If | For | While | Def`. -/
inductive Compound (E : Phrase Token Expr) (B : Phrase Token (List Stmt)) : Phrase Token Stmt
  | ifChain {t : Token} {ts us vs : List Token} {x : Expr} {body : List Stmt} {cs : List Clause}
      (ht : t.isKeyword .if_ = true) (hx : E ts x) (hb : B us body) (hrest : Elifs E B vs cs) :
      Compound E B (t :: (ts ++ (us ++ vs))) (.ifChain (.mk (some x) body :: cs))
  | forRange {t n i k l r : Token} {ts us : List Token} {args : List Expr} {start stop step : Expr}
      {body : List Stmt} {scope : Frame} (ht : t.isKeyword .for_ = true) (hn : n.kind = .identifier)
      (hi : i.isOperator .in_ = true) (hk : k.isKeyword .range = true) (hl : l.isBracket .roundOpen = true)
      (hx : Items isComma E ts args) (hargs : rangeOf? args = some (start, stop, step))
      (hr : r.isBracket .roundClose = true) (hb : B us body) :
      Compound E B (t :: n :: i :: k :: l :: (ts ++ r :: us)) (.forRange n.literal start stop step body scope)
  | whileLoop {t : Token} {ts us : List Token} {x : Expr} {body : List Stmt} (ht : t.isKeyword .while_ = true)
      (hx : E ts x) (hb : B us body) : Compound E B (t :: (ts ++ us)) (.whileLoop x body)
  | define {t n l r : Token} {ts us : List Token} {params : List Text} {body : List Stmt} {scope : Frame}
      (ht : t.isKeyword .def_ = true) (hn : n.kind = .identifier) (hl : l.isBracket .roundOpen = true)
      (hx : OptItems isComma Name ts params) (hr : r.isBracket .roundClose = true) (hb : B us body) :
      Compound E B (t :: n :: l :: (ts ++ r :: us)) (.define n.literal params body scope)

/-- `Stmt`. -/
inductive AnyStatement (E : Phrase Token Expr) (B : Phrase Token (List Stmt)) : Phrase Token Stmt
  | simple {n : Token} {ts : List Token} {s : Stmt} (h : Simple E ts s) (hn : n.kind = .newline) :
      AnyStatement E B (ts ++ [n]) s
  | compound {ts : List Token} {s : Stmt} (h : Compound E B ts s) : AnyStatement E B ts s

/-- `Stmt*`. -/
inductive Statements (S : Phrase Token Stmt) : Phrase Token (List Stmt)
  | done : Statements S [] []
  | more {ts us : List Token} {s : Stmt} {ss : List Stmt} (h : S ts s) (hrest : Statements S us ss) :
      Statements S (ts ++ us) (s :: ss)

/-- `Block`. -/
inductive Block (S : Phrase Token Stmt) : Phrase Token (List Stmt)
  | mk {c n i d : Token} {ts : List Token} {ss : List Stmt} (hc : c.isDelimiter .colon = true)
      (hn : n.kind = .newline) (hi : i.kind = .indent) (hx : Statements S ts ss) (hne : ss ≠ [])
      (hd : d.kind = .dedent) : Block S (c :: n :: i :: (ts ++ [d])) ss

/-- Whole expressions that nest at most `n` deep. -/
abbrev DerivesExpr (n : Nat) : Phrase Token Expr := Derives (fun _ => True) n .expr

/-- Blocks that nest at most `n` deep, together with the expressions in them. -/
def DerivesBlock : Nat → Phrase Token (List Stmt)
  | 0 => fun _ _ => False
  | n + 1 => Block (AnyStatement (DerivesExpr n) (DerivesBlock n))

/-- Statements with at most `n` levels of nesting. -/
def DerivesStatement (n : Nat) : Phrase Token Stmt := AnyStatement (DerivesExpr n) (DerivesBlock n)

/-- Programs with at most `n` levels of nesting. -/
inductive DerivesProgram (n : Nat) : Phrase Token (List Stmt)
  | mk {t : Token} {ts : List Token} {ss : List Stmt} (h : Statements (DerivesStatement n) ts ss)
      (ht : t.kind = .eof) : DerivesProgram n (ts ++ [t]) ss

end Offside.Grammar
