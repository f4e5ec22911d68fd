import Offside.Parser.Statement

/-!
# A parser that counts

The parser is given a budget for nesting, and what surrounds it. Here it counts instead: three counters go up where
something nests and down again behind it, whatever becomes of it, and the limit is compared with one of them. The
levels of expressions and the statements are those of the parser, run in a monad whose state has the counters; only
what is done where something nests is defined here. That the two parse alike is shown in
`Offside.Proofs.Parser.Depth`.
-/

namespace Offside

/-- How deep a parser stands. -/
structure Counters where
  /-- In expressions and blocks. -/
  depth : Nat := 0
  /-- In blocks. -/
  blockDepth : Nat := 0
  /-- In functions. -/
  funcDepth : Nat := 0
deriving Repr, DecidableEq

namespace Counters

/-- One deeper. -/
def enter (k : Counters) : Counters := { k with depth := k.depth + 1 }

/-- One less deep. -/
def leave (k : Counters) : Counters := { k with depth := k.depth - 1 }

/-- In one block more. -/
def enterBlock (k : Counters) : Counters := { k with blockDepth := k.blockDepth + 1 }

/-- In one block less. -/
def leaveBlock (k : Counters) : Counters := { k with blockDepth := k.blockDepth - 1 }

/-- In one function more. -/
def enterFunction (k : Counters) : Counters := { k with funcDepth := k.funcDepth + 1 }

/-- In one function less. -/
def leaveFunction (k : Counters) : Counters := { k with funcDepth := k.funcDepth - 1 }

end Counters

/-- A parser with states `σ` that counts. -/
abbrev Counting (σ : Type) := EStateM Halt (σ × Counters)

namespace Counting

variable {σ α : Type}

/-- A parser that counts nothing leaves the counters alone. -/
instance : MonadLift (EStateM Halt σ) (Counting σ) where
  monadLift p := fun (s, k) =>
    match p s with
    | .ok a s => .ok a (s, k)
    | .error h s => .error h (s, k)

/-- The counters. -/
def counters : Counting σ Counters := fun (s, k) => .ok k (s, k)

/-- Sets the counters for a parser, and sets them back behind it, whatever becomes of it. -/
def counted (before after : Counters → Counters) (p : Counting σ α) : Counting σ α := fun (s, k) =>
  match p (s, before k) with
  | .ok a (s, k) => .ok a (s, after k)
  | .error h (s, k) => .error h (s, after k)

/-- Goes one deeper for a parser. Beyond the limit that is reported, at the token where the parser stands. -/
def deeper (cur : σ → Token) (limit : Nat) (p : Counting σ α) : Counting σ α := fun (s, k) =>
  if limit < k.enter.depth then .error (.report (cur s).tooDeep) (s, k.enter) else counted .enter .leave p (s, k)

end Counting

/-! ## Expressions -/

namespace Counting.Expression

open Offside.Expression (Nested)

/-- Reads a nested expression under a limit. The fuel is a bound on how deep it can nest. -/
def parseFor (limit : Nat) (scope : Chain) : (fuel : Nat) → Nested (Counting Cursor)
  | 0, _ => fun s => .error .crash s
  | fuel + 1, e => deeper Cursor.cur limit (Expression.body scope (parseFor limit scope fuel) e)

/-- Reads a nested expression under a limit. One can go no deeper than to the limit, so the fuel never runs out. -/
def parse (limit : Nat) (scope : Chain) : Nested (Counting Cursor) := parseFor limit scope (limit + 1)

end Counting.Expression

/-! ## Statements -/

namespace Counting.Statement

open Offside.Statement (State MonadNesting)
open Offside.Statement.Parser (bound countBlock)

/-- Runs a reader of tokens. -/
def read {α : Type} (r : Counting Cursor α) : Counting State α := fun (s, k) =>
  match r (s.cursor, k) with
  | .ok a (cursor, k) => .ok a ({ s with cursor }, k)
  | .error h (cursor, k) => .error h ({ s with cursor }, k)

/-- The counters say what surrounds the parser. -/
instance : MonadNesting (Counting Cursor) (Counting State) where
  read scope limit p := read (p (Expression.parse limit scope))
  inFunction _ := do
    let k ← counters
    pure (decide (0 < k.funcDepth))
  body block ctx := counted .enterFunction .leaveFunction (block ctx)

/-- A parser of blocks, given the scopes around their own. -/
abbrev BlockParser := Chain → Counting State (List Stmt)

/-- Parses a statement under a limit. -/
def statement (limit : Nat) (rules : RuleSet) (outer : Chain) (block : BlockParser) : Counting State Stmt :=
  Offside.Statement.statement { rules, outer } limit fun ctx => block ctx.outer

/-- Parses a block under a limit. The fuel is a bound on how deep it can nest. -/
def blockFor (limit : Nat) (rules : RuleSet) : (fuel : Nat) → BlockParser
  | 0, _ => fun s => .error .crash s
  | fuel + 1, outer => do
    Statement.blockStart
    deeper (·.cursor.cur) limit (counted .enterBlock .leaveBlock do
      let k ← counters
      countBlock k.blockDepth
      let fuel' ← bound
      Statement.statements (statement limit rules outer (blockFor limit rules fuel)) true fuel')

/-- Parses a block under a limit. One can go no deeper than to the limit, so the fuel never runs out. -/
def block (limit : Nat) (rules : RuleSet) : BlockParser := blockFor limit rules (limit + 1)

/-- Parses a whole program. -/
def program (limit : Nat) (rules : RuleSet) : Counting State (List Stmt) := do
  let fuel ← bound
  Statement.statements (statement limit rules [] (block limit rules)) false fuel

end Counting.Statement

end Offside
