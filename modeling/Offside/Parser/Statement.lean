import Offside.Parser.Expression

/-!
# Reading statements

Reads statements and blocks, and declares names as it goes: assignments, function names, parameters
and loop variables. The bodies of loops over ranges and of functions have scopes of their own; other
bodies declare into the scope around them.

The statements leave open how nesting is bounded: they are parsed in any monad that lifts the steps of
the parser, and that says how expressions are read and functions entered (`MonadNesting`). The parser
itself has a budget, of which each nesting uses up one level.
-/

namespace Offside.Statement

/-- What a run of the parser has counted. -/
structure Tally where
  statements : Nat := 0
  scopes : Nat := 1
  maxBlockDepth : Nat := 0
deriving Repr, DecidableEq

/-- The beginning of a statement. -/
structure Mark where
  token : Token
  /-- How many tokens were still to come. -/
  unread : Nat
  /-- How many scopes lie around the statement's own. -/
  depth : Nat
deriving Repr, DecidableEq

/-- Where a parser stands. -/
structure State where
  cursor : Cursor
  /-- The names declared so far in the innermost scope. -/
  frame : Frame := []
  tally : Tally := {}
  /-- The statements begun so far, latest first. -/
  marks : List Mark := []
deriving Repr, DecidableEq

/-- What surrounds a statement. -/
structure Context where
  rules : RuleSet := []
  /-- The scopes around the innermost one. -/
  outer : Chain := []
  /-- How many blocks are open. -/
  blockDepth : Nat := 0
  inFunction : Bool := false
deriving Repr, DecidableEq

/-- A parser of statements. -/
abbrev Parser := EStateM Halt State

/-- A parser of blocks. -/
abbrev BlockParser (m : Type → Type) := Context → m (List Stmt)

namespace Parser

/-- Runs a reader of tokens. -/
def read {α : Type} (r : Reader α) : Parser α := fun s =>
  match r s.cursor with
  | .ok a cursor => .ok a { s with cursor }
  | .error h cursor => .error h { s with cursor }

/-- The current token. -/
def current : Parser Token := read Reader.current

/-- Goes on to the next token. -/
def advance : Parser Unit := read Reader.advance

/-- Goes past the current token if it is the right one. -/
def expect (is : Token → Bool) (what : Text) : Parser Unit := read (Reader.expect is what)

/-- Reports a diagnostic. -/
def fail {α : Type} (d : Diagnostic) : Parser α := read (Reader.fail d)

/-- A bound on how often the parser can go on from here. -/
def bound : Parser Nat := read Reader.bound

/-- The names declared in the innermost scope. -/
def frame : Parser Frame := fun s => .ok s.frame s

/-- Declares a name in the innermost scope. A rule against it is reported at the token. -/
def declare (rules : RuleSet) (r : Reference) (t : Token) : Parser Unit := fun s =>
  match s.frame.push rules [r] with
  | .ok frame => .ok () { s with frame }
  | .error d => .error (.report (d.moved t.line t.column)) s

/-- Declares a name unless the innermost scope holds it already. -/
def declareOnce (rules : RuleSet) (r : Reference) (t : Token) : Parser Unit := do
  let f ← frame
  if f.holds r.name then pure () else declare rules r t

/-- Notes down that a statement begins. -/
def mark (ctx : Context) : Parser Unit := fun s =>
  let m : Mark :=
    { token := s.cursor.cur, unread := s.cursor.rest.length, depth := ctx.outer.length }
  .ok () { s with marks := m :: s.marks }

/-- Counts a statement. -/
def countStatement : Parser Unit := fun s =>
  .ok () { s with tally := { s.tally with statements := s.tally.statements + 1 } }

/-- Takes note of the depth of a block. -/
def countBlock (depth : Nat) : Parser Unit := fun s =>
  .ok () { s with tally := { s.tally with maxBlockDepth := max s.tally.maxBlockDepth depth } }

/-- Opens a scope. Gives the names of the one around it. -/
def enterScope : Parser Frame := fun s =>
  .ok s.frame { s with frame := [], tally := { s.tally with scopes := s.tally.scopes + 1 } }

/-- Goes back to the scope around the innermost one. Gives the names of the innermost one. -/
def leaveScope (outer : Frame) : Parser Frame := fun s => .ok s.frame { s with frame := outer }

end Parser

open Offside.Statement.Parser

/-! ## Nesting -/

/-- What becomes of nesting in a monad `m` of parsers that read expressions in the monad `r`. -/
class MonadNesting (r : outParam (Type → Type)) (m : Type → Type) where
  /-- Runs a reader, given the readers for expressions that see the scopes and nest within a limit. -/
  read {α : Type} : Chain → Nat → (Expression.Nested r → r α) → m α
  /-- Whether a function surrounds the parser. -/
  inFunction : Context → m Bool
  /-- Parses a block as the body of a function. -/
  body : BlockParser m → BlockParser m

/-- With a budget, the context says what surrounds the parser. -/
instance : MonadNesting Reader Parser where
  read scope budget p := read (p (Expression.parse scope budget))
  inFunction ctx := pure ctx.inFunction
  body block ctx := block { ctx with inFunction := true }

section
variable {r m : Type → Type} [Monad r] [MonadLiftT Reader r] [Monad m] [MonadLiftT Parser m] [MonadNesting r m]

/-- Runs a parser in a new scope. Gives the names declared there as well. -/
def inScope {α : Type} (p : m α) : m (α × Frame) := do
  let outer ← enterScope
  let a ← p
  let declared ← leaveScope outer
  pure (a, declared)

/-- The report for a construct that a rule turns off. -/
def disabled (what : Text) (c : Construct) (t : Token) : Diagnostic :=
  ((Diagnostic.compilationError (what ++ " is disabled")).moved t.line t.column).withFact "rule"
    (.text (Policy.disable c).name)

/-- Reports a construct if a rule turns it off. -/
def permit (ctx : Context) (what : Text) (c : Construct) : Parser Unit := do
  let t ← current
  if ctx.rules.disabled c then fail (disabled what c t) else pure ()

/-- Parses an expression. -/
def expression (ctx : Context) (limit : Nat) : m Expr := do
  let f ← frame
  MonadNesting.read (f :: ctx.outer) limit fun nested => nested .expr

/-- Parses one or more expressions with commas between them. -/
def expressions (ctx : Context) (limit : Nat) : m (List Expr) := do
  let f ← frame
  MonadNesting.read (f :: ctx.outer) limit fun nested => Expression.items (nested .expr)

/-! ## Statements on one line -/

/-- Ends a statement on one line. -/
def endOfLine : Parser Unit := do
  let t ← current
  match t.kind with
  | .newline => advance
  | .eof => pure ()
  | _ => fail t.invalid

/-- Several values make a sequence. -/
def sequenceOf : List Expr → Expr
  | [x] => x
  | xs => .sequence xs

/-- Parses a return. -/
def returnStatement (ctx : Context) (limit : Nat) : m Stmt := do
  let t ← current
  let inside ← MonadNesting.inFunction ctx
  if inside then
    advance
    let next ← current
    if next.kind = .newline ∨ next.kind = .eof then pure (.ret none)
    else
      let xs ← expressions ctx limit
      pure (.ret (some (sequenceOf xs)))
  else fail (t.unexpected "'return' outside function")

/-- Parses arguments up to a closing parenthesis that is not read. -/
def arguments (ctx : Context) (limit : Nat) : m (List Expr) := do
  let t ← current
  if t.isBracket .roundClose then pure [] else expressions ctx limit

/-- Parses a print. -/
def printStatement (ctx : Context) (limit : Nat) : m Stmt := do
  permit ctx "Print" .print
  advance
  expect (·.isBracket .roundOpen) "'('"
  let args ← arguments ctx limit
  expect (·.isBracket .roundClose) "')'"
  pure (.print args)

/-- Parses an assignment. The name is declared after its value has been read. -/
def assignment (ctx : Context) (limit : Nat) : m Stmt := do
  let t ← current
  advance
  advance
  let value ← expression ctx limit
  let f ← frame
  let declared := Chain.sees (f :: ctx.outer) t.literal
  declareOnce ctx.rules { name := t.literal, declared } t
  pure (.assign t.literal value declared)

/-! ## Statements with blocks -/

/-- Parses the clauses of a conditional, the current token being that of the first. -/
def clauses (cond : m Expr) (block : m (List Stmt)) : (fuel : Nat) → m (List Clause)
  | 0 => pure []
  | fuel + 1 => do
    advance
    let x ← cond
    let body ← block
    let t ← current
    if t.isKeyword .elif then
      let rest ← clauses cond block fuel
      pure (.mk (some x) body :: rest)
    else if t.isKeyword .else_ then
      advance
      let last ← block
      pure [.mk (some x) body, .mk none last]
    else pure [.mk (some x) body]

/-- Parses a conditional. -/
def ifStatement (ctx : Context) (limit : Nat) (block : BlockParser m) : m Stmt := do
  permit ctx "If statement" .ifStatement
  let cs ← clauses (expression ctx limit) (block ctx) (← bound)
  pure (.ifChain cs)

/-- Parses a loop with a test. -/
def whileStatement (ctx : Context) (limit : Nat) (block : BlockParser m) : m Stmt := do
  permit ctx "While statement" .whileStatement
  advance
  let test ← expression ctx limit
  let body ← block ctx
  pure (.whileLoop test body)

/-- The report for a range with the wrong number of arguments; `t` is its parenthesis. -/
def rangeArguments (count : Nat) (t : Token) : Diagnostic :=
  (Diagnostic.syntaxError "range expected 1 to 3 arguments" "range" t.line t.column).withFact
    "arguments" (.int count)

/-- The start, stop and step of a range. It starts at 0 and goes up by 1 unless it says otherwise. -/
def rangeOf? : List Expr → Option (Expr × Expr × Expr)
  | [stop] => some (.ofInt 0, stop, .ofInt 1)
  | [start, stop] => some (start, stop, .ofInt 1)
  | [start, stop, step] => some (start, stop, step)
  | _ => none

/-- What surrounds the body of a new scope inside the innermost one. -/
def Context.inner (ctx : Context) (f : Frame) : Context := { ctx with outer := f :: ctx.outer }

/-- Parses a loop over a range. Its arguments belong to the scope around the loop. -/
def forStatement (ctx : Context) (limit : Nat) (block : BlockParser m) : m Stmt := do
  permit ctx "For statement" .forStatement
  advance
  let variable_ ← current
  if variable_.kind = .identifier then
    let name := variable_.literal
    advance
    expect (·.isOperator .in_) "'in'"
    expect (·.isKeyword .range) "'range'"
    let opening ← current
    expect (·.isBracket .roundOpen) "'('"
    let args ← arguments ctx limit
    match rangeOf? args with
    | none => fail (rangeArguments args.length opening)
    | some (start, stop, step) =>
      expect (·.isBracket .roundClose) "')'"
      let f ← frame
      let (body, scope) ← inScope do
        declare ctx.rules { name } (← current)
        block (ctx.inner f)
      pure (.forRange name start stop step body scope)
  else fail (variable_.notExpected "a loop variable")

/-- Parses parameters up to a closing parenthesis that is not read, declaring each. -/
def parameters (rules : RuleSet) : (fuel : Nat) → (first : Bool) → Parser (List Text)
  | 0, _ => pure []
  | fuel + 1, first => do
    let t ← current
    if t.isBracket .roundClose then pure []
    else
      if first then pure () else expect (·.isDelimiter .comma) "',' or ')'"
      let t ← current
      if t.kind = .identifier then
        let f ← frame
        if f.holds t.literal then
          fail (t.unexpected ("duplicate argument '" ++ t.literal ++ "' in function definition"))
        else
          declare rules { name := t.literal } t
          advance
          let rest ← parameters rules fuel false
          pure (t.literal :: rest)
      else fail (t.notExpected "a parameter name")

/-- Parses a function. Its name is declared before its body is read, so the body may call it. -/
def defStatement (ctx : Context) (block : BlockParser m) : m Stmt := do
  permit ctx "Function definition" .functionDefinition
  advance
  let t ← current
  if t.kind = .identifier then
    declareOnce ctx.rules { name := t.literal, kind := .function } t
    advance
    expect (·.isBracket .roundOpen) "'('"
    let f ← frame
    let ((params, body), scope) ← inScope do
      let params ← parameters ctx.rules (← bound) true
      advance
      let body ← MonadNesting.body block (ctx.inner f)
      pure (params, body)
    pure (.define t.literal params body scope)
  else fail (t.notExpected "a function name")

/-! ## Statements and blocks -/

/-- Parses the statement that begins with a name: an assignment or an expression. -/
def nameStatement (ctx : Context) (limit : Nat) : m Stmt := do
  let next ← read Reader.peek
  if next.isOperator .assign then assignment ctx limit
  else
    let x ← expression ctx limit
    pure (.expression x)

/-- Parses a statement on one line and the end of the line. -/
def onOneLine (p : m Stmt) : m Stmt := do
  let s ← p
  endOfLine
  pure s

/-- Parses a statement. -/
def statement (ctx : Context) (limit : Nat) (block : BlockParser m) : m Stmt := do
  mark ctx
  let t ← current
  match t.kind, t.subtype with
  | .keyword, .keyword .return_ => onOneLine (returnStatement ctx limit)
  | .keyword, .keyword .if_ => ifStatement ctx limit block
  | .keyword, .keyword .for_ => forStatement ctx limit block
  | .keyword, .keyword .while_ => whileStatement ctx limit block
  | .keyword, .keyword .def_ => defStatement ctx block
  | .keyword, .keyword .print => onOneLine (printStatement ctx limit)
  | .identifier, _ => onOneLine (nameStatement ctx limit)
  | _, _ => onOneLine do
    let x ← expression ctx limit
    pure (.expression x)

/-- Parses statements up to the end of the source, or up to the end of their block. -/
def statements (one : m Stmt) (inBlock : Bool) : (fuel : Nat) → m (List Stmt)
  | 0 => pure []
  | fuel + 1 => do
    let t ← current
    match t.kind with
    | .eof => if inBlock then fail (t.misplaced "expected a dedent") else pure []
    | .dedent =>
      if inBlock then
        advance
        pure []
      else fail (t.misplaced "unexpected dedent")
    | .indent => fail (t.misplaced "unexpected indent")
    | .newline =>
      advance
      statements one inBlock fuel
    | _ =>
      let s ← one
      countStatement
      let rest ← statements one inBlock fuel
      pure (s :: rest)

/-- Parses what stands between the head of a block and its first statement. -/
def blockStart : Parser Unit := do
  expect (·.isDelimiter .colon) "':'"
  let t ← current
  if t.kind = .newline then
    advance
    let t ← current
    if t.kind = .indent then advance else fail (t.misplaced "expected an indented block")
  else fail (t.misplaced "expected a newline")

end

/-- Parses a block with the given budget for nesting. -/
def block : (budget : Nat) → BlockParser Parser
  | 0, _ => do
    blockStart
    let t ← current
    fail t.tooDeep
  | budget + 1, ctx => do
    blockStart
    let ctx := { ctx with blockDepth := ctx.blockDepth + 1 }
    countBlock ctx.blockDepth
    statements (statement ctx budget (block budget)) true (← bound)

/-- Parses a whole program. -/
def program (rules : RuleSet) (budget : Nat) : Parser (List Stmt) := do
  statements (statement { rules } budget (block budget)) false (← bound)

end Offside.Statement
