import Offside.Parser.Statement
import Offside.Lexer.OnDemand
import Offside.Log

/-!
# Compiling

From a source to a program: its tokens are read, its statements parsed and its names resolved. Any
failure ends the compilation. Beside the result a compilation leaves a trace, from which its log is
made.
-/

namespace Offside

namespace Compile

/-- How deep blocks and expressions may nest unless another limit is asked for. -/
def defaultMaxDepth : Nat := 200

/-- What a compilation depends on beside the source. -/
structure Options where
  rules : RuleSet := []
  tabWidth : Int := Scanner.defaultTabWidth
  maxDepth : Nat := defaultMaxDepth
deriving Repr, DecidableEq

/-- The limit that a request for one has: one that is not positive is ignored. -/
def effectiveMaxDepth (asked : Option Int) : Nat :=
  match asked with
  | some d => if 0 < d then d.toNat else defaultMaxDepth
  | none => defaultMaxDepth

/-- What a compilation has counted. The tokens are those that the scan has noted down. -/
structure Telemetry where
  tokens : Nat
  statements : Nat
  scopes : Nat
  maxBlockDepth : Nat
deriving Repr, DecidableEq

/-- What a successful compilation gives. -/
structure Output where
  program : Program
  telemetry : Telemetry
deriving Repr

/-- How far a compilation got. -/
structure Trace where
  /-- The statements begun, in order. -/
  marks : List Statement.Mark := []
  /-- How many tokens were still to come when it ended. -/
  unread : Nat := 0
deriving Repr

/-- Attaches the source to a report. -/
def withSource (source : Text) : Halt → Halt
  | .report d => .report (d.withSource source)
  | h => h

/-- Parses the tokens of a scan. -/
def parseTokens (o : Options) (run : Scanner.Run) : Except Halt Output × Trace :=
  match run.tokens with
  | [] => (.error (run.halt.getD .crash), {})
  | t :: rest =>
    let start : Statement.State := { cursor := { cur := t, rest, halt := run.halt } }
    match Statement.program o.rules o.maxDepth start with
    | .ok statements s =>
      (.ok
        { program := { statements, scope := s.frame }
          telemetry :=
            { tokens := (Scanner.Stats.ofEvents run.events).tokens
              statements := s.tally.statements
              scopes := s.tally.scopes
              maxBlockDepth := s.tally.maxBlockDepth } },
        { marks := s.marks.reverse, unread := s.cursor.rest.length })
    | .error h s => (.error h, { marks := s.marks.reverse, unread := s.cursor.rest.length })

/-- Compiles a source and keeps the trace. -/
def run (o : Options) (source : Text) : Except Halt Output × Trace :=
  match parseTokens o (tokenize source o.tabWidth) with
  | (.ok out, trace) => (.ok out, trace)
  | (.error h, trace) => (.error (withSource source h), trace)

/-! ## The log of a compilation -/

/-- What is logged. -/
inductive Verbosity where
  /-- Failures only. -/
  | failures
  /-- Statements as well. -/
  | statements
  /-- Statements and what the scanner notes down. -/
  | tokens
deriving Repr, DecidableEq

/-- The record of a statement. -/
def statementRecord (m : Statement.Mark) : Log.Record :=
  { message := "statement"
    attributes := [("token", .text m.token.describe), ("scope_depth", .int m.depth)] }

/-- The record of a failure. -/
def failureRecord (d : Diagnostic) : Log.Record :=
  { message := "compile failed", attributes := [("error", .text d.message)] }

/-- How many tokens had been asked for once a statement had begun: one that begins with a name looks
at the token behind it. -/
def askedAt (total : Nat) (m : Statement.Mark) : Nat :=
  let asked := total - m.unread
  if m.token.kind = .identifier then asked + 1 else asked

/-- Merges the records of statements into those of the scan, of which `total` is the number of
tokens: each stands where its first token has been read. Gives also the steps that no statement has
asked for. -/
def mergeRecords (total : Nat) (a : Scanner.Ahead) :
    List Statement.Mark → List Log.Record × Scanner.Ahead
  | [] => ([], a)
  | m :: marks =>
    let (before, a) := a.until (total - m.unread)
    let (after, a) := a.until (askedAt total m)
    let (records, a) := mergeRecords total a marks
    (Log.ofEvents .full before ++ statementRecord m :: Log.ofEvents .full after ++ records, a)

/-- The records of the scan and of the statements: all of the scan if the compilation ended well or
because of the scan, else those up to the last token asked for. -/
def detailedRecords (scan : Scanner.Run) (ended : Bool) (trace : Trace) : List Log.Record :=
  let total := scan.tokens.length
  let (records, a) := mergeRecords total { steps := scan.steps } trace.marks
  let last := if ended then a.steps.flatMap Scanner.Step.events else (a.until (total - trace.unread)).1
  records ++ Log.ofEvents .full last

/-- The log of a compilation. -/
def log (v : Verbosity) (o : Options) (source : Text) : List Log.Record :=
  let scan := tokenize source o.tabWidth
  let (result, trace) := parseTokens o scan
  let ended := match result with
    | .ok _ => true
    | .error h => scan.halt == some h
  let steps := match v with
    | .failures => []
    | .statements => trace.marks.map statementRecord
    | .tokens => detailedRecords scan ended trace
  let failure := match result with
    | .error (.report d) => [failureRecord d]
    | _ => []
  steps ++ failure

end Compile

/-- Compiles a source. -/
def compile (o : Compile.Options) (source : Text) : Except Halt Compile.Output :=
  (Compile.run o source).1

/-! ## The scopes of a program -/

/-- A scope of a program, as seen when the whole program has been read. -/
structure ScopeView where
  /-- The statement that the scope belongs to. -/
  owner : Text
  depth : Nat
  frame : Frame
  /-- Every name that is visible in it, nearest first. -/
  names : List Text
deriving Repr

mutual

/-- The scopes of a statement, outer ones first. -/
def Stmt.scopes (outer : Chain) : Stmt → List ScopeView
  | .forRange name _ _ _ body scope =>
    ⟨"for " ++ name, outer.length, scope, Chain.names (scope :: outer)⟩ ::
      Stmt.scopesAll (scope :: outer) body
  | .define name _ body scope =>
    ⟨"def " ++ name, outer.length, scope, Chain.names (scope :: outer)⟩ ::
      Stmt.scopesAll (scope :: outer) body
  | .ifChain clauses => Clause.scopesAll outer clauses
  | .whileLoop _ body => Stmt.scopesAll outer body
  | .block body => Stmt.scopesAll outer body
  | _ => []

/-- The scopes of statements. -/
def Stmt.scopesAll (outer : Chain) : List Stmt → List ScopeView
  | [] => []
  | s :: ss => s.scopes outer ++ Stmt.scopesAll outer ss

/-- The scopes of clauses. -/
def Clause.scopesAll (outer : Chain) : List Clause → List ScopeView
  | [] => []
  | .mk _ body :: rest => Stmt.scopesAll outer body ++ Clause.scopesAll outer rest

end

/-- The scopes of a program, in the order of the source. -/
def Program.scopes (p : Program) : List ScopeView := Stmt.scopesAll [p.scope] p.statements

end Offside
