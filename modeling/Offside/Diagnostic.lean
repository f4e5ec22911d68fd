import Offside.Text.Basic

/-!
# Diagnostics

A diagnostic says what went wrong and where: its kind, the reason in words, the position and the text
of the offending token, the names that may have been meant, and further facts under a key. `message`
is the one-line form; `detail?` adds the source line with a caret under the column.
-/

namespace Offside

/-- The category of a failed compilation or evaluation. -/
inductive Diagnostic.Kind where
  | syntaxError
  | indentationError
  | compilationError
  | nameError
  | zeroDivisionError
  | unknownTokenError
  | typeError
  | notImplementedError
  | custom (name : Text)
deriving Repr, DecidableEq

namespace Diagnostic.Kind

/-- The name that messages begin with. -/
def name : Kind → Text
  | syntaxError => "SyntaxError"
  | indentationError => "IndentationError"
  | compilationError => "CompilationError"
  | nameError => "NameError"
  | zeroDivisionError => "ZeroDivisionError"
  | unknownTokenError => "UnknownTokenError"
  | typeError => "TypeError"
  | notImplementedError => "NotImplementedError"
  | custom name => name

/-- The kinds that the compiler and the evaluator report. -/
def builtin : List Kind :=
  [syntaxError, indentationError, compilationError, nameError, zeroDivisionError, unknownTokenError,
    typeError, notImplementedError]

/-- The kind with the given name. -/
def ofName (name : Text) : Kind := (builtin.find? (·.name == name)).getD (custom name)

end Diagnostic.Kind

/-- A fact attached to a diagnostic. -/
inductive Diagnostic.Fact where
  | text (t : Text)
  | int (n : Int)
deriving Repr, DecidableEq

/-- What went wrong, and where. Line and column count from 1; a line of 0 means no position. -/
structure Diagnostic where
  kind : Diagnostic.Kind
  reason : Text
  line : Int := 0
  column : Int := 0
  token : Text := []
  suggestions : List Text := []
  context : List (Text × Diagnostic.Fact) := []
  cause : Option Text := none
  source : Text := []
deriving Repr, DecidableEq

namespace Diagnostic

/-- The diagnostic at another position. -/
def moved (d : Diagnostic) (line column : Int) : Diagnostic := { d with line, column }

/-- The diagnostic with the offending text. -/
def withToken (d : Diagnostic) (token : Text) : Diagnostic := { d with token }

/-- The diagnostic with a fact under a key, in place of an earlier one under that key. -/
def withFact (d : Diagnostic) (key : Text) (fact : Fact) : Diagnostic :=
  { d with context := d.context.filter (·.1 ≠ key) ++ [(key, fact)] }

/-- The diagnostic with the source that it is about. -/
def withSource (d : Diagnostic) (source : Text) : Diagnostic := { d with source }

/-- The fact under a key. -/
def fact? (d : Diagnostic) (key : Text) : Option Fact := d.context.lookup key

/-- The one-line form. -/
def message (d : Diagnostic) : Text :=
  let position : Text :=
    if 0 < d.line then " (line " ++ Text.ofInt d.line ++ ", column " ++ Text.ofInt d.column ++ ")"
    else []
  let hint : Text :=
    if d.suggestions.isEmpty then []
    else "; did you mean '" ++ Text.join "', '" d.suggestions ++ "'?"
  let cause : Text :=
    match d.cause with
    | some c => " (caused by: " ++ c ++ ")"
    | none => []
  d.kind.name ++ ": " ++ d.reason ++ position ++ hint ++ cause

/-- A line number, at least two columns wide. -/
def lineNumber (n : Int) : Text :=
  let digits := Text.ofInt n
  Text.repeated " " (2 - digits.length) ++ digits

/-- The source line, with a caret under the column when it lies on the line or just behind it. -/
def excerpt (d : Diagnostic) (line : Text) : Text :=
  let caret : Text :=
    if 0 < d.column ∧ d.column ≤ line.length + 1 then
      Text.repeated " " (d.column - 1).toNat ++ "^"
    else []
  "  --> " ++ Text.ofInt d.line ++ ":" ++ Text.ofInt d.column ++ "\n" ++
    "   |\n" ++
    lineNumber d.line ++ " | " ++ line ++ "\n" ++
    "   | " ++ caret

/-- The message, and below it the excerpt when source and line are known. There is none for a source
and a negative line. -/
def detail? (d : Diagnostic) : Option Text :=
  if d.source = [] ∨ d.line = 0 then some d.message
  else if d.line < 0 then none
  else
    match (Text.split 10 d.source)[(d.line - 1).toNat]? with
    | none => some d.message
    | some line => some (d.message ++ "\n" ++ d.excerpt (Text.dropEndWhile (· == 13) line))

/-! ## The reports of the compiler and the evaluator -/

/-- A token where the grammar does not allow it. -/
def syntaxError (reason token : Text) (line column : Int) : Diagnostic :=
  { kind := .syntaxError, reason, token, line, column }

/-- A line break, indentation or unindentation that is missing or does not fit. -/
def indentationError (reason token : Text) (line column : Int) : Diagnostic :=
  { kind := .indentationError, reason, token, line, column }

/-- A breach of a rule. -/
def compilationError (reason : Text) : Diagnostic := { kind := .compilationError, reason }

/-- A name that is not bound. -/
def nameError (name : Text) (line column : Int) : Diagnostic :=
  { kind := .nameError
    reason := "variable or function with name '" ++ name ++ "' is not defined"
    token := name
    context := [("name", .text name)]
    line, column }

/-- A character that starts no token. -/
def unknownTokenError (reason token : Text) (line column : Int) : Diagnostic :=
  { kind := .unknownTokenError, reason, token, line, column }

/-- A division, or another operation of that sort, by zero. -/
def zeroDivisionError (operation : Text) : Diagnostic :=
  { kind := .zeroDivisionError, reason := operation ++ " by zero" }

/-- Operands of types that an operator does not take. -/
def typeError (reason : Text) : Diagnostic := { kind := .typeError, reason }

/-- A construct that can be compiled but not evaluated. -/
def notImplementedError (construct : Text) : Diagnostic :=
  { kind := .notImplementedError
    reason := construct ++ " cannot be evaluated"
    context := [("node", .text construct)] }

end Diagnostic

/-- Why a computation ended early. -/
inductive Halt where
  /-- It reported a diagnostic. -/
  | report (d : Diagnostic)
  /-- It failed with a message only. -/
  | plain (message : Text)
  /-- It met a state that its data should never be in. -/
  | crash
  /-- It goes on for ever. -/
  | endless
deriving Repr, DecidableEq

/-- A failure with the failures behind it. -/
inductive Failure where
  | plain (message : Text)
  | wrapped (message : Text) (cause : Failure)
  | diagnosed (d : Diagnostic)
  | diagnosedBy (d : Diagnostic) (cause : Failure)
deriving Repr

namespace Failure

/-- The message of the whole chain. -/
def message : Failure → Text
  | plain m => m
  | wrapped m cause => m ++ ": " ++ cause.message
  | diagnosed d => d.message
  | diagnosedBy d cause => { d with cause := some cause.message }.message

/-- The first diagnostic of the chain. -/
def diagnostic? : Failure → Option Diagnostic
  | plain _ => none
  | wrapped _ cause => cause.diagnostic?
  | diagnosed d => some d
  | diagnosedBy d cause => some { d with cause := some cause.message }

/-- Whether the chain holds a diagnostic of the kind. -/
def hasKind (k : Diagnostic.Kind) : Failure → Bool
  | plain _ => false
  | wrapped _ cause => cause.hasKind k
  | diagnosed d => d.kind == k
  | diagnosedBy d cause => d.kind == k || cause.hasKind k

end Failure

end Offside
