import Offside.Tree.Basic

/-!
# JavaScript

The JavaScript text of trees. Parentheses of the source are kept; others are added only where
JavaScript would group the operands differently. A tree that lacks a required child, or has an
operator that does not exist, has no text.
-/

namespace Offside

/-- Whether a byte does not stand for itself between single quotes. -/
def needsEscape (b : UInt8) : Bool := b == 39 || b == 92

/-- A text as a JavaScript string between single quotes. Unless something has to be escaped, it is copied
as it stands. -/
def quoteJavaScript (s : Text) : Text :=
  let body :=
    if s.any needsEscape then s.flatMap fun b => if needsEscape b then [92, b] else [b]
    else s
  "'" ++ body ++ "'"

namespace BinaryOp

/-- The JavaScript spelling of the operator. -/
def symbol? : BinaryOp → Option Text
  | power => some "**"
  | multiply => some "*"
  | divide => some "/"
  | modulo => some "%"
  | add => some "+"
  | subtract => some "-"
  | lesser => some "<"
  | greater => some ">"
  | lesserEquals => some "<="
  | greaterEquals => some ">="
  | equals => some "==="
  | notEquals => some "!=="
  | and => some "&&"
  | or => some "||"
  | other _ => none

/-- How tightly the operator binds in JavaScript. -/
def precedence : BinaryOp → Nat
  | power => 13
  | multiply | divide | modulo => 12
  | add | subtract => 11
  | lesser | greater | lesserEquals | greaterEquals => 9
  | equals | notEquals => 8
  | and => 4
  | or => 3
  | other _ => 0

end BinaryOp

namespace Expr

/-- A text, in parentheses if need be. -/
def enclosed (need : Bool) (s : Text) : Text := if need then "(" ++ s ++ ")" else s

/-- Whether an operand of `op` is put in parentheses. -/
def unaryNeeds (op : UnaryOp) : Expr → Bool
  | .binary .. => true
  | .unary op' _ => op' == op
  | _ => false

/-- Whether a left operand of `op` is put in parentheses. -/
def leftNeeds (op : BinaryOp) : Expr → Bool
  | .binary op' _ _ =>
    op'.precedence < op.precedence || (op == .power && op'.precedence == op.precedence)
  | .unary .. => op == .power
  | _ => false

/-- Whether a right operand of `op` is put in parentheses. -/
def rightNeeds (op : BinaryOp) : Expr → Bool
  | .binary op' _ _ =>
    op'.precedence < op.precedence || (op'.precedence == op.precedence && op != .power)
  | _ => false

/-- Whether the operand of a length is put in parentheses; `5.length` could not be read. -/
def lengthNeeds : Expr → Bool
  | .binary .. | .unary .. => true
  | .literal .number _ => true
  | _ => false

/-- A literal. -/
def renderLiteral (kind : LiteralKind) (text : Text) : Text :=
  match kind with
  | .string => quoteJavaScript text
  | .boolean => if text = "True" then "true" else "false"
  | .null => "null"
  | .number | .other _ => text

/-- A unary operator before its operand. -/
def renderUnary (op : UnaryOp) (operand : Text) : Text :=
  match op with
  | .negate => "-" ++ operand
  | .not => "!" ++ operand
  | .other _ => operand

mutual

/-- The JavaScript text of an expression. -/
def render : Expr → Option Text
  | .absent => none
  | .literal kind text => some (renderLiteral kind text)
  | .atom text => some text
  | .atomOf inner => do
    let inner ← inner.render
    some ("(" ++ inner ++ ")")
  | .enclosure inner => do
    let inner ← inner.render
    some ("(" ++ inner ++ ")")
  | .unary op operand => do
    let text ← operand.render
    some (renderUnary op (enclosed (unaryNeeds op operand) text))
  | .binary op left right => do
    let symbol ← op.symbol?
    let leftText ← left.render
    let rightText ← right.render
    some (enclosed (leftNeeds op left) leftText ++ " " ++ symbol ++ " " ++
      enclosed (rightNeeds op right) rightText)
  | .access name quoted => some (if quoted then quoteJavaScript name else name)
  | .call name args => do
    let args ← renderAll args
    some (name ++ "(" ++ Text.join "," args ++ ")")
  | .sequence items => do
    let items ← renderAll items
    some (Text.join "," items)
  | .list items => do
    let items ← renderAll items
    some ("[" ++ Text.join "," items ++ "]")
  | .length operand => do
    let text ← operand.render
    some (enclosed (lengthNeeds operand) text ++ ".length")

/-- The JavaScript texts of expressions. -/
def renderAll : List Expr → Option (List Text)
  | [] => some []
  | x :: xs => do
    let text ← x.render
    let texts ← renderAll xs
    some (text :: texts)

end

end Expr

/-- Whether a loop over a range goes on: upwards below the bound when the step is not negative,
downwards above it otherwise. -/
def rangeCheck : Text := "(function(n,r,t)\x7breturn 0<=t?n<r:r<n\x7d)"

/-- The value of a return. Several values make an array. -/
def renderReturned : Option Expr → Option Text
  | none => some "return;"
  | some (.sequence items) => do
    let items ← Expr.renderAll items
    some ("return [" ++ Text.join "," items ++ "];")
  | some x => do
    let text ← x.render
    some ("return " ++ text ++ ";")

mutual

/-- The JavaScript text of a statement. -/
def Stmt.render : Stmt → Option Text
  | .expression x => x.render
  | .assign name value declared => do
    let value ← value.render
    let keyword : Text := if declared then [] else "let "
    some (keyword ++ name ++ " = " ++ value)
  | .ifChain clauses => Clause.renderChain clauses
  | .whileLoop test body => do
    let test ← test.render
    let body ← Stmt.renderAll body
    some ("while (" ++ test ++ ")\x7b" ++ Text.join ";" body ++ "\x7d")
  | .forRange name start stop step body _ => do
    let step ← step.render
    let start ← start.render
    let stop ← stop.render
    let body ← Stmt.renderAll body
    some ("for (let " ++ name ++ "=" ++ start ++ ";" ++
      rangeCheck ++ "(" ++ name ++ "," ++ stop ++ "," ++ step ++ ");" ++
      name ++ "+=" ++ step ++ ")\x7b" ++ Text.join ";" body ++ "\x7d")
  | .define name params body _ => do
    let body ← Stmt.renderAll body
    some ("function " ++ name ++ "(" ++ Text.join "," params ++ ")\x7b" ++ Text.join ";" body ++
      "\x7d")
  | .ret value => renderReturned value
  | .print args => do
    let args ← Expr.renderAll args
    some ("console.log(" ++ Text.join "," args ++ ")")
  | .block body => do
    let body ← Stmt.renderAll body
    some (Text.join ";" body)

/-- The JavaScript texts of statements. -/
def Stmt.renderAll : List Stmt → Option (List Text)
  | [] => some []
  | s :: ss => do
    let text ← s.render
    let texts ← Stmt.renderAll ss
    some (text :: texts)

/-- The JavaScript text of a conditional. Its first clause has a condition. -/
def Clause.renderChain : List Clause → Option Text
  | [] => some []
  | .mk none _ :: _ => none
  | .mk (some cond) body :: rest => do
    let cond ← cond.render
    let body ← Stmt.renderAll body
    let rest ← Clause.renderRest rest
    some ("if (" ++ cond ++ ") \x7b " ++ Text.join ";" body ++ " \x7d" ++ rest)

/-- The JavaScript text of the clauses after the first. -/
def Clause.renderRest : List Clause → Option Text
  | [] => some []
  | .mk none body :: rest => do
    let body ← Stmt.renderAll body
    let rest ← Clause.renderRest rest
    some ("else \x7b" ++ Text.join ";" body ++ "\x7d" ++ rest)
  | .mk (some cond) body :: rest => do
    let cond ← cond.render
    let body ← Stmt.renderAll body
    let rest ← Clause.renderRest rest
    some ("else if (" ++ cond ++ ") \x7b" ++ Text.join ";" body ++ "\x7d" ++ rest)

end

/-- The JavaScript text of a list of statements. -/
def renderBody (body : List Stmt) : Option Text := (Stmt.renderAll body).map (Text.join ";")

/-- The JavaScript text of a node. -/
def Node.render : Node → Option Text
  | .absent => none
  | .expr x => x.render
  | .stmt s => s.render

/-- The JavaScript text of a program. -/
def Program.render (p : Program) : Option Text := renderBody p.statements

end Offside
