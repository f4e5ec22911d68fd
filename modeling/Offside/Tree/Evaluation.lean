import Offside.Tree.Basic
import Offside.Value.Arithmetic
import Offside.Tree.JavaScript

/-!
# Evaluation

The values of trees. There is no store: names have the value none, and statements that would change
or define something are reported. Since nothing changes, a loop whose test and body have been
evaluated once without end or failure never ends.
-/

namespace Offside

namespace Expr

/-- Lifts a failure of arithmetic. -/
def reported (r : Except Diagnostic Value) : Except Halt Value :=
  match r with
  | .ok v => .ok v
  | .error d => .error (.report d)

/-- The truth value that a comparison has for an order. -/
def ofOrdering (op : BinaryOp) (o : Ordering) : Except Halt Value :=
  match op with
  | .lesser => .ok (.bool (o == .lt))
  | .greater => .ok (.bool (o == .gt))
  | .lesserEquals => .ok (.bool (o != .gt))
  | .greaterEquals => .ok (.bool (o != .lt))
  | _ => .error (.plain ("unknown binary operator " ++ op.name))

/-- A comparison. An operator that does not exist has no symbol to report. -/
def compare (op : BinaryOp) (l r : Value) : Except Halt Value :=
  match op.symbol? with
  | none => .error .crash
  | some symbol =>
    match Value.order symbol l r with
    | .ok o => ofOrdering op o
    | .error d => .error (.report d)

/-- A binary operator on values. -/
def applyBinary (op : BinaryOp) (l r : Value) : Except Halt Value :=
  match op with
  | .power => reported (l.power r)
  | .multiply => reported (l.multiply r)
  | .divide => reported (l.divide r)
  | .modulo => reported (l.modulo r)
  | .add => reported (l.add r)
  | .subtract => reported (l.subtract r)
  | .equals => .ok (.bool (l.equal r))
  | .notEquals => .ok (.bool (!l.equal r))
  | _ => compare op l r

/-- A unary operator on a value. -/
def applyUnary (op : UnaryOp) (v : Value) : Except Halt Value :=
  match op with
  | .negate => reported v.negate
  | .not => .ok (.bool (!v.truthy))
  | .other _ => .error (.plain ("unknown unary operator " ++ op.name))

/-- What the left operand alone decides: `and` and `or` stop at the deciding operand. -/
def decided? (op : BinaryOp) (l : Value) : Option Bool :=
  match op with
  | .and => some (!l.truthy)
  | .or => some l.truthy
  | _ => none

/-- A binary operator on the value of its left operand and what its right operand comes to. -/
def combine (op : BinaryOp) (l : Value) (right : Except Halt Value) : Except Halt Value :=
  match decided? op l with
  | some true => .ok l
  | some false => right
  | none => do
    let r ← right
    applyBinary op l r

/-- The value of a literal. -/
def evaluateLiteral (kind : LiteralKind) (text : Text) : Except Halt Value :=
  match kind with
  | .string => .ok (.str text)
  | .number => reported (Value.readNumber text)
  | .boolean => .ok (.bool (text == ("True" : Text)))
  | .null | .other _ => .ok .none

/-- A construct that has no value. -/
def notEvaluated (construct : Text) : Except Halt Value :=
  .error (.report (.notImplementedError construct))

mutual

/-- The value of an expression. -/
def evaluate : Expr → Except Halt Value
  | .absent => .error .crash
  | .literal kind text => evaluateLiteral kind text
  | .atom text => .ok (.str text)
  | .atomOf inner => inner.evaluate
  | .enclosure inner => inner.evaluate
  | .unary op operand => do
    let v ← operand.evaluate
    applyUnary op v
  | .binary op left right => do
    let l ← left.evaluate
    combine op l right.evaluate
  | .access _ _ => .ok .none
  | .call name _ => notEvaluated ("call to " ++ name)
  | .sequence items => do
    let vs ← evaluateAll items
    .ok (.list vs)
  | .list items => do
    let vs ← evaluateAll items
    .ok (.list vs)
  | .length _ => notEvaluated "len"

/-- The values of expressions, up to the first that has none. -/
def evaluateAll : List Expr → Except Halt (List Value)
  | [] => .ok []
  | x :: xs => do
    let v ← x.evaluate
    let vs ← evaluateAll xs
    .ok (v :: vs)

end

end Expr

/-- What a loop comes to, given its test and its body: it ends when the test is exactly true. -/
def evaluateLoop (test : Except Halt Value) (body : Except Halt (List Value)) : Except Halt Value := do
  match ← test with
  | .bool true => .ok .none
  | _ => do
    let _ ← body
    .error .endless

mutual

/-- The value of a statement. -/
def Stmt.evaluate : Stmt → Except Halt Value
  | .expression x => x.evaluate
  | .assign .. => Expr.notEvaluated "assignment"
  | .ifChain clauses => Clause.evaluateChain clauses
  | .whileLoop test body => evaluateLoop test.evaluate (Stmt.evaluateAll body)
  | .forRange .. => Expr.notEvaluated "for loop"
  | .define .. => Expr.notEvaluated "function definition"
  | .ret _ => Expr.notEvaluated "return"
  | .print _ => Expr.notEvaluated "print"
  | .block body => do
    let vs ← Stmt.evaluateAll body
    .ok (.list vs)

/-- The values of statements, up to the first that has none. -/
def Stmt.evaluateAll : List Stmt → Except Halt (List Value)
  | [] => .ok []
  | s :: ss => do
    let v ← s.evaluate
    let vs ← Stmt.evaluateAll ss
    .ok (v :: vs)

/-- The value of a conditional: that of its first clause whose condition counts as true. -/
def Clause.evaluateChain : List Clause → Except Halt Value
  | [] => .ok .none
  | .mk none body :: _ => do
    let vs ← Stmt.evaluateAll body
    .ok (.list vs)
  | .mk (some cond) body :: rest => do
    let v ← cond.evaluate
    if v.truthy then do
      let vs ← Stmt.evaluateAll body
      .ok (.list vs)
    else Clause.evaluateChain rest

end

/-- The value of a node. -/
def Node.evaluate : Node → Except Halt Value
  | .absent => .error .crash
  | .expr x => x.evaluate
  | .stmt s => s.evaluate

/-- The values of a program, one for each statement. -/
def Program.evaluate (p : Program) : Except Halt (List Value) := Stmt.evaluateAll p.statements

end Offside
