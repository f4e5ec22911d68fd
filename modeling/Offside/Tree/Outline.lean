import Offside.Tree.Basic

/-!
# Outlines

The outline of a tree: one line for each node, indented by two spaces for each node above it.
-/

namespace Offside

/-- A line of an outline. -/
def outlineLine (depth : Nat) (s : Text) : Text := Text.repeated "  " depth ++ s

mutual

/-- The lines of an expression. -/
def Expr.outline (depth : Nat) : Expr → List Text
  | .absent => [outlineLine depth "<nil>"]
  | .literal kind text => [outlineLine depth (kind.name ++ " " ++ text)]
  | .atom text => [outlineLine depth ("Atom " ++ text)]
  | .atomOf inner =>
    outlineLine depth "Atom" :: outlineLine (depth + 1) "Enclosure" :: inner.outline (depth + 2)
  | .enclosure inner => outlineLine depth "Enclosure" :: inner.outline (depth + 1)
  | .unary op operand => outlineLine depth op.name :: operand.outline (depth + 1)
  | .binary op left right =>
    outlineLine depth op.name :: (left.outline (depth + 1) ++ right.outline (depth + 1))
  | .access name _ => [outlineLine depth ("Access " ++ name)]
  | .call name args => outlineLine depth ("Call " ++ name) :: Expr.outlineAll (depth + 1) args
  | .sequence items => outlineLine depth "Sequence" :: Expr.outlineAll (depth + 1) items
  | .list items => outlineLine depth "List" :: Expr.outlineAll (depth + 1) items
  | .length operand => outlineLine depth "Length" :: operand.outline (depth + 1)

/-- The lines of expressions. -/
def Expr.outlineAll (depth : Nat) : List Expr → List Text
  | [] => []
  | x :: xs => x.outline depth ++ Expr.outlineAll depth xs

end

mutual

/-- The lines of a statement. -/
def Stmt.outline (depth : Nat) : Stmt → List Text
  | .expression x => outlineLine depth "ExpressionStmt" :: x.outline (depth + 1)
  | .assign name value declared =>
    outlineLine depth ("Assign " ++ name ++ " declared=" ++ Text.ofBool declared) ::
      value.outline (depth + 1)
  | .ifChain clauses => outlineLine depth "If" :: Clause.outlineAll (depth + 1) clauses
  | .whileLoop test body =>
    outlineLine depth "While" ::
      (test.outline (depth + 1) ++ outlineLine (depth + 1) "StatementList" ::
        Stmt.outlineAll (depth + 2) body)
  | .forRange name start stop step body _ =>
    outlineLine depth ("For " ++ name) ::
      (start.outline (depth + 1) ++ stop.outline (depth + 1) ++ step.outline (depth + 1) ++
        outlineLine (depth + 1) "StatementList" :: Stmt.outlineAll (depth + 2) body)
  | .define name params body _ =>
    outlineLine depth ("FuncDef " ++ name ++ "(" ++ Text.join ", " params ++ ")") ::
      outlineLine (depth + 1) "StatementList" :: Stmt.outlineAll (depth + 2) body
  | .ret none => [outlineLine depth "Return"]
  | .ret (some x) => outlineLine depth "Return" :: x.outline (depth + 1)
  | .print args => outlineLine depth "Print" :: Expr.outlineAll (depth + 1) args
  | .block body => outlineLine depth "StatementList" :: Stmt.outlineAll (depth + 1) body

/-- The lines of statements. -/
def Stmt.outlineAll (depth : Nat) : List Stmt → List Text
  | [] => []
  | s :: ss => s.outline depth ++ Stmt.outlineAll depth ss

/-- The lines of clauses. -/
def Clause.outlineAll (depth : Nat) : List Clause → List Text
  | [] => []
  | .mk none body :: rest =>
    outlineLine depth "Else" ::
      (outlineLine (depth + 1) "StatementList" :: Stmt.outlineAll (depth + 2) body ++
        Clause.outlineAll depth rest)
  | .mk (some cond) body :: rest =>
    outlineLine depth "Clause" ::
      (cond.outline (depth + 1) ++
        (outlineLine (depth + 1) "StatementList" :: Stmt.outlineAll (depth + 2) body) ++
        Clause.outlineAll depth rest)

end

/-- The lines of a node. -/
def Node.outline : Node → List Text
  | .absent => [outlineLine 0 "<nil>"]
  | .expr x => x.outline 0
  | .stmt s => s.outline 0

/-- The outline as a text, each line ended. -/
def outlineText (lines : List Text) : Text := lines.flatMap (· ++ "\n")

/-- The lines of a program. -/
def Program.outline (p : Program) : List Text := (Stmt.block p.statements).outline 0

end Offside
