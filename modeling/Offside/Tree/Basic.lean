import Offside.Scope
import Offside.Number.Shortest

/-!
# Trees

The syntax trees of programs: expressions, statements and the clauses of conditionals. A tree that is
built by hand can lack a child that the language requires (`Expr.absent`) or carry the code of an
operator that does not exist; the trees of compiled programs never do.
-/

namespace Offside

/-- The type of a literal. -/
inductive LiteralKind where
  | string | number | boolean | null
  | other (code : Int)
deriving Repr, DecidableEq

/-- The operators with one operand. -/
inductive UnaryOp where
  | negate | not
  | other (code : Int)
deriving Repr, DecidableEq

/-- The operators with two operands. -/
inductive BinaryOp where
  | power | multiply | divide | modulo | add | subtract
  | lesser | greater | lesserEquals | greaterEquals | equals | notEquals
  | and | or
  | other (code : Int)
deriving Repr, DecidableEq

/-- An expression. -/
inductive Expr where
  /-- A child that is missing. -/
  | absent
  /-- A literal in its source spelling, a string without its quotes. -/
  | literal (kind : LiteralKind) (text : Text)
  /-- Raw text. -/
  | atom (text : Text)
  /-- An atom that stands for an expression in parentheses. -/
  | atomOf (inner : Expr)
  /-- An expression in parentheses. -/
  | enclosure (inner : Expr)
  | unary (op : UnaryOp) (operand : Expr)
  | binary (op : BinaryOp) (left right : Expr)
  /-- The value of a name. `quoted` says that the name was written as a string. -/
  | access (name : Text) (quoted : Bool)
  | call (name : Text) (args : List Expr)
  | sequence (items : List Expr)
  | list (items : List Expr)
  | length (operand : Expr)
deriving Repr

mutual

/-- A statement. -/
inductive Stmt where
  | expression (x : Expr)
  /-- `declared` says that the name was visible before. -/
  | assign (name : Text) (value : Expr) (declared : Bool)
  | ifChain (clauses : List Clause)
  | whileLoop (test : Expr) (body : List Stmt)
  /-- A loop over a range of numbers, with the names declared in its body. -/
  | forRange (name : Text) (start stop step : Expr) (body : List Stmt) (scope : Frame)
  /-- A function, with its parameters and the names declared in its body. -/
  | define (name : Text) (params : List Text) (body : List Stmt) (scope : Frame)
  | ret (value : Option Expr)
  | print (args : List Expr)
  | block (body : List Stmt)
deriving Repr

/-- A branch of a conditional. Without a condition it is the last resort. -/
inductive Clause where
  | mk (cond : Option Expr) (body : List Stmt)
deriving Repr

end

/-- A node of a tree. -/
inductive Node where
  | absent
  | expr (x : Expr)
  | stmt (s : Stmt)
deriving Repr

/-- A compiled program: its statements, and the names declared at the top level. -/
structure Program where
  statements : List Stmt
  scope : Frame
deriving Repr

namespace LiteralKind

/-- The kind with a code. -/
def ofCode (code : Int) : LiteralKind :=
  if code = 0 then string else if code = 1 then number else if code = 2 then boolean
  else if code = 3 then null else other code

/-- The name. -/
def name : LiteralKind → Text
  | string => "String"
  | number => "Number"
  | boolean => "Boolean"
  | null => "Null"
  | other code => "LiteralKind(" ++ Text.ofInt code ++ ")"

end LiteralKind

namespace UnaryOp

/-- The operator with a code. -/
def ofCode (code : Int) : UnaryOp :=
  if code = 0 then negate else if code = 1 then not else other code

/-- The name. -/
def name : UnaryOp → Text
  | negate => "Negate"
  | not => "Not"
  | other code => "UnaryKind(" ++ Text.ofInt code ++ ")"

end UnaryOp

namespace BinaryOp

/-- The operators in the order of their codes. -/
def all : List BinaryOp :=
  [power, multiply, divide, modulo, add, subtract, lesser, greater, lesserEquals, greaterEquals,
    equals, notEquals, and, or]

/-- The operator with a code. -/
def ofCode (code : Int) : BinaryOp :=
  if code < 0 then other code else (all[code.toNat]?).getD (other code)

/-- The name. -/
def name : BinaryOp → Text
  | power => "Power"
  | multiply => "Multiply"
  | divide => "Divide"
  | modulo => "Modulo"
  | add => "Add"
  | subtract => "Subtract"
  | lesser => "Lesser"
  | greater => "Greater"
  | lesserEquals => "LesserEquals"
  | greaterEquals => "GreaterEquals"
  | equals => "Equals"
  | notEquals => "NotEquals"
  | and => "And"
  | or => "Or"
  | other code => "BinaryKind(" ++ Text.ofInt code ++ ")"

/-- The operator with a name. -/
def ofName? (name : Text) : Option BinaryOp := all.find? (·.name == name)

end BinaryOp

namespace Expr

/-- The literal of an integer. -/
def ofInt (n : Int) : Expr := .literal .number (Text.ofInt n)

/-- The literal of a floating-point number. -/
def ofFloat (x : Float) : Expr := .literal .number (floatText x)

/-- The literal of a truth value. -/
def ofBool (b : Bool) : Expr := .literal .boolean (if b then "True" else "False")

/-- The literal of none. -/
def null : Expr := .literal .null "None"

end Expr

namespace Node

/-- The statements that nodes make up: an expression is a statement, and a missing node is none. -/
def statements (nodes : List Node) : List Stmt :=
  nodes.filterMap fun
    | .absent => none
    | .expr x => some (.expression x)
    | .stmt s => some s

end Node

end Offside
