import Offside.Parser.Cursor
import Offside.Tree.Basic
import Offside.Text.Closeness

/-!
# Reading expressions

The grammar has one level for each strength of binding:

    or < and < not < comparison < + - < * / % < ** < unary - < primary

Each level reads operands of the next one. Nesting happens in three places: in parentheses, brackets
and calls, behind a `not`, and behind a `**`. The levels leave open what is done there: they are given
readers for what is nested, in any monad that lifts the readers of tokens. In `parse` each nesting uses
up one level of a budget, and with no budget left it is reported. Names are resolved as they are read.
-/

namespace Offside.Expression

/-- The places where expressions nest. -/
inductive Entry where
  /-- A whole expression. -/
  | expr
  /-- The operand of a `not`. -/
  | not
  /-- The exponent of a power. -/
  | power
deriving Repr, DecidableEq

/-- Readers for nested expressions. -/
abbrev Nested (m : Type → Type) := Entry → m Expr

/-! ## Names -/

/-- At most this many names are suggested. -/
def maxSuggestions : Nat := 3

/-- The visible names that may have been meant: first those that contain the name, then those that
differ in at most a third of its letters. -/
def suggestions (name : Text) (visible : List Text) : List Text :=
  let similar := Text.distinct (Closeness.ranked name visible)
  let limit := max 1 (name.length / 3)
  let others := (visible.filter fun c => !similar.contains c).map fun c =>
    (c, Closeness.distance name c)
  let typos := Closeness.byDistance (others.filter fun c => c.2 ≤ limit)
  (similar ++ typos.map (·.1)).take maxSuggestions

/-- The report for a name that is not visible. -/
def undefinedName (scope : Chain) (t : Token) : Diagnostic :=
  { Diagnostic.nameError t.literal t.line t.column with
    suggestions := suggestions t.literal scope.names }

/-! ## Binary operators -/

/-- The node that an operator of the level makes of its operands. -/
abbrev Level := Operator → Option BinaryOp

/-- `or`. -/
def orLevel : Level
  | .or => some .or
  | _ => none

/-- `and`. -/
def andLevel : Level
  | .and => some .and
  | _ => none

/-- The comparisons. -/
def comparisonLevel : Level
  | .lesser => some .lesser
  | .greater => some .greater
  | .lesserEquals => some .lesserEquals
  | .greaterEquals => some .greaterEquals
  | .equals => some .equals
  | .notEquals => some .notEquals
  | _ => none

/-- Sums. -/
def additiveLevel : Level
  | .add => some .add
  | .subtract => some .subtract
  | _ => none

/-- Products. -/
def multiplicativeLevel : Level
  | .multiply => some .multiply
  | .divide => some .divide
  | .modulo => some .modulo
  | _ => none

/-- The node that a token makes on a level. -/
def Level.ofToken? (level : Level) (t : Token) : Option BinaryOp :=
  match t.kind, t.subtype with
  | .operator, .operator o => level o
  | _, _ => none

variable {m : Type → Type} [Monad m] [MonadLiftT Reader m]

/-- Reads on behind `left`: operators of the level with their right operands, folded to the left. -/
def foldRest (level : Level) (operand : m Expr) : (fuel : Nat) → (left : Expr) → m Expr
  | 0, left => pure left
  | fuel + 1, left => do
    let t ← Reader.current
    match level.ofToken? t with
    | none => pure left
    | some op =>
      Reader.advance
      let right ← operand
      foldRest level operand fuel (.binary op left right)

/-- Reads operands joined by operators of the level, folded to the left. -/
def foldLeft (level : Level) (operand : m Expr) : m Expr := do
  let left ← operand
  foldRest level operand (← Reader.bound) left

/-! ## Lists of expressions -/

/-- Reads on behind the first of several expressions with commas between them. -/
def moreItems (expr : m Expr) : (fuel : Nat) → m (List Expr)
  | 0 => pure []
  | fuel + 1 => do
    let t ← Reader.current
    if t.isDelimiter .comma then
      Reader.advance
      let x ← expr
      let xs ← moreItems expr fuel
      pure (x :: xs)
    else pure []

/-- Reads one or more expressions with commas between them. -/
def items (expr : m Expr) : m (List Expr) := do
  let x ← expr
  let xs ← moreItems expr (← Reader.bound)
  pure (x :: xs)

/-- Reads any number of expressions up to a closing bracket, and the bracket. -/
def itemsUntil (expr : m Expr) (close : Bracket) (what : Text) : m (List Expr) := do
  let t ← Reader.current
  let xs ← if t.isBracket close then pure [] else items expr
  Reader.expect (·.isBracket close) what
  pure xs

/-! ## Primary expressions -/

/-- Reads a literal, which is the current token. -/
def literal (kind : LiteralKind) (t : Token) : Reader Expr := do
  Reader.advance
  pure (.literal kind t.literal)

/-- Reads an expression in parentheses. -/
def enclosure (nested : Nested m) : m Expr := do
  Reader.advance
  let inner ← nested .expr
  Reader.expect (·.isBracket .roundClose) "')'"
  pure (.enclosure inner)

/-- Reads a list. -/
def list (nested : Nested m) : m Expr := do
  Reader.advance
  let xs ← itemsUntil (nested .expr) .squareClose "']'"
  pure (.list xs)

/-- Reads the length of an expression. -/
def length (nested : Nested m) : m Expr := do
  Reader.advance
  Reader.expect (·.isBracket .roundOpen) "'('"
  let operand ← nested .expr
  Reader.expect (·.isBracket .roundClose) "')'"
  pure (.length operand)

/-- Reads a name, which is the current token, and the arguments of a call behind it. -/
def name (scope : Chain) (nested : Nested m) (t : Token) : m Expr := do
  if scope.sees t.literal then
    Reader.advance
    let next ← Reader.current
    if next.isBracket .roundOpen then
      Reader.advance
      let args ← itemsUntil (nested .expr) .roundClose "')'"
      pure (.call t.literal args)
    else pure (.access t.literal false)
  else Reader.fail (undefinedName scope t)

/-- Reads a primary expression. -/
def primary (scope : Chain) (nested : Nested m) : m Expr := do
  let t ← Reader.current
  match t.kind, t.subtype with
  | .number, _ => literal .number t
  | .string, _ => literal .string t
  | .keyword, .keyword .true_ => literal .boolean t
  | .keyword, .keyword .false_ => literal .boolean t
  | .keyword, .keyword .none_ => literal .null t
  | .keyword, .keyword .len => length nested
  | .bracket, .bracket .roundOpen => enclosure nested
  | .bracket, .bracket .squareOpen => list nested
  | .identifier, _ => name scope nested t
  | _, _ => Reader.fail t.invalid

/-! ## The levels -/

/-- The report for two minus signs in a row. -/
def doubleMinus (t : Token) : Diagnostic := { t with literal := "--" }.unexpected "Unknown Operator"

/-- Reads a primary expression, perhaps with a minus sign before it. -/
def unary (scope : Chain) (nested : Nested m) : m Expr := do
  let t ← Reader.current
  if t.isOperator .subtract then
    Reader.advance
    let next ← Reader.current
    if next.isOperator .subtract then Reader.fail (doubleMinus t)
    else
      let operand ← primary scope nested
      pure (.unary .negate operand)
  else primary scope nested

/-- Reads a power, folded to the right. -/
def power (scope : Chain) (nested : Nested m) : m Expr := do
  let base ← unary scope nested
  let t ← Reader.current
  if t.isOperator .power then
    Reader.advance
    let exponent ← nested .power
    pure (.binary .power base exponent)
  else pure base

/-- Reads a comparison. -/
def comparison (scope : Chain) (nested : Nested m) : m Expr :=
  foldLeft comparisonLevel (foldLeft additiveLevel (foldLeft multiplicativeLevel (power scope nested)))

/-- Reads each `not` that stands behind an expression. -/
def notsBehind : (fuel : Nat) → (x : Expr) → Reader Expr
  | 0, x => pure x
  | fuel + 1, x => do
    let t ← Reader.current
    if t.isOperator .not then
      Reader.advance
      notsBehind fuel (.unary .not x)
    else pure x

/-- Reads a comparison with a `not` before it, or any number of them behind it. -/
def negation (scope : Chain) (nested : Nested m) : m Expr := do
  let t ← Reader.current
  if t.isOperator .not then
    Reader.advance
    let operand ← nested .not
    pure (.unary .not operand)
  else
    let x ← comparison scope nested
    notsBehind (← Reader.bound) x

/-- Reads alternatives of conjunctions. -/
def disjunction (scope : Chain) (nested : Nested m) : m Expr :=
  foldLeft orLevel (foldLeft andLevel (negation scope nested))

/-- Reads an expression from its entry on. -/
def body (scope : Chain) (nested : Nested m) : Nested m
  | .expr => disjunction scope nested
  | .not => negation scope nested
  | .power => power scope nested

/-- Reads a nested expression with the given budget for nesting. -/
def parse (scope : Chain) : (budget : Nat) → Nested Reader
  | 0, _ => do
    let t ← Reader.current
    Reader.fail t.tooDeep
  | budget + 1, e => body scope (parse scope budget) e

end Offside.Expression
