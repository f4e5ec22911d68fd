import Offside.Text.Quoted
import Offside.Diagnostic

/-!
# Tokens

A token has a kind, a subtype that refines it, the text it was written in, and a position. Four kinds
are structural: they come from the layout of the source and not from a spelling.
-/

namespace Offside

/-- The reserved words that are not operators. -/
inductive Keyword where
  | def_ | for_ | while_ | if_ | elif | else_ | true_ | false_ | none_ | return_ | print | len | range
deriving Repr, DecidableEq

/-- The operators, with `=` among them. -/
inductive Operator where
  | add | subtract | multiply | divide | modulo | power
  | lesser | greater | lesserEquals | greaterEquals | equals | notEquals
  | assign | and | or | not | in_
deriving Repr, DecidableEq

/-- The punctuation marks. -/
inductive Delimiter where
  | comma | colon | dot | semicolon
deriving Repr, DecidableEq

/-- The brackets. -/
inductive Bracket where
  | roundOpen | roundClose | squareOpen | squareClose | curlyOpen | curlyClose
deriving Repr, DecidableEq

/-- The form in which a literal is written. -/
inductive LiteralForm where
  | integer | float | singleQuote | doubleQuote
deriving Repr, DecidableEq

namespace Token

/-- The kind of a token. -/
inductive Kind where
  | eof | newline | indent | dedent
  | keyword | operator | delimiter | bracket
  | string | number | identifier
  | other (code : Int)
deriving Repr, DecidableEq

/-- What refines the kind of a token. -/
inductive Subtype where
  | plain
  | keyword (k : Keyword)
  | operator (o : Operator)
  | delimiter (d : Delimiter)
  | bracket (b : Bracket)
  | literal (f : LiteralForm)
  | other (name : Text)
deriving Repr, DecidableEq

end Token

/-- A token, with the line and column of its first byte. -/
structure Token where
  kind : Token.Kind
  subtype : Token.Subtype := .plain
  literal : Text := []
  line : Int
  column : Int
deriving Repr, DecidableEq

/-! ## Names -/

namespace Keyword

/-- The spelling, which is also the name. -/
def name : Keyword → Text
  | def_ => "def"
  | for_ => "for"
  | while_ => "while"
  | if_ => "if"
  | elif => "elif"
  | else_ => "else"
  | true_ => "True"
  | false_ => "False"
  | none_ => "None"
  | return_ => "return"
  | print => "print"
  | len => "len"
  | range => "range"

/-- Every keyword. -/
def all : List Keyword :=
  [def_, for_, while_, if_, elif, else_, true_, false_, none_, return_, print, len, range]

end Keyword

namespace Operator

/-- The name. -/
def name : Operator → Text
  | add => "add"
  | subtract => "subtract"
  | multiply => "multiply"
  | divide => "divide"
  | modulo => "modulo"
  | power => "power"
  | lesser => "lesser"
  | greater => "greater"
  | lesserEquals => "lesser_equals"
  | greaterEquals => "greater_equals"
  | equals => "equals"
  | notEquals => "not_equals"
  | assign => "assign"
  | and => "and"
  | or => "or"
  | not => "not"
  | in_ => "in"

/-- Every operator. -/
def all : List Operator :=
  [add, subtract, multiply, divide, modulo, power, lesser, greater, lesserEquals, greaterEquals,
    equals, notEquals, assign, and, or, not, in_]

/-- The operators that are written as words. -/
def words : List Operator := [and, or, not, in_]

end Operator

namespace Delimiter

/-- The name. -/
def name : Delimiter → Text
  | comma => "comma"
  | colon => "colon"
  | dot => "dot"
  | semicolon => "semicolon"

/-- Every delimiter. -/
def all : List Delimiter := [comma, colon, dot, semicolon]

/-- The delimiter that a byte spells. -/
def ofByte? (b : UInt8) : Option Delimiter :=
  if b = 44 then some comma
  else if b = 58 then some colon
  else if b = 46 then some dot
  else if b = 59 then some semicolon
  else none

end Delimiter

namespace Bracket

/-- The name. -/
def name : Bracket → Text
  | roundOpen => "round_open"
  | roundClose => "round_close"
  | squareOpen => "square_open"
  | squareClose => "square_close"
  | curlyOpen => "curly_open"
  | curlyClose => "curly_close"

/-- Every bracket. -/
def all : List Bracket := [roundOpen, roundClose, squareOpen, squareClose, curlyOpen, curlyClose]

/-- Whether the bracket opens a group. -/
def isOpening : Bracket → Bool
  | roundOpen | squareOpen | curlyOpen => true
  | roundClose | squareClose | curlyClose => false

/-- The bracket that a byte spells. -/
def ofByte? (b : UInt8) : Option Bracket :=
  if b = 40 then some roundOpen
  else if b = 41 then some roundClose
  else if b = 91 then some squareOpen
  else if b = 93 then some squareClose
  else if b = 123 then some curlyOpen
  else if b = 125 then some curlyClose
  else none

/-- The bracket that a byte spells, or the report that it spells none. -/
def ofByte (b : UInt8) : Except Diagnostic Bracket :=
  match ofByte? b with
  | some bracket => .ok bracket
  | none =>
    let shown := Text.ofChar (Char.ofNat b.toNat)
    .error (.unknownTokenError ("Token '" ++ shown ++ "' is not a BracketSymbol.") shown 0 0)

end Bracket

namespace LiteralForm

/-- The name. -/
def name : LiteralForm → Text
  | integer => "integer"
  | float => "float"
  | singleQuote => "single"
  | doubleQuote => "double"

/-- Every form. -/
def all : List LiteralForm := [integer, float, singleQuote, doubleQuote]

end LiteralForm

namespace Token.Kind

/-- The kinds in the order of their codes. -/
def all : List Kind :=
  [eof, newline, indent, dedent, keyword, operator, delimiter, bracket, string, number, identifier]

/-- The kind with a code. -/
def ofCode (code : Int) : Kind :=
  if code < 0 then other code else (all[code.toNat]?).getD (other code)

/-- The name. -/
def name : Kind → Text
  | eof => "EOF"
  | newline => "NEWLINE"
  | indent => "INDENT"
  | dedent => "DEDENT"
  | keyword => "KEYWORD"
  | operator => "OPERATOR"
  | delimiter => "DELIMITER"
  | bracket => "BRACKET"
  | string => "STRING"
  | number => "NUMBER"
  | identifier => "IDENTIFIER"
  | other code => "Kind(" ++ Text.ofInt code ++ ")"

/-- Whether tokens of the kind come from the layout. -/
def isStructural : Kind → Bool
  | eof | newline | indent | dedent => true
  | other code => code < 0
  | _ => false

end Token.Kind

namespace Token.Subtype

/-- The name, empty for a plain token. -/
def name : Subtype → Text
  | plain => []
  | keyword k => k.name
  | operator o => o.name
  | delimiter d => d.name
  | bracket b => b.name
  | literal f => f.name
  | other name => name

/-- Every subtype that a token of a source can have. -/
def all : List Subtype :=
  plain :: (Keyword.all.map keyword ++ Operator.all.map operator ++ Delimiter.all.map delimiter ++
    Bracket.all.map bracket ++ LiteralForm.all.map literal)

/-- The subtype with a name. -/
def ofName (name : Text) : Subtype := (all.find? (·.name == name)).getD (other name)

/-- Whether the subtype is that of an opening bracket. -/
def isOpening : Subtype → Bool
  | bracket b => b.isOpening
  | _ => false

end Token.Subtype

namespace Token

/-- Whether the token is the keyword `k`. -/
def isKeyword (t : Token) (k : Keyword) : Bool := t.kind == .keyword && t.subtype == .keyword k

/-- Whether the token is the operator `o`. -/
def isOperator (t : Token) (o : Operator) : Bool := t.kind == .operator && t.subtype == .operator o

/-- Whether the token is the delimiter `d`. -/
def isDelimiter (t : Token) (d : Delimiter) : Bool :=
  t.kind == .delimiter && t.subtype == .delimiter d

/-- Whether the token is the bracket `b`. -/
def isBracket (t : Token) (b : Bracket) : Bool := t.kind == .bracket && t.subtype == .bracket b

/-- The token as messages name it: a structural token by its kind, any other by its spelling. -/
def text (t : Token) : Text :=
  match t.kind with
  | .eof | .newline | .indent | .dedent => t.kind.name
  | _ => t.literal

/-- The token with its kind, subtype, literal and position, on one line. -/
def describe (t : Token) : Text :=
  let subtype : Text := if t.subtype.name = [] then [] else t.subtype.name ++ " "
  t.kind.name ++ "(" ++ subtype ++ Text.quoted t.literal ++ ") at " ++ Text.ofInt t.line ++ ":" ++
    Text.ofInt t.column

end Token

end Offside
