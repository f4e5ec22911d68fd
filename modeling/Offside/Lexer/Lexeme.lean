import Offside.Token
import Offside.Text.Rune

/-!
# Lexemes

The content token that stands at the start of a text: its kind, subtype and literal, and how many
bytes it takes. Layout plays no part here; every function looks at the text alone.
-/

namespace Offside

/-- A content token at the start of a text. -/
structure Lexeme where
  kind : Token.Kind
  subtype : Token.Subtype
  literal : Text
  /-- How many bytes the spelling takes. -/
  width : Nat
deriving Repr, DecidableEq

namespace Lexeme

/-- Why no content token stands at the start of a text. -/
inductive Fault where
  /-- A quote is not closed on its line; `text` is what follows up to there, with the quote. -/
  | unterminated (text : Text)
  /-- No token begins with the character. -/
  | unrecognized (c : Char)
deriving Repr, DecidableEq

/-! ## Classes of bytes -/

/-- Blank space inside a line. -/
def isBlank (b : UInt8) : Bool := b == 32 || b == 9 || b == 12 || b == 11

/-- A byte that ends a line. -/
def isLineEnd (b : UInt8) : Bool := b == 10 || b == 13

/-- A byte that may begin a word. -/
def isWordStart (b : UInt8) : Bool := Text.isLetter b || b == 95

/-- A byte that may stand inside a word. -/
def isWordPart (b : UInt8) : Bool := isWordStart b || Text.isDigit b

/-- Whether the text begins with a digit. -/
def startsWithDigit : Text → Bool
  | [] => false
  | b :: _ => Text.isDigit b

/-! ## Numbers -/

/-- The fraction at the start of a text: a point and any digits. -/
def fraction : Text → Text
  | [] => []
  | b :: s => if b = 46 then b :: s.takeWhile Text.isDigit else []

/-- The sign at the start of a text. -/
def sign : Text → Text
  | [] => []
  | b :: _ => if b = 43 || b = 45 then [b] else []

/-- The exponent at the start of a text: a letter `e`, perhaps a sign, and at least one digit. -/
def exponent : Text → Text
  | [] => []
  | b :: s =>
    if b = 101 || b = 69 then
      let digits := (s.drop (sign s).length).takeWhile Text.isDigit
      if digits.isEmpty then [] else b :: (sign s ++ digits)
    else []

/-- The number at the start of a text. -/
def number (s : Text) : Lexeme :=
  let whole := s.takeWhile Text.isDigit
  let s := s.drop whole.length
  let part := fraction s
  let s := s.drop part.length
  let power := exponent s
  let literal := whole ++ part ++ power
  let form := if part.isEmpty && power.isEmpty then .integer else .float
  ⟨.number, .literal form, literal, literal.length⟩

/-! ## Words, strings and operators -/

/-- What a word is: a keyword, an operator or an identifier. -/
def classify (word : Text) : Token.Kind × Token.Subtype :=
  match Keyword.all.find? (·.name == word) with
  | some k => (.keyword, .keyword k)
  | none =>
    match Operator.words.find? (·.name == word) with
    | some o => (.operator, .operator o)
    | none => (.identifier, .plain)

/-- The word at the start of a text. -/
def word (s : Text) : Lexeme :=
  let literal := s.takeWhile isWordPart
  let (kind, subtype) := classify literal
  ⟨kind, subtype, literal, literal.length⟩

/-- Whether `b` is a quote. -/
def isQuote (b : UInt8) : Bool := b == 39 || b == 34

/-- The form of a string between quotes `q`. -/
def quoteForm (q : UInt8) : LiteralForm := if q = 34 then .doubleQuote else .singleQuote

/-- The string whose opening quote `q` stands before `s`. It ends at the next `q` on its line. -/
def string (q : UInt8) (s : Text) : Except Fault Lexeme :=
  let body := s.takeWhile fun b => b != q && !isLineEnd b
  match s.drop body.length with
  | [] => .error (.unterminated (q :: body))
  | b :: _ =>
    if b = q then .ok ⟨.string, .literal (quoteForm q), body, body.length + 2⟩
    else .error (.unterminated (q :: body))

/-- The operator that begins with `b`, when `next` follows, and how many bytes it takes. -/
def operator? (b : UInt8) (next : Option UInt8) : Option (Operator × Nat) :=
  if b = 43 then some (.add, 1)
  else if b = 45 then some (.subtract, 1)
  else if b = 42 then if next = some 42 then some (.power, 2) else some (.multiply, 1)
  else if b = 47 then some (.divide, 1)
  else if b = 37 then some (.modulo, 1)
  else if b = 60 then if next = some 61 then some (.lesserEquals, 2) else some (.lesser, 1)
  else if b = 62 then if next = some 61 then some (.greaterEquals, 2) else some (.greater, 1)
  else if b = 61 then if next = some 61 then some (.equals, 2) else some (.assign, 1)
  else if b = 33 then if next = some 61 then some (.notEquals, 2) else none
  else none

/-- The content token at the start of the text `b :: s`. -/
def first (b : UInt8) (s : Text) : Except Fault Lexeme :=
  if Text.isDigit b || (b == 46 && startsWithDigit s) then .ok (number (b :: s))
  else if isWordStart b then .ok (word (b :: s))
  else if isQuote b then string b s
  else
    match Bracket.ofByte? b with
    | some bracket => .ok ⟨.bracket, .bracket bracket, [b], 1⟩
    | none =>
      match Delimiter.ofByte? b with
      | some delimiter => .ok ⟨.delimiter, .delimiter delimiter, [b], 1⟩
      | none =>
        match operator? b s.head? with
        | some (op, width) => .ok ⟨.operator, .operator op, (b :: s).take width, width⟩
        | none => .error (.unrecognized (Rune.first b s).1.shown)

end Lexeme

end Offside
