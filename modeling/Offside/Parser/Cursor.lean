import Offside.Lexer.Scanner

/-!
# Reading tokens

A cursor stands on a token, with the tokens behind it still to come. If the tokens stop before the
end of the source, going on reports why. A failed reader leaves the cursor where it stood.
-/

namespace Offside

/-- A place in a token stream. -/
structure Cursor where
  /-- The token the cursor stands on. -/
  cur : Token
  /-- The tokens to come. -/
  rest : List Token
  /-- Why the tokens stop, if it is not the end of the source. -/
  halt : Option Halt := none
deriving Repr, DecidableEq

/-- A reader of tokens. -/
abbrev Reader := EStateM Halt Cursor

namespace Cursor

/-- A bound on how often a reader can go on. -/
def bound (c : Cursor) : Nat := c.rest.length + 1

end Cursor

namespace Reader

/-- The token that the cursor stands on. -/
def current : Reader Token := fun c => .ok c.cur c

/-- Goes on to the next token. At the end of the source the cursor stays. -/
def advance : Reader Unit := fun c =>
  match c.rest with
  | t :: rest => .ok () { c with cur := t, rest }
  | [] =>
    match c.halt with
    | some h => .error h c
    | none => .ok () c

/-- The token behind the current one. -/
def peek : Reader Token := fun c =>
  match c.rest with
  | t :: _ => .ok t c
  | [] =>
    match c.halt with
    | some h => .error h c
    | none => .ok c.cur c

/-- Reports a diagnostic. -/
def fail {α : Type} (d : Diagnostic) : Reader α := fun c => .error (.report d) c

/-- A bound on how often the reader can go on from here. -/
def bound : Reader Nat := fun c => .ok c.bound c

end Reader

/-! ## What a reader reports -/

namespace Token

/-- A token where another one should stand. -/
def unexpected (t : Token) (reason : Text) : Diagnostic :=
  (Diagnostic.syntaxError reason t.text t.line t.column).withFact "kind" (.text t.kind.name)

/-- A token where no rule of the grammar allows it. -/
def invalid (t : Token) : Diagnostic :=
  t.unexpected (if t.kind = .eof then "unexpected EOF while parsing" else "invalid syntax")

/-- A token in the place of another one. -/
def notExpected (t : Token) (what : Text) : Diagnostic := t.unexpected ("expected " ++ what)

/-- A token that nests deeper than is allowed. -/
def tooDeep (t : Token) : Diagnostic := t.unexpected "too many nested expressions or blocks"

/-- A token where the layout should have put another one. -/
def misplaced (t : Token) (reason : Text) : Diagnostic :=
  .indentationError reason t.text t.line t.column

end Token

namespace Reader

/-- Goes past the current token if it is the right one. -/
def expect (is : Token → Bool) (what : Text) : Reader Unit := do
  let t ← current
  if is t then advance else fail (t.notExpected what)

end Reader

end Offside
