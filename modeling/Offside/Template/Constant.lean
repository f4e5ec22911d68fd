import Offside.Number.Reader
import Offside.Template.Basic

/-!
# Constants of templates

Reads the texts between quotes, the characters and the numbers that are written in a template. A
backslash escapes a character or stands before its code.
-/

namespace Offside.Template

-- The power of the core library, also where Mathlib's is at hand.
attribute [local instance (high)] instPowNat

/-- The character that a letter stands for behind a backslash. -/
def escaped? (b : UInt8) : Option UInt8 :=
  [(97, 7), (98, 8), (102, 12), (110, 10), (114, 13), (116, 9), (118, 11), (92, 92)].lookup b

/-- The value of as many digits of a base as are given, and what stands behind them. -/
def code? (base digits : Nat) (s : Text) : Option (Nat × Text) :=
  if s.length < digits then none
  else (NumberText.digitsIn? base (s.take digits)).map (·, s.drop digits)

/-- The character with a code. -/
def charOf? (n : Nat) : Option Char := if n.isValidChar then some (Char.ofNat n) else none

/-- Reads an escape behind its backslash, in quotes of a kind. A code of two hexadecimal or three
octal digits stands for a byte, a longer one for a character. -/
def escape? (quote : UInt8) : Text → Option (Rune × Text)
  | [] => none
  | b :: s =>
    let byte (n : Nat) (rest : Text) : Option (Rune × Text) :=
      if n < 128 then some (.char (Char.ofNat n), rest)
      else if n < 256 then some (.stray (UInt8.ofNat n), rest)
      else none
    let char (digits : Nat) : Option (Rune × Text) := do
      let (n, rest) ← code? 16 digits s
      let c ← charOf? n
      some (.char c, rest)
    if b = quote then byte b.toNat s
    else if b = 120 then do
      let (n, rest) ← code? 16 2 s
      byte n rest
    else if b = 117 then char 4
    else if b = 85 then char 8
    else if 48 ≤ b ∧ b ≤ 55 then do
      let (n, rest) ← code? 8 3 (b :: s)
      byte n rest
    else do
      let c ← escaped? b
      byte c.toNat s

/-- Reads a character inside quotes of a kind. A byte that belongs to no character is read as the
replacement character. -/
def character? (quote : UInt8) : Text → Option (Rune × Text)
  | [] => none
  | b :: s =>
    if b = quote ∨ b = 10 then none
    else if b = 92 then escape? quote s
    else
      let (r, more) := Rune.first b s
      some (.char r.shown, s.drop more)

/-- Reads a text up to its closing double quote. -/
def quotedFor : (fuel : Nat) → Text → Option (Text × Text)
  | 0, _ => none
  | _ + 1, 34 :: s => some ([], s)
  | fuel + 1, s => do
    let (r, rest) ← character? 34 s
    let (t, rest) ← quotedFor fuel rest
    some (r.bytes ++ t, rest)

/-- Reads a quoted text behind its first quote. -/
def quoted? (s : Text) : Option (Text × Text) := quotedFor (s.length + 1) s

/-- Reads a text that holds itself, up to the next backquote. Carriage returns are left out. -/
def rawQuoted? (s : Text) : Option (Text × Text) :=
  match s.dropWhile (· ≠ 96) with
  | _ :: rest => some ((s.takeWhile (· ≠ 96)).filter (· ≠ 13), rest)
  | [] => none

/-- Reads a character between single quotes behind the first of them: its code. -/
def quotedChar? (s : Text) : Option (Constant × Text) := do
  let (r, rest) ← character? 39 s
  match rest with
  | 39 :: rest =>
    let code := match r with
      | .char c => c.toNat
      | .stray b => b.toNat
    some (.int code, rest)
  | _ => none

/-! ## Numbers -/

/-- Takes bytes that belong to a list. -/
def takeRun (allowed : Text) (s : Text) : Text × Text :=
  (s.takeWhile allowed.contains, s.dropWhile allowed.contains)

/-- Takes one byte if it belongs to a list. -/
def takeOne (allowed : Text) : Text → Text × Text
  | [] => ([], [])
  | b :: s => if allowed.contains b then ([b], s) else ([], b :: s)

/-- The digits that a number may have behind the mark of its base, and the letters that may stand
before an exponent. -/
def digitsOf (mark : Text) : Text × Text :=
  match mark.map Text.lowerByte with
  | [120] => ("0123456789abcdefABCDEF_", "pP")
  | [111] => ("01234567_", [])
  | [98] => ("01_", [])
  | _ => ("0123456789_", "eE")

/-- The text of a number and what stands behind it. -/
def numberText (s : Text) : Text × Text :=
  let (sign, s) := takeOne "+-" s
  let (zero, s) := takeOne "0" s
  let (mark, s) := if zero.isEmpty then ([], s) else takeOne "xXoObB" s
  let (digits, exponents) := digitsOf mark
  let (whole, s) := takeRun digits s
  let (point, s) := takeOne "." s
  let (fraction, s) := if point.isEmpty then ([], s) else takeRun digits s
  let (letter, s) := takeOne exponents s
  let (power, s) :=
    if letter.isEmpty then ([], s)
    else
      let (sign, s) := takeOne "+-" s
      let (digits, s) := takeRun "0123456789_" s
      (sign ++ digits, s)
  (sign ++ zero ++ mark ++ whole ++ point ++ fraction ++ letter ++ power, s)

/-- Whether a number has a point or the letter of an exponent; the digits of an unsigned hexadecimal
integer do not count. -/
def hasFraction (s : Text) : Bool :=
  match s with
  | 48 :: 120 :: s | 48 :: 88 :: s => s.contains 112 || s.contains 80
  | s => s.any fun b => (".eEpP" : Text).contains b

/-- The number that a text stands for. -/
def Constant.ofText? (s : Text) : Option Constant :=
  let (negative, digits) := NumberText.signOf s
  let magnitude := if NumberText.underscoresAllowed digits then
      NumberText.magnitude? (digits.filter (· ≠ 95))
    else none
  match magnitude with
  | some n =>
    let value : Int := if negative then -n else n
    if -2 ^ (63 : Nat) ≤ value ∧ value < 2 ^ (63 : Nat) then
      some (if hasFraction s then .float (Binary64.signed negative (Float.ofNat n)) else .int value)
    else if digits.length = s.length ∧ n < 2 ^ (64 : Nat) then some .tooLarge
    else none
  | none =>
    match NumberText.readFloat s with
    | .ok x => if hasFraction s then some (.float x) else none
    | .error _ => none

end Offside.Template
