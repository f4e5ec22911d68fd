/-!
# Text as bytes

Sources, names and messages are byte strings: a source need not be valid UTF-8, and columns count
bytes. A string literal stands for its UTF-8 bytes, so `("if" : Text)` is `[105, 102]`.
-/

namespace Offside

/-- A byte string. -/
abbrev Text := List UInt8

namespace Text

instance : LawfulBEq Text := inferInstance

/-- The UTF-8 bytes of a string. -/
def ofString (s : String) : Text := s.toList.flatMap String.utf8EncodeChar

instance : Coe String Text := ⟨ofString⟩

/-- The UTF-8 bytes of one character. -/
def ofChar (c : Char) : Text := String.utf8EncodeChar c

/-- A number in decimal digits. -/
def ofNat (n : Nat) : Text := (Nat.toDigits 10 n).map Char.toUInt8

/-- A number in decimal digits, with a minus sign when it is negative. -/
def ofInt : Int → Text
  | .ofNat n => ofNat n
  | .negSucc n => "-" ++ ofNat (n + 1)

/-- `true` or `false`. -/
def ofBool (b : Bool) : Text := if b then "true" else "false"

/-- `n` copies of `s`. -/
def repeated (s : Text) (n : Nat) : Text := (List.replicate n s).flatten

/-- The texts with `sep` between neighbours. -/
def join (sep : Text) : List Text → Text
  | [] => []
  | [t] => t
  | t :: ts => t ++ sep ++ join sep ts

/-- The pieces of `s` between occurrences of the byte `b`, at least one. -/
def split (b : UInt8) : Text → List Text
  | [] => [[]]
  | c :: s =>
    if c = b then [] :: split b s
    else match split b s with
      | [] => [[c]]
      | piece :: pieces => (c :: piece) :: pieces

/-- The rest of `s` after `start`, if `s` begins with it. -/
def dropStart? : (start s : Text) → Option Text
  | [], s => some s
  | _ :: _, [] => none
  | b :: start, c :: s => if b = c then dropStart? start s else none

/-- Whether `s` begins with `start`. -/
def startsWith (s start : Text) : Bool := (dropStart? start s).isSome

/-- Whether `s` ends with `stop`. -/
def endsWith (s stop : Text) : Bool := startsWith s.reverse stop.reverse

/-- `s` without the bytes at its end that satisfy `p`. -/
def dropEndWhile (p : UInt8 → Bool) (s : Text) : Text := (s.reverse.dropWhile p).reverse

/-- Bytewise lexicographic order. -/
def le : Text → Text → Bool
  | [], _ => true
  | _ :: _, [] => false
  | a :: s, b :: t => a < b || (a == b && le s t)

/-- The texts in bytewise order, equal ones kept. -/
def sorted (ts : List Text) : List Text := ts.mergeSort le

/-- The texts in order, each once, where it stands first. -/
def distinct : List Text → List Text
  | [] => []
  | t :: ts => t :: (distinct ts).filter (· ≠ t)

/-- One byte in two lowercase hexadecimal digits. -/
def hexByte (b : UInt8) : Text :=
  [(Nat.digitChar (b.toNat / 16)).toUInt8, (Nat.digitChar (b.toNat % 16)).toUInt8]

/-- The bytes in lowercase hexadecimal. -/
def hex (s : Text) : Text := s.flatMap hexByte

/-! ## Classes of bytes -/

/-- A decimal digit. -/
def isDigit (b : UInt8) : Bool := 48 ≤ b && b ≤ 57

/-- An uppercase letter of ASCII. -/
def isUpper (b : UInt8) : Bool := 65 ≤ b && b ≤ 90

/-- A lowercase letter of ASCII. -/
def isLower (b : UInt8) : Bool := 97 ≤ b && b ≤ 122

/-- A letter of ASCII. -/
def isLetter (b : UInt8) : Bool := isLower b || isUpper b

/-- An uppercase ASCII letter as its lowercase one, any other byte as itself. -/
def lowerByte (b : UInt8) : UInt8 := if isUpper b then b + 32 else b

/-- The text with its ASCII letters in lowercase. -/
def lower (s : Text) : Text := s.map lowerByte

/-- The value of a string of decimal digits. -/
def digitsValue (s : Text) : Nat := s.foldl (fun n b => 10 * n + (b.toNat - 48)) 0

end Text

end Offside
