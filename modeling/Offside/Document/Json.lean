import Offside.Document.Basic
import Offside.Text.Rune
import Offside.Text.Quoted

/-!
# JSON

Reads the first value of a JSON text, and writes a document as JSON on one line. Bytes that are not
valid UTF-8 and halves of surrogate pairs are read as the replacement character.
-/

namespace Offside.Json

/-- White space between the parts of a value. -/
def isSpace (b : UInt8) : Bool := b == 32 || b == 9 || b == 10 || b == 13

/-- The text without the white space at its start. -/
def skipSpace (s : Text) : Text := s.dropWhile isSpace

/-! ## Numbers -/

/-- Takes one digit or more from a text. -/
def digits? (s : Text) : Option (Text × Text) :=
  let digits := s.takeWhile Text.isDigit
  if digits.isEmpty then none else some (digits, s.dropWhile Text.isDigit)

/-- Takes the whole part of a number: it begins with 0 only if it is 0. -/
def whole? : Text → Option (Text × Text)
  | 48 :: s => some ([48], s)
  | s => digits? s

/-- Takes a fraction, if there is one. -/
def fraction? : Text → Option (Text × Text)
  | 46 :: s => (digits? s).map fun (digits, rest) => (46 :: digits, rest)
  | s => some ([], s)

/-- Takes an exponent, if there is one. -/
def exponent? : Text → Option (Text × Text)
  | [] => some ([], [])
  | b :: s =>
    if b = 101 ∨ b = 69 then
      let (sign, s) : Text × Text := match s with
        | 43 :: s => ([43], s)
        | 45 :: s => ([45], s)
        | s => ([], s)
      (digits? s).map fun (digits, rest) => (b :: sign ++ digits, rest)
    else some ([], b :: s)

/-- Takes a number. -/
def number? (s : Text) : Option (Text × Text) := do
  let (sign, s) : Text × Text := match s with
    | 45 :: s => ([45], s)
    | s => ([], s)
  let (whole, s) ← whole? s
  let (fraction, s) ← fraction? s
  let (exponent, s) ← exponent? s
  some (sign ++ whole ++ fraction ++ exponent, s)

/-! ## Texts -/

/-- A part of a quoted text: a byte that stands for itself, or an escaped code of 16 bits. -/
inductive Part where
  | byte (b : UInt8)
  | code (n : Nat)
deriving Repr, DecidableEq

/-- The value of a hexadecimal digit. -/
def hexDigit? (b : UInt8) : Option Nat :=
  let c := Text.lowerByte b
  if Text.isDigit b then some (b.toNat - 48)
  else if 97 ≤ c ∧ c ≤ 102 then some (c.toNat - 87)
  else none

/-- The value of four hexadecimal digits. -/
def hex4? (a b c d : UInt8) : Option Nat := do
  let a ← hexDigit? a
  let b ← hexDigit? b
  let c ← hexDigit? c
  let d ← hexDigit? d
  some (((16 * a + b) * 16 + c) * 16 + d)

/-- The byte that a letter behind a backslash stands for. -/
def escape? (b : UInt8) : Option UInt8 :=
  [(34, 34), (92, 92), (47, 47), (98, 8), (102, 12), (110, 10), (114, 13), (116, 9)].lookup b

/-- Reads the parts of a quoted text, behind its first quote. -/
def parts? : Text → Option (List Part × Text)
  | [] => none
  | 34 :: s => some ([], s)
  | 92 :: 117 :: a :: b :: c :: d :: s => do
    let n ← hex4? a b c d
    let (parts, rest) ← parts? s
    some (.code n :: parts, rest)
  | 92 :: b :: s => do
    let c ← escape? b
    let (parts, rest) ← parts? s
    some (.byte c :: parts, rest)
  | b :: s =>
    if b < 32 ∨ b = 92 then none
    else do
      let (parts, rest) ← parts? s
      some (.byte b :: parts, rest)

/-- Whether a code is the first half of a surrogate pair. -/
def isHigh (n : Nat) : Bool := 0xD800 ≤ n && n < 0xDC00

/-- Whether a code is the second half of a surrogate pair. -/
def isLow (n : Nat) : Bool := 0xDC00 ≤ n && n < 0xE000

/-- The bytes of parts. Two halves of a pair make one character. -/
def bytesOf : List Part → Text
  | [] => []
  | .byte b :: parts => b :: bytesOf parts
  | .code n :: .code m :: parts =>
    if isHigh n && isLow m then
      Text.ofChar (Char.ofNat (0x10000 + (n - 0xD800) * 1024 + (m - 0xDC00))) ++ bytesOf parts
    else if isHigh n || isLow n then Text.ofChar '�' ++ bytesOf (.code m :: parts)
    else Text.ofChar (Char.ofNat n) ++ bytesOf (.code m :: parts)
  | .code n :: parts =>
    if isHigh n || isLow n then Text.ofChar '�' ++ bytesOf parts
    else Text.ofChar (Char.ofNat n) ++ bytesOf parts

/-- Reads a quoted text, behind its first quote. -/
def string? (s : Text) : Option (Text × Text) :=
  (parts? s).map fun (parts, rest) => ((bytesOf parts).repaired, rest)

/-! ## Values -/

/-- A reader of a value at the start of a text. -/
abbrev ValueReader := Text → Option (Document × Text)

/-- Reads the items of a list, behind its bracket or a comma. -/
def items? (value : ValueReader) : (fuel : Nat) → Text → Option (List Document × Text)
  | 0, _ => none
  | fuel + 1, s => do
    let (item, s) ← value (skipSpace s)
    match skipSpace s with
    | 93 :: s => some ([item], s)
    | 44 :: s =>
      let (items, rest) ← items? value fuel s
      some (item :: items, rest)
    | _ => none

/-- Reads the fields of an object, behind its brace or a comma. -/
def fields? (value : ValueReader) : (fuel : Nat) → Text → Option (List (Text × Document) × Text)
  | 0, _ => none
  | fuel + 1, s =>
    match skipSpace s with
    | 34 :: s => do
      let (key, s) ← string? s
      match skipSpace s with
      | 58 :: s =>
        let (item, s) ← value (skipSpace s)
        match skipSpace s with
        | 125 :: s => some ([(key, item)], s)
        | 44 :: s =>
          let (fields, rest) ← fields? value fuel s
          some ((key, item) :: fields, rest)
        | _ => none
      | _ => none
    | _ => none

/-- How deep lists and objects may nest. -/
def maxDepth : Nat := 10000

/-- Reads a text, a number or a name at the start of a text. -/
def scalar? (s : Text) : Option (Document × Text) :=
  match s with
  | 34 :: s => (string? s).map fun (t, rest) => (.string t, rest)
  | s =>
    if let some rest := Text.dropStart? "null" s then some (.null, rest)
    else if let some rest := Text.dropStart? "true" s then some (.bool true, rest)
    else if let some rest := Text.dropStart? "false" s then some (.bool false, rest)
    else (number? s).map fun (t, rest) => (.number t, rest)

/-- Reads a value with lists and objects nested up to a depth. -/
def valueFor : (depth : Nat) → ValueReader
  | 0, 91 :: _ => none
  | 0, 123 :: _ => none
  | depth + 1, 91 :: s =>
    match skipSpace s with
    | 93 :: s => some (.array [], s)
    | s => (items? (valueFor depth) (s.length + 1) s).map fun (items, rest) => (.array items, rest)
  | depth + 1, 123 :: s =>
    match skipSpace s with
    | 125 :: s => some (.object [], s)
    | s =>
      (fields? (valueFor depth) (s.length + 1) s).map fun (fields, rest) => (.object fields, rest)
  | _, s => scalar? s

/-- Reads the first value of a text. Gives what stands behind it as well. -/
def first? (s : Text) : Option (Document × Text) := valueFor maxDepth (skipSpace s)

/-- Reads a text that holds one value and nothing else. -/
def read? (s : Text) : Option Document :=
  match first? s with
  | some (d, rest) => if (skipSpace rest).isEmpty then some d else none
  | none => none

/-! ## Writing -/

/-- A unit as it stands in a quoted text. Besides what has to be escaped, so are the signs that begin
and end markup, and the line separators. -/
def quoteRune : Rune → Text
  | .stray _ => "\\ufffd"
  | .char c =>
    let n := c.toNat
    if c = '"' then "\\\""
    else if c = '\\' then "\\\\"
    else if n = 8 then "\\b"
    else if n = 9 then "\\t"
    else if n = 10 then "\\n"
    else if n = 12 then "\\f"
    else if n = 13 then "\\r"
    else if n < 32 ∨ n = 0x3C ∨ n = 0x3E ∨ n = 0x26 ∨ n = 0x2028 ∨ n = 0x2029 then
      "\\u" ++ Text.hexPadded 4 n
    else Text.ofChar c

/-- A quoted text. -/
def quoted (t : Text) : Text := "\"" ++ t.runes.flatMap quoteRune ++ "\""

mutual

/-- A document as JSON, without white space. -/
def write : Document → Text
  | .null => "null"
  | .bool b => Text.ofBool b
  | .number t => t
  | .string t => quoted t
  | .array items => "[" ++ Text.join "," (writeItems items) ++ "]"
  | .object fields => "\x7b" ++ Text.join "," (writeFields fields) ++ "\x7d"

/-- The items of a list as JSON. -/
def writeItems : List Document → List Text
  | [] => []
  | d :: items => write d :: writeItems items

/-- The fields of an object as JSON. -/
def writeFields : List (Text × Document) → List Text
  | [] => []
  | (key, d) :: fields => (quoted key ++ ":" ++ write d) :: writeFields fields

end

end Offside.Json
