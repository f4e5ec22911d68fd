import Offside.Number.Rounded
import Offside.Text.Quoted
import Offside.Template.Datum

/-!
# Printing values

Prints values next to each other, or in the places that a format has for them. Such a place is a
percent sign, flags, a width, a precision and a verb, which says how the value is printed. What does
not fit is said in the result.
-/

namespace Offside.Template

-- The power of the core library, also where Mathlib's is at hand.
attribute [local instance (high)] instPowNat

/-- The name of what a value is. -/
def Datum.typeName : Datum → Text
  | absent => "<nil>"
  | bool _ => "bool"
  | int _ => "int"
  | byte _ => "uint8"
  | float _ => "float64"
  | text _ => "string"
  | list .. => "[]string"
  | record _ => "*generator.TemplateData"

/-- How a place of a format is filled. -/
structure Place where
  minus : Bool := false
  plus : Bool := false
  sharp : Bool := false
  space : Bool := false
  zero : Bool := false
  width : Option Nat := none
  precision : Option Nat := none
  /-- Values are written as they would be in a source. -/
  asSource : Bool := false
  /-- The fields of records have their names. -/
  named : Bool := false
deriving Repr, DecidableEq

namespace Place

/-- Fills up to the width: at the right after a minus sign, else at the left. -/
def pad (p : Place) (t : Text) : Text :=
  let missing := p.width.getD 0 - t.runes.length
  if p.minus then t ++ Text.repeated " " missing
  else Text.repeated (if p.zero then "0" else " ") missing ++ t

/-- A text cut to as many characters as the precision says. -/
def cut (p : Place) (t : Text) : Text :=
  match p.precision with
  | some n => (t.runes.take n).flatMap Rune.bytes
  | none => t

/-- What stands for a value that a verb does not fit. -/
def misfit (verb : Rune) (type value : Text) : Text :=
  "%!" ++ verb.bytes ++ "(" ++ type ++ "=" ++ value ++ ")"

/-- A text in uppercase letters of ASCII. -/
def upper (t : Text) : Text := t.map fun b => if Text.isLower b then b - 32 else b

/-! ## Texts -/

/-- The bytes of a text in hexadecimal, apart if there is a space, and marked as such if there is a
sharp sign. -/
def hexText (p : Place) (t : Text) : Text :=
  let bytes := match p.precision with
    | some n => t.take n
    | none => t
  let mark : Text := if p.sharp && !bytes.isEmpty then "0x" else []
  if p.space then Text.join " " (bytes.map fun b => mark ++ Text.hexByte b) else mark ++ Text.hex bytes

/-- Whether a text can stand between backquotes. -/
def isPlain (t : Text) : Bool :=
  t.runes.all fun
    | .stray _ => false
    | .char c => c ≠ '\ufeff' && c ≠ '\x60' && c ≠ '\x7f' && (c = '\t' || 0x20 ≤ c.toNat)

/-- A character in quoted text of ASCII only. -/
def asciiRune (quote : Rune → Text) : Rune → Text
  | .char c =>
    if c.toNat < 0x80 then quote (.char c)
    else if c.toNat < 0x10000 then "\\u" ++ Text.hexPadded 4 c.toNat
    else "\\U" ++ Text.hexPadded 8 c.toNat
  | r => quote r

/-- A text in quotes. -/
def quotedText (p : Place) (t : Text) : Text :=
  if p.sharp && isPlain t then "\x60" ++ t ++ "\x60"
  else if p.plus then "\"" ++ t.runes.flatMap (asciiRune Text.quoteRune) ++ "\""
  else Text.quoted t

/-- Fills a place with a text. -/
def text (p : Place) (verb : Rune) (t : Text) : Text :=
  match verb with
  | .char 'v' => if p.asSource then p.pad (Text.quoted (p.cut t)) else p.pad (p.cut t)
  | .char 's' => p.pad (p.cut t)
  | .char 'x' => p.pad (p.hexText t)
  | .char 'X' => p.pad (upper (p.hexText t))
  | .char 'q' => p.pad (p.quotedText (p.cut t))
  | verb => misfit verb "string" (p.pad (p.cut t))

/-! ## Integers -/

/-- The mark of a base. -/
def baseMark (base : Nat) (digits : Text) : Text :=
  match base with
  | 2 => "0b"
  | 8 => if digits.head? = some 48 then [] else "0"
  | 16 => "0x"
  | _ => []

/-- The sign of a number. -/
def sign (p : Place) (negative : Bool) : Text :=
  if negative then "-" else if p.plus then "+" else if p.space then " " else []

/-- Fills a place with an integer in a base, with a mark before it. -/
def integer (p : Place) (base : Nat) (mark : Text) (n : Int) : Text :=
  if p.precision = some 0 ∧ n = 0 then Text.repeated " " (p.width.getD 0)
  else
    let sign := p.sign (n < 0)
    let least := match p.precision with
      | some least => least
      | none => if p.zero && !p.minus then p.width.getD 0 - sign.length else 0
    let digits : Text := (Nat.toDigits base n.natAbs).map Char.toUInt8
    let digits := Decimal.zeros (least - digits.length) ++ digits
    let marks := (if p.sharp then baseMark base digits else []) ++ mark
    { p with zero := false }.pad (sign ++ marks ++ digits)

/-- The character with a code, or the replacement character. -/
def charOf (n : Int) : Char :=
  if 0 ≤ n ∧ n.toNat.isValidChar then Char.ofNat n.toNat else '�'

/-- A character in single quotes. -/
def quotedChar (p : Place) (c : Char) : Text :=
  let quote : Rune → Text := fun
    | .char '\'' => "\\'"
    | .char '"' => "\""
    | r => Text.quoteRune r
  "'" ++ (if p.plus then asciiRune quote (.char c) else quote (.char c)) ++ "'"

/-- The code point of a character, and the character itself after a sharp sign. -/
def codePoint (p : Place) (n : Int) : Text :=
  let digits := upper (Text.hexPadded (max 4 (p.precision.getD 4)) (n % 2 ^ (64 : Nat)).toNat)
  let c := charOf n
  let shown : Text := if p.sharp && 0 ≤ n && n ≤ 0x10FFFF && isPrintable c
    then " '" ++ Text.ofChar c ++ "'" else []
  { p with zero := false }.pad ("U+" ++ digits ++ shown)

/-- Fills a place with an integer. -/
def int? (p : Place) (verb : Rune) (n : Int) : Option Text :=
  match verb with
  | .char 'v' | .char 'd' => some (p.integer 10 [] n)
  | .char 'b' => some (p.integer 2 [] n)
  | .char 'o' => some (p.integer 8 [] n)
  | .char 'O' => some (p.integer 8 "0o" n)
  | .char 'x' => some (p.integer 16 [] n)
  | .char 'X' => some (upper (p.integer 16 [] n))
  | .char 'c' => some (p.pad (Text.ofChar (charOf n)))
  | .char 'q' => some (p.pad (p.quotedChar (charOf n)))
  | .char 'U' => some (p.codePoint n)
  | _ => none

/-! ## Other values -/

/-- The magnitude of a floating-point number in the form of a verb. -/
def magnitude? (p : Place) (verb : Rune) (m : Nat) (q : Int) : Option Text :=
  let general : Text := match p.precision with
    | some n => Decimal.generalText m q (max n 1)
    | none => finiteText .values false m q
  match verb with
  | .char 'v' | .char 'g' => some general
  | .char 'G' => some (upper general)
  | .char 'f' | .char 'F' => some (Decimal.fixedText m q (p.precision.getD 6))
  | .char 'e' => some (Decimal.scientificText m q (p.precision.getD 6))
  | .char 'E' => some (upper (Decimal.scientificText m q (p.precision.getD 6)))
  | _ => none

/-- Fills a place with a floating-point number. -/
def float? (p : Place) (verb : Rune) (x : Float) : Option Text :=
  match Binary64.ofFloat x with
  | .finite negative m q => do
    let t ← p.magnitude? verb m q
    let sign := p.sign negative
    if p.zero && !p.minus then
      some (sign ++ Decimal.zeros (p.width.getD 0 - sign.length - t.length) ++ t)
    else some (p.pad (sign ++ t))
  | _ => some ({ p with zero := false }.pad (floatText x))

/-- Fills a place with a list, item by item. -/
def list (p : Place) (verb : Rune) (items spare : List Text) : Text :=
  let texts := items.map (p.text verb)
  if !p.asSource then "[" ++ Text.join " " texts ++ "]"
  else if items.isEmpty && spare.isEmpty then "[]string(nil)"
  else "[]string\x7b" ++ Text.join ", " texts ++ "\x7d"

mutual

/-- Fills a place with a value. -/
def value (p : Place) (verb : Rune) : Datum → Text
  | .absent => if verb = .char 'v' then p.pad "<nil>" else "%!" ++ verb.bytes ++ "(<nil>)"
  | .bool b =>
    let t := p.pad (Text.ofBool b)
    if verb = .char 't' ∨ verb = .char 'v' then t else misfit verb "bool" t
  | .int n => (p.int? verb n).getD (misfit verb "int" (p.integer 10 [] n))
  | .byte b =>
    let n : Int := b.toNat
    if p.asSource then { p with sharp := true }.integer 16 [] n
    else (p.int? verb n).getD (misfit verb "uint8" (p.integer 10 [] n))
  | .float x => (p.float? verb x).getD (misfit verb "float64" ((p.float? (.char 'v') x).getD []))
  | .text t => p.text verb t
  | .list items spare => p.list verb items spare
  | .record fields =>
    let type : Text := if p.asSource then (Datum.record []).typeName.drop 1 else []
    let separator : Text := if p.asSource then ", " else " "
    "&" ++ type ++ "\x7b" ++ Text.join separator (values p verb fields) ++ "\x7d"

/-- Fills a place with the fields of a record. -/
def values (p : Place) (verb : Rune) : List (Text × Datum) → List Text
  | [] => []
  | (name, d) :: fields =>
    let label : Text := if p.asSource || p.named then name ++ ":" else []
    (label ++ p.value verb d) :: values p verb fields

end

end Place

/-! ## Formats -/

/-- A value as it is printed without a format. -/
def Datum.printed (d : Datum) : Text := ({} : Place).value (.char 'v') d

/-- The values for the places of a format. -/
structure Supply where
  all : List Datum
  /-- How many values come before the next one. -/
  next : Nat := 0
  /-- Whether a place has chosen its value by number. -/
  chosen : Bool := false

namespace Supply

/-- The next value. -/
def head? (u : Supply) : Option Datum := u.all[u.next]?

/-- The values behind the next one, if there is one. -/
def tail (u : Supply) : Supply := if u.next < u.all.length then { u with next := u.next + 1 } else u

/-- What is said of values that a format has no place for. -/
def unused (u : Supply) : Text :=
  let say : Datum → Text := fun
    | .absent => "<nil>"
    | d => d.typeName ++ "=" ++ d.printed
  let rest := u.all.drop u.next
  if u.chosen || rest.isEmpty then [] else "%!(EXTRA " ++ Text.join ", " (rest.map say) ++ ")"

end Supply

/-- A place of a format as far as it has been read. -/
structure Reader where
  place : Place := {}
  /-- What is said of a bad width or precision. -/
  complaint : Text := []
  /-- Whether every number of a value is right. -/
  fits : Bool := true
  /-- Whether the number of a value has just been read. -/
  numbered : Bool := false
  rest : Text
  supply : Supply

/-- The largest width. -/
def maxWidth : Nat := 1000000

/-- Reads digits. A number that is too large takes the rest of the format with it. -/
def digits? (s : Text) : Option Nat × Text :=
  let digits := s.takeWhile Text.isDigit
  let n := Text.digitsValue digits
  if digits.isEmpty then (none, s)
  else if maxWidth < n then (none, [])
  else (some n, s.drop digits.length)

namespace Reader

/-- Reads flags. -/
def flags (r : Reader) : Text → Reader
  | 35 :: s => flags { r with place.sharp := true } s
  | 48 :: s => flags { r with place.zero := true } s
  | 43 :: s => flags { r with place.plus := true } s
  | 45 :: s => flags { r with place.minus := true } s
  | 32 :: s => flags { r with place.space := true } s
  | s => { r with rest := s }

/-- Reads the number of a value in brackets, from which values are taken on. -/
def number (r : Reader) : Reader :=
  match r.rest with
  | 91 :: s =>
    let r := { r with supply.chosen := true, numbered := false }
    match if s.length < 2 then [] else s.dropWhile (· ≠ 93) with
    | [] => { r with rest := s, fits := false }
    | _ :: rest =>
      match digits? (s.takeWhile (· ≠ 93)) with
      | (some n, []) =>
        if 1 ≤ n ∧ n ≤ r.supply.all.length then
          { r with rest, supply.next := n - 1, numbered := true }
        else { r with rest, fits := false, numbered := true }
      | _ => { r with rest, fits := false }
  | _ => { r with numbered := false }

/-- Takes the next value for a width or a precision. -/
def taken (r : Reader) : Option Int × Reader :=
  let n := match r.supply.head? with
    | some (.int n) => if n.natAbs ≤ maxWidth then some n else none
    | some (.byte b) => some (b.toNat : Int)
    | _ => none
  (n, { r with supply := r.supply.tail, numbered := false })

/-- Reads the width. -/
def width (r : Reader) : Reader :=
  match r.rest with
  | 42 :: rest =>
    match { r with rest }.taken with
    | (some n, r) =>
      let r := { r with place.width := some n.natAbs }
      if n < 0 then { r with place.minus := true, place.zero := false } else r
    | (none, r) => { r with complaint := r.complaint ++ "%!(BADWIDTH)" }
  | s =>
    match digits? s with
    | (some n, rest) => { r with rest, place.width := some n, fits := r.fits && !r.numbered }
    | (none, rest) => { r with rest }

/-- Reads the precision. -/
def precision (r : Reader) : Reader :=
  match r.rest with
  | 46 :: rest =>
    let r := { r with rest, fits := r.fits && !r.numbered }.number
    match r.rest with
    | 42 :: rest =>
      match { r with rest }.taken with
      | (some n, r) =>
        if 0 ≤ n then { r with place.precision := some n.toNat }
        else { r with complaint := r.complaint ++ "%!(BADPREC)" }
      | (none, r) => { r with complaint := r.complaint ++ "%!(BADPREC)" }
    | s =>
      let (n, rest) := digits? s
      { r with rest, place.precision := some (n.getD 0) }
  | _ => r

/-- The place of a value that is written with a verb. -/
def placeFor (r : Reader) (verb : Rune) : Place :=
  let p := r.place
  if verb = .char 'v' then
    { p with asSource := p.sharp, sharp := false, named := p.plus, plus := false }
  else p

/-- Fills the place with the next value, and goes on behind it. -/
def fill (r : Reader) (verb : Rune) : Text × Supply :=
  let note (reason : Text) : Text := "%!" ++ verb.bytes ++ "(" ++ reason ++ ")"
  if verb = .char '%' then ("%", r.supply)
  else if !r.fits then (note "BADINDEX", r.supply)
  else
    match r.supply.head? with
    | none => (note "MISSING", r.supply)
    | some d =>
      let p := r.placeFor verb
      (if verb = .char 'T' then p.pad (p.cut d.typeName) else p.value verb d, r.supply.tail)

end Reader

/-- Reads a place behind its percent sign and fills it. Gives the rest of the format and the values. -/
def place (s : Text) (u : Supply) : Text × Text × Supply :=
  let r := (({ rest := s, supply := u } : Reader).flags s).number.width.precision
  let r := if r.numbered then r else r.number
  match r.rest with
  | [] => (r.complaint ++ "%!(NOVERB)", [], r.supply)
  | b :: s =>
    let (verb, more) := Rune.first b s
    let (t, u) := r.fill (.char verb.shown)
    (r.complaint ++ t, s.drop more, u)

/-- Prints values in the places of a format. -/
def printFor : (fuel : Nat) → Text → Supply → Text
  | 0, _, _ => []
  | fuel + 1, s, u =>
    let before := s.takeWhile (· ≠ 37)
    match s.dropWhile (· ≠ 37) with
    | [] => before ++ u.unused
    | _ :: s =>
      let (t, s, u) := place s u
      before ++ t ++ printFor fuel s u

/-- Prints values in the places of a format. -/
def printFormatted (format : Text) (args : List Datum) : Text :=
  printFor (format.length + 1) format { all := args }

/-! ## Values next to each other -/

/-- Whether a value is a text. -/
def Datum.isText : Datum → Bool
  | text _ => true
  | _ => false

/-- Texts next to each other, with a blank between two of which none is the text of a text. -/
def sideBySide : List (Text × Bool) → Text
  | [] => []
  | [(t, _)] => t
  | (t, isText) :: (u, isTextToo) :: rest =>
    let blank : Text := if isText || isTextToo then [] else " "
    t ++ blank ++ sideBySide ((u, isTextToo) :: rest)

/-- Prints values next to each other. -/
def printed (args : List Datum) : Text := sideBySide (args.map fun d => (d.printed, d.isText))

/-- Prints values on a line, with blanks between them. -/
def printedLine (args : List Datum) : Text := Text.join " " (args.map Datum.printed) ++ "\n"

end Offside.Template
