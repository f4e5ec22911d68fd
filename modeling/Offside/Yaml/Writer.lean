import Offside.Text.Quoted
import Offside.Yaml.Character
import Offside.Yaml.Meaning

/-!
# Writing YAML scalars

Writes a text as a scalar in a block: without quotes where it then reads as the same text, else
between single quotes if nothing in it has to be escaped, else between double quotes. A text of
several lines is written line by line, and bytes that are no text in base 64.
-/

namespace Offside.Yaml

/-- Whether a character is written as it is. -/
def isPlainChar (c : Char) : Bool :=
  let n := c.toNat
  n = 10 || (0x20 ≤ n && n ≤ 0x7E) || (0xA0 ≤ n && n ≤ 0xFFFD && n ≠ 0xFEFF)

/-- What keeps a text from being written in one way or the other. -/
structure Traits where
  /-- There is a sign that means something else in a block. -/
  indicators : Bool := false
  lineBreaks : Bool := false
  /-- There is a character that has to be escaped. -/
  special : Bool := false
  tabs : Bool := false
  /-- The text begins or ends with a space or a line break. -/
  loose : Bool := false
  trailingSpace : Bool := false
  /-- A space stands behind a line break. -/
  breakSpace : Bool := false
  /-- A line break stands behind a space. -/
  spaceBreak : Bool := false
deriving Repr, DecidableEq

/-- The traits of a character between its neighbours. -/
def traitsAt (before : Option Char) (c : Char) (behind : Option Char) : Traits :=
  let first := before.isNone
  let last := behind.isNone
  let blankBehind := behind.all isBlank
  let blankBefore := before.all fun b => isBlank b || isBreak b
  let indicators :=
    if first && "#,[]\x7b\x7d&*!|>'\"%@\x60".toList.contains c then true
    else if c = ':' || (first && (c = '?' || c = '-')) then blankBehind
    else c = '#' && blankBefore
  { indicators
    lineBreaks := isBreak c
    special := c ≠ '\t' && !isPlainChar c
    tabs := c = '\t'
    loose := (c = ' ' || isBreak c) && (first || last)
    trailingSpace := c = ' ' && last
    breakSpace := c = ' ' && before.any isBreak
    spaceBreak := isBreak c && before == some ' ' }

/-- The traits of either. -/
def Traits.or (a b : Traits) : Traits :=
  { indicators := a.indicators || b.indicators
    lineBreaks := a.lineBreaks || b.lineBreaks
    special := a.special || b.special
    tabs := a.tabs || b.tabs
    loose := a.loose || b.loose
    trailingSpace := a.trailingSpace || b.trailingSpace
    breakSpace := a.breakSpace || b.breakSpace
    spaceBreak := a.spaceBreak || b.spaceBreak }

/-- The traits of characters behind another one. -/
def traitsOf : (before : Option Char) → List Char → Traits
  | _, [] => {}
  | before, c :: cs => (traitsAt before c cs.head?).or (traitsOf (some c) cs)

/-- Whether the characters begin like the mark between documents. -/
def beginsWithMark : List Char → Bool
  | '-' :: '-' :: '-' :: _ => true
  | '.' :: '.' :: '.' :: _ => true
  | _ => false

/-- Whether the text can stand without quotes in a block. -/
def Traits.allowPlain (t : Traits) : Bool :=
  !(t.indicators || t.lineBreaks || t.special || t.tabs || t.loose || t.breakSpace || t.spaceBreak)

/-- Whether the text can stand between single quotes. -/
def Traits.allowSingle (t : Traits) : Bool := !(t.special || t.tabs || t.breakSpace || t.spaceBreak)

/-- Whether the text can stand line by line. -/
def Traits.allowLines (t : Traits) : Bool := !(t.special || t.trailingSpace || t.spaceBreak)

/-- The words that older readers take for truth values. -/
def oldBooleans : List Text :=
  ["y", "Y", "yes", "Yes", "YES", "on", "On", "ON", "n", "N", "no", "No", "NO", "off", "Off", "OFF"]

/-- Whether a text is a digit of a number in base 60. -/
def isSexagesimalDigit : Text → Bool
  | [a] => Text.isDigit a
  | [a, b] => 48 ≤ a && a ≤ 53 && Text.isDigit b
  | _ => false

/-- Whether a text holds the further digits of a number in base 60, and perhaps a fraction. -/
def isSexagesimalRest (s : Text) : Bool :=
  let fraction := (s.dropWhile (· ≠ 46)).drop 1
  match Text.split 58 (s.takeWhile (· ≠ 46)) with
  | [] :: digits =>
    !digits.isEmpty && digits.all isSexagesimalDigit && fraction.all fun b => Text.isDigit b || b == 95
  | _ => false

/-- Whether older readers take the text for a number in base 60. -/
def isSexagesimal (s : Text) : Bool :=
  match (NumberText.signOf s).2 with
  | [] => false
  | b :: s => Text.isDigit b && isSexagesimalRest (s.dropWhile fun b => Text.isDigit b || b == 95)

/-- Whether a reader takes the text without quotes for a text. -/
def readsAsText (s : Text) : Bool :=
  (match meaning s with
    | .text _ => true
    | _ => false) && !oldBooleans.contains s && !isSexagesimal s

/-- A number in so many hexadecimal digits. -/
def upperHex (width n : Nat) : Text :=
  (Text.hexPadded width n).map fun b => if Text.isLower b then b - 32 else b

/-- A character behind a backslash. -/
def escape (c : Char) : Text :=
  let n := c.toNat
  match [(0, 48), (7, 97), (8, 98), (9, 116), (10, 110), (11, 118), (12, 102), (13, 114), (27, 101),
    (34, 34), (92, 92), (0x85, 78), (0xA0, 95), (0x2028, 76), (0x2029, 80)].lookup n with
  | some b => [92, b]
  | none =>
    if n ≤ 0xFF then "\\x" ++ upperHex 2 n
    else if n ≤ 0xFFFF then "\\u" ++ upperHex 4 n
    else "\\U" ++ upperHex 8 n

/-- A character as it stands between double quotes. -/
def escaped (c : Char) : Text :=
  if isPlainChar c && !isBreak c && c ≠ '"' && c ≠ '\\' then Text.ofChar c else escape c

/-- The text between double quotes. Behind a byte order mark at its start every character stands
behind a backslash. -/
def doubleQuoted (cs : List Char) : Text :=
  "\"" ++ cs.flatMap (if cs.head? = some byteOrderMark then escape else escaped) ++ "\""

/-- Spaces before the content of a line. -/
def spaces (indent : Nat) : Text := List.replicate indent 32

/-- The characters between single quotes, of which those inside stand twice. Behind a line break,
which `broken` says there is, the line is indented. -/
def quotedLines (indent : Nat) : (broken : Bool) → List Char → Text
  | _, [] => []
  | broken, c :: cs =>
    if isBreak c then Text.ofChar c ++ quotedLines indent true cs
    else
      (if broken then spaces indent else []) ++ (if c = '\x27' then [39, 39] else Text.ofChar c) ++
        quotedLines indent false cs

/-- The text between single quotes. -/
def singleQuoted (indent : Nat) (cs : List Char) : Text := "'" ++ quotedLines indent false cs ++ "'"

/-- What the head of a text written line by line says about its first and last lines. -/
def hints (cs : List Char) : Text :=
  let first : Text := if cs.head?.any fun c => c = ' ' || isBreak c then "4" else []
  let last : Text := match cs.reverse with
    | [c] => if isBreak c then "+" else "-"
    | c :: d :: _ => if !isBreak c then "-" else if isBreak d then "+" else []
    | [] => "-"
  first ++ last

/-- The lines of a text, those with content indented. `ended` says whether the line before has ended,
`broken` whether content begins a line. The line break at the end is left as it is, and added if it is
missing. -/
def blockLines (indent : Nat) : (broken ended : Bool) → List Char → Text
  | _, ended, [] => if ended then [] else "\n"
  | broken, ended, c :: cs =>
    if isBreak c then Text.ofChar c ++ blockLines indent true true cs
    else
      let start : Text := if broken then (if ended then [] else "\n") ++ spaces indent else []
      start ++ Text.ofChar c ++ blockLines indent false false cs

/-- The text line by line. -/
def lineByLine (indent : Nat) (cs : List Char) : Text :=
  "|" ++ hints cs ++ blockLines indent true false cs

/-- The text as a scalar up to the end of its last line. Further lines are indented as given. `plain`
says whether it may stand without quotes. -/
def writeText (indent : Nat) (plain : Bool) (s : Text) : Text :=
  let cs := s.runes.map Rune.shown
  let traits := traitsOf none cs
  if s.contains 10 then
    if traits.allowLines then lineByLine indent cs else doubleQuoted cs ++ "\n"
  else if plain then
    if traits.allowPlain && !beginsWithMark cs then s ++ "\n"
    else if traits.allowSingle then singleQuoted indent cs ++ "\n"
    else doubleQuoted cs ++ "\n"
  else doubleQuoted cs ++ "\n"

/-- How many digits of base 64 a line has. -/
def base64Width : Nat := 70

/-- Digits of base 64 in lines, if they are too many for one. -/
def base64Lines : (fuel : Nat) → Text → Text
  | 0, _ => []
  | fuel + 1, s =>
    if s.isEmpty then []
    else s.take base64Width ++ "\n" ++ base64Lines fuel (s.drop base64Width)

/-- Bytes in base 64. -/
def base64Text (s : Text) : Text :=
  let digits := Base64.encode s
  if digits.length < base64Width then digits else base64Lines digits.length digits

/-- The text as a scalar up to the end of its last line. Further lines are indented as given. -/
def writeScalar (indent : Nat) (s : Text) : Text :=
  if s.isUtf8 then writeText indent (readsAsText s) s
  else "!!binary " ++ writeText indent true (base64Text s)

end Offside.Yaml
