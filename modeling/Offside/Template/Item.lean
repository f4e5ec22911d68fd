import Offside.Text.Alphanumeric
import Offside.Template.Constant

/-!
# The items of a template

A template is cut into pieces: text, and actions between double braces. A minus sign inside the
braces, with a blank on its inner side, removes the white space of the text next to it. An action is
cut into items.
-/

namespace Offside.Template

/-- The words that begin an action of their own. -/
inductive Keyword where
  | block | leave | next | define | other | finish | choose | each | call | focus
deriving Repr, DecidableEq

/-- The keywords by name. -/
def Keyword.byName : List (Text × Keyword) :=
  [("block", block), ("break", leave), ("continue", next), ("define", define), ("else", other),
    ("end", finish), ("if", choose), ("range", each), ("template", call), ("with", focus)]

/-- An item of an action. -/
inductive Item where
  | space
  | dot
  | nothing
  | bool (b : Bool)
  | number (c : Constant)
  | literal (t : Text)
  | field (name : Text)
  | var (name : Text)
  | word (name : Text)
  | keyword (k : Keyword)
  | declare
  | assign
  | pipe
  | comma
  | opening
  | closing
deriving Repr

/-- A piece of a template. -/
inductive Piece where
  | text (t : Text)
  | action (items : List Item)
deriving Repr

/-- White space between items. -/
def isSpace (b : UInt8) : Bool := b == 32 || b == 9 || b == 13 || b == 10

/-- Whether a character may stand in a word. -/
def isWordRune : Rune → Bool
  | .char c => c = '_' || isLetterOrDigit c
  | .stray _ => false

/-- What stands behind a right delimiter, and whether white space there is removed. -/
def closing? : Text → Option (Text × Bool)
  | 125 :: 125 :: s => some (s, false)
  | b :: 45 :: 125 :: 125 :: s => if isSpace b then some (s, true) else none
  | _ => none

/-- The text behind a right delimiter. -/
def afterClosing : Text × Bool → Text
  | (s, true) => s.dropWhile isSpace
  | (s, false) => s

/-- Whether a word may end before the text. -/
def endsWord : Text → Bool
  | [] => true
  | b :: s => isSpace b || [46, 44, 124, 58, 41, 40].contains b || ((closing? (b :: s)).any (!·.2))

/-- Takes a word apart from what stands behind it, after bytes that belong to its last character. -/
def wordFrom : (more : Nat) → Text → Text × Text
  | _, [] => ([], [])
  | more + 1, b :: s =>
    let (name, rest) := wordFrom more s
    (b :: name, rest)
  | 0, b :: s =>
    let (r, more) := Rune.first b s
    if isWordRune r then
      let (name, rest) := wordFrom more s
      (b :: name, rest)
    else ([], b :: s)

/-- Takes a word apart from what stands behind it, if it may end there. -/
def word? (s : Text) : Option (Text × Text) :=
  let (name, rest) := wordFrom 0 s
  if endsWord rest then some (name, rest) else none

/-- The item that a word is. -/
def Item.ofWord (name : Text) : Item :=
  match Keyword.byName.lookup name with
  | some k => .keyword k
  | none =>
    if name = "true" then .bool true
    else if name = "false" then .bool false
    else if name = "nil" then .nothing
    else .word name

/-- Reads a number. No word may stand behind it. -/
def number? (s : Text) : Option (Constant × Text) := do
  let (t, rest) := numberText s
  let c ← Constant.ofText? t
  if (wordFrom 0 rest).1.isEmpty then some (c, rest) else none

/-- The items that are a byte of their own. -/
def Item.ofByte? (b : UInt8) : Option Item :=
  [(61, assign), (124, pipe), (44, comma), (40, opening), (41, closing)].lookup b

/-- Whether a text begins with a digit. -/
def startsWithDigit : Text → Bool
  | b :: _ => Text.isDigit b
  | [] => false

/-- Reads an item that is no blank, from its first byte and what stands behind it. -/
def item? (b : UInt8) (rest : Text) : Option (Item × Text) :=
  match Item.ofByte? b with
  | some item => some (item, rest)
  | none =>
    if b = 58 then
      match rest with
      | 61 :: rest => some (.declare, rest)
      | _ => none
    else if b = 34 then (quoted? rest).map fun (t, rest) => (.literal t, rest)
    else if b = 96 then (rawQuoted? rest).map fun (t, rest) => (.literal t, rest)
    else if b = 39 then (quotedChar? rest).map fun (c, rest) => (.number c, rest)
    else if b = 36 then (word? rest).map fun (name, rest) => (.var name, rest)
    else if b = 46 ∧ ¬startsWithDigit rest then
      (word? rest).map fun (name, rest) => (if name.isEmpty then .dot else .field name, rest)
    else if b = 46 ∨ b = 43 ∨ b = 45 ∨ Text.isDigit b then
      (number? (b :: rest)).map fun (c, rest) => (.number c, rest)
    else
      (word? (b :: rest)).bind fun (name, rest) =>
        if name.isEmpty then none else some (.ofWord name, rest)

/-- Reads the items of an action, up to its right delimiter. Gives the text behind it as well. Blanks
in a row are one item. -/
def items? : (fuel : Nat) → Text → Option (List Item × Text)
  | 0, _ => none
  | fuel + 1, s =>
    match closing? s with
    | some closed => some ([], afterClosing closed)
    | none =>
      match s with
      | [] => none
      | b :: rest =>
        if isSpace b then
          match items? fuel rest with
          | some (.space :: items, rest) => some (.space :: items, rest)
          | some (items, rest) => some (.space :: items, rest)
          | none => none
        else do
          let (item, rest) ← item? b rest
          let (items, rest) ← items? fuel rest
          some (item :: items, rest)

/-- What stands behind the first end of a comment. -/
def afterComment? : Text → Option Text
  | 42 :: 47 :: s => some s
  | _ :: s => afterComment? s
  | [] => none

/-- Reads what stands behind a left delimiter: an action, or a comment, which gives nothing. -/
def action? (s : Text) : Option (Option (List Item) × Text) :=
  let inner := match s with
    | 45 :: b :: inner => if isSpace b then inner else s
    | s => s
  match inner with
  | 47 :: 42 :: comment => do
    let rest ← afterComment? comment
    let closed ← closing? rest
    some (none, afterClosing closed)
  | inner => do
    let (items, rest) ← items? (inner.length + 1) inner
    some (some items, rest)

/-- Whether an action removes the white space before it. -/
def trimsBefore : Text → Bool
  | 45 :: b :: _ => isSpace b
  | _ => false

/-- The text before the first left delimiter, and what stands behind it. -/
def untilAction : Text → Text × Option Text
  | [] => ([], none)
  | 123 :: 123 :: s => ([], some s)
  | b :: s =>
    let (t, rest) := untilAction s
    (b :: t, rest)

/-- Cuts a template into pieces. -/
def piecesFor : (fuel : Nat) → Text → Option (List Piece)
  | 0, _ => none
  | fuel + 1, s =>
    match untilAction s with
    | (t, none) => some (if t.isEmpty then [] else [.text t])
    | (t, some rest) => do
      let t := if trimsBefore rest then Text.dropEndWhile isSpace t else t
      let before := if t.isEmpty then [] else [Piece.text t]
      let (items, rest) ← action? rest
      let pieces ← piecesFor fuel rest
      some (before ++ (items.toList.map .action) ++ pieces)

/-- Cuts a template into pieces, unless one of its actions cannot be read. -/
def pieces? (s : Text) : Option (List Piece) := piecesFor (s.length + 1) s

end Offside.Template
