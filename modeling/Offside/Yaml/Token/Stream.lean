import Offside.Yaml.Source
import Offside.Yaml.Token

/-!
# Reading tokens

A stream holds the characters that are left and the tokens that wait to be taken. What a colon means
is known only when it has been read, so every place where a key may have begun is kept, and the token
of the key is put among the waiting ones afterwards.
-/

namespace Offside.Yaml

/-- A place where a key may have begun. -/
structure KeyStart where
  possible : Bool := false
  /-- Whether there has to be a key. -/
  required : Bool := false
  /-- The number of the token that the key begins with. -/
  number : Nat := 0
  place : Place := {}
deriving Repr, DecidableEq

/-- A text that is being read. -/
structure Stream where
  source : Source
  /-- More than there are characters in the text. -/
  bound : Nat
  place : Place := {}
  /-- Whether nothing but blanks stands behind the last line break. -/
  afterBreak : Bool := false
  /-- The tokens that have been read and not yet taken. -/
  waiting : List Token := [{ kind := .streamStart }]
  /-- How many tokens have been taken. -/
  taken : Nat := 0
  /-- The column of the innermost block, -1 outside all blocks. -/
  indent : Int := -1
  /-- The columns of the blocks around it. -/
  indents : List Int := []
  /-- Whether a key may begin at the place. -/
  keyAllowed : Bool := true
  /-- Where a key may have begun, for each level of brackets, the outermost first. -/
  keys : Array KeyStart := #[{}]
  /-- The level at which a token may begin a key, by the number of the token. -/
  levels : List (Nat × Nat) := []
deriving Repr

namespace Stream

/-- The stream at the start of a text. -/
def ofText (s : Text) : Stream := { source := Source.ofText s, bound := 2 * s.length + 8 }

/-- How many brackets are open. -/
def flowLevel (s : Stream) : Nat := s.keys.size - 1

/-- Whether the place lies between brackets. -/
def inFlow (s : Stream) : Bool := 0 < s.flowLevel

/-- The number that the next token gets. -/
def nextNumber (s : Stream) : Nat := s.taken + s.waiting.length

/-- Puts a token before the one with the number, or behind all if that has been taken. -/
def insert (number : Nat) (t : Token) (s : Stream) : Stream :=
  if number < s.taken then { s with waiting := s.waiting ++ [t] }
  else { s with waiting := s.waiting.insertIdx (number - s.taken) t }

/-- Puts a token behind all others. -/
def push (t : Token) (s : Stream) : Stream := { s with waiting := s.waiting ++ [t] }

/-- Forgets that the token with the number may begin a key. -/
def forget (number : Nat) (s : Stream) : Stream :=
  { s with levels := s.levels.filter (·.1 ≠ number) }

/-- The place where a key may have begun at the innermost level. -/
def currentKey (s : Stream) : KeyStart := s.keys.back?.getD {}

/-- Replaces what is known of the key at a level. -/
def setKey (level : Nat) (k : KeyStart) (s : Stream) : Stream :=
  { s with keys := s.keys.setIfInBounds level k }

end Stream

/-- A step of reading, which may fail. -/
abbrev Scan := StateT Stream Option

namespace Scan

/-! ## Characters -/

/-- Sees to it that `n` characters are at hand. -/
def need (n : Nat) : Scan Unit := fun s => (s.source.need n).map fun source => ((), { s with source })

/-- The character `i` places further. -/
def look (i : Nat) : Scan Char := return (← get).source.look i

/-- Passes over a character. -/
def skip : Scan Unit := modify fun s =>
  { s with
    source := s.source.skip 1
    place := { s.place with index := s.place.index + 1, column := s.place.column + 1 }
    afterBreak := s.afterBreak && isBlank (s.source.look 0) }

/-- Passes over `n` characters. -/
def skipMany : Nat → Scan Unit
  | 0 => pure ()
  | n + 1 => do skip; skipMany n

/-- Takes a character. -/
def take : Scan Char := do
  let c ← look 0
  skip
  return c

/-- Takes a line break, if there is one. All of them are line feeds to the reader but the separators
of lines and paragraphs. -/
def takeBreak : Scan (List Char) := do
  let s ← get
  let c := s.source.look 0
  if isBreak c then
    let n := if c = '\r' && s.source.look 1 = '\n' then 2 else 1
    set { s with
      source := s.source.skip n
      place := { index := s.place.index + n, line := s.place.line + 1, column := 0 }
      afterBreak := true }
    return [if c.toNat < 0x2000 then '\n' else c]
  else return []

/-- Passes over a line break. -/
def skipBreak : Scan Unit := do
  let _ ← takeBreak

/-- Passes over characters of a class. -/
def skipWhile (p : Stream → Char → Bool) : (fuel : Nat) → Scan Unit
  | 0 => failure
  | fuel + 1 => do
    need 1
    if p (← get) (← look 0) then
      skip
      skipWhile p fuel

/-- Passes over blanks. -/
def skipBlanks : Scan Unit := do skipWhile (fun _ => isBlank) (← get).bound

/-- Passes over the rest of a line. -/
def skipLine : Scan Unit := do skipWhile (fun _ c => !isLineEnd c) (← get).bound

/-- Takes characters of a class and puts them before those in `taken`, last first. -/
def takeWhile (p : Char → Bool) : (fuel : Nat) → (taken : List Char) → Scan (List Char)
  | 0, _ => failure
  | fuel + 1, taken => do
    need 1
    if p (← look 0) then takeWhile p fuel ((← take) :: taken) else return taken

/-- The name at the place, which may be empty. -/
def takeName : Scan (List Char) := return (← takeWhile isNameChar (← get).bound []).reverse

/-- Whether three characters `c` stand at the start of a line with a gap behind them. -/
def atMark (c : Char) : Scan Bool := do
  let s ← get
  return s.place.column = 0 && s.source.look 0 = c && s.source.look 1 = c && s.source.look 2 = c &&
    isGap (s.source.look 3)

/-- Whether a mark between documents stands at the place. -/
def atDocumentMark : Scan Bool := return (← atMark '-') || (← atMark '.')

/-! ## Comments -/

/-- How many blanks stand from the character `i` on, counted from the place; at most 512. -/
def blanksFrom (p : Char → Bool) : (fuel : Nat) → (i : Nat) → Scan Nat
  | 0, i => return i
  | fuel + 1, i => do
    need (i + 1)
    if p (← look i) then blanksFrom p fuel (i + 1) else return i

/-- Passes over a comment on the same line, with the blanks before it. -/
def skipLineComment : Scan Unit := do
  if !(← get).afterBreak then
    let n ← blanksFrom isBlank 512 0
    if n < 512 && (← look n) = '#' then
      skipMany n
      skipLine

/-- Passes over `n` characters, of which a line feed behind a carriage return belongs to it. -/
def skipGaps (index : Nat) : (fuel : Nat) → Scan Unit
  | 0 => pure ()
  | fuel + 1 => do
    let s ← get
    if s.place.index < index then
      if isBreak (s.source.look 0) then skipBreak else skip
      skipGaps index fuel

/-- Passes over a comment, and over further ones if nothing but blanks and empty lines stands between
them. The line break behind the last of them is left. -/
def skipComments : (fuel : Nat) → Scan Unit
  | 0 => failure
  | fuel + 1 => do
    skipLine
    let isSpace (c : Char) : Bool := isBlank c || c = '\r' || c = '\n'
    let c ← look 0
    if c = '\r' || c = '\n' then
      let n ← blanksFrom isSpace 511 1
      if n < 512 && (← look n) = '#' then
        skipGaps ((← get).place.index + n) n
        skipComments fuel

/-- Goes on to the next token, past blanks, comments and line breaks. Tabs are passed over where no
key may begin. -/
def toToken : (fuel : Nat) → Scan Unit
  | 0 => failure
  | fuel + 1 => do
    need 1
    let s ← get
    if s.place.column = 0 && s.source.marked then skip
    skipWhile (fun s c => c = ' ' || ((s.inFlow || !s.keyAllowed) && c = '\t')) s.bound
    if (← look 0) = '#' then skipComments s.bound
    if isBreak (← look 0) then
      need 2
      skipBreak
      if !(← get).inFlow then modify fun s => { s with keyAllowed := true }
      toToken fuel

/-! ## Blocks -/

/-- How deep blocks and brackets may nest. -/
def maxDepth : Nat := 10000

/-- Ends the blocks that begin to the right of a column. -/
def endBlocks (column : Int) : Scan Unit := modify fun s =>
  if s.inFlow then s
  else
    let inner := (s.indent :: s.indents).takeWhile (column < ·)
    match (s.indent :: s.indents).drop inner.length with
    | indent :: indents =>
      { s with
        indent, indents
        waiting := s.waiting ++ List.replicate inner.length { kind := .blockEnd, place := s.place } }
    | [] => s

/-- Begins a block at the column of a place, unless the innermost block lies there or further to the
right. Its token is put before the one with the number. -/
def beginBlock (kind : TokenKind) (number : Nat) (place : Place) : Scan Unit := do
  let s ← get
  if !s.inFlow && s.indent < place.column then
    let s := { s with indents := s.indent :: s.indents, indent := place.column }
    if maxDepth < s.indents.length then failure
    set (s.insert number { kind, place })

/-! ## Keys -/

/-- Whether the key at a level can still be completed. It has to stand on one line and not to be too
long; a key that has to be there fails then. -/
def keyIsOpen (level : Nat) : Scan Bool := do
  let s ← get
  let k := (s.keys[level]?).getD {}
  if !k.possible then return false
  else if k.place.line < s.place.line || k.place.index + 1024 < s.place.index then
    if k.required then failure
    else
      set (s.setKey level { k with possible := false })
      return false
  else return true

/-- Gives up the key of the innermost level, which fails if it has to be there. -/
def dropKey : Scan Unit := do
  let s ← get
  let k := s.currentKey
  if k.possible then
    if k.required then failure
    else set ((s.setKey s.flowLevel { k with possible := false }).forget k.number)

/-- Notes that a key may begin at the place. -/
def noteKey : Scan Unit := do
  let s ← get
  if s.keyAllowed then
    dropKey
    modify fun t =>
      let k : KeyStart :=
        { possible := true
          required := !s.inFlow && s.indent == s.place.column
          number := s.nextNumber
          place := s.place }
      let t := (t.setKey t.flowLevel k).forget k.number
      { t with levels := (k.number, t.flowLevel) :: t.levels }

/-- Says whether a key may begin behind the token that is read. -/
def allowKey (allowed : Bool) : Scan Unit := modify fun s => { s with keyAllowed := allowed }

/-- Takes a token of so many characters. -/
def takeToken (kind : TokenKind) (size : Nat) : Scan Unit := do
  let place := (← get).place
  skipMany size
  modify (·.push { kind, place })

end Scan

end Offside.Yaml
