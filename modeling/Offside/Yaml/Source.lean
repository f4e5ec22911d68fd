import Offside.Yaml.Character
import Offside.Text.Rune

/-!
# Characters on their way to a reader

The characters of a text come in blocks of 512 bytes, each when it is needed. A block that holds
something that is no character, or none that is allowed, cannot be read; what a reader never asks
for does not trouble it. A byte order mark at the start tells the encoding.
-/

namespace Offside.Yaml

/-- What one unit of a text is, if it may stand there, and how many bytes it has. -/
abbrev SourceUnit := Option Char × Nat

namespace SourceUnit

/-- A character, if it is allowed. -/
def ofChar (c : Char) (size : Nat) : SourceUnit := (if isAllowed c then some c else none, size)

/-- The units of a text in UTF-8. -/
def ofUtf8 (s : Text) : List SourceUnit :=
  s.runes.map fun
    | .char c => ofChar c (Text.ofChar c).length
    | .stray _ => (none, 1)

/-- The value of two bytes, the first of which is the higher one if `big`. -/
def word (big : Bool) (a b : UInt8) : Nat :=
  if big then 256 * a.toNat + b.toNat else 256 * b.toNat + a.toNat

/-- The units of a text in UTF-16. -/
def ofUtf16 (big : Bool) : Text → List SourceUnit
  | [] => []
  | [_] => [(none, 1)]
  | a :: b :: s =>
    let n := word big a b
    if n / 1024 = 0x37 then (none, 2) :: ofUtf16 big s
    else if n / 1024 = 0x36 then
      match s with
      | c :: d :: s =>
        let m := word big c d
        let unit : SourceUnit :=
          if m / 1024 = 0x37 then ofChar (Char.ofNat (0x10000 + 1024 * (n % 1024) + m % 1024)) 4
          else (none, 4)
        unit :: ofUtf16 big s
      | _ => [(none, 2)]
    else ofChar (Char.ofNat n) 2 :: ofUtf16 big s

end SourceUnit

/-- How many bytes a block has at most. -/
def blockSize : Nat := 512

/-- A block of characters; none if it cannot be read. -/
abbrev SourceBlock := Option (List Char)

/-- Packs units into blocks, given the room that is left in the first one and what it already
holds, last character first. -/
def packed : (room : Nat) → SourceBlock → List SourceUnit → List SourceBlock
  | _, block, [] => [block.map List.reverse]
  | room, block, (c, size) :: units =>
    if size ≤ room then packed (room - size) (block.bind fun cs => c.map (· :: cs)) units
    else block.map List.reverse :: packed (blockSize - size) (c.map fun c => [c]) units

/-- The blocks of a text. -/
def blocksOf : Text → List SourceBlock
  | 0xFF :: 0xFE :: s => packed (blockSize - 2) (some []) (SourceUnit.ofUtf16 false s)
  | 0xFE :: 0xFF :: s => packed (blockSize - 2) (some []) (SourceUnit.ofUtf16 true s)
  | 0xEF :: 0xBB :: 0xBF :: s => packed (blockSize - 3) (some []) (SourceUnit.ofUtf8 s)
  | s => packed blockSize (some []) (SourceUnit.ofUtf8 s)

/-- The characters of a text that have not been passed over. -/
structure Source where
  /-- Those at hand. -/
  ready : List Char := []
  /-- Those still to come. -/
  blocks : List SourceBlock := []
  /-- Whether a byte order mark stood first when characters were last brought to hand. Such a mark
  makes the reader pass over the first character of every line. -/
  marked : Bool := false
deriving Repr, DecidableEq

namespace Source

/-- The characters of a text. An empty text counts as an empty line. -/
def ofText (s : Text) : Source := { blocks := blocksOf (if s.isEmpty then "\n" else s) }

/-- The character `i` places further, the end mark behind the last one. -/
def look (s : Source) (i : Nat) : Char := s.ready.getD i endMark

/-- Brings blocks to hand until there are `n` characters or the text ends; then the end mark is the
last of them. -/
def fill (n : Nat) : List Char → List SourceBlock → Option Source
  | ready, [] => some { ready := ready ++ [endMark] }
  | _, none :: _ => none
  | ready, some cs :: blocks =>
    let ready := ready ++ cs
    if n ≤ ready.length then some { ready, blocks } else fill n ready blocks

/-- Sees to it that there are `n` characters at hand, or all that are left. Fails if a block that is
needed cannot be read. -/
def need (n : Nat) (s : Source) : Option Source :=
  if (s.ready.take n).length = n then some s
  else (fill n s.ready s.blocks).map fun s => { s with marked := s.ready.head? == some byteOrderMark }

/-- The characters without the first `n`. -/
def skip (n : Nat) (s : Source) : Source := { s with ready := s.ready.drop n }

end Source

end Offside.Yaml
