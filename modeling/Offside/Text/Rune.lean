import Offside.Text.Basic

/-!
# Characters of a byte string

Reads a byte string as UTF-8. A byte that starts no well-formed sequence stands for itself, alone,
so every byte string has exactly one reading.
-/

namespace Offside

/-- One unit of a byte string read as UTF-8. -/
inductive Rune where
  /-- A character, written in its one to four bytes. -/
  | char (c : Char)
  /-- A byte that belongs to no well-formed sequence. -/
  | stray (b : UInt8)
deriving Repr, DecidableEq

namespace Rune

/-- Whether `b` continues a sequence. -/
def isTail (b : UInt8) : Bool := 0x80 ≤ b && b ≤ 0xBF

/-- The six payload bits of a continuation byte. -/
def payload (b : UInt8) : Nat := b.toNat % 64

/-- The first unit of the text `b :: s`, and how many bytes of `s` belong to it. Shortest forms only,
and neither surrogates nor code points above `10FFFF`. -/
def first (b : UInt8) (s : Text) : Rune × Nat :=
  if b < 0x80 then (.char (Char.ofNat b.toNat), 0)
  else if 0xC2 ≤ b && b ≤ 0xDF then
    match s with
    | b₁ :: _ =>
      if isTail b₁ then (.char (Char.ofNat ((b.toNat % 32) * 64 + payload b₁)), 1) else (.stray b, 0)
    | _ => (.stray b, 0)
  else if 0xE0 ≤ b && b ≤ 0xEF then
    match s with
    | b₁ :: b₂ :: _ =>
      let lo : UInt8 := if b = 0xE0 then 0xA0 else 0x80
      let hi : UInt8 := if b = 0xED then 0x9F else 0xBF
      if lo ≤ b₁ && b₁ ≤ hi && isTail b₂ then
        (.char (Char.ofNat ((b.toNat % 16) * 4096 + payload b₁ * 64 + payload b₂)), 2)
      else (.stray b, 0)
    | _ => (.stray b, 0)
  else if 0xF0 ≤ b && b ≤ 0xF4 then
    match s with
    | b₁ :: b₂ :: b₃ :: _ =>
      let lo : UInt8 := if b = 0xF0 then 0x90 else 0x80
      let hi : UInt8 := if b = 0xF4 then 0x8F else 0xBF
      if lo ≤ b₁ && b₁ ≤ hi && isTail b₂ && isTail b₃ then
        (.char (Char.ofNat
          ((b.toNat % 8) * 262144 + payload b₁ * 4096 + payload b₂ * 64 + payload b₃)), 3)
      else (.stray b, 0)
    | _ => (.stray b, 0)
  else (.stray b, 0)

/-- The character a unit is shown as: a stray byte is shown as the replacement character. -/
def shown : Rune → Char
  | .char c => c
  | .stray _ => '�'

/-- The bytes of a unit. -/
def bytes : Rune → Text
  | .char c => Text.ofChar c
  | .stray b => [b]

/-- Whether a unit is white space. -/
def isSpace : Rune → Bool
  | .stray _ => false
  | .char c =>
    let n := c.toNat
    (9 ≤ n && n ≤ 13) || (0x2000 ≤ n && n ≤ 0x200A) ||
      [0x20, 0x85, 0xA0, 0x1680, 0x2028, 0x2029, 0x202F, 0x205F, 0x3000].contains n

end Rune

namespace Text

/-- The units of a text, after `skip` bytes that belong to an earlier unit. -/
def runesFrom : (skip : Nat) → Text → List Rune
  | _, [] => []
  | skip + 1, _ :: s => runesFrom skip s
  | 0, b :: s =>
    let (r, more) := Rune.first b s
    r :: runesFrom more s

/-- The units of a text read as UTF-8. -/
def runes (s : Text) : List Rune := runesFrom 0 s

/-- Whether every byte of the text belongs to a well-formed sequence. -/
def isUtf8 (s : Text) : Bool :=
  s.runes.all fun
    | .char _ => true
    | .stray _ => false

/-- The text with every stray byte replaced by the replacement character. -/
def repaired (s : Text) : Text := s.runes.flatMap fun r => ofChar r.shown

/-- Whether the text is nothing but white space. -/
def isBlank (s : Text) : Bool := s.runes.all Rune.isSpace

/-- The text without the white space at its start and at its end. -/
def trimmed (s : Text) : Text :=
  ((s.runes.dropWhile Rune.isSpace).reverse.dropWhile Rune.isSpace).reverse.flatMap Rune.bytes

end Text

end Offside
