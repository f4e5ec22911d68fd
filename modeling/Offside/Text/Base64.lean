import Offside.Text.Basic

/-!
# Base 64

Bytes written in the digits of base 64, three bytes in four digits. The last group is filled up with
equals signs. Line breaks between digits do not count.
-/

namespace Offside.Base64

/-- The digits. -/
def alphabet : Text := "ABCDEFGHIJKLMNOPQRSTUVWXYZabcdefghijklmnopqrstuvwxyz0123456789+/"

/-- The digit of a value below 64. -/
def digit (n : Nat) : UInt8 := alphabet.getD n 65

/-- The value of a digit. -/
def value? (b : UInt8) : Option Nat := alphabet.idxOf? b

/-- Writes bytes. -/
def encode : Text → Text
  | [] => []
  | [a] =>
    let n := 65536 * a.toNat
    [digit (n / 262144), digit (n / 4096 % 64), 61, 61]
  | [a, b] =>
    let n := 65536 * a.toNat + 256 * b.toNat
    [digit (n / 262144), digit (n / 4096 % 64), digit (n / 64 % 64), 61]
  | a :: b :: c :: s =>
    let n := 65536 * a.toNat + 256 * b.toNat + c.toNat
    digit (n / 262144) :: digit (n / 4096 % 64) :: digit (n / 64 % 64) :: digit (n % 64) :: encode s

/-- Reads groups of four digits. -/
def decodeGroups : Text → Option Text
  | [] => some []
  | a :: b :: c :: d :: s => do
    let n := 262144 * (← value? a) + 4096 * (← value? b)
    if c = 61 then
      if d = 61 && s.isEmpty then some [UInt8.ofNat (n / 65536)] else none
    else
      let n := n + 64 * (← value? c)
      let (x, y) := (UInt8.ofNat (n / 65536), UInt8.ofNat (n / 256 % 256))
      if d = 61 then
        if s.isEmpty then some [x, y] else none
      else
        let n := n + (← value? d)
        return x :: y :: UInt8.ofNat (n % 256) :: (← decodeGroups s)
  | _ => none

/-- Reads bytes. -/
def decode? (s : Text) : Option Text := decodeGroups (s.filter fun b => b ≠ 10 && b ≠ 13)

end Offside.Base64
