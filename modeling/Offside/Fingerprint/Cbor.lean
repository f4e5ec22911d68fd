import Offside.Text.Basic

/-!
# Canonical CBOR

The binary encoding of integers, texts, lists and maps in which every head is as short as possible.
A head holds the major type of an item, which says what kind it is, and its argument, which is the
number itself or a length.
-/

namespace Offside.Cbor

-- The power of the core library, also where Mathlib's is at hand.
attribute [local instance (high)] instPowNat

/-- The `n` low bytes of a number, highest first. -/
def bigEndian : (n : Nat) → Nat → Text
  | 0, _ => []
  | n + 1, x => bigEndian n (x / 256) ++ [UInt8.ofNat (x % 256)]

/-- The first byte of an item: the major type in the three high bits, and five low bits. -/
def initial (major : UInt8) (low : Nat) : UInt8 := 32 * major + UInt8.ofNat low

/-- The head of an item: its first byte, with the argument in the low bits if it is below 24, else in the 1, 2,
4 or 8 bytes behind. -/
def head (major : UInt8) (argument : Nat) : Text :=
  if argument < 24 then [initial major argument]
  else if argument < 2 ^ (8 : Nat) then initial major 24 :: bigEndian 1 argument
  else if argument < 2 ^ (16 : Nat) then initial major 25 :: bigEndian 2 argument
  else if argument < 2 ^ (32 : Nat) then initial major 26 :: bigEndian 4 argument
  else initial major 27 :: bigEndian 8 argument

/-- An integer. A negative one is encoded as its distance from `-1`. -/
def int : Int → Text
  | .ofNat n => head 0 n
  | .negSucc n => head 1 n

/-- A text. -/
def text (t : Text) : Text := head 3 t.length ++ t

/-- A list of encoded items. -/
def array (items : List Text) : Text := head 4 items.length ++ items.flatten

/-- A map of keys to encoded items. In the canonical order a shorter key comes first, and of two keys
of one length the lesser one. -/
def map (entries : List (Text × Text)) : Text :=
  head 5 entries.length ++ entries.flatMap fun (key, item) => text key ++ item

end Offside.Cbor
