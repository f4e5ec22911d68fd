import Offside.Text.Basic

/-!
# BLAKE2b

The hash function on words of 64 bits, without a key. A message is taken in blocks of 128 bytes; each
block is mixed into a state of eight words in twelve rounds.
-/

namespace Offside.Blake2b

-- The power of the core library, also where Mathlib's is at hand.
attribute [local instance (high)] instPowNat

/-- The chained state. -/
abbrev Chained := Vector UInt64 8

/-- The words of a block, and those that are mixed. -/
abbrev Words := Vector UInt64 16

/-- The initial state. -/
def initial : Chained :=
  #v[0x6a09e667f3bcc908, 0xbb67ae8584caa73b, 0x3c6ef372fe94f82b, 0xa54ff53a5f1d36f1,
    0x510e527fade682d1, 0x9b05688c2b3e6c1f, 0x1f83d9abfb41bd6b, 0x5be0cd19137e2179]

/-- The orders in which the rounds take the words of a block. -/
def schedule : List (Vector (Fin 16) 16) :=
  let ten : List (Vector (Fin 16) 16) :=
    [#v[0, 1, 2, 3, 4, 5, 6, 7, 8, 9, 10, 11, 12, 13, 14, 15],
      #v[14, 10, 4, 8, 9, 15, 13, 6, 1, 12, 0, 2, 11, 7, 5, 3],
      #v[11, 8, 12, 0, 5, 2, 15, 13, 10, 14, 3, 6, 7, 1, 9, 4],
      #v[7, 9, 3, 1, 13, 12, 11, 14, 2, 6, 5, 10, 4, 0, 15, 8],
      #v[9, 0, 5, 7, 2, 4, 10, 15, 14, 1, 11, 12, 6, 8, 3, 13],
      #v[2, 12, 6, 10, 0, 11, 8, 3, 4, 13, 7, 5, 15, 14, 1, 9],
      #v[12, 5, 1, 15, 14, 13, 4, 10, 0, 7, 6, 3, 9, 2, 8, 11],
      #v[13, 11, 7, 14, 12, 1, 3, 9, 5, 0, 15, 4, 8, 6, 2, 10],
      #v[6, 15, 14, 9, 11, 3, 0, 8, 12, 2, 13, 7, 1, 4, 10, 5],
      #v[10, 2, 8, 4, 7, 6, 1, 5, 15, 11, 9, 14, 3, 12, 13, 0]]
  ten ++ ten.take 2

/-- Rotates a word to the right by fewer than 64 bits. -/
def rotateRight (x n : UInt64) : UInt64 := (x >>> n) ||| (x <<< (64 - n))

/-- Mixes two words of the block into four words of the state. -/
def mix (v : Words) (a b c d : Fin 16) (x y : UInt64) : Words :=
  let v := v.set a (v[a] + v[b] + x)
  let v := v.set d (rotateRight (v[d] ^^^ v[a]) 32)
  let v := v.set c (v[c] + v[d])
  let v := v.set b (rotateRight (v[b] ^^^ v[c]) 24)
  let v := v.set a (v[a] + v[b] + y)
  let v := v.set d (rotateRight (v[d] ^^^ v[a]) 16)
  let v := v.set c (v[c] + v[d])
  v.set b (rotateRight (v[b] ^^^ v[c]) 63)

/-- One round: the columns, then the diagonals. -/
def round (block v : Words) (order : Vector (Fin 16) 16) : Words :=
  let word (i : Fin 16) : UInt64 := block[order[i]]
  let v := mix v 0 4 8 12 (word 0) (word 1)
  let v := mix v 1 5 9 13 (word 2) (word 3)
  let v := mix v 2 6 10 14 (word 4) (word 5)
  let v := mix v 3 7 11 15 (word 6) (word 7)
  let v := mix v 0 5 10 15 (word 8) (word 9)
  let v := mix v 1 6 11 12 (word 10) (word 11)
  let v := mix v 2 7 8 13 (word 12) (word 13)
  mix v 3 4 9 14 (word 14) (word 15)

/-- Mixes a block into the state. `count` is the number of bytes up to the end of the block. -/
def compress (h : Chained) (block : Words) (count : Nat) (last : Bool) : Chained :=
  let v : Words := h ++ initial
  let v := v.set 12 (v[12] ^^^ UInt64.ofNat (count % 2 ^ (64 : Nat)))
  let v := v.set 13 (v[13] ^^^ UInt64.ofNat (count / 2 ^ (64 : Nat)))
  let v := if last then v.set 14 (~~~v[14]) else v
  let v := schedule.foldl (round block) v
  Vector.ofFn fun (i : Fin 8) => h[i] ^^^ v[i.val] ^^^ v[i.val + 8]

/-- The word that begins at a byte of a block, lowest byte first. Bytes beyond the end are 0. -/
def wordAt (bytes : Array UInt8) (i : Nat) : UInt64 :=
  (List.range 8).foldr (fun j w => (w <<< 8) ||| (bytes.getD (i + j) 0).toUInt64) 0

/-- The words of a block. -/
def words (bytes : Text) : Words :=
  let bytes := bytes.toArray
  Vector.ofFn fun i => wordAt bytes (8 * i)

/-- Mixes the rest of a message into the state, of which `count` bytes have been taken. -/
def absorb (h : Chained) (count : Nat) (message : Text) : Chained :=
  let rest := message.drop 128
  if rest.isEmpty then compress h (words message) (count + message.length) true
  else absorb (compress h (words (message.take 128)) (count + 128) false) (count + 128) rest
termination_by message.length
decreasing_by
  rename_i h
  have : rest.length ≠ 0 := fun e => h (by simp [List.length_eq_zero_iff.mp e])
  simp only [rest, List.length_drop] at this ⊢
  omega

/-- The bytes of a word, lowest first. -/
def bytesOf (w : UInt64) : Text := (List.range 8).map fun i => (w >>> (8 * UInt64.ofNat i)).toUInt8

/-- The hash of a message, in at most 64 bytes. -/
def digest (size : Nat) (message : Text) : Text :=
  let start := initial.set 0 (initial[0] ^^^ (0x01010000 + UInt64.ofNat size))
  ((absorb start 0 message).toList.flatMap bytesOf).take size

end Offside.Blake2b
