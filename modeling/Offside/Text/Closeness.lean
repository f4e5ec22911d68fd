import Offside.Text.Rune

/-!
# Close texts

Which of some candidates may have been meant by a text: those that contain its letters in order,
whatever their case, ranked by edit distance.
-/

namespace Offside.Closeness

/-- The row of edit distances after one more unit `c` of the first text. `diagonal` and `left` are
the neighbours of the entry that comes next. -/
def nextEntries [BEq α] (c : α) : (diagonal left : Nat) → List α → List Nat → List Nat
  | diagonal, left, b :: t, up :: row =>
    let cost := if c == b then 0 else 1
    let entry := min (min (up + 1) (left + 1)) (diagonal + cost)
    entry :: nextEntries c up entry t row
  | _, _, _, _ => []

/-- The row of edit distances between the text read so far with `c` behind it and the beginnings of
`t`, given the row without `c`. -/
def nextRow [BEq α] (t : List α) (row : List Nat) (c : α) : List Nat :=
  match row with
  | [] => []
  | d :: row => (d + 1) :: nextEntries c d (d + 1) t row

/-- The least number of insertions, deletions and replacements that turn `s` into `t`. -/
def editDistance [BEq α] (s t : List α) : Nat :=
  (s.foldl (nextRow t) (List.range (t.length + 1))).getLastD 0

/-- Whether the units of `s` occur in `t` in order. -/
def isSubsequence [BEq α] : List α → List α → Bool
  | [], _ => true
  | _ :: _, [] => false
  | a :: s, b :: t => if a == b then isSubsequence s t else isSubsequence (a :: s) t

/-- A character in lowercase, as far as lowercase ASCII letters are concerned. -/
def lowerChar (c : Char) : Char :=
  if c.toNat = 0x130 then 'i' else if c.toNat = 0x212A then 'k' else c.toLower

/-- A text in lowercase. -/
def folded (s : Text) : Text :=
  s.runes.flatMap fun
    | .char c => Text.ofChar (lowerChar c)
    | .stray _ => Text.ofChar '�'

/-- Whether a candidate contains the text, whatever the case of letters. -/
def matchesFolded (s candidate : Text) : Bool :=
  let s := folded s
  let candidate := folded candidate
  s.length ≤ candidate.length && isSubsequence s.runes candidate.runes

/-- Candidates in the order of their distances, equal ones as they come. -/
def byDistance (ranked : List (Text × Nat)) : List (Text × Nat) :=
  ranked.mergeSort fun a b => a.2 ≤ b.2

/-- The edit distance between two texts, in characters. -/
def distance (s t : Text) : Nat := editDistance s.runes t.runes

/-- The candidates that contain the text, nearest first. -/
def ranked (s : Text) (candidates : List Text) : List Text :=
  (byDistance ((candidates.filter (matchesFolded s)).map fun c => (c, distance s c))).map (·.1)

end Offside.Closeness
