import Offside.Token

/-!
# Layout

The indentation of the open blocks, and how many brackets are open. Inside brackets lines are joined
and layout means nothing. Widths are 64-bit integers and their arithmetic wraps, so a width can be
negative; such a width fits no block, and measuring it has no result.
-/

namespace Offside

-- The power of the core library, also where Mathlib's is at hand.
attribute [local instance (high)] instPowNat

/-- A 64-bit signed integer with the same value modulo `2 ^ 64`. -/
def wrap64 (n : Int) : Int := n.bmod (2 ^ (64 : Nat))

/-- The widths of the open blocks, innermost first, and the number of open brackets. Below the
blocks lies the top level, of width 0. -/
structure Layout where
  blocks : List Int := []
  brackets : Nat := 0
deriving Repr, DecidableEq

namespace Layout

/-- The width of the innermost block. -/
def current (l : Layout) : Int := l.blocks.headD 0

/-- How many blocks are open. -/
def depth (l : Layout) : Nat := l.blocks.length

/-- Whether a bracket is open. -/
def joined (l : Layout) : Bool := 0 < l.brackets

/-- An opening bracket. -/
def openBracket (l : Layout) : Layout := { l with brackets := l.brackets + 1 }

/-- A closing bracket. A stray one changes nothing. -/
def closeBracket (l : Layout) : Layout := { l with brackets := l.brackets - 1 }

/-- What a line's width says about blocks. -/
structure Measured where
  layout : Layout
  /-- The structural tokens that the line begins with. -/
  kinds : List Token.Kind
  /-- Whether the width is that of an open block, once the line is in it. -/
  aligned : Bool
deriving Repr, DecidableEq

/-- Closes the blocks that are wider than `width`: what is left, and how many were closed. There is
no result when the top level is wider as well. -/
def unwind (width : Int) : List Int → Option (List Int × Nat)
  | [] => if width < 0 then none else some ([], 0)
  | w :: ws =>
    if width < w then (unwind width ws).map fun (left, n) => (left, n + 1) else some (w :: ws, 0)

/-- Takes a line of the given width into the layout: it opens one block, stays, or closes some. -/
def measure (l : Layout) (width : Int) : Option Measured :=
  if width = l.current then some ⟨l, [], true⟩
  else if width > l.current then some ⟨{ l with blocks := width :: l.blocks }, [.indent], true⟩
  else
    (unwind width l.blocks).map fun (left, n) =>
      let l := { l with blocks := left }
      ⟨l, List.replicate n .dedent, width == l.current⟩

/-- Closes every block. -/
def flush (l : Layout) : Layout := { l with blocks := [] }

/-- The layout on one line. -/
def describe (l : Layout) : Text :=
  "IndentState\x7bstack: [" ++ Text.join " " ((0 :: l.blocks.reverse).map Text.ofInt) ++
    "], joinDepth: " ++ Text.ofNat l.brackets ++ "\x7d"

/-- The message for a line whose width fits no block. -/
def misaligned (width nearest : Int) : Text :=
  "unindent to width " ++ Text.ofInt width ++ " does not match any outer level (nearest " ++
    Text.ofInt nearest ++ ")"

/-- The column that a byte of leading blank space leads to: a tab goes to the next multiple of
`tabWidth`, a space one further, a form feed or vertical tab nowhere. -/
def widen (tabWidth width : Int) (b : UInt8) : Int :=
  if b = 32 then wrap64 (width + 1)
  else if b = 9 then wrap64 (width + (tabWidth - width.tmod tabWidth))
  else width

/-- The width of leading blank space. -/
def width (tabWidth : Int) (blank : Text) : Int := blank.foldl (widen tabWidth) 0

end Layout

end Offside
