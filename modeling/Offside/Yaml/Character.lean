import Offside.Text.Basic

/-!
# Characters of YAML

The classes of characters that layout and tokens depend on. A text cannot hold control characters,
tabs and line breaks apart, so the zero character is free to stand behind its last one.
-/

namespace Offside.Yaml

/-- Stands behind the last character of a text. -/
def endMark : Char := '\x00'

/-- The byte order mark. -/
def byteOrderMark : Char := '\ufeff'

/-- A character that a text may hold. -/
def isAllowed (c : Char) : Bool :=
  let n := c.toNat
  n = 0x09 || n = 0x0A || n = 0x0D || (0x20 ≤ n && n ≤ 0x7E) || n = 0x85 ||
    (0xA0 ≤ n && n ≤ 0xFFFD) || 0x10000 ≤ n

/-- A character that breaks lines. -/
def isBreak (c : Char) : Bool := [0x0A, 0x0D, 0x85, 0x2028, 0x2029].contains c.toNat

/-- A space or a tab. -/
def isBlank (c : Char) : Bool := c = ' ' || c = '\t'

/-- A character that ends a line, or the end of the text. -/
def isLineEnd (c : Char) : Bool := isBreak c || c = endMark

/-- A character that parts two tokens: a blank, a line break or the end of the text. -/
def isGap (c : Char) : Bool := isBlank c || isLineEnd c

/-- A character of a name: an ASCII letter or digit, a hyphen or an underscore. -/
def isNameChar (c : Char) : Bool := c.isAlphanum || c = '-' || c = '_'

/-- The value of a hexadecimal digit. -/
def hexValue? (c : Char) : Option Nat :=
  if c.isDigit then some (c.toNat - 48)
  else if 'a' ≤ c && c ≤ 'f' then some (c.toNat - 87)
  else if 'A' ≤ c && c ≤ 'F' then some (c.toNat - 55)
  else none

/-- The bytes of characters. -/
def textOf (cs : List Char) : Text := cs.flatMap Text.ofChar

end Offside.Yaml
