import Offside.Text.Rune
import Offside.Text.Printable

/-!
# Quoted text

A text between double quotes, in which quotes, backslashes and everything that is not printable are
escaped, so that the result is printable and stands on one line.
-/

namespace Offside.Text

/-- `n` in lowercase hexadecimal, with zeros in front up to `width` digits. -/
def hexPadded (width n : Nat) : Text :=
  let digits : Text := (Nat.toDigits 16 n).map Char.toUInt8
  List.replicate (width - digits.length) 48 ++ digits

/-- One unit as it stands in quoted text. -/
def quoteRune : Rune → Text
  | .stray b => "\\x" ++ hexByte b
  | .char c =>
    if c = '"' then "\\\""
    else if c = '\\' then "\\\\"
    else if isPrintable c then ofChar c
    else if c.toNat = 7 then "\\a"
    else if c.toNat = 8 then "\\b"
    else if c.toNat = 9 then "\\t"
    else if c.toNat = 10 then "\\n"
    else if c.toNat = 11 then "\\v"
    else if c.toNat = 12 then "\\f"
    else if c.toNat = 13 then "\\r"
    else if c.toNat < 0x80 then "\\x" ++ hexPadded 2 c.toNat
    else if c.toNat < 0x10000 then "\\u" ++ hexPadded 4 c.toNat
    else "\\U" ++ hexPadded 8 c.toNat

/-- The text between double quotes, escaped. -/
def quoted (s : Text) : Text := "\"" ++ s.runes.flatMap quoteRune ++ "\""

end Offside.Text
