import Offside.Text.Basic

/-!
# Timestamps

A scalar may be a date, or a date with a time of day. The date and the time stand with a `T` or a `t`
between them, and then the offset of a zone or a `Z` has to follow; or with spaces between them, and
then nothing follows. Fields other than the year may have a single digit. Such a timestamp is written
with two digits in each field.
-/

namespace Offside.Yaml

/-- A date and a time of day at an offset. -/
structure Timestamp where
  year : Nat
  month : Nat
  day : Nat
  hour : Nat := 0
  minute : Nat := 0
  second : Nat := 0
  /-- The fraction of a second, in nine digits. -/
  nanos : Nat := 0
  /-- How many minutes the clock is ahead of that of universal time. -/
  offset : Int := 0
deriving Repr, DecidableEq

namespace Timestamp

/-- Whether a year has a leap day. -/
def isLeap (year : Nat) : Bool := year % 4 = 0 && (year % 100 ≠ 0 || year % 400 = 0)

/-- How many days a month has. -/
def daysIn (year month : Nat) : Nat :=
  if month = 2 then (if isLeap year then 29 else 28)
  else if [4, 6, 9, 11].contains month then 30
  else 31

/-- Reads a field of one or two digits below a limit. -/
def field? (limit : Nat) (s : Text) : Option (Nat × Text) :=
  match s with
  | a :: b :: s =>
    if !Text.isDigit a then none
    else
      let (digits, s) := if Text.isDigit b then ([a, b], s) else ([a], b :: s)
      let n := Text.digitsValue digits
      if n < limit then some (n, s) else none
  | [a] => if Text.isDigit a && (a.toNat - 48) < limit then some (a.toNat - 48, []) else none
  | [] => none

/-- Reads a certain byte. -/
def byte? (b : UInt8) : Text → Option Text
  | c :: s => if c = b then some s else none
  | [] => none

/-- Reads a date. -/
def date? (s : Text) : Option (Timestamp × Text) := do
  let digits := s.takeWhile Text.isDigit
  if digits.length ≠ 4 then none
  let year := Text.digitsValue digits
  let s ← byte? 45 (s.drop 4)
  let (month, s) ← field? 13 s
  let s ← byte? 45 s
  let (day, s) ← field? 32 s
  if month = 0 || day = 0 || daysIn year month < day then none
  else some ({ year, month, day }, s)

/-- Reads a fraction of a second, which may be missing. Digits behind the ninth do not count. -/
def fraction (s : Text) : Nat × Text :=
  match s with
  | b :: s =>
    let digits := s.takeWhile Text.isDigit
    if (b = 46 || b = 44) && !digits.isEmpty then
      (Text.digitsValue ((digits ++ List.replicate 9 48).take 9), s.drop digits.length)
    else (0, b :: s)
  | [] => (0, [])

/-- Reads a time of day. -/
def time? (t : Timestamp) (s : Text) : Option (Timestamp × Text) := do
  let (hour, s) ← field? 24 s
  let s ← byte? 58 s
  let (minute, s) ← field? 60 s
  let s ← byte? 58 s
  let (second, s) ← field? 60 s
  let (nanos, s) := fraction s
  some ({ t with hour, minute, second, nanos }, s)

/-- Reads two digits of which the value is at most a limit. -/
def pair? (limit : Nat) (a b : UInt8) : Option Nat :=
  let n := Text.digitsValue [a, b]
  if Text.isDigit a && Text.isDigit b && n ≤ limit then some n else none

/-- Reads the offset of a zone, in minutes. -/
def zone? (s : Text) : Option Int :=
  match s with
  | [90] => some 0
  | [sign, a, b, 58, c, d] => do
    let n : Int := 60 * (← pair? 24 a b) + (← pair? 60 c d)
    if sign = 43 then some n else if sign = 45 then some (-n) else none
  | _ => none

/-- Reads a timestamp. -/
def ofText? (s : Text) : Option Timestamp := do
  let (t, s) ← date? s
  match s with
  | [] => some t
  | b :: s =>
    if b = 84 || b = 116 then
      let (t, s) ← time? t s
      let offset ← zone? s
      some { t with offset }
    else if b = 32 then
      match ← time? t (s.dropWhile (· = 32)) with
      | (t, []) => some t
      | _ => none
    else none

/-- A number in at least so many digits. -/
def padded (width n : Nat) : Text :=
  let digits := Text.ofNat n
  List.replicate (width - digits.length) 48 ++ digits

/-- The fraction of a second as it is written, without zeros at its end. -/
def fractionText (nanos : Nat) : Text :=
  let digits := Text.dropEndWhile (· = 48) (padded 9 nanos)
  if digits.isEmpty then [] else "." ++ digits

/-- The offset of a zone as it is written. -/
def zoneText (offset : Int) : Text :=
  if offset = 0 then "Z"
  else
    let n := offset.natAbs
    (if offset < 0 then ("-" : Text) else "+") ++ padded 2 (n / 60) ++ ":" ++ padded 2 (n % 60)

/-- Whether the timestamp can be written: its offset is less than a day. -/
def isWritable (t : Timestamp) : Bool := t.offset.natAbs < 1440

/-- The timestamp as it is written. -/
def text (t : Timestamp) : Text :=
  padded 4 t.year ++ "-" ++ padded 2 t.month ++ "-" ++ padded 2 t.day ++ "T" ++ padded 2 t.hour ++ ":" ++
    padded 2 t.minute ++ ":" ++ padded 2 t.second ++ fractionText t.nanos ++ zoneText t.offset

end Timestamp

end Offside.Yaml
