import Offside.Text.Quoted
import Offside.Number.Reader
import Offside.Lexer.Scanner

/-!
# Log lines

A record is written on one line as `key=value` pairs: its level, its message and its attributes.
Texts that a reader could not take apart again are quoted. Outside debug mode the level is not
written and debug records are left out.
-/

namespace Offside.Log

/-- A level: `-4` debug, `0` info, `4` warning, `8` error, and what lies between. -/
abbrev Level := Int

namespace Level

/-- Debug. -/
def debug : Level := -4

/-- The named levels. -/
def named : List (Text × Level) := [("DEBUG", -4), ("INFO", 0), ("WARN", 4), ("ERROR", 8)]

/-- A level as the nearest named level below it and the distance to it. -/
def describe (l : Level) : Text :=
  let (base, start) : Text × Level :=
    if l < 0 then ("DEBUG", -4) else if l < 4 then ("INFO", 0) else if l < 8 then ("WARN", 4)
    else ("ERROR", 8)
  let offset := l - start
  if offset = 0 then base
  else if 0 < offset then base ++ "+" ++ Text.ofInt offset
  else base ++ Text.ofInt offset

/-- A character in uppercase, as far as uppercase ASCII letters are concerned. -/
def upperChar (c : Char) : Char :=
  if c.toNat = 0x131 then 'I' else if c.toNat = 0x17F then 'S' else c.toUpper

/-- A name in uppercase. -/
def upperName (s : Text) : Text := s.runes.flatMap fun r => Text.ofChar (upperChar r.shown)

/-- Reads an offset, which has a sign. There is none in the empty text. -/
def offset? (s : Text) : Option Int :=
  if s.isEmpty then some 0 else (NumberText.readInt s).map Int64.toInt

/-- Reads a level: a named one in any case, perhaps with a signed offset. Levels have 64 bits. -/
def ofText? (s : Text) : Option Level := do
  let name := s.takeWhile fun b => b != 43 && b != 45
  let base ← named.lookup (upperName name)
  let offset ← offset? (s.drop name.length)
  some (wrap64 (base + offset))

end Level

/-- The value of an attribute. -/
inductive Value where
  | text (t : Text)
  | int (n : Int)
  | bool (b : Bool)
  | null
deriving Repr, DecidableEq

/-- A record. -/
structure Record where
  level : Level := Level.debug
  message : Text
  /-- The group that the attributes belong to, empty for none. -/
  group : Text := []
  attributes : List (Text × Value) := []
deriving Repr, DecidableEq

/-- Whether a unit keeps a text from being written without quotes. -/
def needsQuotes : Rune → Bool
  | .stray _ => true
  | .char c =>
    if c.toNat < 0x80 then c.toNat ≤ 0x20 || c = '=' || c = '"'
    else c = '�' || !isPrintable c

/-- A text as it stands on a log line. -/
def field (s : Text) : Text :=
  if s.isEmpty || s.runes.any needsQuotes then Text.quoted s else s

/-- A value as it stands on a log line. -/
def Value.field : Value → Text
  | text t => Log.field t
  | int n => Text.ofInt n
  | bool b => Text.ofBool b
  | null => "<nil>"

/-- The key of an attribute of the group. -/
def key (group name : Text) : Text :=
  if group.isEmpty then field name
  else
    let front := group ++ "."
    if field front = front ∧ field name = name then front ++ name else Text.quoted (front ++ name)

/-- Whether an attribute is written. Outside a group, `time` never is and `level` only in debug mode. -/
def isKept (debug : Bool) (group : Text) (a : Text × Value) : Bool :=
  !(a.1.isEmpty && a.2 == .null) &&
    (!group.isEmpty || (a.1 != ("time" : Text) && (debug || a.1 != ("level" : Text))))

/-- The line of a record, if records of its level are written. -/
def line? (debug : Bool) (r : Record) : Option Text :=
  if r.level < (if debug then Level.debug else 0) then none
  else
    let level : List Text := if debug then ["level=" ++ field r.level.describe] else []
    let attributes := (r.attributes.filter (isKept debug r.group)).map fun (name, value) =>
      key r.group name ++ "=" ++ value.field
    some (Text.join " " (level ++ [("msg=" : Text) ++ field r.message] ++ attributes))

/-- Whether an environment turns debug mode on. -/
def debugByEnvironment (environment : List (Text × Text)) : Bool :=
  environment.lookup ("PYJS_DEBUG" : Text) == some ("1" : Text)

/-- The line of a debug record, in debug mode. -/
def debugLine (message : Text) (attributes : List (Text × Value)) : Text :=
  (line? true { message, attributes }).getD []

/-- The record of what a scan notes down. -/
def ofEvent : Scanner.Event → Record
  | .token t =>
    { message := "token"
      attributes := [("kind", .text t.kind.name), ("subtype", .text t.subtype.name),
        ("literal", .text t.literal), ("line", .int t.line), ("column", .int t.column)] }
  | .measured line width count layout =>
    { message := "indentation"
      attributes := [("line", .int line), ("width", .int width), ("emit", .int count),
        ("state", .text layout.describe)] }

/-- How much of a scan is logged. -/
inductive Detail where
  /-- Its tokens. -/
  | tokens
  /-- Its tokens, and how it measured each line. -/
  | full
deriving Repr, DecidableEq

/-- Whether a note of a scan is logged. -/
def Detail.keeps : Detail → Scanner.Event → Bool
  | .tokens, .measured .. => false
  | _, _ => true

/-- The records of what a scan has noted down. -/
def ofEvents (d : Detail) (events : List Scanner.Event) : List Record := (events.filter d.keeps).map ofEvent

end Offside.Log
