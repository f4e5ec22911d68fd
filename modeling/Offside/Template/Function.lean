import Offside.Template.Print

/-!
# The functions of templates

What a function gives for its arguments. Comparisons need values of one kind, except that what is not
there differs from everything that is. `and` and `or` are not here: they decide which of their
arguments are evaluated.
-/

namespace Offside.Template

/-! ## Comparisons -/

namespace Datum

/-- The integer that a value is. -/
def integer? : Datum → Option Int
  | int n => some n
  | byte b => some b.toNat
  | _ => none

/-- Whether a value is like the one that is not there. -/
def isNothing : Datum → Bool
  | absent => true
  | list items spare => items.isEmpty && spare.isEmpty
  | _ => false

/-- Whether two values are equal, unless they cannot be compared. -/
def equal? : Datum → Datum → Option Bool
  | bool a, bool b => some (a == b)
  | float x, float y => some (x == y)
  | text s, text t => some (s == t)
  | record _, record _ => some true
  | list xs xspare, list ys yspare =>
    let (x, y) := ((list xs xspare).isNothing, (list ys yspare).isNothing)
    if x || y then some (x == y) else none
  | d, e =>
    match d.integer?, e.integer? with
    | some m, some n => some (m == n)
    | _, _ =>
      match d, e with
      | absent, e => some e.isNothing
      | d, absent => some d.isNothing
      | _, _ => none

/-- Whether a value is equal to one of others. The first that it cannot be compared with fails. -/
def equalsAny? (d : Datum) : List Datum → Option Bool
  | [] => some false
  | e :: rest => do
    if ← d.equal? e then some true else d.equalsAny? rest

/-- Whether a value is less than another one. -/
def less? : Datum → Datum → Option Bool
  | float x, float y => some (x < y)
  | text s, text t => some (!Text.le t s)
  | d, e => do
    let m ← d.integer?
    let n ← e.integer?
    some (decide (m < n))

/-- Whether a value is less than another one or equal to it. -/
def lessOrEqual? (d e : Datum) : Option Bool := do
  if ← d.less? e then some true else d.equal? e

/-! ## Parts of values -/

/-- The length of a text or a list. -/
def length? : Datum → Option Nat
  | text t => some t.length
  | list items _ => some items.length
  | _ => none

/-- A position up to a limit. -/
def position? (limit : Nat) (d : Datum) : Option Nat := do
  let n ← d.integer?
  if 0 ≤ n ∧ n ≤ limit then some n.toNat else none

/-- The part of a value at positions, one inside the other. -/
def index? : Datum → List Datum → Option Datum
  | absent, _ => none
  | d, [] => some d
  | text t, i :: rest => do
    let b ← t[← i.position? t.length]?
    (byte b).index? rest
  | list items _, i :: rest => do
    let t ← items[← i.position? items.length]?
    (text t).index? rest
  | _, _ => none

/-- The ends of a slice: what is not given is the whole length. -/
def ends? (length limit : Nat) (positions : List Datum) : Option (List Nat) := do
  let given ← positions.mapM (position? limit)
  let ends := given ++ [0, length].drop given.length
  if ends.Pairwise (· ≤ ·) then some ends else none

/-- The slice of a value between positions. A third one limits what slices of the slice can show. -/
def slice? (d : Datum) (positions : List Datum) : Option Datum :=
  match d with
  | text t => do
    match ← ends? t.length t.length positions with
    | [i, j] => some (text ((t.take j).drop i))
    | _ => none
  | list items spare => do
    let all := items ++ spare
    match ← ends? items.length all.length positions with
    | [i, j] => some (list ((all.take j).drop i) (all.drop j))
    | [i, j, k] => some (list ((all.take j).drop i) ((all.take k).drop j))
    | _ => none
  | _ => none

end Datum

/-! ## Escapes -/

/-- A text as it stands in a page. -/
def htmlEscaped (t : Text) : Text :=
  t.flatMap fun b =>
    if b = 34 then "&#34;"
    else if b = 39 then "&#39;"
    else if b = 38 then "&amp;"
    else if b = 60 then "&lt;"
    else if b = 62 then "&gt;"
    else if b = 0 then "�"
    else [b]

/-- A unit of a text as it stands in a string literal of JavaScript. -/
def scriptRune : Rune → Text
  | .stray b => [b]
  | .char c =>
    let code : Text := "\\u" ++ Place.upper (Text.hexPadded 4 c.toNat)
    if c = '\\' then "\\\\"
    else if c = '\'' then "\\'"
    else if c = '"' then "\\\""
    else if ['<', '>', '&', '='].contains c || c.toNat < 0x20 then code
    else if c.toNat < 0x80 || isPrintable c then Text.ofChar c
    else code

/-- A text as it stands in a string literal of JavaScript. -/
def scriptEscaped (t : Text) : Text := t.runes.flatMap scriptRune

/-- A text as it stands in the query of an address. -/
def queryEscaped (t : Text) : Text :=
  t.flatMap fun b =>
    if Text.isLetter b || Text.isDigit b || [45, 95, 46, 126].contains b then [b]
    else if b = 32 then "+"
    else "%" ++ Place.upper (Text.hexByte b)

/-- A value as it is written, if that differs from how it is printed, and whether it is a text then. -/
def Datum.shown : Datum → Text × Bool
  | absent => (absent.format, true)
  | record fields => ((record fields).format, false)
  | d => (d.printed, d.isText)

/-- The text of arguments that are going to be escaped. -/
def joined (args : List Datum) : Text := sideBySide (args.map Datum.shown)

/-! ## Calls -/

/-- What a function gives for its arguments. -/
def Function.apply? (f : Function) (args : List Datum) : Option Datum :=
  match f, args with
  | .not, [d] => some (.bool !d.truthy)
  | .eq, d :: e :: rest => (d.equalsAny? (e :: rest)).map .bool
  | .ne, [d, e] => (d.equal? e).map fun b => .bool !b
  | .lt, [d, e] => (d.less? e).map .bool
  | .le, [d, e] => (d.lessOrEqual? e).map .bool
  | .gt, [d, e] => (d.lessOrEqual? e).map fun b => .bool !b
  | .ge, [d, e] => (d.less? e).map fun b => .bool !b
  | .len, [d] => d.length?.map fun n => .int n
  | .index, d :: positions => d.index? positions
  | .slice, d :: positions => d.slice? positions
  | .print, args => some (.text (printed args))
  | .printLine, args => some (.text (printedLine args))
  | .printFormat, .text format :: args => some (.text (printFormatted format args))
  | .html, args => some (.text (htmlEscaped (joined args)))
  | .js, args => some (.text (scriptEscaped (joined args)))
  | .urlquery, args => some (.text (queryEscaped (joined args)))
  | _, _ => none

end Offside.Template
