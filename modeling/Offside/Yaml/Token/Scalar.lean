import Offside.Yaml.Token.Stream

/-!
# Scalars

A scalar stands plain, between quotes, or in a block of lines of its own. A line break inside a plain
or a quoted one is folded: a single one is read as a space, and of several the first is left out.
-/

namespace Offside.Yaml.Scan

/-! ## Folding -/

/-- The characters of a scalar as far as they have been read, last first, and the gap behind them. -/
structure Folding where
  text : List Char := []
  /-- The blanks behind the text, last first. -/
  blanks : List Char := []
  /-- Whether there is a line break behind the text. -/
  broken : Bool := false
  /-- The first line break behind the text. -/
  first : List Char := []
  /-- The further line breaks, last first. -/
  more : List Char := []
deriving Repr, DecidableEq

/-- Puts what the gap is read as behind the text. -/
def Folding.close (f : Folding) : Folding :=
  if f.broken then
    let gap := if f.first = ['\n'] then (if f.more.isEmpty then [' '] else f.more) else f.more ++ f.first
    { text := gap ++ f.text }
  else { text := f.blanks ++ f.text }

/-- Puts a character behind the text. -/
def Folding.push (c : Char) (f : Folding) : Folding := { f with text := c :: f.text }

/-- Takes the blanks and line breaks of a gap. `tabs` says whether a tab may stand at a column of a
further line. -/
def takeGap (tabs : Nat → Bool) : (fuel : Nat) → Folding → Scan Folding
  | 0, _ => failure
  | fuel + 1, f => do
    need 1
    let c ← look 0
    if isBlank c then
      if f.broken then
        if c = '\t' && !tabs (← get).place.column then failure
        else
          skip
          takeGap tabs fuel f
      else takeGap tabs fuel { f with blanks := (← take) :: f.blanks }
    else if isBreak c then
      need 2
      let b ← takeBreak
      if f.broken then takeGap tabs fuel { f with more := b ++ f.more }
      else takeGap tabs fuel { f with blanks := [], broken := true, first := b }
    else return f

/-! ## Plain scalars -/

/-- Whether a plain scalar ends before a character, of which the next one is given. -/
def endsPlain (inFlow : Bool) (c next : Char) : Bool :=
  (c = ':' && isGap next) || (inFlow && ",?[]\x7b\x7d".toList.contains c)

/-- Takes the characters of a plain scalar up to a gap. -/
def takePlainRun : (fuel : Nat) → Folding → Scan Folding
  | 0, _ => failure
  | fuel + 1, f => do
    let s ← get
    let c := s.source.look 0
    if isGap c || endsPlain s.inFlow c (s.source.look 1) then return f
    else
      skip
      need 2
      takePlainRun fuel (f.close.push c)

/-- Takes the lines of a plain scalar. Outside brackets each further line lies to the right of the
block. -/
def takePlainLines : (fuel : Nat) → Folding → Scan Folding
  | 0, _ => failure
  | fuel + 1, f => do
    need 4
    if ← atDocumentMark then return f
    else if (← look 0) = '#' then return f
    else
      let f ← takePlainRun (← get).bound f
      if isGap (← look 0) && (← look 0) ≠ endMark then
        let indent := (← get).indent
        let f ← takeGap (fun column => indent < column) (← get).bound f
        let s ← get
        if !s.inFlow && s.place.column ≤ s.indent then return f
        else takePlainLines fuel f
      else return f

/-- Takes a plain scalar. If a line break has been taken behind it, a key may begin there. -/
def takePlain : Scan (List Char) := do
  let f ← takePlainLines (← get).bound {}
  if f.broken then allowKey true
  return f.text.reverse

/-! ## Quoted scalars -/

/-- What a character behind a backslash stands for. -/
def escapes : List (Char × Char) :=
  [('0', '\x00'), ('a', '\x07'), ('b', '\x08'), ('t', '\t'), ('\t', '\t'), ('n', '\n'), ('v', '\x0b'),
    ('f', '\x0c'), ('r', '\r'), ('e', '\x1b'), (' ', ' '), ('"', '"'), ('\x27', '\x27'), ('\\', '\\'),
    ('N', '\x85'), ('_', '\xa0'), ('L', '\u2028'), ('P', '\u2029')]

/-- How many digits an escape by number has. -/
def escapeSizes : List (Char × Nat) := [('x', 2), ('u', 4), ('U', 8)]

/-- The value of the `n` hexadecimal digits from the character `i` on. -/
def hexAt : (n i value : Nat) → Scan Nat
  | 0, _, value => return value
  | n + 1, i, value => do
    let some d := hexValue? (← look i) | failure
    hexAt n (i + 1) (16 * value + d)

/-- Takes an escape. -/
def takeEscape : Scan Char := do
  let c ← look 1
  match escapes.lookup c with
  | some e =>
    skipMany 2
    return e
  | none =>
    let some size := escapeSizes.lookup c | failure
    skipMany 2
    need size
    let n ← hexAt size 0 0
    if (0xD800 ≤ n && n ≤ 0xDFFF) || 0x10FFFF < n then failure
    skipMany size
    return Char.ofNat n

/-- Takes the characters of a quoted scalar up to a gap or the closing quote. Between double quotes, a
backslash at the end of a line joins it with the next. -/
def takeQuotedRun (quote : Char) : (fuel : Nat) → Folding → Scan Folding
  | 0, _ => failure
  | fuel + 1, f => do
    let c ← look 0
    let next ← look 1
    if isGap c then return f
    else if c = quote then
      if quote = '\x27' && next = quote then
        skipMany 2
        need 2
        takeQuotedRun quote fuel (f.push c)
      else return f
    else if quote = '"' && c = '\\' then
      if isBreak next then
        need 3
        skip
        skipBreak
        return { f with broken := true }
      else
        let e ← takeEscape
        need 2
        takeQuotedRun quote fuel (f.push e)
    else
      skip
      need 2
      takeQuotedRun quote fuel (f.push c)

/-- Takes the lines of a quoted scalar behind the opening quote. -/
def takeQuotedLines (quote : Char) : (fuel : Nat) → Folding → Scan Folding
  | 0, _ => failure
  | fuel + 1, f => do
    need 4
    if ← atDocumentMark then failure
    else if (← look 0) = endMark then failure
    else
      let f ← takeQuotedRun quote (← get).bound f
      need 1
      if (← look 0) = quote then return f
      else
        let f ← takeGap (fun _ => true) (← get).bound f
        takeQuotedLines quote fuel f.close

/-- Takes a quoted scalar. -/
def takeQuoted (quote : Char) : Scan (List Char) := do
  skip
  let f ← takeQuotedLines quote (← get).bound {}
  skip
  return f.text.reverse

/-! ## Block scalars -/

/-- What becomes of the line breaks at the end of a block scalar. -/
inductive Chomping where
  /-- One is kept. -/
  | clip
  /-- None is kept. -/
  | strip
  /-- All are kept. -/
  | keep
deriving Repr, DecidableEq

/-- Takes the sign for the line breaks at the end, if there is one. -/
def takeChomping : Scan (Option Chomping) := do
  match ← look 0 with
  | '+' => skip; return some .keep
  | '-' => skip; return some .strip
  | _ => return none

/-- Takes the digit that tells the indentation, 0 if there is none. -/
def takeIncrement : Scan Nat := do
  let c ← look 0
  if c = '0' then failure
  else if c.isDigit then
    skip
    return c.toNat - 48
  else return 0

/-- Takes the signs at the head of a block scalar, in any order. -/
def takeHead : Scan (Chomping × Nat) := do
  need 1
  match ← takeChomping with
  | some chomping =>
    need 1
    return (chomping, ← takeIncrement)
  | none =>
    let increment ← takeIncrement
    need 1
    if increment = 0 then return (.clip, 0)
    else return ((← takeChomping).getD .clip, increment)

/-- Takes line breaks and the indentation of lines before the next line with content, up to the
column `indent`; 0 stands for any column. Gives the line breaks, last first, and the rightmost
column. -/
def takeIndentation (indent : Nat) : (fuel : Nat) → (breaks : List Char) → (rightmost : Nat) →
    Scan (List Char × Nat)
  | 0, _, _ => failure
  | fuel + 1, breaks, rightmost => do
    skipWhile (fun s c => c = ' ' && (indent = 0 || s.place.column < indent)) (← get).bound
    let s ← get
    let rightmost := max rightmost s.place.column
    let c := s.source.look 0
    if c = '\t' && (indent = 0 || s.place.column < indent) then failure
    else if isBreak c then
      need 2
      takeIndentation indent fuel ((← takeBreak) ++ breaks) rightmost
    else return (breaks, rightmost)

/-- The column of a block scalar whose first line with content begins where it does, or which has
none. -/
def blockColumn (indent : Int) (rightmost : Nat) : Nat := max rightmost (max 1 (indent + 1).toNat)

/-- The lines of a block scalar as far as they have been read. -/
structure Lines where
  /-- The characters, last first. -/
  text : List Char := []
  /-- The line break behind the last line. -/
  last : List Char := []
  /-- The line breaks behind that one, last first. -/
  more : List Char := []
  /-- Whether the last line begins with a blank. -/
  blank : Bool := false
deriving Repr, DecidableEq

/-- Puts the line breaks behind the last line into the text, given whether the next line begins with
a blank. Between two lines that do not, a folded scalar has a space for a single line break. -/
def Lines.open (folded : Bool) (l : Lines) (blank : Bool) : List Char :=
  let last :=
    if folded && !l.blank && !blank && l.last = ['\n'] then (if l.more.isEmpty then [' '] else [])
    else l.last
  l.more ++ last ++ l.text

/-- Takes the lines of a block scalar at a column. -/
def takeLines (folded : Bool) (column : Nat) : (fuel : Nat) → Lines → Scan Lines
  | 0, _ => failure
  | fuel + 1, l => do
    need 1
    let s ← get
    let c := s.source.look 0
    if s.place.column = column && c ≠ endMark then
      let text ← takeWhile (fun c => !isLineEnd c) s.bound (l.open folded (isBlank c))
      need 2
      let last ← takeBreak
      let (more, _) ← takeIndentation column s.bound [] 0
      takeLines folded column fuel { text, last, more, blank := isBlank c }
    else return l

/-- Takes a block scalar. Its column is told at its head or is that of its first line with content. -/
def takeBlock (folded : Bool) : Scan (List Char) := do
  skip
  let (chomping, increment) ← takeHead
  skipBlanks
  if (← look 0) = '#' then skipLine
  if !isLineEnd (← look 0) then failure
  need 2
  skipBreak
  let indent := (← get).indent
  let column := if increment = 0 then 0 else (max indent 0).toNat + increment
  let (more, rightmost) ← takeIndentation column (← get).bound [] 0
  let column := if column = 0 then blockColumn indent rightmost else column
  let l ← takeLines folded column (← get).bound { more }
  let tail := match chomping with
    | .clip => l.last
    | .strip => []
    | .keep => l.more ++ l.last
  return (tail ++ l.text).reverse

end Offside.Yaml.Scan
