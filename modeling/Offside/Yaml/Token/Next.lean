import Offside.Yaml.Token.Scalar
import Offside.Yaml.Token.Property

/-!
# The next token

Reads tokens one after the other. A token can be taken when two more have been read behind it and it
cannot turn out to begin a key, so a fault shortly behind a document is noticed and one further on is
not.
-/

namespace Offside.Yaml.Scan

/-- Reads the end of the text. It begins a new line if the last one has not ended. -/
def readEnd : Scan Unit := do
  modify fun s =>
    if s.place.column = 0 then s
    else { s with place := { s.place with line := s.place.line + 1, column := 0 } }
  endBlocks (-1)
  dropKey
  allowKey false
  takeToken .streamEnd 0

/-- Reads a directive. -/
def readDirective : Scan Unit := do
  endBlocks (-1)
  dropKey
  allowKey false
  let place := (← get).place
  let kind ← takeDirective
  modify (·.push { kind, place })

/-- Reads a mark between documents. -/
def readDocumentMark (kind : TokenKind) : Scan Unit := do
  endBlocks (-1)
  dropKey
  allowKey false
  takeToken kind 3

/-- Reads an opening bracket. -/
def readOpening (kind : TokenKind) : Scan Unit := do
  noteKey
  modify fun s => { s with keys := s.keys.push { number := s.nextNumber, place := s.place } }
  if maxDepth < (← get).flowLevel then failure
  allowKey true
  takeToken kind 1

/-- Reads a closing bracket. -/
def readClosing (kind : TokenKind) : Scan Unit := do
  dropKey
  modify fun s =>
    if s.inFlow then { (s.forget s.currentKey.number) with keys := s.keys.pop } else s
  allowKey false
  takeToken kind 1

/-- Reads a comma between brackets. -/
def readComma : Scan Unit := do
  dropKey
  allowKey true
  takeToken .comma 1

/-- Begins a block at the place, where one may begin only if a key may. -/
def beginBlockHere (kind : TokenKind) : Scan Unit := do
  let s ← get
  if !s.inFlow then
    if !s.keyAllowed then failure
    beginBlock kind s.nextNumber s.place

/-- Reads the sign of an item in a block. -/
def readEntry : Scan Unit := do
  beginBlockHere .sequenceStart
  dropKey
  allowKey true
  takeToken .entry 1

/-- Reads the sign of a key. -/
def readKey : Scan Unit := do
  beginBlockHere .mappingStart
  dropKey
  allowKey (!(← get).inFlow)
  takeToken .key 1

/-- Reads the sign of a value. If a key has begun, its token is put where it did. -/
def readValue : Scan Unit := do
  let s ← get
  if ← keyIsOpen s.flowLevel then
    let k := s.currentKey
    modify (·.insert k.number { kind := .key, place := k.place })
    beginBlock .mappingStart k.number k.place
    modify fun s => (s.setKey s.flowLevel { k with possible := false }).forget k.number
    allowKey false
  else
    beginBlockHere .mappingStart
    allowKey (!s.inFlow)
  takeToken .value 1

/-- Reads a token that may begin a key. -/
def readKeyable (take : Scan TokenKind) : Scan Unit := do
  noteKey
  allowKey false
  let place := (← get).place
  let kind ← take
  modify (·.push { kind, place })

/-- Reads a block scalar. -/
def readBlock (folded : Bool) : Scan Unit := do
  dropKey
  allowKey true
  let place := (← get).place
  let text ← takeBlock folded
  modify (·.push { kind := .scalar (textOf text) true, place })

/-- Whether a plain scalar may begin with a character, of which the next one is given. -/
def beginsPlain (inFlow : Bool) (c next : Char) : Bool :=
  !(isGap c || "-?:,[]\x7b\x7d#&*!|>\x27\"%@\x60".toList.contains c) ||
    (c = '-' && !isBlank next) || (!inFlow && (c = '?' || c = ':') && !isGap next)

/-- Reads a token that depends on its first characters only. -/
def readContent : Scan Unit := do
  let s ← get
  let c := s.source.look 0
  let next := s.source.look 1
  let flow := s.inFlow
  if c = '[' then readOpening .openBracket
  else if c = '\x7b' then readOpening .openBrace
  else if c = ']' then readClosing .closeBracket
  else if c = '\x7d' then readClosing .closeBrace
  else if c = ',' then readComma
  else if c = '-' && isGap next then readEntry
  else if c = '?' && (flow || isGap next) then readKey
  else if c = ':' && (flow || isGap next) then readValue
  else if c = '*' then readKeyable (.alias <$> takeAnchor)
  else if c = '&' then readKeyable (.anchor <$> takeAnchor)
  else if c = '!' then readKeyable ((fun (h, t) => .tag h t) <$> takeTag)
  else if c = '|' && !flow then readBlock false
  else if c = '>' && !flow then readBlock true
  else if c = '\x27' || c = '"' then readKeyable ((fun cs => .scalar (textOf cs) true) <$> takeQuoted c)
  else if beginsPlain flow c next then readKeyable ((fun cs => .scalar (textOf cs) false) <$> takePlain)
  else failure

/-- Reads at least one token, and what ends before it. -/
def read : Scan Unit := do
  toToken (← get).bound
  let s ← get
  endBlocks s.place.column
  need 4
  if (← look 0) = endMark then readEnd
  else if s.place.column = 0 && (← look 0) = '%' then readDirective
  else if ← atMark '-' then readDocumentMark .documentStart
  else if ← atMark '.' then readDocumentMark .documentEnd
  else
    readContent
    if (← get).waiting.getLast?.any (·.kind ≠ .entry) then skipLineComment

/-- Whether the first waiting token may turn out to begin a key. -/
def headIsOpen : Scan Bool := do
  let s ← get
  match s.levels.lookup s.taken with
  | some level => keyIsOpen level
  | none => return false

/-- Reads until a token can be taken. -/
def prepare : (fuel : Nat) → Scan Unit
  | 0 => failure
  | fuel + 1 => do
    let settled ← if 2 < (← get).waiting.length then (! ·) <$> headIsOpen else pure false
    if !settled then
      read
      prepare fuel

/-- The token that comes next. -/
def head : Scan Token := do
  prepare (← get).bound
  let some t := (← get).waiting.head? | failure
  return t

/-- Takes the next token. -/
def next : Scan Unit := modify fun s => { s with waiting := s.waiting.tail, taken := s.taken + 1 }

end Offside.Yaml.Scan
