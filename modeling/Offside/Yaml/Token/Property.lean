import Offside.Yaml.Token.Stream

/-!
# Anchors, tags and directives

An anchor names a node and an alias stands for it. A tag tells what a node is; it is written in full
or with a handle, for which a directive may give an expansion.
-/

namespace Offside.Yaml.Scan

/-- Takes the name of an anchor or an alias, behind its sign. -/
def takeAnchor : Scan Text := do
  skip
  let name ← takeName
  let c ← look 0
  if name.isEmpty || !(isGap c || "?:,]\x7d%@\x60".toList.contains c) then failure
  return textOf name

/-! ## Tags -/

/-- A character that may stand in a tag. -/
def isTagChar (c : Char) : Bool := isNameChar c || ";/?:@&=+$,.!~*\x27()[]%".toList.contains c

/-- How many bytes a character has, judging by its first one. -/
def encodedSize? (b : UInt8) : Option Nat :=
  if b &&& 0x80 = 0x00 then some 1
  else if b &&& 0xE0 = 0xC0 then some 2
  else if b &&& 0xF0 = 0xE0 then some 3
  else if b &&& 0xF8 = 0xF0 then some 4
  else none

/-- Takes a byte in two hexadecimal digits behind a percent sign. -/
def takeOctet : Scan UInt8 := do
  need 3
  let (some a, some b) := (hexValue? (← look 1), hexValue? (← look 2)) | failure
  if (← look 0) ≠ '%' then failure
  skipMany 3
  return UInt8.ofNat (16 * a + b)

/-- Takes the further bytes of a character. -/
def takeTail : Nat → Scan Text
  | 0 => return []
  | n + 1 => do
    let b ← takeOctet
    if b &&& 0xC0 ≠ 0x80 then failure
    return b :: (← takeTail n)

/-- Takes the bytes of a character that is written by their numbers. -/
def takeOctets : Scan Text := do
  let b ← takeOctet
  let some size := encodedSize? b | failure
  return b :: (← takeTail (size - 1))

/-- Takes the characters of a tag. -/
def takeTagText : (fuel : Nat) → Scan Text
  | 0 => failure
  | fuel + 1 => do
    need 1
    let c ← look 0
    if c = '%' then return (← takeOctets) ++ (← takeTagText fuel)
    else if isTagChar c then
      skip
      return Text.ofChar c ++ (← takeTagText fuel)
    else return []

/-- Takes the characters of a tag, of which there has to be one. -/
def takeTagUri : Scan Text := do
  let t ← takeTagText (← get).bound
  if t.isEmpty then failure
  return t

/-- Takes a handle, or what of it there is: an exclamation mark, and perhaps a name and another
one. -/
def takeHandle : Scan Text := do
  need 1
  if (← look 0) ≠ '!' then failure
  skip
  let name := textOf (← takeName)
  if (← look 0) = '!' then
    skip
    return "!" ++ name ++ "!"
  else return "!" ++ name

/-- Whether a text is a handle and not only the beginning of a tag. -/
def isHandle (t : Text) : Bool := 1 < t.length && t.getLast? = some 33

/-- Takes a tag: its handle and what stands behind it. A tag that is written in full has no handle,
nor has a single exclamation mark. -/
def takeTag : Scan (Text × Text) := do
  need 2
  let (handle, suffix) ←
    if (← look 1) = '<' then
      skipMany 2
      let t ← takeTagUri
      if (← look 0) ≠ '>' then failure
      skip
      pure (([] : Text), t)
    else
      let handle ← takeHandle
      if isHandle handle then pure (handle, ← takeTagUri)
      else
        let suffix := handle.drop 1 ++ (← takeTagText (← get).bound)
        if suffix.isEmpty then pure (([] : Text), ("!" : Text)) else pure (("!" : Text), suffix)
  need 1
  if !isGap (← look 0) then failure
  return (handle, suffix)

/-! ## Directives -/

/-- Takes a number of at most two digits. -/
def takeVersionNumber : Scan Nat := do
  let digits ← takeWhile Char.isDigit (← get).bound []
  if digits.isEmpty || 2 < digits.length then failure
  return Text.digitsValue (textOf digits.reverse)

/-- Takes the version in a directive. -/
def takeVersion : Scan TokenKind := do
  skipBlanks
  let major ← takeVersionNumber
  if (← look 0) ≠ '.' then failure
  skip
  return .version major (← takeVersionNumber)

/-- Takes a handle and its expansion in a directive. -/
def takeExpansion : Scan TokenKind := do
  skipBlanks
  let handle ← takeHandle
  if handle ≠ "!" && !isHandle handle then failure
  need 1
  if !isBlank (← look 0) then failure
  skipBlanks
  let expansion ← takeTagUri
  need 1
  if !isGap (← look 0) then failure
  return .handle handle expansion

/-- Takes a directive and the rest of its line. -/
def takeDirective : Scan TokenKind := do
  skip
  let name := textOf (← takeName)
  if !isGap (← look 0) then failure
  let kind ←
    if name = "YAML" then takeVersion
    else if name = "TAG" then takeExpansion
    else failure
  skipBlanks
  if (← look 0) = '#' then skipLine
  if !isLineEnd (← look 0) then failure
  need 2
  skipBreak
  return kind

end Offside.Yaml.Scan
