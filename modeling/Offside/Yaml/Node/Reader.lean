import Offside.Yaml.Node
import Offside.Yaml.Token.Next

/-!
# Reading nodes

Reads the first document of a text. What follows it is looked at only as far as tokens are read ahead.
-/

namespace Offside.Yaml

/-- A document that is being read. -/
structure Reading where
  stream : Stream
  /-- The expansions of handles. -/
  handles : List (Text × Text) := []
  /-- The nodes that have names, in the order of their beginnings; none if a node has not ended. -/
  anchors : Array (Text × Option Node) := #[]

/-- A step of reading, which may fail. -/
abbrev Read := StateT Reading Option

namespace Read

/-- Reads tokens. -/
def ofScan (x : Scan α) : Read α := fun r =>
  (x r.stream).map fun (a, stream) => (a, { r with stream })

/-- The token that comes next. -/
def head : Read Token := ofScan Scan.head

/-- Takes the next token. -/
def next : Read Unit := ofScan Scan.next

/-- What the next token is. -/
def kind : Read TokenKind := return (← head).kind

/-! ## Anchors and tags -/

/-- The node that a name stands for. -/
def named (name : Text) : Read Node := do
  match (← get).anchors.toList.reverse.lookup name with
  | some target => return .alias name target
  | none => failure

/-- Gives a name to the node that begins, and the number of the name. -/
def nameNode (anchor : Option Text) : Read Nat := do
  let n := (← get).anchors.size
  if let some name := anchor then modify fun r => { r with anchors := r.anchors.push (name, none) }
  return n

/-- Notes that the node has ended whose name has the number. -/
def endNode (anchor : Option Text) (number : Nat) (node : Node) : Read Node := do
  if let some name := anchor then
    modify fun r => { r with anchors := r.anchors.setIfInBounds number (name, some node) }
  return node

/-- What stands before the content of a node. -/
structure Properties where
  anchor : Option Text := none
  tag : Option (Text × Text) := none

/-- Takes an anchor, if there is one. -/
def anchor? : Read (Option Text) := do
  match ← kind with
  | .anchor name => next; return some name
  | _ => return none

/-- Takes a tag, if there is one. -/
def tag? : Read (Option (Text × Text)) := do
  match ← kind with
  | .tag handle suffix => next; return some (handle, suffix)
  | _ => return none

/-- Takes an anchor and a tag, in any order. -/
def properties : Read Properties := do
  match ← anchor? with
  | some name => return { anchor := some name, tag := ← tag? }
  | none =>
    match ← tag? with
    | some t => return { anchor := ← anchor?, tag := some t }
    | none => return {}

/-- What the tags of the language begin with when they are written in full. -/
def languageTag : Text := "tag:yaml.org,2002:"

/-- A tag in its short form. -/
def shortTag (tag : Text) : Text :=
  match Text.dropStart? languageTag tag with
  | some suffix => "!!" ++ suffix
  | none => tag

/-- The tag of a handle and a suffix in its short form; none for the tag that says nothing. Fails if
the handle has no expansion. -/
def expand : Option (Text × Text) → Read (Option Text)
  | none => return none
  | some (handle, suffix) => do
    let tag ←
      if handle.isEmpty then pure suffix
      else
        match (← get).handles.lookup handle with
        | some expansion => pure (expansion ++ suffix)
        | none => failure
    if tag.isEmpty then failure
    return if tag = "!" then none else some (shortTag tag)

/-! ## Nodes -/

/-- A scalar without content. -/
def empty (place : Place) : Node := .scalar none [] false (place.line + 1)

/-- What kind of content may follow. -/
structure Setting where
  /-- Whether a block may begin. -/
  block : Bool := true
  /-- Whether the items of a sequence may stand at the column of the block around it. -/
  flush : Bool := false

mutual

/-- Reads a node. -/
def node (setting : Setting) : (fuel : Nat) → Read Node
  | 0 => failure
  | fuel + 1 => do
    let first ← head
    if let .alias name := first.kind then
      next
      named name
    else
      let p ← properties
      let tag ← expand p.tag
      let t ← head
      let line := first.place.line + 1
      let number ← nameNode p.anchor
      let content ← match t.kind with
        | .scalar text quoted => do
          next
          pure (Node.scalar tag text quoted line)
        | .openBracket => do
          next
          pure (Node.sequence (← bracketItems true fuel) line)
        | .openBrace => do
          next
          pure (Node.mapping (← braceEntries true fuel) line)
        | .entry => do
          if setting.flush then pure (Node.sequence (← flushItems fuel) line)
          else if p.anchor.isSome || p.tag.isSome then pure (Node.scalar tag [] false line)
          else failure
        | .sequenceStart => do
          if setting.block then
            next
            pure (Node.sequence (← blockItems fuel) line)
          else failure
        | .mappingStart => do
          if setting.block then
            next
            pure (Node.mapping (← blockEntries fuel) line)
          else failure
        | _ => do
          if p.anchor.isSome || p.tag.isSome then pure (Node.scalar tag [] false line)
          else failure
      endNode p.anchor number content

/-- Reads the items of a sequence in a block of its own. -/
def blockItems : (fuel : Nat) → Read (List Node)
  | 0 => failure
  | fuel + 1 => do
    match ← kind with
    | .entry => do
      let entry ← head
      next
      let item ← match ← kind with
        | .entry | .blockEnd => pure (empty entry.place)
        | _ => node {} fuel
      return item :: (← blockItems fuel)
    | .blockEnd => do
      next
      return []
    | _ => failure

/-- Reads the items of a sequence at the column of the block around it. -/
def flushItems : (fuel : Nat) → Read (List Node)
  | 0 => failure
  | fuel + 1 => do
    match ← kind with
    | .entry => do
      let entry ← head
      next
      let item ← match ← kind with
        | .entry | .key | .value | .blockEnd => pure (empty entry.place)
        | _ => node {} fuel
      return item :: (← flushItems fuel)
    | _ => return []

/-- Reads the entries of a mapping in a block. -/
def blockEntries : (fuel : Nat) → Read (List (Node × Node))
  | 0 => failure
  | fuel + 1 => do
    let t ← head
    match t.kind with
    | .key => do
      next
      let key ← match ← kind with
        | .key | .value | .blockEnd => pure (empty t.place)
        | _ => node { flush := true } fuel
      let value ← blockValue fuel
      return (key, value) :: (← blockEntries fuel)
    | .blockEnd => do
      next
      return []
    | _ => failure

/-- Reads the value behind a key in a block. It may be missing. -/
def blockValue : (fuel : Nat) → Read Node
  | 0 => failure
  | fuel + 1 => do
    let t ← head
    match t.kind with
    | .value => do
      next
      match ← kind with
      | .key | .value | .blockEnd => return empty t.place
      | _ => node { flush := true } fuel
    | _ => return empty t.place

/-- Reads the items of a sequence between brackets. -/
def bracketItems (first : Bool) : (fuel : Nat) → Read (List Node)
  | 0 => failure
  | fuel + 1 => do
    if !first && (← kind) ≠ .closeBracket then
      if (← kind) ≠ .comma then failure
      next
    let t ← head
    match t.kind with
    | .closeBracket => do
      next
      return []
    | .key => do
      next
      let item ← pairItem t.place fuel
      return item :: (← bracketItems false fuel)
    | _ => do
      let item ← node { block := false } fuel
      return item :: (← bracketItems false fuel)

/-- Reads an item of a sequence between brackets that is a mapping of one entry, behind the sign of
its key. -/
def pairItem (place : Place) : (fuel : Nat) → Read Node
  | 0 => failure
  | fuel + 1 => do
    let t ← head
    let key ← match t.kind with
      | .value | .comma | .closeBracket => do
        next
        pure (empty t.place)
      | _ => node { block := false } fuel
    let value ← flowValue .closeBracket fuel
    let _ ← head
    return .mapping [(key, value)] (place.line + 1)

/-- Reads the value behind a key between brackets that end with `close`. It may be missing. -/
def flowValue (close : TokenKind) : (fuel : Nat) → Read Node
  | 0 => failure
  | fuel + 1 => do
    let t ← head
    if t.kind = .value then
      next
      let u ← head
      if u.kind = .comma || u.kind = close then return empty u.place
      else node { block := false } fuel
    else return empty t.place

/-- Reads the entries of a mapping between braces. -/
def braceEntries (first : Bool) : (fuel : Nat) → Read (List (Node × Node))
  | 0 => failure
  | fuel + 1 => do
    if !first && (← kind) ≠ .closeBrace then
      if (← kind) ≠ .comma then failure
      next
    match ← kind with
    | .closeBrace => do
      next
      return []
    | .key => do
      next
      let t ← head
      let key ← match t.kind with
        | .value | .comma | .closeBrace => pure (empty t.place)
        | _ => node { block := false } fuel
      let value ← flowValue .closeBrace fuel
      return (key, value) :: (← braceEntries false fuel)
    | _ => do
      let key ← node { block := false } fuel
      let t ← head
      return (key, empty t.place) :: (← braceEntries false fuel)

end

/-! ## Documents -/

/-- The expansions that every document has. -/
def usualHandles : List (Text × Text) := [("!", "!"), ("!!", languageTag)]

/-- Reads the directives of a document. There is at most one version, which has to be 1.1, and each
handle is expanded once. -/
def directives (versioned : Bool) : (fuel : Nat) → Read Unit
  | 0 => failure
  | fuel + 1 => do
    match ← kind with
    | .version major minor => do
      if versioned || major ≠ 1 || minor ≠ 1 then failure
      next
      directives true fuel
    | .handle name expansion => do
      if ((← get).handles.lookup name).isSome then failure
      modify fun r => { r with handles := r.handles ++ [(name, expansion)] }
      next
      directives versioned fuel
    | _ => modify fun r => { r with handles := r.handles ++ usualHandles }

/-- Reads what stands behind the mark of a document. -/
def content (fuel : Nat) : Read Node := do
  let t ← head
  match t.kind with
  | .version _ _ | .handle _ _ | .documentStart | .documentEnd | .streamEnd => return empty t.place
  | _ => node {} fuel

/-- Reads the first document; none if there is no content. -/
def document (fuel : Nat) : Read (Option Node) := do
  let _ ← head
  next
  match ← kind with
  | .streamEnd => return none
  | .version _ _ | .handle _ _ | .documentStart => do
    directives false fuel
    if (← kind) ≠ .documentStart then failure
    next
    let n ← content fuel
    let _ ← head
    return some n
  | _ => do
    directives false fuel
    let n ← node {} fuel
    let _ ← head
    return some n

end Read

/-- Reads the first document of a text: its node, none if it has no content. Fails if the text is not
well formed as far as it is looked at. -/
def read? (s : Text) : Option (Option Node) :=
  let stream := Stream.ofText s
  (Read.document (8 * stream.bound) { stream }).map (·.1)

end Offside.Yaml
