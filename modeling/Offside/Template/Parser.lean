import Offside.Template.Item

/-!
# Reading templates

Puts the pieces of a template together. An action that opens a part reaches to the `end` of its own
level. A variable is known behind the action that declares it, up to the end of the part.
-/

namespace Offside.Template

/-! ## Pipelines -/

/-- The items of an action that have not been read, and the variables that are known. -/
structure Reading where
  items : List Item
  known : List Text

/-- Reads from an action, or fails. -/
abbrev Read := StateT Reading Option

/-- Items without the blanks before them. -/
def skipSpace : List Item → List Item
  | .space :: items => items
  | items => items

namespace Read

/-- The items that have not been read. -/
def rest : Read (List Item) := return (← get).items

/-- Goes on behind what has been read. -/
def continueWith (items : List Item) : Read Unit := modify fun r => { r with items }

/-- Makes a variable known. -/
def know (name : Text) : Read Unit := modify fun r => { r with known := name :: r.known }

/-- Passes over blanks. -/
def skip : Read Unit := modify fun r => { r with items := skipSpace r.items }

/-- Reads the variables that keep the value of a pipeline, at most as many as are given, and whether
they are assigned to. -/
def targets : (limit : Nat) → Read (List Text × Bool)
  | 0 => return ([], false)
  | limit + 1 => do
    match skipSpace (← rest) with
    | .var name :: items =>
      match skipSpace items with
      | .declare :: items =>
        know name
        continueWith items
        return ([name], false)
      | .assign :: items =>
        know name
        continueWith items
        return ([name], true)
      | .comma :: items =>
        if limit = 0 || !precedes (skipSpace items) then failure
        else
          know name
          continueWith items
          let (names, assigned) ← targets limit
          return (name :: names, assigned)
      | _ => return ([], false)
    | _ => return ([], false)
where
  /-- Whether items may stand behind a comma. -/
  precedes : List Item → Bool
    | [] | .var _ :: _ | .closing :: _ => true
    | _ => false

/-- Takes the field names that follow without a blank. -/
def fieldsOf : List Item → List Text × List Item
  | .field name :: items =>
    let (names, rest) := fieldsOf items
    (name :: names, rest)
  | items => ([], items)

/-- Reads the field names that follow without a blank. -/
def fields : Read (List Text) := do
  let (names, items) := fieldsOf (← rest)
  continueWith items
  return names

/-- Whether an item begins a term. -/
def beginsTerm : Item → Bool
  | .dot | .nothing | .bool _ | .number _ | .literal _ | .field _ | .var _ | .word _ | .opening => true
  | _ => false

/-- A constant, behind which no field may stand. -/
def alone (t : Term) : Read Term := do
  match ← rest with
  | .field _ :: _ => failure
  | _ => return t

/-- Whether a command may stand behind another one, and take its result. -/
def takesResult : Command → Bool
  | .bool _ :: _ | .dot :: _ | .nothing :: _ | .number _ :: _ | .literal _ :: _ => false
  | _ => true

mutual

/-- Reads a pipeline that keeps its value in at most as many variables as are given, in parentheses if
it is `nested`. -/
def pipeline (limit : Nat) (nested : Bool) : (fuel : Nat) → Read Pipeline
  | 0 => failure
  | fuel + 1 => do
    let (binds, assigned) ← targets limit
    let commands ← commands nested fuel
    if !commands.isEmpty && commands.tail.all takesResult then return .mk binds assigned commands
    else failure

/-- Reads the commands of a pipeline up to its end. -/
def commands (nested : Bool) : (fuel : Nat) → Read (List Command)
  | 0 => failure
  | fuel + 1 => do
    skip
    match ← rest with
    | [] => if nested then failure else return []
    | .closing :: items =>
      if nested then
        continueWith items
        return []
      else failure
    | item :: _ =>
      if beginsTerm item then
        let first ← command fuel
        return first :: (← commands nested fuel)
      else failure

/-- Reads the terms of a command, and the bar behind it. -/
def command : (fuel : Nat) → Read Command
  | 0 => failure
  | fuel + 1 => do
    skip
    match ← rest with
    | item :: _ =>
      if beginsTerm item then
        let t ← operand fuel
        match ← rest with
        | .space :: _ => return t :: (← command fuel)
        | .pipe :: items =>
          continueWith items
          return [t]
        | [] | .closing :: _ => return [t]
        | _ => failure
      else
        match item with
        | .pipe =>
          continueWith (← rest).tail
          return []
        | .closing => return []
        | _ => failure
    | [] => return []

/-- Reads a term. -/
def operand : (fuel : Nat) → Read Term
  | 0 => failure
  | fuel + 1 => do
    let items ← rest
    continueWith items.tail
    match items with
    | .dot :: _ => alone .dot
    | .nothing :: _ => alone .nothing
    | .bool b :: _ => alone (.bool b)
    | .number c :: _ => alone (.number c)
    | .literal t :: _ => alone (.literal t)
    | .field name :: _ => return .field name (← fields)
    | .var name :: _ => if (← get).known.contains name then return .var name (← fields) else failure
    | .word name :: _ =>
      match Function.byName.lookup name with
      | some f => return .function f (← fields)
      | none => failure
    | .opening :: _ =>
      let p ← pipeline 1 true fuel
      return .nested p (← fields)
    | _ => failure

end

end Read

/-! ## Parts -/

/-- The pieces of a template that have not been read, the variables that are known, and the templates
that have been defined. -/
structure Assembly where
  pieces : List Piece
  known : List Text
  defined : Library

/-- Puts pieces together, or fails. -/
abbrev Assemble := StateT Assembly Option

/-- What ends a part. -/
inductive Stop where
  | finish
  | other
  /-- The other part is a choice of its own, with these items. -/
  | otherChoice (items : List Item)
  | otherFocus (items : List Item)
  | ended

/-- The actions that open parts. -/
inductive Opener where
  | choose | focus | each
deriving Repr, DecidableEq

/-- The node of an action that has opened parts. -/
def Opener.node : Opener → Pipeline → List Node → List Node → Node
  | choose => .choose
  | focus => .focus
  | each => .each

/-- The known variables of a template: the value that it was called for. -/
def root : List Text := [[]]

/-- Adds a definition to those of the same source. A name may be defined once, blank bodies apart. -/
def define? (l : Library) (name : Text) (body : List Node) : Option Library :=
  match l.lookup name with
  | none => some (l ++ [(name, body)])
  | some old =>
    if isBlank old then some (l.map fun e => if e.1 = name then (name, body) else e)
    else if isBlank body then some l else none

namespace Assemble

/-- Reads the pipeline that the items of an action are. It keeps its value in at most as many variables
as are given. -/
def pipeline (limit : Nat) (items : List Item) : Assemble Pipeline := do
  let (p, r) ← (Read.pipeline limit false (4 * items.length + 4)).run { items, known := (← get).known }
  modify fun a => { a with known := r.known }
  return p

/-- The name at the start of items, and the items behind it. -/
def name (items : List Item) : Assemble (Text × List Item) :=
  match skipSpace items with
  | .literal name :: items => return (name, skipSpace items)
  | _ => failure

/-- Nothing may be left of an action. -/
def closed (items : List Item) : Assemble Unit := if (skipSpace items).isEmpty then pure () else failure

/-- Gives a template its body. -/
def define (name : Text) (body : List Node) : Assemble Unit := do
  let defined ← define? (← get).defined name body
  modify fun a => { a with defined }

/-- Runs with other known variables, and knows the earlier ones again behind it. -/
def withKnown {α : Type} (known : List Text) (m : Assemble α) : Assemble α := do
  let before := (← get).known
  modify fun a => { a with known }
  let x ← m
  modify fun a => { a with known := before }
  return x

/-- What ends a part at an `else` with items behind it. -/
def otherwise (items : List Item) : Assemble Stop :=
  match skipSpace items with
  | [] => return .other
  | .keyword .choose :: items => return .otherChoice items
  | .keyword .focus :: items => return .otherFocus items
  | _ => failure

mutual

/-- Reads a part and what ends it, inside a repetition or not. -/
def part (inEach : Bool) : (fuel : Nat) → Assemble (List Node × Stop)
  | 0 => failure
  | fuel + 1 => do
    match ← step inEach fuel with
    | .inl node =>
      let (nodes, stop) ← part inEach fuel
      return (node :: nodes, stop)
    | .inr stop => return ([], stop)

/-- Reads a node, or what ends the part. -/
def step (inEach : Bool) : (fuel : Nat) → Assemble (Node ⊕ Stop)
  | 0 => failure
  | fuel + 1 => do
    match (← get).pieces with
    | [] => return .inr .ended
    | piece :: pieces =>
      modify fun a => { a with pieces }
      match piece with
      | .text t => return .inl (.text t)
      | .action items =>
        match skipSpace items with
        | .keyword k :: items =>
          match k with
          | .finish =>
            closed items
            return .inr .finish
          | .other => return .inr (← otherwise items)
          | .leave => if inEach then do closed items; return .inl .leave else failure
          | .next => if inEach then do closed items; return .inl .next else failure
          | .choose => return .inl (← opened inEach .choose items fuel)
          | .focus => return .inl (← opened inEach .focus items fuel)
          | .each => return .inl (← opened inEach .each items fuel)
          | .call =>
            let (name, items) ← name items
            if items.isEmpty then return .inl (.call name none)
            else return .inl (.call name (some (← pipeline 1 items)))
          | .block =>
            let (name, items) ← name items
            let p ← pipeline 1 items
            definition name fuel
            return .inl (.call name (some p))
          | .define => failure
        | items => return .inl (.write (← pipeline 1 items))

/-- Reads the parts of an action that opens them. -/
def opened (inEach : Bool) (o : Opener) (items : List Item) : (fuel : Nat) → Assemble Node
  | 0 => failure
  | fuel + 1 => do
    let before := (← get).known
    let p ← pipeline (if o = .each then 2 else 1) items
    let (yes, stop) ← part (inEach || o = .each) fuel
    let no ← match stop with
      | .finish => pure []
      | .other =>
        match ← part inEach fuel with
        | (no, .finish) => pure no
        | _ => failure
      | .otherChoice items =>
        if o = .choose then pure [← opened inEach o items fuel] else failure
      | .otherFocus items =>
        if o = .focus then pure [← opened inEach o items fuel] else failure
      | .ended => failure
    modify fun a => { a with known := before }
    return o.node p yes no

/-- Reads the body of a template up to its end, and defines it. -/
def definition (name : Text) : (fuel : Nat) → Assemble Unit
  | 0 => failure
  | fuel + 1 => do
    match ← withKnown root (part false fuel) with
    | (body, .finish) => define name body
    | _ => failure

end

/-- The items of a definition that the pieces begin with, and the pieces behind it. -/
def definition? : List Piece → Option (List Item × List Piece)
  | .action items :: pieces =>
    match skipSpace items with
    | .keyword .define :: items => some (items, pieces)
    | _ => none
  | _ => none

/-- Reads a whole source: nodes and definitions. -/
def source : (fuel : Nat) → Assemble (List Node)
  | 0 => failure
  | fuel + 1 => do
    match definition? (← get).pieces with
    | some (items, pieces) =>
      modify fun a => { a with pieces }
      let (name, items) ← name items
      closed items
      definition name fuel
      source fuel
    | none =>
      match ← step false fuel with
      | .inl node => return node :: (← source fuel)
      | .inr .ended => return []
      | .inr _ => failure

end Assemble

/-- Reads a template with a name, and the templates that it defines. -/
def parse? (name source : Text) : Option Library := do
  let pieces ← pieces? source
  let (body, a) ← (Assemble.source (4 * pieces.length + 4)).run { pieces, known := root, defined := [] }
  define? a.defined name body

end Offside.Template
