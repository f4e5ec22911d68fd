import Offside.Template.Function

/-!
# Executing templates

Writes a template for a value. The execution fails at a field that a value does not have, at a
template that does not exist, at a variable that has no value, and when a value is used for what it
is not.
-/

namespace Offside.Template

/-- The values of variables, latest first. -/
abbrev Bindings := List (Text × Datum)

/-- An execution that can fail and that changes variables. -/
abbrev Exec := StateT Bindings Option

namespace Bindings

/-- Gives a variable another value, if there is one with the name. -/
def assign? (name : Text) (d : Datum) : Bindings → Option Bindings
  | [] => none
  | (n, e) :: vars => if n = name then some ((n, d) :: vars) else (assign? name d vars).map ((n, e) :: ·)

/-- Gives the latest variable another value. -/
def setLatest (d : Datum) : Bindings → Bindings
  | [] => []
  | (n, _) :: vars => (n, d) :: vars

/-- Gives the latest two variables other values, the earlier one first. -/
def setLatestTwo (d e : Datum) : Bindings → Bindings
  | (n, _) :: vars => (n, e) :: setLatest d vars
  | [] => []

end Bindings

namespace Exec

/-- Gives a variable another value. -/
def assign (name : Text) (d : Datum) : Exec Unit := do set (← Bindings.assign? name d (← get))

/-- Declares a variable. -/
def declare (name : Text) (d : Datum) : Exec Unit := modify ((name, d) :: ·)

/-- Forgets the variables that are declared while something is executed. -/
def forgetting {α : Type} (m : Exec α) : Exec α := do
  let before := (← get).length
  let x ← m
  modify fun vars => vars.drop (vars.length - before)
  return x

end Exec

mutual

/-- The value of a term, which may be followed by arguments. -/
def Term.value (dot : Datum) (hasArguments : Bool) : Term → Exec Datum
  | .dot => dot.field? hasArguments []
  | .nothing => Datum.absent.field? hasArguments []
  | .bool b => (Datum.bool b).field? hasArguments []
  | .number c => do (← Datum.ofConstant? c).field? hasArguments []
  | .literal t => (Datum.text t).field? hasArguments []
  | .field name names => dot.field? hasArguments (name :: names)
  | .var name names => do
    let d ← (← get).lookup name
    d.field? hasArguments names
  | .function f names => do
    let d ← f.apply? []
    d.field? hasArguments names
  | .nested p names => do
    let d ← p.value dot
    d.field? hasArguments names

/-- The value of a pipeline. Its variables keep it. -/
def Pipeline.value (dot : Datum) : Pipeline → Exec Datum
  | .mk binds assigned commands => do
    let d ← Pipeline.lastValue dot none commands
    binds.forM fun name => if assigned then Exec.assign name d else Exec.declare name d
    return d

/-- The value of the last of commands, of which the first takes the result before it. -/
def Pipeline.lastValue (dot : Datum) (before : Option Datum) : List (List Term) → Exec Datum
  | [] => before
  | c :: rest => do
    let d ← Command.value dot before c
    Pipeline.lastValue dot d rest

/-- The value of a command that takes the result before it. -/
def Command.value (dot : Datum) (before : Option Datum) : List Term → Exec Datum
  | [] => failure
  | .nothing :: _ => failure
  | .function .and [] :: args => Command.deciding dot false before args
  | .function .or [] :: args => Command.deciding dot true before args
  | .function f [] :: args => do f.apply? ((← Command.arguments dot args) ++ before.toList)
  | t :: args => t.value dot (!args.isEmpty || before.isSome)

/-- The values of arguments. -/
def Command.arguments (dot : Datum) : List Term → Exec (List Datum)
  | [] => return []
  | t :: args => do
    let d ← t.value dot false
    return d :: (← Command.arguments dot args)

/-- The first argument that is as true as is asked for, or the last one. -/
def Command.deciding (dot : Datum) (truth : Bool) (before : Option Datum) : List Term → Exec Datum
  | [] => before
  | t :: args => do
    let d ← t.value dot false
    if d.truthy = truth || (args.isEmpty && before.isNone) then return d
    else Command.deciding dot truth before args

end

/-- How the execution goes on behind a node. -/
inductive Flow where
  | onward | leave | next
deriving Repr, DecidableEq

/-- Gives the variables of a repetition the values of an item: to one the item, to two its number and
the item. -/
def Pipeline.keepItem (p : Pipeline) (number item : Datum) : Exec Unit :=
  match p.binds, p.assigned with
  | [], _ => pure ()
  | [name], true => Exec.assign name item
  | [_], false => modify (Bindings.setLatest item)
  | first :: second :: _, true => do
    Exec.assign first number
    Exec.assign second item
  | _ :: _ :: _, false => modify (Bindings.setLatestTwo number item)

/-- Writes something for every item, until it leaves. -/
def forItems (f : Datum × Datum → Exec (Text × Flow)) : List (Datum × Datum) → Exec Text
  | [] => return []
  | item :: items => do
    let (t, flow) ← f item
    if flow = .leave then return t else return t ++ (← forItems f items)

mutual

/-- Writes a node. -/
def Node.exec (call : Text → Datum → Option Text) (dot : Datum) : Node → Exec (Text × Flow)
  | .text t => return (t, .onward)
  | .write p => do
    let d ← p.value dot
    return (if p.binds.isEmpty then d.format else [], .onward)
  | .choose p yes no => Exec.forgetting do
    let d ← p.value dot
    if d.truthy then Node.execAll call dot yes else Node.execAll call dot no
  | .focus p yes no => Exec.forgetting do
    let d ← p.value dot
    if d.truthy then Node.execAll call d yes else Node.execAll call dot no
  | .each p body empty => Exec.forgetting do
    let d ← p.value dot
    let items ← d.items? (1 < p.binds.length)
    if items.isEmpty then Node.execAll call dot empty
    else
      let t ← forItems (fun (number, item) => do
        p.keepItem number item
        Exec.forgetting (Node.execAll call item body)) items
      return (t, .onward)
  | .call name p => do
    let d ← match p with
      | some p => p.value dot
      | none => pure .absent
    return (← call name d, .onward)
  | .leave => return ([], .leave)
  | .next => return ([], .next)

/-- Writes nodes, up to one that does not go on. -/
def Node.execAll (call : Text → Datum → Option Text) (dot : Datum) : List Node → Exec (Text × Flow)
  | [] => return ([], .onward)
  | n :: nodes => do
    let (t, flow) ← n.exec call dot
    if flow = .onward then
      let (rest, flow) ← Node.execAll call dot nodes
      return (t ++ rest, flow)
    else return (t, flow)

end

/-- How deep templates may call each other. -/
def maxCalls : Nat := 100000

/-- Writes the template with a name for a value, with calls up to a depth. -/
def Library.writeFor? (l : Library) : (depth : Nat) → (name : Text) → Datum → Option Text
  | 0, _, _ => none
  | depth + 1, name, d => do
    let body ← l.lookup name
    let ((t, _), _) ← (Node.execAll (l.writeFor? depth) d body).run [([], d)]
    some t

/-- Writes the template with a name for a value. -/
def Library.write? (l : Library) (name : Text) (d : Datum) : Option Text :=
  l.writeFor? maxCalls name d

end Offside.Template
