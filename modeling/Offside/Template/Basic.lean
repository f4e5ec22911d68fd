import Offside.Text.Rune

/-!
# Templates

A template is text with actions in double braces. Actions write values, keep them in variables, choose
between two parts, repeat a part for every item of a list, or write another template.
-/

namespace Offside.Template

/-- The functions of templates. -/
inductive Function where
  | and | or | not
  | eq | ne | lt | le | gt | ge
  | len | index | slice
  | print | printLine | printFormat
  | html | js | urlquery
  | call
deriving Repr, DecidableEq

/-- The functions by name. -/
def Function.byName : List (Text × Function) :=
  [("and", and), ("or", or), ("not", not), ("eq", eq), ("ne", ne), ("lt", lt), ("le", le), ("gt", gt),
    ("ge", ge), ("len", len), ("index", index), ("slice", slice), ("print", print),
    ("println", printLine), ("printf", printFormat), ("html", html), ("js", js),
    ("urlquery", urlquery), ("call", call)]

/-- A number that is written in a template. -/
inductive Constant where
  | int (n : Int)
  | float (x : Float)
  /-- An integer with more than 63 bits, which has no value. -/
  | tooLarge
deriving Repr

mutual

/-- A part of a command. -/
inductive Term where
  /-- The current value. -/
  | dot
  /-- The value that is not there. -/
  | nothing
  | bool (b : Bool)
  | number (c : Constant)
  | literal (t : Text)
  /-- A field of the current value, and fields inside it. -/
  | field (name : Text) (names : List Text)
  /-- A variable, or a field inside it. -/
  | var (name : Text) (names : List Text)
  /-- A function, or a field inside its result. -/
  | function (f : Function) (names : List Text)
  /-- The value of a pipeline in parentheses, or a field inside it. -/
  | nested (p : Pipeline) (names : List Text)

/-- Commands of which each takes the result of the one before it as its last argument; a command is a
term and its arguments. The last result is kept in the variables, which are new ones unless it is
assigned. -/
inductive Pipeline where
  | mk (binds : List Text) (assigned : Bool) (commands : List (List Term))

end

deriving instance Repr for Term, Pipeline

/-- A term and its arguments. -/
abbrev Command := List Term

namespace Pipeline

/-- The variables that keep the result. -/
def binds : Pipeline → List Text
  | mk binds _ _ => binds

/-- Whether the variables are assigned to, and not declared. -/
def assigned : Pipeline → Bool
  | mk _ assigned _ => assigned

end Pipeline

/-- A part of a template. -/
inductive Node where
  | text (t : Text)
  /-- Writes a value, unless it is kept in a variable. -/
  | write (p : Pipeline)
  | choose (p : Pipeline) (yes no : List Node)
  /-- Writes the first part for the value if it chooses that one. -/
  | focus (p : Pipeline) (yes no : List Node)
  /-- Writes the body for every item, or the other part if there is none. -/
  | each (p : Pipeline) (body empty : List Node)
  /-- Writes another template for a value. -/
  | call (name : Text) (p : Option Pipeline)
  /-- Ends a repetition. -/
  | leave
  /-- Goes on with the next item of a repetition. -/
  | next
deriving Repr

/-- Templates by name. -/
abbrev Library := List (Text × List Node)

/-- Whether nothing but white space is written, and no action is taken. -/
def isBlank (body : List Node) : Bool :=
  body.all fun
    | .text t => t.isBlank
    | _ => false

/-- Adds a template. One of the same name is replaced, unless the new one is blank. -/
def Library.add (l : Library) (entry : Text × List Node) : Library :=
  if (l.lookup entry.1).isSome && isBlank entry.2 then l
  else entry :: l.filter fun e => e.1 ≠ entry.1

end Offside.Template
