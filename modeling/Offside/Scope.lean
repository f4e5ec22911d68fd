import Offside.Rule
import Offside.Diagnostic

/-!
# Scopes

A frame holds the names declared in one region of a program, in the order of their first
declaration. A chain of frames, innermost first, is what a place in the program sees. A symbol table
holds the frames of all regions, each with the regions around it.
-/

namespace Offside

/-- What a declared name refers to. -/
inductive Reference.Kind where
  | var
  | function
  | other (code : Int)
deriving Repr, DecidableEq

namespace Reference.Kind

/-- The kind with a code. -/
def ofCode (code : Int) : Kind :=
  if code = 0 then var else if code = 1 then function else other code

/-- The name. -/
def name : Kind → Text
  | var => "variable"
  | function => "function"
  | other code => "RefKind(" ++ Text.ofInt code ++ ")"

end Reference.Kind

/-- What tells references of one name apart: an identity given from outside, or a new one. -/
inductive Reference.Identity where
  | fresh
  | given (id : Nat)
deriving Repr, DecidableEq

/-- A declared name. -/
structure Reference where
  name : Text
  kind : Reference.Kind := .var
  /-- Whether the name was visible already when it was declared. -/
  declared : Bool := false
  identity : Reference.Identity := .fresh
deriving Repr, DecidableEq

/-- The references of one region, in the order of first declaration, one for each name. -/
abbrev Frame := List Reference

namespace Frame

/-- The names of the frame. -/
def names (f : Frame) : List Text := f.map (·.name)

/-- The reference of a name. -/
def find (f : Frame) (name : Text) : Option Reference := f.find? (·.name == name)

/-- Whether the frame holds the name. -/
def holds (f : Frame) (name : Text) : Bool := (f.find name).isSome

/-- Adds a reference. One of the same name is replaced where it stands. -/
def insert (f : Frame) (r : Reference) : Frame :=
  if f.holds r.name then f.map fun old => if old.name == r.name then r else old else f ++ [r]

/-- The report that a name may not be declared. -/
def blacklisted (name : Text) : Diagnostic :=
  (Diagnostic.compilationError ("Variable name is blacklisted: " ++ name)).withFact "name"
    (.text name)

/-- Declares references. If a rule forbids one of them, none is declared. -/
def push (rules : RuleSet) (f : Frame) (refs : List Reference) : Except Diagnostic Frame :=
  match refs.find? fun r => rules.blacklisted r.name with
  | some r => .error (blacklisted r.name)
  | none => .ok (refs.foldl insert f)

end Frame

/-- The frames that a place sees, innermost first. -/
abbrev Chain := List Frame

namespace Chain

/-- The nearest reference of a name. -/
def lookup (c : Chain) (name : Text) : Option Reference := c.findSome? (·.find name)

/-- Whether a name is visible. -/
def sees (c : Chain) (name : Text) : Bool := (c.lookup name).isSome

/-- The visible names, nearest first, each once. -/
def names (c : Chain) : List Text := Text.distinct (c.flatMap Frame.names)

end Chain

/-- A region of a symbol table. -/
structure SymbolTable.Region where
  /-- The numbers of the regions around it, innermost first. -/
  around : List Nat := []
  frame : Frame := []
deriving Repr, DecidableEq

/-- The regions of a program, numbered from 0, which is the outermost one. -/
structure SymbolTable where
  rules : Option RuleSet := none
  regions : List SymbolTable.Region := [{}]
deriving Repr, DecidableEq

namespace SymbolTable

/-- The region with a number. -/
def region (t : SymbolTable) (i : Nat) : Region := t.regions.getD i {}

/-- What a place in the region sees. -/
def chain (t : SymbolTable) (i : Nat) : Chain :=
  (i :: (t.region i).around).map fun j => (t.region j).frame

/-- Adds a region inside region `i`. It gets the next number. -/
def child (t : SymbolTable) (i : Nat) : SymbolTable :=
  { t with regions := t.regions ++ [{ around := i :: (t.region i).around }] }

/-- Declares references in region `i`. -/
def push (t : SymbolTable) (i : Nat) (refs : List Reference) : Except Diagnostic SymbolTable :=
  match (t.region i).frame.push (t.rules.getD []) refs with
  | .error d => .error d
  | .ok frame => .ok { t with regions := t.regions.modify i fun r => { r with frame } }

end SymbolTable

end Offside
