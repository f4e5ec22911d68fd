import Offside.Yaml.Meaning

/-!
# Nodes of a YAML document

A node is a scalar, a sequence or a mapping, or stands for another node, and knows the line it begins
on. The entries of a mapping may come from other mappings as well, which it names under the key `<<`.
-/

namespace Offside.Yaml

/-- A node. -/
inductive Node where
  /-- A scalar, its tag if it has one, and whether it stands between quotes or in a block. -/
  | scalar (tag : Option Text) (text : Text) (quoted : Bool) (line : Nat)
  | sequence (items : List Node) (line : Nat)
  | mapping (entries : List (Node × Node)) (line : Nat)
  /-- Stands for the node with the name; none if it lies inside that node. -/
  | alias (name : Text) (target : Option Node)
deriving Repr

namespace Node

/-- What a node is told apart by as a key: its kind and its text. -/
def identity : Node → Nat × Text
  | scalar _ t _ _ => (0, t)
  | sequence _ _ => (1, [])
  | mapping _ _ => (2, [])
  | «alias» name _ => (3, name)

/-- Whether a node merges other mappings if it is a key. -/
def isMerge : Node → Bool
  | scalar none t quoted _ => !quoted && t = "<<"
  | scalar (some tag) t _ _ => tag = "!!merge" && t = "<<"
  | _ => false

/-- Whether a node is a text, judging by its tag and its form. -/
def isText : Node → Bool
  | scalar none t quoted _ => quoted || match meaning t with
    | .text _ => true
    | _ => false
  | scalar (some tag) _ _ _ => tag = "!!str"
  | «alias» _ (some n) => n.isText
  | _ => false

/-- The node itself, or the one that it stands for. -/
def resolved : Node → Node
  | «alias» _ (some n) => n
  | n => n

/-- Whether each key stands once. -/
def distinctKeys : List (Node × Node) → Bool
  | [] => true
  | (k, _) :: entries => entries.all (fun e => e.1.identity != k.identity) && distinctKeys entries

/-- What a scalar gives as a text: what it stands for if that is a text, else itself. Null gives
nothing. Fails if the node is no scalar. -/
def text? : Node → Option (Option Text)
  | scalar tag t quoted _ => (scalarMeaning? tag quoted t).map fun
    | .null => none
    | .text t => some t
    | _ => some t
  | «alias» _ (some n) => n.text?
  | _ => none

end Node

end Offside.Yaml
