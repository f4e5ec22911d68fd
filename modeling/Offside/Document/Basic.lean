import Offside.Text.Basic

/-!
# Documents

The values that structured text stands for: objects, lists, texts, numbers, truth values and null.
Numbers keep their text.
-/

namespace Offside

/-- A structured value. -/
inductive Document where
  | null
  | bool (b : Bool)
  | number (text : Text)
  | string (t : Text)
  | array (items : List Document)
  | object (fields : List (Text × Document))
deriving Repr

namespace Document

/-- The name of the type. -/
def typeName : Document → Text
  | null => "null"
  | bool _ => "boolean"
  | number _ => "number"
  | string _ => "string"
  | array _ => "array"
  | object _ => "object"

/-- The value that a key has last. -/
def last? (fields : List (Text × Document)) (key : Text) : Option Document :=
  fields.reverse.lookup key

/-- The keys, each once. -/
def keys (fields : List (Text × Document)) : List Text := Text.distinct (fields.map (·.1))

end Document

end Offside
