import Offside.Text.Basic

/-!
# Tokens of YAML

Layout is turned into tokens: where a block begins and ends, where a key and where a value. What
stands between braces and brackets has tokens of its own.
-/

namespace Offside.Yaml

/-- A place in a text. Lines and columns count from 0. -/
structure Place where
  index : Nat := 0
  line : Nat := 0
  column : Nat := 0
deriving Repr, DecidableEq

/-- What a token is. -/
inductive TokenKind where
  | streamStart
  | streamEnd
  /-- The version of the language that a document is written in. -/
  | version (major minor : Nat)
  /-- The meaning of a handle in tags. -/
  | handle (name expansion : Text)
  | documentStart
  | documentEnd
  | sequenceStart
  | mappingStart
  | blockEnd
  | openBracket
  | closeBracket
  | openBrace
  | closeBrace
  | entry
  | comma
  | key
  | value
  | alias (name : Text)
  | anchor (name : Text)
  | tag (handle suffix : Text)
  | scalar (text : Text) (quoted : Bool)
deriving Repr, DecidableEq

/-- A token and the place it begins at. -/
structure Token where
  kind : TokenKind
  place : Place := {}
deriving Repr, DecidableEq

end Offside.Yaml
