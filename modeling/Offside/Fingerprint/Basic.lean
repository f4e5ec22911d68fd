import Offside.Rule
import Offside.Lexer.Scanner
import Offside.Fingerprint.Cbor
import Offside.Fingerprint.Blake2b

/-!
# Fingerprints

What a compilation depends on is brought into a canonical form, in which the order and the
repetition of rules do not show. The fingerprint of a compilation is the hash of the encoded form.
-/

namespace Offside

/-- A request for a compilation in canonical form. -/
structure CompilationUnit where
  /-- The version of this form. -/
  version : Nat := 1
  source : Text
  tabWidth : Int
  /-- The names of the rules that turn something off. -/
  disabled : List Text
  /-- The names that may not be declared. -/
  names : List Text
deriving Repr, DecidableEq

/-- What identifies a compilation. -/
structure Fingerprint where
  bytes : Text
deriving Repr, DecidableEq

namespace CompilationUnit

/-- The texts in bytewise order, each once. -/
def normal (ts : List Text) : List Text := Text.sorted (Text.distinct ts)

/-- The name of a rule that turns something off. -/
def disabledName? : Rule → Option Text
  | .disable c => some (Policy.disable c).name
  | .blacklist _ => none

/-- The canonical form of a request. A tab width that is not positive stands for the usual one. -/
def ofRequest (source : Text) (tabWidth : Int) (rules : List Rule) : CompilationUnit :=
  { source
    tabWidth := Scanner.effectiveTabWidth (some tabWidth)
    disabled := normal (rules.filterMap disabledName?)
    names := normal (rules.flatMap Rule.names) }

/-- The encoded form: a map from the names of the fields to their values. -/
def encode (u : CompilationUnit) : Text :=
  Cbor.map
    [("Names", Cbor.array (u.names.map Cbor.text)),
      ("Source", Cbor.text u.source),
      ("Version", Cbor.int u.version),
      ("Disabled", Cbor.array (u.disabled.map Cbor.text)),
      ("TabWidth", Cbor.int u.tabWidth)]

/-- The fingerprint. -/
def fingerprint (u : CompilationUnit) : Fingerprint := ⟨Blake2b.digest 32 u.encode⟩

end CompilationUnit

namespace Fingerprint

/-- The fingerprint of a request. -/
def ofRequest (source : Text) (tabWidth : Int) (rules : List Rule) : Fingerprint :=
  (CompilationUnit.ofRequest source tabWidth rules).fingerprint

/-- The fingerprint in hexadecimal digits, with the name of the hash before it. -/
def describe (f : Fingerprint) : Text := "blake2b:" ++ Text.hex f.bytes

end Fingerprint

end Offside
