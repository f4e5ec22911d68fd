import Offside.Text.Basic

/-!
# Versions

Semantic versions behind a `v`: major, minor and patch numbers, perhaps with identifiers of a
pre-release and of a build. The minor number and the patch number may be left out at the end.
-/

namespace Offside

/-- A version. -/
structure Version where
  major : Text
  minor : Text
  patch : Text
  /-- The pre-release with its hyphen, or nothing. -/
  preRelease : Text := []
  /-- The build with its plus sign, or nothing. -/
  build : Text := []
deriving Repr, DecidableEq

namespace Version

/-- Takes a number without leading zeros. -/
def number? : Text → Option (Text × Text)
  | 48 :: s => match s with
    | b :: _ => if Text.isDigit b then none else some ([48], s)
    | [] => some ([48], [])
  | s =>
    let digits := s.takeWhile Text.isDigit
    if digits.isEmpty then none else some (digits, s.dropWhile Text.isDigit)

/-- A byte of an identifier. -/
def isIdentifierByte (b : UInt8) : Bool := Text.isLetter b || Text.isDigit b || b == 45

/-- Whether a text is an identifier. -/
def isIdentifier (s : Text) : Bool := !s.isEmpty && s.all isIdentifierByte

/-- Whether a text is an identifier of a pre-release: a number has no leading zeros. -/
def isPreIdentifier (s : Text) : Bool :=
  isIdentifier s && !(s.all Text.isDigit && s.length > 1 && s.head? == some 48)

/-- Takes the pre-release apart from the build. -/
def extra? (v : Version) (s : Text) : Option Version :=
  let preRelease := s.takeWhile (· ≠ 43)
  let build := s.dropWhile (· ≠ 43)
  let preFits := match preRelease with
    | [] => true
    | 45 :: ids => (Text.split 46 ids).all isPreIdentifier
    | _ => false
  let buildFits := match build with
    | [] => true
    | _ :: ids => (Text.split 46 ids).all isIdentifier
  if preFits && buildFits then some { v with preRelease, build } else none

/-- Reads a version behind its `v`. -/
def numbers? (s : Text) : Option Version := do
  let (major, s) ← number? s
  match s with
  | [] => some { major, minor := "0", patch := "0" }
  | 46 :: s =>
    let (minor, s) ← number? s
    match s with
    | [] => some { major, minor, patch := "0" }
    | 46 :: s =>
      let (patch, s) ← number? s
      extra? { major, minor, patch } s
    | _ => none
  | _ => none

/-- Reads a version; the `v` may be left out. -/
def read? : Text → Option Version
  | 118 :: s => numbers? s
  | s => numbers? s

/-- The version in full, without its build. -/
def canonical (v : Version) : Text :=
  "v" ++ v.major ++ "." ++ v.minor ++ "." ++ v.patch ++ v.preRelease

end Version

end Offside
