import Offside.Text.Quoted

/-!
# Rules

A rule restricts the programs that are accepted: it turns a construct off, or forbids names to be
declared. A list of rules turns off and forbids whatever one of its members does.
-/

namespace Offside

/-- A construct that can be turned off. -/
inductive Construct where
  | ifStatement | forStatement | whileStatement | functionDefinition | print
  /-- What a code stands for that belongs to no policy; no program has it. -/
  | other (code : Int)
deriving Repr, DecidableEq

/-- What a rule is about. -/
inductive Policy where
  | disable (c : Construct)
  | blacklistVariable
deriving Repr, DecidableEq

/-- A rule. -/
inductive Rule where
  | disable (c : Construct)
  /-- The names may not be declared. -/
  | blacklist (names : List Text)
deriving Repr, DecidableEq

namespace Policy

/-- Every policy, in the order of the codes. -/
def all : List Policy :=
  [disable .ifStatement, disable .forStatement, disable .whileStatement,
    disable .functionDefinition, disable .print, blacklistVariable]

/-- The name. -/
def name : Policy → Text
  | disable .ifStatement => "DisableIf"
  | disable .forStatement => "DisableFor"
  | disable .whileStatement => "DisableWhile"
  | disable .functionDefinition => "DisableFunctionDef"
  | disable .print => "DisablePrint"
  | disable (.other code) => "Policy(" ++ Text.ofInt code ++ ")"
  | blacklistVariable => "BlacklistVariable"

/-- The code of one of the policies above. -/
def code (p : Policy) : Nat := all.idxOf p

/-- The policy with a code. -/
def ofCode? (code : Int) : Option Policy := if code < 0 then none else all[code.toNat]?

/-- The name of a code, also of one that no policy has. -/
def nameOfCode (code : Int) : Text := ((ofCode? code).getD (disable (.other code))).name

/-- The message for a name that no policy has. -/
def unknown (name : Text) : Text :=
  "unknown rule " ++ Text.quoted name ++ " (expected one of " ++
    Text.join ", " (all.map Policy.name) ++ ")"

/-- The policy with a name. The match is exact. -/
def ofName (name : Text) : Except Text Policy :=
  match all.find? (·.name == name) with
  | some p => .ok p
  | none => .error (unknown name)

end Policy

namespace Rule

/-- What the rule is about. -/
def policy : Rule → Policy
  | disable c => .disable c
  | blacklist _ => .blacklistVariable

/-- The names that the rule forbids. -/
def names : Rule → List Text
  | disable _ => []
  | blacklist names => names

/-- The rule of a policy; only a blacklist has names. -/
def ofPolicy (names : List Text) : Policy → Rule
  | .disable c => disable c
  | .blacklistVariable => blacklist names

/-- The rule in its external form, a name with values. -/
def ofNameAndValues (name : Text) (values : List Text) : Except Text Rule :=
  (Policy.ofName name).map (ofPolicy values)

/-- The rule on one line. -/
def describe : Rule → Text
  | disable c => (Policy.disable c).name
  | blacklist names => Policy.blacklistVariable.name ++ "(" ++ Text.join "," names ++ ")"

end Rule

/-- The rules of a compilation. -/
abbrev RuleSet := List Rule

namespace RuleSet

/-- Whether the construct is turned off. -/
def disabled (rules : RuleSet) (c : Construct) : Bool := rules.contains (.disable c)

theorem disabled_iff {rules : RuleSet} {c : Construct} : rules.disabled c = true ↔ Rule.disable c ∈ rules := by
  simp [disabled]

/-- Whether the name may not be declared. -/
def blacklisted (rules : RuleSet) (name : Text) : Bool := rules.any fun r => r.names.contains name

theorem blacklisted_iff {rules : RuleSet} {n : Text} :
    rules.blacklisted n = true ↔ n ∈ List.flatMap Rule.names rules := by
  simp [blacklisted]

/-- Whether the policy turns something off. A blacklist does not. -/
def turnsOff (rules : RuleSet) : Policy → Bool
  | .disable c => rules.disabled c
  | .blacklistVariable => false

end RuleSet

end Offside
