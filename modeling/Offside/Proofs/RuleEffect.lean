import Offside.Compile

/-!
# The effect of rules

A compilation asks its rules two kinds of questions: whether a construct is turned off, and whether a name may
be declared. Main statement: rules that answer every question alike compile every source alike, to one program
or to one failure (`compile_alike`).
-/

namespace Offside

/-! ## What rules answer -/

namespace RuleSet

/-- The rules give the same answers. -/
structure Alike (r₁ r₂ : RuleSet) : Prop where
  disabled : ∀ c, r₁.disabled c = r₂.disabled c
  blacklisted : ∀ n, r₁.blacklisted n = r₂.blacklisted n

/-- A policy that turns nothing off asks nothing. -/
theorem turnsOff_alike_iff {r₁ r₂ : RuleSet} :
    (∀ p, r₁.turnsOff p = r₂.turnsOff p) ↔ ∀ c, r₁.disabled c = r₂.disabled c := by
  constructor
  · intro h c
    exact h (.disable c)
  · intro h p
    cases p with
    | disable c => exact h c
    | blacklistVariable => rfl

end RuleSet

/-! ## Parsing under rules -/

namespace Statement

open RuleSet Offside.Statement.Parser

/-- The same surroundings under other rules. -/
def Context.under (ctx : Context) (rules : RuleSet) : Context := { ctx with rules }

variable {r₁ r₂ : RuleSet} (h : Alike r₁ r₂) (ctx : Context) (budget : Nat)
include h

theorem declare_alike (r : Reference) (t : Token) : declare r₁ r t = declare r₂ r t := by
  have hasks : (fun r : Reference => r₁.blacklisted r.name) = fun r => r₂.blacklisted r.name :=
    funext fun r => h.blacklisted r.name
  unfold declare Frame.push
  rw [hasks]

theorem declareOnce_alike (r : Reference) (t : Token) : declareOnce r₁ r t = declareOnce r₂ r t := by
  unfold declareOnce
  simp only [declare_alike h]

theorem permit_alike (what : Text) (c : Construct) : permit (ctx.under r₁) what c = permit (ctx.under r₂) what c := by
  have hasks : (ctx.under r₁).rules.disabled c = (ctx.under r₂).rules.disabled c := h.disabled c
  unfold permit
  rw [hasks]

theorem parameters_alike (fuel : Nat) (first : Bool) : parameters r₁ fuel first = parameters r₂ fuel first := by
  induction fuel generalizing first with
  | zero => rfl
  | succ fuel ih => simp only [parameters, declare_alike h, ih]

section
variable {block : BlockParser Parser} (hblock : ∀ ctx : Context, block (ctx.under r₁) = block (ctx.under r₂))
include hblock

theorem ifStatement_alike : ifStatement (ctx.under r₁) budget block = ifStatement (ctx.under r₂) budget block := by
  unfold ifStatement
  rw [permit_alike h, hblock]
  rfl

theorem whileStatement_alike :
    whileStatement (ctx.under r₁) budget block = whileStatement (ctx.under r₂) budget block := by
  unfold whileStatement
  rw [permit_alike h, hblock]
  rfl

theorem forStatement_alike : forStatement (ctx.under r₁) budget block = forStatement (ctx.under r₂) budget block := by
  have hinner : ∀ f, block ((ctx.under r₁).inner f) = block ((ctx.under r₂).inner f) := fun f => hblock (ctx.inner f)
  have hrules : ∀ r t, declare (ctx.under r₁).rules r t = declare (ctx.under r₂).rules r t := declare_alike h
  unfold forStatement
  simp only [permit_alike h, hinner, hrules]
  rfl

theorem defStatement_alike : defStatement (ctx.under r₁) block = defStatement (ctx.under r₂) block := by
  have hinner : ∀ f, MonadNesting.body block ((ctx.under r₁).inner f) =
      MonadNesting.body block ((ctx.under r₂).inner f) := fun f => hblock { ctx.inner f with inFunction := true }
  have hname : ∀ r t, declareOnce (ctx.under r₁).rules r t = declareOnce (ctx.under r₂).rules r t := declareOnce_alike h
  have hparams : ∀ n b, parameters (ctx.under r₁).rules n b = parameters (ctx.under r₂).rules n b := parameters_alike h
  unfold defStatement
  simp only [permit_alike h, hinner, hname, hparams]

theorem statement_alike : statement (ctx.under r₁) budget block = statement (ctx.under r₂) budget block := by
  have hprint : printStatement (m := Parser) (ctx.under r₁) budget = printStatement (ctx.under r₂) budget := by
    unfold printStatement
    rw [permit_alike h]
    rfl
  have hassign : assignment (m := Parser) (ctx.under r₁) budget = assignment (ctx.under r₂) budget := by
    have hrules : ∀ r t, declareOnce (ctx.under r₁).rules r t = declareOnce (ctx.under r₂).rules r t :=
      declareOnce_alike h
    unfold assignment
    simp only [hrules]
    rfl
  unfold statement nameStatement
  rw [ifStatement_alike h ctx budget hblock, whileStatement_alike h ctx budget hblock,
    forStatement_alike h ctx budget hblock, defStatement_alike h ctx hblock, hprint, hassign]
  rfl

end

/-- Blocks under rules that answer alike are read alike. -/
theorem block_alike : block budget (ctx.under r₁) = block budget (ctx.under r₂) := by
  induction budget generalizing ctx with
  | zero => rfl
  | succ budget ih =>
    have hone := statement_alike h { ctx with blockDepth := ctx.blockDepth + 1 } budget ih
    unfold block
    simp only [Context.under] at hone ⊢
    rw [hone]

theorem program_alike : program r₁ budget = program r₂ budget := by
  have hone := statement_alike h {} budget fun ctx => block_alike h ctx budget
  unfold program
  simp only [Context.under] at hone
  rw [hone]

end Statement

/-- Rules that answer alike compile alike: to one output or to one failure. -/
theorem compile_alike {r₁ r₂ : RuleSet} (h : RuleSet.Alike r₁ r₂) (o : Compile.Options) (source : Text) :
    compile { o with rules := r₁ } source = compile { o with rules := r₂ } source := by
  unfold compile Compile.run Compile.parseTokens
  simp only [Statement.program_alike h]

end Offside
