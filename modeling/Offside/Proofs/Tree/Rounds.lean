import Offside.Tree.Evaluation

/-!
# Loops round by round

Evaluation looks at one round of a loop only: if that round neither ends the loop nor fails, it says that the loop
goes on for ever. Here a loop goes round as loops do, and each may take a number of further rounds behind its first
(`Stmt.evaluateWithin`); a loop that would need more leaves the evaluation without a result. Main statement: a program
ends with a result just when it does so within some number of rounds, and it goes on for ever just when no number of
rounds is enough (`Program.evaluate_iff_within`).
-/

namespace Offside

/-- A computation whose loops have only so many rounds. It is `none` if a loop would take more of them. -/
abbrev Limited := ExceptT Halt Option

namespace Limited

variable {α β : Type}

/-- A computation without loops. -/
def of (r : Except Halt α) : Limited α := ExceptT.mk (some r)

/-- A loop has used up its rounds. -/
def cut : Limited α := ExceptT.mk none

/-- What a computation comes to if it ends. -/
def ended : Except Halt α → Limited α
  | .error .endless => cut
  | r => of r

theorem ended_of_ne {r : Except Halt α} (h : r ≠ .error .endless) : ended r = of r := by
  unfold ended
  split
  · exact absurd rfl h
  · rfl

/-- One computation behind another one ends if both do. -/
theorem ended_bind (x : Except Halt α) (f : α → Except Halt β) :
    (ended x >>= fun a => ended (f a)) = ended (x >>= f) := by
  cases x with
  | ok a => rfl
  | error h => cases h <;> rfl

theorem ended_bind_pure (x : Except Halt α) (f : α → β) :
    (ended x >>= fun a => pure (f a)) = ended (x >>= fun a => .ok (f a)) :=
  ended_bind x fun a => .ok (f a)

theorem ended_eq_some_iff {r s : Except Halt α} : ended r = some s ↔ r = s ∧ s ≠ .error .endless := by
  by_cases h : r = .error .endless
  · subst h
    constructor
    · intro hcut
      cases hcut
    · rintro ⟨rfl, hne⟩
      exact absurd rfl hne
  · rw [ended_of_ne h]
    constructor
    · intro hsome
      cases hsome
      exact ⟨rfl, h⟩
    · rintro ⟨rfl, -⟩
      rfl

theorem ended_eq_none_iff {r : Except Halt α} : ended r = none ↔ r = .error .endless := by
  by_cases h : r = .error .endless
  · subst h
    exact ⟨fun _ => rfl, fun _ => rfl⟩
  · rw [ended_of_ne h]
    constructor
    · intro hnone
      cases hnone
    · intro hend
      exact absurd hend h

end Limited

open Limited

/-! ## Expressions end -/

namespace Expr

theorem reported_ne_endless (r : Except Diagnostic Value) : reported r ≠ .error .endless := by
  cases r <;> simp [reported]

theorem bind_ne_endless {α β : Type} {x : Except Halt α} {f : α → Except Halt β} (hx : x ≠ .error .endless)
    (hf : ∀ a, f a ≠ .error .endless) : (x >>= f) ≠ .error .endless := by
  cases x with
  | ok a => exact hf a
  | error h =>
    intro heq
    cases heq
    exact hx rfl

theorem compare_ne_endless (op : BinaryOp) (l r : Value) : compare op l r ≠ .error .endless := by
  unfold compare
  split
  · simp
  · split
    · unfold ofOrdering
      split <;> simp
    · simp

theorem applyBinary_ne_endless (op : BinaryOp) (l r : Value) : applyBinary op l r ≠ .error .endless := by
  unfold applyBinary
  split
  case h_7 | h_8 => simp
  case h_9 => exact compare_ne_endless op l r
  all_goals exact reported_ne_endless _

theorem applyUnary_ne_endless (op : UnaryOp) (v : Value) : applyUnary op v ≠ .error .endless := by
  cases op with
  | negate => exact reported_ne_endless _
  | not | other code => simp [applyUnary]

theorem combine_ne_endless (op : BinaryOp) (l : Value) {right : Except Halt Value}
    (hright : right ≠ .error .endless) : combine op l right ≠ .error .endless := by
  unfold combine
  split
  · simp
  · exact hright
  · exact bind_ne_endless hright (applyBinary_ne_endless op l)

theorem evaluateLiteral_ne_endless (kind : LiteralKind) (text : Text) :
    evaluateLiteral kind text ≠ .error .endless := by
  cases kind with
  | number => exact reported_ne_endless _
  | string | boolean | null | other code => simp [evaluateLiteral]

mutual

/-- An expression has no loops, so it is never endless. -/
theorem evaluate_ne_endless : ∀ x : Expr, x.evaluate ≠ .error .endless
  | .absent | .atom _ | .access _ _ | .call _ _ | .length _ => by simp [evaluate, notEvaluated]
  | .literal kind text => by
    rw [evaluate]
    exact evaluateLiteral_ne_endless kind text
  | .atomOf inner | .enclosure inner => by
    rw [evaluate]
    exact evaluate_ne_endless inner
  | .unary op operand => by
    rw [evaluate]
    exact bind_ne_endless (evaluate_ne_endless operand) (applyUnary_ne_endless op)
  | .binary op left right => by
    rw [evaluate]
    refine bind_ne_endless (evaluate_ne_endless left) fun l => ?_
    exact combine_ne_endless op l (evaluate_ne_endless right)
  | .sequence items | .list items => by
    rw [evaluate]
    exact bind_ne_endless (evaluateAll_ne_endless items) (by simp)

theorem evaluateAll_ne_endless : ∀ xs : List Expr, evaluateAll xs ≠ .error .endless
  | [] => by simp [evaluateAll]
  | x :: xs => by
    rw [evaluateAll]
    refine bind_ne_endless (evaluate_ne_endless x) fun v => ?_
    exact bind_ne_endless (evaluateAll_ne_endless xs) (by simp)

end

theorem ended_evaluate (x : Expr) : ended x.evaluate = of x.evaluate :=
  ended_of_ne (evaluate_ne_endless x)

end Expr

/-! ## Loops that go round -/

/-- One round of a loop: the loop ends if its test is exactly true, and else goes on behind its body. -/
def loopRound (test : Limited Value) (body : Limited (List Value)) (next : Limited Value) : Limited Value := do
  match ← test with
  | .bool true => pure .none
  | _ => do
    let _ ← body
    next

/-- A loop that may take `more` rounds behind its first. -/
def loopWithin (test : Limited Value) (body : Limited (List Value)) : (more : Nat) → Limited Value
  | 0 => loopRound test body cut
  | more + 1 => loopRound test body (loopWithin test body more)

/-- A loop that its test does not end runs its body, and then what is next: evaluation says that this never ends. -/
theorem loopRound_of_ne_true {v : Value} (hv : v ≠ .bool true) :
    (∀ body, evaluateLoop (.ok v) body = (body >>= fun _ => .error .endless)) ∧
      ∀ body next, loopRound (ended (.ok v)) body next = (body >>= fun _ => next) := by
  cases v with
  | bool b =>
    cases b with
    | false => exact ⟨fun _ => rfl, fun _ _ => rfl⟩
    | true => exact absurd rfl hv
  | none | int _ | float _ | str _ | list _ => exact ⟨fun _ => rfl, fun _ _ => rfl⟩

/-- Nothing changes from one round to the next, so a loop that takes a second round uses up all that it has. -/
theorem loopWithin_ended (test : Except Halt Value) (body : Except Halt (List Value)) (more : Nat) :
    loopWithin (ended test) (ended body) more = ended (evaluateLoop test body) := by
  cases test with
  | error r => cases more <;> cases r <;> rfl
  | ok v =>
    by_cases hv : v = .bool true
    · subst hv
      cases more <;> rfl
    · obtain ⟨hloop, hround⟩ := loopRound_of_ne_true hv
      rw [hloop, ← ended_bind]
      induction more with
      | zero => exact hround (ended body) cut
      | succ more ih =>
        rw [loopWithin, hround, ih]
        -- the body has run once more, and it comes to the same
        cases body with
        | ok vs => rfl
        | error r => cases r <;> rfl

/-! ## Statements -/

mutual

/-- The value of a statement each of whose loops may take `more` rounds behind its first. -/
def Stmt.evaluateWithin (more : Nat) : Stmt → Limited Value
  | .expression x => of x.evaluate
  | .assign .. => of (Expr.notEvaluated "assignment")
  | .ifChain clauses => Clause.evaluateWithin more clauses
  | .whileLoop test body => loopWithin (of test.evaluate) (Stmt.evaluateAllWithin more body) more
  | .forRange .. => of (Expr.notEvaluated "for loop")
  | .define .. => of (Expr.notEvaluated "function definition")
  | .ret _ => of (Expr.notEvaluated "return")
  | .print _ => of (Expr.notEvaluated "print")
  | .block body => do
    let vs ← Stmt.evaluateAllWithin more body
    pure (.list vs)

/-- The values of statements, up to the first that has none. -/
def Stmt.evaluateAllWithin (more : Nat) : List Stmt → Limited (List Value)
  | [] => pure []
  | s :: ss => do
    let v ← Stmt.evaluateWithin more s
    let vs ← Stmt.evaluateAllWithin more ss
    pure (v :: vs)

/-- The value of a conditional. -/
def Clause.evaluateWithin (more : Nat) : List Clause → Limited Value
  | [] => pure .none
  | .mk none body :: _ => do
    let vs ← Stmt.evaluateAllWithin more body
    pure (.list vs)
  | .mk (some cond) body :: rest => do
    let v ← of cond.evaluate
    if v.truthy then do
      let vs ← Stmt.evaluateAllWithin more body
      pure (.list vs)
    else Clause.evaluateWithin more rest

end

section
variable (more : Nat)

mutual

/-- A statement taken round by round comes to what it comes to at once, by the structure of the statement. -/
theorem Stmt.within_eq_ended : ∀ s : Stmt, s.evaluateWithin more = ended s.evaluate
  | .expression x => by
    rw [Stmt.evaluateWithin, Stmt.evaluate, Expr.ended_evaluate]
  | .assign .. | .forRange .. | .define .. | .ret _ | .print _ => by
    rw [Stmt.evaluateWithin, Stmt.evaluate]
    rfl
  | .ifChain clauses => by
    rw [Stmt.evaluateWithin, Stmt.evaluate]
    exact Clause.within_eq_ended clauses
  | .whileLoop test body => by
    rw [Stmt.evaluateWithin, Stmt.evaluate, ← Expr.ended_evaluate, Stmt.allWithin_eq_ended body]
    exact loopWithin_ended _ _ more
  | .block body => by
    rw [Stmt.evaluateWithin, Stmt.evaluate, Stmt.allWithin_eq_ended body]
    exact ended_bind_pure _ _

theorem Stmt.allWithin_eq_ended : ∀ ss : List Stmt, Stmt.evaluateAllWithin more ss = ended (Stmt.evaluateAll ss)
  | [] => by
    rw [Stmt.evaluateAllWithin, Stmt.evaluateAll]
    rfl
  | s :: ss => by
    rw [Stmt.evaluateAllWithin, Stmt.evaluateAll, Stmt.within_eq_ended s, Stmt.allWithin_eq_ended ss, ← ended_bind]
    refine congrArg _ (funext fun v => ?_)
    exact ended_bind_pure _ _

theorem Clause.within_eq_ended : ∀ cs : List Clause, Clause.evaluateWithin more cs = ended (Clause.evaluateChain cs)
  | [] => by
    rw [Clause.evaluateWithin, Clause.evaluateChain]
    rfl
  | .mk none body :: _ => by
    rw [Clause.evaluateWithin, Clause.evaluateChain, Stmt.allWithin_eq_ended body]
    exact ended_bind_pure _ _
  | .mk (some cond) body :: rest => by
    rw [Clause.evaluateWithin, Clause.evaluateChain, ← Expr.ended_evaluate, Stmt.allWithin_eq_ended body,
      Clause.within_eq_ended rest, ← ended_bind]
    refine congrArg _ (funext fun v => ?_)
    split
    · exact ended_bind_pure _ _
    · rfl

end

end

/-! ## Programs -/

namespace Program

/-- The values of a program each of whose loops may take `more` rounds behind its first. -/
def evaluateWithin (p : Program) (more : Nat) : Limited (List Value) := Stmt.evaluateAllWithin more p.statements

theorem within_eq_ended (p : Program) (more : Nat) : p.evaluateWithin more = ended p.evaluate :=
  Stmt.allWithin_eq_ended more p.statements

/-- A program ends with a result just when it does so within some number of rounds, and it goes on for ever just
when no number of rounds is enough. -/
theorem evaluate_iff_within (p : Program) :
    (∀ r, r ≠ .error .endless → (p.evaluate = r ↔ ∃ more, p.evaluateWithin more = some r)) ∧
      (p.evaluate = .error .endless ↔ ∀ more, p.evaluateWithin more = none) := by
  simp only [within_eq_ended, ended_eq_some_iff, ended_eq_none_iff]
  constructor
  · intro r hr
    constructor
    · intro h
      exact ⟨0, h, hr⟩
    · rintro ⟨-, h, -⟩
      exact h
  · constructor
    · intro h _
      exact h
    · intro h
      exact h 0

end Program

end Offside
