import Offside.Proofs.Tree.Numbers
import Offside.Proofs.Tree.Rounds
import Offside.Proofs.Tree.WellFormed

/-!
# What well-formed trees come to

Every well-formed tree renders. Its evaluation goes on without end, gives a value for each statement, or fails
with a report: on operands that an operator does not take, on a division by zero, on a construct that has no
value, or on a number that is out of range (`Halt.Runtime`). So consumers of compiled programs meet no missing
child, no unknown operator and no number that cannot be read. Main statement: `compile_safe`.
-/

namespace Offside

open Offside.Lexeme

/-- Why the evaluation of a well-formed tree ends without a value, or does not end. -/
inductive Halt.Runtime : Halt → Prop
  | endless : Runtime .endless
  | typeError {d : Diagnostic} (h : d.kind = .typeError) : Runtime (.report d)
  | zeroDivision {d : Diagnostic} (h : d.kind = .zeroDivisionError) : Runtime (.report d)
  | notImplemented {d : Diagnostic} (h : d.kind = .notImplementedError) : Runtime (.report d)
  /-- A number literal has a value that is out of range. -/
  | outOfRange {t : Text} (ht : Emits .number t) (h : NumberText.readFloat t = .error .outOfRange) :
      Runtime (.report (Value.invalidNumber t .outOfRange))

/-- The evaluation gives a value, or ends for a reason that a well-formed tree can have. -/
def Safe {α : Type} (r : Except Halt α) : Prop := ∀ h, r = .error h → h.Runtime

section
variable {α β : Type}

theorem safe_ok (a : α) : Safe (.ok a) := nofun

theorem safe_bind {x : Except Halt α} {f : α → Except Halt β} (hx : Safe x) (hf : ∀ a, Safe (f a)) :
    Safe (x >>= f) := by
  cases x with
  | ok a => exact hf a
  | error r =>
    intro h he
    cases he
    exact hx r rfl

theorem safe_notEvaluated (construct : Text) : Safe (Expr.notEvaluated construct) := by
  intro h he
  cases he
  exact .notImplemented rfl

end

/-! ## Operators -/

namespace Value

/-- The operation gives a result, or reports its operands. -/
def Refuses {α : Type} (r : Except Diagnostic α) : Prop :=
  ∀ d, r = .error d → d.kind = .typeError ∨ d.kind = .zeroDivisionError

theorem refuses_ok {α : Type} (a : α) : Refuses (.ok a) := nofun

theorem refuses_typeError {α : Type} (reason : Text) : Refuses (α := α) (.error (.typeError reason)) := by
  intro d h
  cases h
  exact .inl rfl

theorem refuses_unlessZero (operation : Text) (isZero : Prop) [Decidable isZero] (v : Value) :
    Refuses (unlessZero operation isZero v) := by
  unfold unlessZero
  split
  · intro d h
    cases h
    exact .inr rfl
  · exact refuses_ok v

theorem refuses_onNumbers {α : Type} {ints : Int64 → Int64 → Except Diagnostic α}
    {floats : Float → Float → Except Diagnostic α} {others : Value → Value → Except Diagnostic α}
    (hints : ∀ l r, Refuses (ints l r)) (hfloats : ∀ l r, Refuses (floats l r)) (hothers : ∀ a b, Refuses (others a b))
    (a b : Value) : Refuses (onNumbers ints floats others a b) := by
  unfold onNumbers
  split
  · exact hints _ _
  · exact hfloats _ _
  · exact hothers a b

/-- An operation on numbers that always has a result refuses other operands only. -/
theorem refuses_arithmetic {op : Text} {ints : Int64 → Int64 → Value} {floats : Float → Float → Value} (a b : Value) :
    Refuses (arithmetic op (fun l r => .ok (ints l r)) (fun l r => .ok (floats l r)) a b) :=
  refuses_onNumbers (fun _ _ => refuses_ok _) (fun _ _ => refuses_ok _) (fun _ _ => refuses_typeError _) a b

/-- A division refuses zero as well. -/
theorem refuses_division {op operation : Text} {ints : Int64 → Int64 → Value} {floats : Float → Float → Value}
    (a b : Value) :
    Refuses (arithmetic op (fun l r => unlessZero operation (r = 0) (ints l r))
      (fun l r => unlessZero operation (r == 0) (floats l r)) a b) :=
  refuses_onNumbers (fun _ _ => refuses_unlessZero _ _ _) (fun _ _ => refuses_unlessZero _ _ _)
    (fun _ _ => refuses_typeError _) a b

theorem refuses_add (a b : Value) : Refuses (a.add b) := by
  refine refuses_onNumbers (fun _ _ => refuses_ok _) (fun _ _ => refuses_ok _) (fun a b => ?_) a b
  split
  · exact refuses_ok _
  · exact refuses_ok _
  · exact refuses_typeError _

theorem refuses_order (op : Text) (a b : Value) : Refuses (order op a b) := by
  refine refuses_onNumbers (fun _ _ => refuses_ok _) (fun _ _ => refuses_ok _) (fun a b => ?_) a b
  split
  · exact refuses_ok _
  · exact refuses_typeError _

theorem refuses_negate (v : Value) : Refuses v.negate := by
  cases v with
  | int _ | float _ => exact refuses_ok _
  | _ => exact refuses_typeError _

end Value

namespace Expr

theorem safe_reported {r : Except Diagnostic Value} (h : ∀ d, r = .error d → (Halt.report d).Runtime) :
    Safe (reported r) := by
  cases r with
  | ok v => exact safe_ok v
  | error d =>
    intro halt he
    cases he
    exact h d rfl

theorem safe_of_refuses {r : Except Diagnostic Value} (h : Value.Refuses r) : Safe (reported r) := by
  refine safe_reported fun d hd => ?_
  rcases h d hd with hkind | hkind
  · exact .typeError hkind
  · exact .zeroDivision hkind

theorem safe_applyUnary {op : UnaryOp} (hop : op = .negate ∨ op = .not) (v : Value) : Safe (applyUnary op v) := by
  rcases hop with rfl | rfl
  · exact safe_of_refuses v.refuses_negate
  · exact safe_ok _

/-- A comparison by an order gives a truth value. -/
theorem safe_compare {op : BinaryOp} (hop : ∀ o, ∃ b, ofOrdering op o = .ok b) (hsymbol : op.symbol?.isSome = true)
    (l r : Value) : Safe (compare op l r) := by
  obtain ⟨symbol, hs⟩ := Option.isSome_iff_exists.1 hsymbol
  rw [compare, hs]
  dsimp only
  split
  · next o _ =>
    obtain ⟨b, hb⟩ := hop o
    rw [hb]
    exact safe_ok b
  · next d hd =>
    intro h he
    cases he
    rcases Value.refuses_order symbol l r d hd with hkind | hkind
    · exact .typeError hkind
    · exact .zeroDivision hkind

/-- The operators that exist and are not decided by their left operand. -/
theorem safe_applyBinary {op : BinaryOp} (hop : op.symbol?.isSome = true) (hand : op ≠ .and) (hor : op ≠ .or)
    (l r : Value) : Safe (applyBinary op l r) := by
  cases op with
  | power | multiply | subtract => exact safe_of_refuses (Value.refuses_arithmetic l r)
  | divide | modulo => exact safe_of_refuses (Value.refuses_division l r)
  | add => exact safe_of_refuses (l.refuses_add r)
  | equals | notEquals => exact safe_ok _
  | lesser | greater | lesserEquals | greaterEquals =>
    simp only [applyBinary]
    exact safe_compare (fun _ => ⟨_, rfl⟩) hop l r
  | and => exact absurd rfl hand
  | or => exact absurd rfl hor
  | other code => cases hop

theorem safe_combine {op : BinaryOp} (hop : op.symbol?.isSome = true) (l : Value) {right : Except Halt Value}
    (hright : Safe right) : Safe (combine op l right) := by
  unfold combine
  split
  · exact safe_ok l
  · exact hright
  · next hnone =>
    have hand : op ≠ .and := by
      rintro rfl
      cases hnone
    have hor : op ≠ .or := by
      rintro rfl
      cases hnone
    exact safe_bind hright (safe_applyBinary hop hand hor l)

/-! ## Expressions -/

theorem safe_evaluateLiteral {kind : LiteralKind} {t : Text} (h : literalSpelled kind t) :
    Safe (evaluateLiteral kind t) := by
  cases kind with
  | number =>
    refine safe_reported fun d hd => ?_
    obtain ⟨rfl, hrange⟩ := Value.readNumber_error h hd
    exact .outOfRange h hrange
  | string | boolean | null => exact safe_ok _
  | other code => exact h.elim

mutual

/-- The evaluation of an expression, by the structure of the expression. -/
theorem safe_evaluate : ∀ x : Expr, x.WellSpelled → Safe x.evaluate
  | .literal kind text, h => by
    rw [WellSpelled] at h
    rw [evaluate]
    exact safe_evaluateLiteral h
  | .access _ _, _ => by
    rw [evaluate]
    exact safe_ok _
  | .call name _, _ => by
    rw [evaluate]
    exact safe_notEvaluated _
  | .length _, _ => by
    rw [evaluate]
    exact safe_notEvaluated _
  | .list items, h => by
    rw [WellSpelled] at h
    rw [evaluate]
    exact safe_bind (safe_evaluateAll items h) fun vs => safe_ok (Value.list vs)
  | .enclosure inner, h => by
    rw [WellSpelled] at h
    rw [evaluate]
    exact safe_evaluate inner h
  | .unary op operand, h => by
    rw [WellSpelled] at h
    rw [evaluate]
    exact safe_bind (safe_evaluate operand h.2) (safe_applyUnary h.1)
  | .binary op left right, h => by
    rw [WellSpelled] at h
    rw [evaluate]
    exact safe_bind (safe_evaluate left h.2.1) fun l => safe_combine h.1 l (safe_evaluate right h.2.2)
  | .absent, h | .atom _, h | .atomOf _, h | .sequence _, h => by
    rw [WellSpelled] at h
    exact h.elim

theorem safe_evaluateAll : ∀ xs : List Expr, AreWellSpelled xs → Safe (evaluateAll xs)
  | [], _ => by
    rw [evaluateAll]
    exact safe_ok []
  | x :: xs, h => by
    rw [AreWellSpelled] at h
    rw [evaluateAll]
    refine safe_bind (safe_evaluate x h.1) fun v => ?_
    exact safe_bind (safe_evaluateAll xs h.2) fun vs => safe_ok (v :: vs)

end

/-- With all its enclosures written out, the expression has a text, and it is the same one. -/
theorem WellSpelled.renders {x : Expr} (h : x.WellSpelled) : ∃ t, x.render = some t := by
  rw [← render_grouped]
  exact ⟨_, render_pieces _ (wellSpelled_grouped x h) (isGrouped_grouped x)⟩

theorem AreWellSpelled.render_all {xs : List Expr} (h : AreWellSpelled xs) : ∃ ts, renderAll xs = some ts := by
  rw [← renderAll_grouped]
  obtain ⟨ts, hts, -⟩ := renderAll_pieces _ (areWellSpelled_grouped xs h) (areGrouped_grouped xs)
  exact ⟨ts, hts⟩

theorem WellReturned.renders {value : Option Expr} (h : WellReturned value) :
    ∃ t, renderReturned value = some t := by
  unfold renderReturned
  split
  · exact ⟨_, rfl⟩
  · obtain ⟨ts, hts⟩ := AreWellSpelled.render_all h.2
    rw [hts]
    exact ⟨_, rfl⟩
  · next x hne =>
    have hx : x.WellSpelled := by
      cases x with
      | sequence items => exact absurd rfl (hne items)
      | _ => exact h
    obtain ⟨t, ht⟩ := hx.renders
    rw [ht]
    exact ⟨_, rfl⟩

end Expr

/-! ## Statements -/

open Offside.Expr

theorem safe_evaluateLoop {test : Except Halt Value} {body : Except Halt (List Value)} (htest : Safe test)
    (hbody : Safe body) : Safe (evaluateLoop test body) := by
  refine safe_bind htest fun v => ?_
  split
  · exact safe_ok _
  · refine safe_bind hbody fun _ h he => ?_
    cases he
    exact .endless

section
variable {inFunction : Bool}

mutual

theorem safe_statement : ∀ s : Stmt, s.WellFormed inFunction → Safe s.evaluate
  | .expression x, h => by
    rw [Stmt.WellFormed] at h
    rw [Stmt.evaluate]
    exact safe_evaluate x h
  | .ifChain clauses, h => by
    rw [Stmt.WellFormed] at h
    rw [Stmt.evaluate]
    exact safe_chain clauses h
  | .whileLoop test body, h => by
    rw [Stmt.WellFormed] at h
    rw [Stmt.evaluate]
    exact safe_evaluateLoop (safe_evaluate test h.1) (safe_statements body h.2)
  | .assign .., _ | .forRange .., _ | .define .., _ | .ret _, _ | .print _, _ => by
    rw [Stmt.evaluate]
    exact safe_notEvaluated _
  | .block _, h => by
    rw [Stmt.WellFormed] at h
    exact h.elim

theorem safe_statements : ∀ ss : List Stmt, Stmt.AreWellFormed inFunction ss → Safe (Stmt.evaluateAll ss)
  | [], _ => by
    rw [Stmt.evaluateAll]
    exact safe_ok []
  | s :: ss, h => by
    rw [Stmt.AreWellFormed] at h
    rw [Stmt.evaluateAll]
    refine safe_bind (safe_statement s h.1) fun v => ?_
    exact safe_bind (safe_statements ss h.2) fun vs => safe_ok (v :: vs)

theorem safe_chain : ∀ {first : Bool} (cs : List Clause), Clause.AreWellFormed inFunction first cs →
    Safe (Clause.evaluateChain cs)
  | _, [], _ => by
    rw [Clause.evaluateChain]
    exact safe_ok _
  | _, .mk none body :: _, h => by
    rw [Clause.AreWellFormed] at h
    rw [Clause.evaluateChain]
    exact safe_bind (safe_statements body h.2) fun vs => safe_ok (Value.list vs)
  | _, .mk (some cond) body :: cs, h => by
    rw [Clause.AreWellFormed] at h
    rw [Clause.evaluateChain]
    refine safe_bind (safe_evaluate cond h.1.1) fun v => ?_
    split
    · exact safe_bind (safe_statements body h.1.2) fun vs => safe_ok (Value.list vs)
    · exact safe_chain cs h.2

end

end

/-- Statements that have values have one each. -/
theorem length_evaluateAll {ss : List Stmt} {vs : List Value} (h : Stmt.evaluateAll ss = .ok vs) :
    vs.length = ss.length := by
  induction ss generalizing vs with
  | nil =>
    rw [Stmt.evaluateAll] at h
    cases h
    rfl
  | cons s ss ih =>
    rw [Stmt.evaluateAll] at h
    cases hs : s.evaluate with
    | error e =>
      rw [hs] at h
      cases h
    | ok v =>
      cases hrest : Stmt.evaluateAll ss with
      | error e =>
        rw [hs, hrest] at h
        cases h
      | ok rest =>
        rw [hs, hrest] at h
        cases h
        rw [List.length_cons, List.length_cons, ih hrest]

mutual

/-- The text of a statement, by the structure of the statement. -/
theorem renders_statement : ∀ {inFunction : Bool} (s : Stmt), s.WellFormed inFunction → ∃ t, s.render = some t
  | _, .expression x, h => by
    rw [Stmt.WellFormed] at h
    rw [Stmt.render]
    exact h.renders
  | _, .assign _ value _, h => by
    rw [Stmt.WellFormed] at h
    obtain ⟨t, ht⟩ := h.renders
    rw [Stmt.render, ht]
    exact ⟨_, rfl⟩
  | _, .ifChain clauses, h => by
    rw [Stmt.WellFormed] at h
    rw [Stmt.render]
    exact renders_chain clauses h
  | _, .whileLoop test body, h => by
    rw [Stmt.WellFormed] at h
    obtain ⟨t, ht⟩ := h.1.renders
    obtain ⟨ts, hts⟩ := renders_statements body h.2
    rw [Stmt.render, ht, hts]
    exact ⟨_, rfl⟩
  | _, .forRange _ start stop step body _, h => by
    rw [Stmt.WellFormed] at h
    obtain ⟨⟨hstart, hstop, hstep⟩, hbody⟩ := h
    obtain ⟨t₁, h₁⟩ := hstart.renders
    obtain ⟨t₂, h₂⟩ := hstop.renders
    obtain ⟨t₃, h₃⟩ := hstep.renders
    obtain ⟨ts, hts⟩ := renders_statements body hbody
    rw [Stmt.render, h₁, h₂, h₃, hts]
    exact ⟨_, rfl⟩
  | _, .define _ _ body _, h => by
    rw [Stmt.WellFormed] at h
    obtain ⟨ts, hts⟩ := renders_statements body h
    rw [Stmt.render, hts]
    exact ⟨_, rfl⟩
  | _, .ret value, h => by
    rw [Stmt.WellFormed] at h
    rw [Stmt.render]
    exact h.2.renders
  | _, .print args, h => by
    rw [Stmt.WellFormed] at h
    obtain ⟨ts, hts⟩ := AreWellSpelled.render_all h
    rw [Stmt.render, hts]
    exact ⟨_, rfl⟩
  | _, .block _, h => by
    rw [Stmt.WellFormed] at h
    exact h.elim

theorem renders_statements : ∀ {inFunction : Bool} (ss : List Stmt), Stmt.AreWellFormed inFunction ss →
    ∃ ts, Stmt.renderAll ss = some ts
  | _, [], _ => ⟨[], by rw [Stmt.renderAll]⟩
  | _, s :: ss, h => by
    rw [Stmt.AreWellFormed] at h
    obtain ⟨t, ht⟩ := renders_statement s h.1
    obtain ⟨ts, hts⟩ := renders_statements ss h.2
    rw [Stmt.renderAll, ht, hts]
    exact ⟨_, rfl⟩

theorem renders_chain : ∀ {inFunction : Bool} (cs : List Clause), Clause.AreWellFormed inFunction true cs →
    ∃ t, Clause.renderChain cs = some t
  | _, [], h => by
    rw [Clause.AreWellFormed] at h
    cases h
  | _, .mk none _ :: _, h => by
    rw [Clause.AreWellFormed] at h
    cases h.1.1
  | _, .mk (some cond) body :: cs, h => by
    rw [Clause.AreWellFormed] at h
    obtain ⟨t, ht⟩ := h.1.1.renders
    obtain ⟨ts, hts⟩ := renders_statements body h.1.2
    obtain ⟨rest, hrest⟩ := renders_rest cs h.2
    rw [Clause.renderChain, ht, hts, hrest]
    exact ⟨_, rfl⟩

theorem renders_rest : ∀ {inFunction : Bool} (cs : List Clause), Clause.AreWellFormed inFunction false cs →
    ∃ t, Clause.renderRest cs = some t
  | _, [], _ => ⟨[], by rw [Clause.renderRest]⟩
  | _, .mk none body :: cs, h => by
    rw [Clause.AreWellFormed] at h
    obtain ⟨⟨-, rfl⟩, hbody⟩ := h
    obtain ⟨ts, hts⟩ := renders_statements body hbody
    rw [Clause.renderRest, hts, Clause.renderRest]
    exact ⟨_, rfl⟩
  | _, .mk (some cond) body :: cs, h => by
    rw [Clause.AreWellFormed] at h
    obtain ⟨t, ht⟩ := h.1.1.renders
    obtain ⟨ts, hts⟩ := renders_statements body h.1.2
    obtain ⟨rest, hrest⟩ := renders_rest cs h.2
    rw [Clause.renderRest, ht, hts, hrest]
    exact ⟨_, rfl⟩

end

/-! ## Programs -/

namespace Program

variable {p : Program}

theorem WellFormed.renders (h : p.WellFormed) : ∃ t, p.render = some t := by
  obtain ⟨ts, hts⟩ := renders_statements p.statements h
  rw [Program.render, renderBody, hts]
  exact ⟨_, rfl⟩

/-- The evaluation of a program that is well formed gives a value for each statement, or fails as it may. -/
theorem WellFormed.evaluates (h : p.WellFormed) :
    (∃ vs, p.evaluate = .ok vs ∧ vs.length = p.statements.length) ∨ ∃ r, p.evaluate = .error r ∧ r.Runtime := by
  cases he : p.evaluate with
  | ok vs => exact .inl ⟨vs, rfl, length_evaluateAll he⟩
  | error r => exact .inr ⟨r, rfl, safe_statements p.statements h r he⟩

/-- Taken round by round, its evaluation fails with a report if it fails. -/
theorem WellFormed.ends_within (h : p.WellFormed) {more : Nat} {r : Except Halt (List Value)}
    (hr : p.evaluateWithin more = some r) :
    (∃ vs, r = .ok vs ∧ vs.length = p.statements.length) ∨
      ∃ d, r = .error (.report d) ∧ (Halt.report d).Runtime := by
  rw [within_eq_ended, Limited.ended_eq_some_iff] at hr
  obtain ⟨heq, hends⟩ := hr
  rcases h.evaluates with ⟨vs, hvs, hlength⟩ | ⟨halt, hhalt, hruntime⟩
  · exact .inl ⟨vs, heq.symm.trans hvs, hlength⟩
  · obtain rfl := heq.symm.trans hhalt
    refine .inr ?_
    cases hruntime with
    | endless => exact absurd rfl hends
    | typeError hkind => exact ⟨_, rfl, .typeError hkind⟩
    | zeroDivision hkind => exact ⟨_, rfl, .zeroDivision hkind⟩
    | notImplemented hkind => exact ⟨_, rfl, .notImplemented hkind⟩
    | outOfRange ht hrange => exact ⟨_, rfl, .outOfRange ht hrange⟩

end Program

namespace Compile

/-- The trees of compiled programs are well formed, so they can be consumed. Rendering gives a text. Evaluation
goes on without end, or gives exactly one value for each statement, or reports a type error, a division by
zero, a construct that has no value or a number literal that is out of range. It never crashes, and it meets no
unknown operator and no number literal that cannot be read. That evaluation goes on without end means that it does
not end within any number of rounds of its loops; if it ends within some, it ends with those values or such a report. -/
theorem compile_safe {o : Options} {source : Text} {out : Output} (h : compile o source = .ok out) :
    out.program.WellFormed ∧ (∃ t, out.program.render = some t) ∧
      ((∃ vs, out.program.evaluate = .ok vs ∧ vs.length = out.program.statements.length) ∨
        ∃ r, out.program.evaluate = .error r ∧ r.Runtime) ∧
      (∀ more r, out.program.evaluateWithin more = some r →
        (∃ vs, r = .ok vs ∧ vs.length = out.program.statements.length) ∨
          ∃ d, r = .error (.report d) ∧ (Halt.report d).Runtime) ∧
      (∀ r, r ≠ .error .endless → (out.program.evaluate = r ↔ ∃ more, out.program.evaluateWithin more = some r)) ∧
      (out.program.evaluate = .error .endless ↔ ∀ more, out.program.evaluateWithin more = none) := by
  have hformed := compile_wellFormed h
  exact ⟨hformed, hformed.renders, hformed.evaluates, fun more r hr => hformed.ends_within hr,
    out.program.evaluate_iff_within⟩

/-- A function that returns two values or none, after a number that is out of range; and a loop that goes on without
end, whatever number of rounds it may take. -/
theorem compile_safe_function_and_loop :
    (∃ out, compile {} "1e999\ndef f(a):\n if a:\n  return 1., a\n else:\n  return\n" = .ok out ∧
      out.program.WellFormed ∧ (∃ t, out.program.render = some t) ∧
      ((∃ vs, out.program.evaluate = .ok vs ∧ vs.length = out.program.statements.length) ∨
        ∃ r, out.program.evaluate = .error r ∧ r.Runtime)) ∧
    ∃ out, compile {} "1\nwhile False:\n 2\n" = .ok out ∧ out.program.evaluate = .error .endless ∧
      ∀ more, out.program.evaluateWithin more = none := by
  constructor
  · obtain ⟨out, hout⟩ := Option.isSome_iff_exists.1
      (show (compile {} "1e999\ndef f(a):\n if a:\n  return 1., a\n else:\n  return\n").toOption.isSome = true by
        decide +kernel)
    have h := ok_of_toOption hout
    obtain ⟨hformed, hrenders, hevaluates, -⟩ := compile_safe h
    exact ⟨out, h, hformed, hrenders, hevaluates⟩
  · obtain ⟨out, hout, hcut⟩ := Option.map_eq_some_iff.1
      (show (compile {} "1\nwhile False:\n 2\n").toOption.map
        (fun out => Option.isNone (out.program.evaluateWithin 0)) = some true by decide +kernel)
    have h := ok_of_toOption hout
    have hendless := Option.isNone_iff_eq_none.1 hcut
    rw [Program.within_eq_ended, Limited.ended_eq_none_iff] at hendless
    obtain ⟨-, -, -, -, -, hrounds⟩ := compile_safe h
    exact ⟨out, h, hendless, hrounds.1 hendless⟩

end Compile

end Offside
