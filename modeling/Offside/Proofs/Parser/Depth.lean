import Offside.Proofs.Parser.Counting
import Offside.Proofs.Parser.Program

/-!
# The limit on nesting

The parser that counts does what the parser with a budget does, and behind everything that it parses its counters are
what they were before (`Follows`, by the structure of the definitions that both run). With a budget of just what is
left of the limit the two agree; with more budget the parser that counts may be cut short, and nothing else can happen.
So two limits are compared through one parser that counts. Main statement: the limit only cuts parsing short
(`compile_depth`).
-/

namespace Offside

/-- What surrounds a statement where the counters stand. -/
def Counters.context (k : Counters) (rules : RuleSet) (outer : Chain) : Statement.Context :=
  { rules, outer, blockDepth := k.blockDepth, inFunction := decide (0 < k.funcDepth) }

namespace Counting

variable {σ α β : Type}

/-- What the parser that counts gives, beside what the parser gives: the same, with the counters as they were unless it
has failed; or, where that is allowed, the report of too deep a nesting. -/
inductive Matches (cut : Prop) (k : Counters) : EStateM.Result Halt (σ × Counters) α → EStateM.Result Halt σ α → Prop
  | ok (a : α) (s : σ) : Matches cut k (.ok a (s, k)) (.ok a s)
  | error (h : Halt) (s : σ) (k' : Counters) : Matches cut k (.error h (s, k')) (.error h s)
  | cut (hcut : cut) (t : Token) (s : σ) (k' : Counters) (r : EStateM.Result Halt σ α) :
      Matches cut k (.error (.report t.tooDeep) (s, k')) r

/-- From every state and the given counters, the parser that counts does what the parser does. -/
def Follows (cut : Prop) (k : Counters) (p : Counting σ α) (q : EStateM Halt σ α) : Prop :=
  ∀ s, Matches cut k (p (s, k)) (q s)

section
variable {cut : Prop} {k : Counters}

theorem follows_pure (a : α) : Follows cut k (pure a : Counting σ α) (pure a) := fun s => .ok a s

theorem follows_bind {p : Counting σ α} {q : EStateM Halt σ α} {f : α → Counting σ β} {g : α → EStateM Halt σ β}
    (h : Follows cut k p q) (hf : ∀ a, Follows cut k (f a) (g a)) : Follows cut k (p >>= f) (q >>= g) := by
  intro s
  have hs := h s
  change Matches cut k (EStateM.bind p f (s, k)) (EStateM.bind q g s)
  unfold EStateM.bind
  generalize p (s, k) = r at hs
  generalize q s = r' at hs
  cases hs with
  | ok a s => exact hf a s
  | error h s k' => exact .error h s k'
  | cut hcut t s k' r =>
    exact .cut hcut t s k' _

theorem follows_lift (q : EStateM Halt σ α) : Follows cut k (liftM q : Counting σ α) q := by
  intro s
  simp only [liftM, monadLift, MonadLift.monadLift]
  cases q s with
  | ok a s => exact .ok a s
  | error h s => exact .error h s k

/-- A step that counts nothing. -/
theorem follows_step {q : EStateM Halt σ α} {f : α → Counting σ β} {g : α → EStateM Halt σ β}
    (hf : ∀ a, Follows cut k (f a) (g a)) : Follows cut k (liftM q >>= f) (q >>= g) :=
  follows_bind (follows_lift q) hf

theorem follows_counted {before after : Counters → Counters} {p : Counting σ α} {q : EStateM Halt σ α}
    (h : Follows cut (before k) p q) (hk : after (before k) = k) : Follows cut k (counted before after p) q := by
  intro s
  have hs := h s
  unfold counted
  dsimp only
  generalize p (s, before k) = r at hs
  generalize q s = r' at hs
  cases hs with
  | ok a s =>
    dsimp only
    rw [hk]
    exact .ok a s
  | error h s k' => exact .error h s _
  | cut hcut t s k' r => exact .cut hcut t s _ _

/-- The budget is enough for what is left of the limit, and no more than that unless a parser may be cut short. -/
structure Covers (cut : Prop) (limit : Nat) (k : Counters) (budget : Nat) : Prop where
  enough : limit - k.depth ≤ budget
  tight : cut ∨ budget = limit - k.depth

theorem Covers.of_depth {limit budget : Nat} {k' : Counters} (h : Covers cut limit k budget) (hk : k'.depth = k.depth) :
    Covers cut limit k' budget := by
  obtain ⟨henough, htight⟩ := h
  rw [← hk] at henough htight
  exact ⟨henough, htight⟩

/-- Beyond the limit one goes no deeper, and with no budget left neither. -/
theorem follows_deeper {cur : σ → Token} {limit budget : Nat} {p : Counting σ α} {q : Nat → EStateM Halt σ α}
    (hc : Covers cut limit k budget) (hzero : ∀ s, q 0 s = .error (.report (cur s).tooDeep) s)
    (hsucc : ∀ b, k.depth < limit → Covers cut limit k.enter b → Follows cut k.enter p (q (b + 1))) :
    Follows cut k (deeper cur limit p) (q budget) := by
  obtain ⟨henough, htight⟩ := hc
  by_cases hlimit : limit < k.enter.depth
  · -- nothing is left of the limit, so a tight budget is used up
    intro s
    simp only [deeper, if_pos hlimit]
    rcases htight with hcut | hbudget
    · exact .cut hcut _ _ _ _
    · have hb : budget = 0 := by
        simp only [Counters.enter] at hlimit
        omega
      rw [hb, hzero]
      exact .error _ _ _
  · have hdepth : k.depth < limit := by
      simp only [Counters.enter] at hlimit
      omega
    obtain ⟨b, rfl⟩ : ∃ b, budget = b + 1 := ⟨budget - 1, by omega⟩
    have hb : Covers cut limit k.enter b := by
      refine ⟨?_, htight.imp_right fun h => ?_⟩ <;> simp only [Counters.enter] <;> omega
    intro s
    simp only [deeper, if_neg hlimit]
    exact follows_counted (hsucc b hdepth hb) rfl s

end

namespace Expression

open Offside.Expression hiding parse

variable {cut : Prop} {k : Counters} {operand : Counting Cursor Expr} {operand' : Reader Expr}

theorem follows_foldRest {level : Level} (h : Follows cut k operand operand') (fuel : Nat) (left : Expr) :
    Follows cut k (foldRest level operand fuel left) (foldRest level operand' fuel left) := by
  induction fuel generalizing left with
  | zero => exact follows_pure left
  | succ fuel ih =>
    refine follows_step fun t => ?_
    cases level.ofToken? t with
    | none => exact follows_pure left
    | some op =>
      refine follows_step fun _ => follows_bind h fun right => ih _

theorem follows_foldLeft {level : Level} (h : Follows cut k operand operand') :
    Follows cut k (foldLeft level operand) (foldLeft level operand') :=
  follows_bind h fun left => follows_step fun fuel => follows_foldRest h fuel left

theorem follows_moreItems (h : Follows cut k operand operand') (fuel : Nat) :
    Follows cut k (moreItems operand fuel) (moreItems operand' fuel) := by
  induction fuel with
  | zero => exact follows_pure []
  | succ fuel ih =>
    refine follows_step fun t => ?_
    split
    · exact follows_step fun _ => follows_bind h fun x => follows_bind ih fun xs => follows_pure (x :: xs)
    · exact follows_pure []

theorem follows_items (h : Follows cut k operand operand') : Follows cut k (items operand) (items operand') :=
  follows_bind h fun x => follows_step fun fuel =>
    follows_bind (follows_moreItems h fuel) fun xs => follows_pure (x :: xs)

theorem follows_itemsUntil (h : Follows cut k operand operand') (close : Bracket) (what : Text) :
    Follows cut k (itemsUntil operand close what) (itemsUntil operand' close what) := by
  refine follows_step fun t => ?_
  split
  · exact follows_bind (follows_pure []) fun xs => follows_step fun _ => follows_pure xs
  · exact follows_bind (follows_items h) fun xs => follows_step fun _ => follows_pure xs

section
variable {nested : Nested (Counting Cursor)} {nested' : Nested Reader} (h : ∀ e, Follows cut k (nested e) (nested' e))
include h

theorem follows_enclosure : Follows cut k (enclosure nested) (enclosure nested') :=
  follows_step fun _ => follows_bind (h .expr) fun _ => follows_step fun _ => follows_pure _

theorem follows_list : Follows cut k (list nested) (list nested') :=
  follows_step fun _ => follows_bind (follows_itemsUntil (h .expr) _ _) fun _ => follows_pure _

theorem follows_length : Follows cut k (length nested) (length nested') :=
  follows_step fun _ => follows_step fun _ => follows_bind (h .expr) fun _ => follows_step fun _ =>
    follows_pure _

theorem follows_name (scope : Chain) (t : Token) :
    Follows cut k (name scope nested t) (name scope nested' t) := by
  unfold name
  split
  · refine follows_step fun _ => follows_step fun next => ?_
    split
    · exact follows_step fun _ => follows_bind (follows_itemsUntil (h .expr) _ _) fun args =>
        follows_pure _
    · exact follows_pure _
  · exact follows_lift _

theorem follows_primary (scope : Chain) :
    Follows cut k (primary scope nested) (primary scope nested') := by
  refine follows_step fun t => ?_
  cases t.kind with
  | keyword =>
    cases t.subtype with
    | keyword w =>
      cases w with
      | len => exact follows_length h
      | _ => exact follows_lift _
    | _ => exact follows_lift _
  | bracket =>
    cases t.subtype with
    | bracket b =>
      cases b with
      | roundOpen => exact follows_enclosure h
      | squareOpen => exact follows_list h
      | _ => exact follows_lift _
    | _ => exact follows_lift _
  | identifier => exact follows_name h scope t
  | _ => exact follows_lift _

theorem follows_unary (scope : Chain) :
    Follows cut k (unary scope nested) (unary scope nested') := by
  refine follows_step fun t => ?_
  split
  · refine follows_step fun _ => follows_step fun next => ?_
    split
    · exact follows_lift _
    · exact follows_bind (follows_primary h scope) fun x => follows_pure _
  · exact follows_primary h scope

theorem follows_power (scope : Chain) :
    Follows cut k (power scope nested) (power scope nested') := by
  refine follows_bind (follows_unary h scope) fun base => follows_step fun t => ?_
  split
  · exact follows_step fun _ => follows_bind (h .power) fun x => follows_pure _
  · exact follows_pure base

theorem follows_comparison (scope : Chain) :
    Follows cut k (comparison scope nested) (comparison scope nested') :=
  follows_foldLeft (follows_foldLeft (follows_foldLeft (follows_power h scope)))

theorem follows_negation (scope : Chain) :
    Follows cut k (negation scope nested) (negation scope nested') := by
  refine follows_step fun t => ?_
  split
  · exact follows_step fun _ => follows_bind (h .not) fun x => follows_pure _
  · exact follows_bind (follows_comparison h scope) fun x => follows_step fun fuel => follows_lift _

theorem follows_disjunction (scope : Chain) :
    Follows cut k (disjunction scope nested) (disjunction scope nested') :=
  follows_foldLeft (follows_foldLeft (follows_negation h scope))

theorem follows_body (scope : Chain) (e : Entry) : Follows cut k (body scope nested e) (body scope nested' e) := by
  cases e with
  | expr => exact follows_disjunction h scope
  | not => exact follows_negation h scope
  | power => exact follows_power h scope

end

theorem follows_parseFor {limit budget fuel : Nat} (scope : Chain) (hc : Covers cut limit k budget)
    (hf : limit - k.depth < fuel) (e : Entry) :
    Follows cut k (parseFor limit scope fuel e) (Offside.Expression.parse scope budget e) := by
  induction fuel generalizing k budget e with
  | zero => omega
  | succ fuel ih =>
    refine follows_deeper (q := fun b => Offside.Expression.parse scope b e) hc (fun _ => rfl) fun b hdepth hb => ?_
    have hnested : ∀ e, Follows cut k.enter (parseFor limit scope fuel e) (Offside.Expression.parse scope b e) :=
      ih hb (by simp only [Counters.enter]; omega)
    exact follows_body hnested scope e

theorem follows_parse {limit budget : Nat} (scope : Chain) (hc : Covers cut limit k budget) (e : Entry) :
    Follows cut k (parse limit scope e) (Offside.Expression.parse scope budget e) :=
  follows_parseFor scope hc (by omega) e

end Expression

/-! ## Statements -/

namespace Statement

open Offside.Statement hiding BlockParser statement block program
open Offside.Statement.Parser (current fail countBlock bound)

section
variable {α : Type} {cut : Prop} {k : Counters}

theorem follows_read {r : Counting Cursor α} {r' : Reader α} (h : Follows cut k r r') :
    Follows cut k (read r) (Parser.read r') := by
  intro s
  have hs := h s.cursor
  unfold read Parser.read
  dsimp only
  generalize r (s.cursor, k) = x at hs
  generalize r' s.cursor = y at hs
  cases hs with
  | ok a c => exact .ok a _
  | error h c k' => exact .error h _ k'
  | cut hcut t c k' y => exact .cut hcut t _ k' _

theorem follows_inScope {p : Counting State α} {q : Parser α} (h : Follows cut k p q) :
    Follows cut k (inScope p) (inScope q) :=
  follows_step fun _ => follows_bind h fun a => follows_step fun f => follows_pure (a, f)

theorem follows_inFunction (rules : RuleSet) (outer : Chain) :
    Follows cut k (MonadNesting.inFunction (m := Counting State) { rules, outer })
      (MonadNesting.inFunction (k.context rules outer)) :=
  fun s => .ok _ s

/-- Asking for the counters. -/
theorem follows_counters {σ : Type} {f : Counters → Counting σ α} {q : EStateM Halt σ α} (h : Follows cut k (f k) q) :
    Follows cut k (counters >>= f) q := h

variable {limit budget : Nat} (hc : Covers cut limit k budget) (rules : RuleSet) (outer : Chain)
include hc

theorem follows_expression : Follows cut k (expression (m := Counting State) { rules, outer } limit)
    (expression (k.context rules outer) budget) :=
  follows_step fun f => follows_read (Expression.follows_parse (f :: outer) hc .expr)

theorem follows_expressions : Follows cut k (expressions (m := Counting State) { rules, outer } limit)
    (expressions (k.context rules outer) budget) :=
  follows_step fun f => follows_read (Expression.follows_items (Expression.follows_parse (f :: outer) hc .expr))

theorem follows_arguments : Follows cut k (arguments (m := Counting State) { rules, outer } limit)
    (arguments (k.context rules outer) budget) := by
  refine follows_step fun t => ?_
  split
  · exact follows_pure _
  · exact follows_expressions hc rules outer

theorem follows_returnStatement : Follows cut k (returnStatement (m := Counting State) { rules, outer } limit)
    (returnStatement (k.context rules outer) budget) := by
  refine follows_step fun t => follows_bind (follows_inFunction rules outer) fun inside => ?_
  split
  · refine follows_step fun _ => follows_step fun next => ?_
    split
    · exact follows_pure _
    · exact follows_bind (follows_expressions hc rules outer) fun _ => follows_pure _
  · exact follows_lift _

theorem follows_printStatement : Follows cut k (printStatement (m := Counting State) { rules, outer } limit)
    (printStatement (k.context rules outer) budget) :=
  follows_step fun _ => follows_step fun _ => follows_step fun _ =>
    follows_bind (follows_arguments hc rules outer) fun _ => follows_step fun _ => follows_pure _

theorem follows_assignment : Follows cut k (assignment (m := Counting State) { rules, outer } limit)
    (assignment (k.context rules outer) budget) :=
  follows_step fun _ => follows_step fun _ => follows_step fun _ =>
    follows_bind (follows_expression hc rules outer) fun _ => follows_step fun _ => follows_step fun _ => follows_pure _

theorem follows_nameStatement : Follows cut k (nameStatement (m := Counting State) { rules, outer } limit)
    (nameStatement (k.context rules outer) budget) := by
  refine follows_step fun next => ?_
  split
  · exact follows_assignment hc rules outer
  · exact follows_bind (follows_expression hc rules outer) fun _ => follows_pure _

end

section
variable {cut : Prop} {k : Counters}

theorem follows_onOneLine {p : Counting State Stmt} {q : Parser Stmt} (h : Follows cut k p q) :
    Follows cut k (onOneLine p) (onOneLine q) :=
  follows_bind h fun _ => follows_step fun _ => follows_pure _

theorem follows_clauses {cond : Counting State Expr} {cond' : Parser Expr}
    {block : Counting State (List Stmt)} {block' : Parser (List Stmt)}
    (hcond : Follows cut k cond cond') (hblock : Follows cut k block block') (fuel : Nat) :
    Follows cut k (clauses cond block fuel) (clauses cond' block' fuel) := by
  induction fuel with
  | zero => exact follows_pure []
  | succ fuel ih =>
    refine follows_step fun _ => follows_bind hcond fun x => follows_bind hblock fun body => follows_step fun t => ?_
    split
    · exact follows_bind ih fun _ => follows_pure _
    · split
      · exact follows_step fun _ => follows_bind hblock fun _ => follows_pure _
      · exact follows_pure _

theorem follows_statements {one : Counting State Stmt} {one' : Parser Stmt}
    (h : Follows cut k one one') (inBlock : Bool) (fuel : Nat) :
    Follows cut k (statements one inBlock fuel) (statements one' inBlock fuel) := by
  induction fuel with
  | zero => exact follows_pure []
  | succ fuel ih =>
    refine follows_step fun t => ?_
    cases t.kind with
    | eof =>
      cases inBlock with
      | true => exact follows_lift _
      | false => exact follows_pure []
    | dedent =>
      cases inBlock with
      | true => exact follows_step fun _ => follows_pure []
      | false => exact follows_lift _
    | indent => exact follows_lift _
    | newline => exact follows_step fun _ => ih
    | _ => exact follows_bind h fun _ => follows_step fun _ => follows_bind ih fun _ => follows_pure _

variable {limit budget : Nat} (hc : Covers cut limit k budget) {rules : RuleSet}
  {block : Offside.Statement.BlockParser (Counting State)} {block' : Offside.Statement.BlockParser Parser}
  (hb : ∀ k' outer, k'.depth = k.depth → Follows cut k' (block { rules, outer }) (block' (k'.context rules outer)))
  (outer : Chain)
include hc hb

theorem follows_ifStatement : Follows cut k (ifStatement { rules, outer } limit block)
    (ifStatement (k.context rules outer) budget block') :=
  follows_step fun _ => follows_step fun fuel =>
    follows_bind (follows_clauses (follows_expression hc rules outer) (hb k outer rfl) fuel) fun _ => follows_pure _

theorem follows_whileStatement : Follows cut k (whileStatement { rules, outer } limit block)
    (whileStatement (k.context rules outer) budget block') :=
  follows_step fun _ => follows_step fun _ =>
    follows_bind (follows_expression hc rules outer) fun _ => follows_bind (hb k outer rfl) fun _ => follows_pure _

theorem follows_forStatement : Follows cut k (forStatement { rules, outer } limit block)
    (forStatement (k.context rules outer) budget block') := by
  refine follows_step fun _ => follows_step fun _ => follows_step fun t => ?_
  split
  · refine follows_step fun _ => follows_step fun _ => follows_step fun _ => follows_step fun _ => follows_step fun _ =>
      follows_bind (follows_arguments hc rules outer) fun args => ?_
    cases rangeOf? args with
    | none => exact follows_lift _
    | some range =>
      refine follows_step fun _ => follows_step fun f => follows_bind (follows_inScope ?_) fun _ => follows_pure _
      exact follows_step fun _ => follows_step fun _ => hb k (f :: outer) rfl
  · exact follows_lift _

omit hc in
theorem follows_functionBody :
    Follows cut k (MonadNesting.body block { rules, outer }) (MonadNesting.body block' (k.context rules outer)) := by
  have hin : { k.context rules outer with inFunction := true } = k.enterFunction.context rules outer := by
    simp [Counters.context, Counters.enterFunction]
  refine follows_counted ?_ rfl
  change Follows cut k.enterFunction _ (block' { k.context rules outer with inFunction := true })
  rw [hin]
  exact hb k.enterFunction outer rfl

omit hc in
theorem follows_defStatement : Follows cut k (defStatement { rules, outer } block)
    (defStatement (k.context rules outer) block') := by
  refine follows_step fun _ => follows_step fun _ => follows_step fun t => ?_
  split
  · refine follows_step fun _ => follows_step fun _ => follows_step fun _ => follows_step fun f =>
      follows_bind (follows_inScope ?_) fun _ => follows_pure _
    exact follows_step fun fuel => follows_step fun params => follows_step fun _ =>
      follows_bind (follows_functionBody hb (f :: outer)) fun _ => follows_pure _
  · exact follows_lift _

theorem follows_statement : Follows cut k (Offside.Statement.statement { rules, outer } limit block)
    (Offside.Statement.statement (k.context rules outer) budget block') := by
  have hexpr : Follows cut k _ _ := follows_onOneLine (follows_bind (follows_expression hc rules outer) fun x =>
    follows_pure (Stmt.expression x))
  refine follows_step fun _ => follows_step fun t => ?_
  cases t.kind with
  | keyword =>
    cases t.subtype with
    | keyword w =>
      cases w with
      | return_ => exact follows_onOneLine (follows_returnStatement hc rules outer)
      | if_ => exact follows_ifStatement hc hb outer
      | for_ => exact follows_forStatement hc hb outer
      | while_ => exact follows_whileStatement hc hb outer
      | def_ => exact follows_defStatement hb outer
      | print => exact follows_onOneLine (follows_printStatement hc rules outer)
      | _ => exact hexpr
    | _ => exact hexpr
  | identifier => exact follows_onOneLine (follows_nameStatement hc rules outer)
  | _ => exact hexpr

end

/-- What is left of a block behind its start, with the given budget. -/
def blockRest (ctx : Context) : (budget : Nat) → Parser (List Stmt)
  | 0 => do
    let t ← current
    fail t.tooDeep
  | budget + 1 => do
    let ctx := { ctx with blockDepth := ctx.blockDepth + 1 }
    countBlock ctx.blockDepth
    let fuel ← bound
    statements (Offside.Statement.statement ctx budget (Offside.Statement.block budget)) true fuel

theorem block_eq (ctx : Context) (budget : Nat) :
    Offside.Statement.block budget ctx = blockStart >>= fun _ => blockRest ctx budget := by
  cases budget <;> rfl

theorem follows_blockFor {cut : Prop} {limit : Nat} (rules : RuleSet) {fuel : Nat} : ∀ {k : Counters} {budget : Nat}
    (outer : Chain), Covers cut limit k budget → limit - k.depth < fuel →
    Follows cut k (blockFor limit rules fuel outer) (Offside.Statement.block budget (k.context rules outer)) := by
  induction fuel with
  | zero => exact fun _ _ hf => absurd hf (Nat.not_lt_zero _)
  | succ fuel ih =>
    intro k budget outer hc hf
    rw [block_eq]
    refine follows_step fun _ => follows_deeper hc (fun _ => rfl) fun b hdepth hb => ?_
    refine follows_counted (follows_counters (follows_step fun _ => follows_step fun fuel' => ?_)) rfl
    have hblock : ∀ k' outer, k'.depth = k.enter.enterBlock.depth →
        Follows cut k' (blockFor limit rules fuel outer) (Offside.Statement.block b (k'.context rules outer)) := by
      intro k' outer hk
      have hk' : k'.depth = k.depth + 1 := hk
      exact ih outer (hb.of_depth hk') (by omega)
    have hdeeper : Covers cut limit k.enter.enterBlock b := hb.of_depth rfl
    exact follows_statements (follows_statement hdeeper hblock outer) true fuel'

theorem follows_block {cut : Prop} {limit budget : Nat} {k : Counters} (rules : RuleSet) (outer : Chain)
    (hc : Covers cut limit k budget) :
    Follows cut k (block limit rules outer) (Offside.Statement.block budget (k.context rules outer)) :=
  follows_blockFor rules outer hc (by omega)

/-- A statement with its blocks. -/
theorem follows_whole {cut : Prop} {limit budget : Nat} {k : Counters} (rules : RuleSet) (outer : Chain)
    (hc : Covers cut limit k budget) : Follows cut k (statement limit rules outer (block limit rules))
      (Offside.Statement.statement (k.context rules outer) budget (Offside.Statement.block budget)) :=
  follows_statement hc (fun _ outer hk => follows_block rules outer (hc.of_depth hk)) outer

theorem follows_program {cut : Prop} {limit budget : Nat} (rules : RuleSet) (hc : Covers cut limit {} budget) :
    Follows cut {} (program limit rules) (Offside.Statement.program rules budget) :=
  follows_step fun fuel => follows_statements (follows_whole rules [] hc) false fuel

end Statement

/-! ## Counters and limits -/

/-- From the given counters, the parser that counts gives what the parser gives. If that is a result, the counters are
behind it what they were before it. -/
def Agrees (k : Counters) (p : Counting σ α) (q : EStateM Halt σ α) : Prop := ∀ s,
  match q s with
  | .ok a s' => p (s, k) = .ok a (s', k)
  | .error h s' => ∃ k', p (s, k) = .error h (s', k')

section
variable {k : Counters} {p : Counting σ α} {q q' : EStateM Halt σ α}

theorem Follows.agrees (h : Follows False k p q) : Agrees k p q := by
  intro s
  have hs := h s
  generalize p (s, k) = r at hs ⊢
  generalize q s = r' at hs ⊢
  cases hs with
  | ok a s => rfl
  | error h s k' => exact ⟨k', rfl⟩
  | cut hcut => exact hcut.elim

/-- A parser under a smaller limit gives what one under a larger limit gives, unless it is cut short. -/
theorem Follows.cut_short (h : Follows False k p q) (h' : Follows True k p q') (s : σ) :
    q s = q' s ∨ ∃ t s', q s = .error (.report (Token.tooDeep t)) s' := by
  have hs := h s
  have hs' := h' s
  generalize p (s, k) = r at hs hs'
  generalize q s = x at hs ⊢
  generalize q' s = y at hs' ⊢
  cases hs with
  | ok a s =>
    cases hs'
    exact .inl rfl
  | error h s k' =>
    cases hs' with
    | error => exact .inl rfl
    | cut _ t => exact .inr ⟨t, s, rfl⟩
  | cut hcut => exact hcut.elim

end

theorem covers_tight (limit : Nat) (k : Counters) : Covers False limit k (limit - k.depth) := ⟨Nat.le_refl _, .inr rfl⟩

end Counting

namespace Compile

open Counting

theorem program_cut (rules : RuleSet) {d d' : Nat} (h : d ≤ d') (s : Statement.State) :
    Statement.program rules d s = Statement.program rules d' s ∨
      ∃ t s', Statement.program rules d s = .error (.report (Token.tooDeep t)) s' :=
  (Counting.Statement.follows_program rules (covers_tight d {})).cut_short
    (Counting.Statement.follows_program rules ⟨h, .inl trivial⟩) s

/-- A source compiles under a limit as it does under any larger one, unless it nests too deep for the smaller one. -/
theorem compile_cut (o : Options) (source : Text) {d d' : Nat} (h : d ≤ d') :
    compile { o with maxDepth := d } source = compile { o with maxDepth := d' } source ∨
      ∃ t : Token, compile { o with maxDepth := d } source = .error (.report (t.tooDeep.withSource source)) := by
  unfold compile run parseTokens
  cases (tokenize source o.tabWidth).tokens with
  | nil => exact .inl rfl
  | cons t rest =>
    dsimp only
    rcases program_cut o.rules h { cursor := ⟨t, rest, (tokenize source o.tabWidth).halt⟩ } with heq | ⟨t', s', hcut⟩
    · exact .inl (by rw [heq])
    · exact .inr ⟨t', by rw [hcut]; rfl⟩

/-- The limit on nesting cuts parsing short and does nothing else: a source compiles as it does under any larger
limit, unless it is reported to nest too deep. What has been read does not add to the nesting of what follows: the
parser with a budget does what the one that counts does, and that one leaves its counters as they were behind every
expression, every statement and the program. -/
theorem compile_depth (o : Options) (source : Text) {d d' : Nat} (h : d ≤ d') :
    (compile { o with maxDepth := d } source = compile { o with maxDepth := d' } source ∨
      ∃ t : Token, compile { o with maxDepth := d } source = .error (.report (t.tooDeep.withSource source))) ∧
    (∀ out, compile { o with maxDepth := d } source = .ok out → compile { o with maxDepth := d' } source = .ok out) ∧
    (∀ k scope e, Agrees k (Counting.Expression.parse d scope e) (Expression.parse scope (d - k.depth) e)) ∧
    (∀ k outer, Agrees k (Counting.Statement.statement d o.rules outer (Counting.Statement.block d o.rules))
      (Statement.statement (k.context o.rules outer) (d - k.depth) (Statement.block (d - k.depth)))) ∧
    Agrees {} (Counting.Statement.program d o.rules) (Statement.program o.rules d) := by
  have hcut := compile_cut o source h
  refine ⟨hcut, fun out hout => ?_, fun k scope e => ?_, fun k outer => ?_, ?_⟩
  · rcases hcut with heq | ⟨t, hdeep⟩
    · rw [← heq, hout]
    · rw [hdeep] at hout
      cases hout
  · exact (Counting.Expression.follows_parse scope (covers_tight d k) e).agrees
  · exact (Counting.Statement.follows_whole o.rules outer (covers_tight d k)).agrees
  · exact (Counting.Statement.follows_program o.rules (covers_tight d {})).agrees

/-- Three statements side by side nest no deeper than one, and a function in a block nests deeper. -/
theorem compile_depth_siblings :
    1 ≤ 2 ∧
    (∃ out, compile { maxDepth := 1 } "print(1)\nprint(2)\nprint(3)\n" = .ok out ∧
      compile { maxDepth := 2 } "print(1)\nprint(2)\nprint(3)\n" = .ok out) ∧
    ∃ t : Token, compile { maxDepth := 1 } "if 1:\n def f(): \n  return\n" =
      .error (.report (t.tooDeep.withSource "if 1:\n def f(): \n  return\n")) := by
  have h : 1 ≤ 2 := by decide
  refine ⟨h, ?_, ?_⟩
  · obtain ⟨out, hout⟩ := Option.isSome_iff_exists.1
      (show (compile { maxDepth := 1 } "print(1)\nprint(2)\nprint(3)\n").toOption.isSome = true by decide +kernel)
    have hok := ok_of_toOption hout
    exact ⟨out, hok, (compile_depth {} _ h).2.1 out hok⟩
  · refine (compile_depth {} _ h).1.resolve_left fun heq => ?_
    have hne : (compile { maxDepth := 1 } "if 1:\n def f(): \n  return\n").toOption.isSome ≠
        (compile { maxDepth := 2 } "if 1:\n def f(): \n  return\n").toOption.isSome := by decide +kernel
    exact hne (congrArg (·.toOption.isSome) heq)

end Compile

end Offside
