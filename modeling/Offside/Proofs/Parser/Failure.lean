import Offside.Proofs.Parser.Expression
import Offside.Parser.Statement

/-!
# What the parser reports

A parser fails for one of three reasons: the tokens stop, or a token is reported where it has no place, or a
name is not visible. What is reported at a token is listed (`Token.Reports`). The readers of expressions pass
over content only, never over the layout, and they fail for such a reason. Both are said at once of a reader at
a place (`Orderly`), and the combinators of the parser keep it.
-/

namespace Offside

/-! ## Reports at tokens -/

namespace Statement

/-- Behind this part of a line and before this token, a name is declared and not read. -/
inductive Binds : List Token → Option Token → Prop
  /-- The name of a function, or a parameter. -/
  | define {t : Token} {ts : List Token} {next : Option Token} (h : t.isKeyword .def_ = true) : Binds (t :: ts) next
  /-- A loop variable. -/
  | loop {t : Token} {next : Option Token} (h : t.isKeyword .for_ = true) : Binds [t] next
  /-- The target of an assignment. -/
  | assign {o : Token} (h : o.isOperator .assign = true) : Binds [] (some o)

/-- The name `t` is declared where it stands, behind a part of its line and before the tokens `post`. -/
structure Declares (tokens line : List Token) (t : Token) (post : List Token) : Prop where
  tokens : ∃ pre, tokens = pre ++ line ++ t :: post
  content : ∀ u ∈ line, u.kind.isStructural = false
  name : t.kind = .identifier
  binds : Binds line post.head?

end Statement

/-- What is reported at one of the tokens, a name that is not visible apart. -/
inductive Token.Reports (tokens : List Token) (t : Token) : Diagnostic → Prop
  /-- The token stands where another one should. -/
  | unexpected (reason : Text) : t.Reports tokens (t.unexpected reason)
  /-- Another minus sign follows. -/
  | doubleMinus : t.Reports tokens (Expression.doubleMinus t)
  /-- A block begins where none can, or does not begin where one should. -/
  | misplaced {reason : Text}
      (h : reason ∈ (["unexpected indent", "expected an indented block", "expected a newline"] : List Text)) :
      t.Reports tokens (t.misplaced reason)
  /-- A range has too few or too many arguments. -/
  | range (count : Nat) : t.Reports tokens (Statement.rangeArguments count t)
  /-- A rule turns the construct off. -/
  | disabled {what : Text} (c : Construct) (h : what ∈
        (["If statement", "For statement", "While statement", "Function definition", "Print"] : List Text)) :
      t.Reports tokens (Statement.disabled what c t)
  /-- A rule forbids the name, which is declared there and not by a loop. -/
  | blacklisted {line post : List Token} (h : Statement.Declares tokens line t post)
      (hline : ∀ f ∈ line.head?, f.isKeyword .for_ = false) :
      t.Reports tokens ((Frame.blacklisted t.literal).moved t.line t.column)
  /-- A rule forbids the variable `v` of a loop, of which the head ends before the token. -/
  | loop {f v : Token} {head post : List Token} (h : Statement.Declares tokens [f] v (head ++ t :: post))
      (hf : f.isKeyword .for_ = true) (hhead : ∀ u ∈ head, u.kind.isStructural = false)
      (hclose : ∃ c ∈ head.getLast?, c.isBracket .roundClose = true) :
      t.Reports tokens ((Frame.blacklisted v.literal).moved t.line t.column)

@[simp] theorem Token.kind_unexpected (t : Token) (reason : Text) : (t.unexpected reason).kind = .syntaxError := by
  unfold Token.unexpected Diagnostic.withFact Diagnostic.syntaxError
  rfl

/-- Names that are not visible are reported otherwise. -/
theorem Token.Reports.kind_ne {tokens : List Token} {t : Token} {d : Diagnostic} (h : t.Reports tokens d) :
    d.kind ≠ .nameError := by
  cases h with
  | unexpected | doubleMinus => simp [Expression.doubleMinus]
  | misplaced => simp [Token.misplaced, Diagnostic.indentationError]
  | range => simp [Statement.rangeArguments, Diagnostic.withFact, Diagnostic.syntaxError]
  | disabled => simp [Statement.disabled, Diagnostic.withFact, Diagnostic.moved, Diagnostic.compilationError]
  | blacklisted | loop => simp [Frame.blacklisted, Diagnostic.withFact, Diagnostic.moved, Diagnostic.compilationError]

/-- What is reported at a token carries its line and column. -/
theorem Token.Reports.place {tokens : List Token} {t : Token} {d : Diagnostic} (h : t.Reports tokens d) :
    d.line = t.line ∧ d.column = t.column := by
  cases h with
  | unexpected | doubleMinus | misplaced | range | disabled | blacklisted | loop => exact ⟨rfl, rfl⟩

namespace Cursor

/-- The first cursor leads to the second. -/
def Reaches (root c : Cursor) : Prop := ∃ ts, root = c.before ts

theorem Reaches.refl (c : Cursor) : Reaches c c := ⟨[], rfl⟩

theorem Reaches.before {root c c' : Cursor} {ts : List Token} (h : Reaches root c) (e : c = c'.before ts) :
    Reaches root c' := by
  obtain ⟨us, hu⟩ := h
  exact ⟨us ++ ts, before_trans hu e⟩

theorem Reaches.halt {root c : Cursor} (h : Reaches root c) : root.halt = c.halt := by
  obtain ⟨ts, rfl⟩ := h
  exact halt_before ts c

theorem Reaches.cur_mem {root c : Cursor} (h : Reaches root c) : c.cur ∈ root.tokens := by
  obtain ⟨ts, rfl⟩ := h
  rw [tokens_before]
  exact List.mem_append_right _ List.mem_cons_self

/-- Only content stands between the two places. -/
def Passes (c c' : Cursor) : Prop := ∃ ts, c = c'.before ts ∧ ∀ t ∈ ts, t.kind.isStructural = false

theorem Passes.refl (c : Cursor) : Passes c c := ⟨[], rfl, List.forall_mem_nil _⟩

theorem Passes.trans {a b c : Cursor} (h : Passes a b) (h' : Passes b c) : Passes a c := by
  obtain ⟨ts, e, ht⟩ := h
  obtain ⟨us, e', hu⟩ := h'
  exact ⟨ts ++ us, before_trans e e', List.forall_mem_append.2 ⟨ht, hu⟩⟩

theorem Passes.ended {c c' : Cursor} (h : Passes c c') (hc : c.Ended) : c'.Ended := by
  obtain ⟨ts, rfl, -⟩ := h
  exact ended_before.1 hc

theorem Passes.reaches {root c c' : Cursor} (h : Passes c c') (hr : Reaches root c) : Reaches root c' := by
  obtain ⟨ts, e, -⟩ := h
  exact hr.before e

end Cursor

namespace Reader

/-- Going on fails only where the tokens stop. -/
theorem advance_error {c c' : Cursor} {h : Halt} (he : advance c = .error h c') : c.halt = some h ∧ c' = c := by
  unfold advance at he
  split at he
  · cases he
  · split at he
    · next hhalt =>
      cases he
      exact ⟨hhalt, rfl⟩
    · cases he

theorem halt_of_advance {c c' : Cursor} {u : Unit} (h : advance c = .ok u c') : c'.halt = c.halt := by
  unfold advance at h
  split at h
  · cases h
    rfl
  · split at h
    · cases h
    · cases h
      rfl

theorem peek_error {c c' : Cursor} {h : Halt} (he : peek c = .error h c') : c.halt = some h := by
  unfold peek at he
  split at he
  · cases he
  · split at he
    · next hhalt =>
      cases he
      exact hhalt
    · cases he

end Reader

namespace Expression

open Offside.Cursor Offside.Grammar

/-- The reader stands on a name that is not visible, and reports it. -/
structure Undefined (scope : Chain) (c : Cursor) (h : Halt) : Prop where
  name : c.cur.kind = .identifier
  hidden : scope.sees c.cur.literal = false
  report : h = .report (undefinedName scope c.cur)

/-- Why a reader that has begun at `root` or behind it stops at `c`. -/
inductive Stops (scope : Chain) (root c : Cursor) : Halt → Prop
  /-- The tokens stop. -/
  | halt {h : Halt} (hh : root.halt = some h) : Stops scope root c h
  /-- A token has no place where it stands. -/
  | report {t : Token} {d : Diagnostic} (ht : t ∈ root.tokens) (hd : t.Reports root.tokens d) :
      Stops scope root c (.report d)
  /-- A name is not visible. -/
  | undefined {h : Halt} (hu : Undefined scope c h) : Stops scope root c h

/-- At the place the reader passes over content only, and fails for a reason. -/
def Orderly {α : Type} (scope : Chain) (root : Cursor) (r : Reader α) (c : Cursor) : Prop :=
  c.Ended → Reaches root c → (∀ a c', r c = .ok a c' → Passes c c') ∧
    ∀ h c', r c = .error h c' → Passes c c' ∧ Stops scope root c' h

section
variable {α β : Type} {scope : Chain} {root c : Cursor}

theorem orderly_bind {x : Reader α} {f : α → Reader β} (hx : Orderly scope root x c)
    (hf : ∀ a c', Orderly scope root (f a) c') : Orderly scope root (x >>= f) c := by
  intro hc hr
  obtain ⟨hok, herror⟩ := hx hc hr
  constructor
  · intro b c'' h
    obtain ⟨a, c', h₁, h₂⟩ := bind_ok.1 h
    have hfirst := hok a c' h₁
    exact hfirst.trans ((hf a c' (hfirst.ended hc) (hfirst.reaches hr)).1 b c'' h₂)
  · intro h c'' he
    rcases bind_error.1 he with h₁ | ⟨a, c', h₁, h₂⟩
    · exact herror h c'' h₁
    · have hfirst := hok a c' h₁
      obtain ⟨hpass, hstops⟩ := (hf a c' (hfirst.ended hc) (hfirst.reaches hr)).2 h c'' h₂
      exact ⟨hfirst.trans hpass, hstops⟩

theorem orderly_pure (a : α) : Orderly scope root (pure a) c := by
  intro _ _
  constructor
  · intro b c' h
    obtain ⟨-, rfl⟩ := pure_ok.1 h
    exact .refl c
  · intro h c' he
    cases he

theorem orderly_current {f : Token → Reader α} (h : c.cur ∈ root.tokens → Orderly scope root (f c.cur) c) :
    Orderly scope root (Reader.current >>= f) c := by
  intro hc hr
  rw [bind_of_ok (Reader.current_eq c)]
  exact h hr.cur_mem hc hr

theorem orderly_bound {f : Nat → Reader α} (h : Orderly scope root (f c.bound) c) :
    Orderly scope root (Reader.bound >>= f) c := by
  intro hc hr
  have hbound : Reader.bound c = .ok c.bound c := rfl
  rw [bind_of_ok hbound]
  exact h hc hr

theorem orderly_fail {t : Token} {d : Diagnostic} (ht : t ∈ root.tokens) (hd : t.Reports root.tokens d) :
    Orderly scope root (Reader.fail d : Reader α) c := by
  intro _ _
  constructor
  · intro a c' h
    cases h
  · intro h c' he
    cases he
    exact ⟨.refl c, .report ht hd⟩

theorem orderly_advance (hk : c.cur.kind.isStructural = false) : Orderly scope root Reader.advance c := by
  intro hc hr
  have hend : c.cur.kind ≠ .eof := fun h => by simp [h, Token.Kind.isStructural] at hk
  constructor
  · intro _ c' h
    exact ⟨[c.cur], (Reader.advance_ok hc hend h).1, by simpa using hk⟩
  · intro h c' he
    obtain ⟨hhalt, rfl⟩ := Reader.advance_error he
    exact ⟨.refl c', .halt (hr.halt.trans hhalt)⟩

theorem orderly_expect {is : Token → Bool} {what : Text} (his : ∀ t, is t = true → t.kind.isStructural = false) :
    Orderly scope root (Reader.expect is what) c := by
  refine orderly_current fun hcur => ?_
  split
  · next ht => exact orderly_advance (his _ ht)
  · exact orderly_fail hcur (.unexpected _)

end

/-! ## The combinators -/

section
variable {scope : Chain} {root : Cursor} {operand : Reader Expr}

theorem orderly_foldRest {level : Level} (h : ∀ c, Orderly scope root operand c) (fuel : Nat) (left : Expr)
    (c : Cursor) : Orderly scope root (foldRest level operand fuel left) c := by
  induction fuel generalizing left c with
  | zero => exact orderly_pure left
  | succ fuel ih =>
    refine orderly_current fun _ => ?_
    split
    · exact orderly_pure left
    · next hop =>
      refine orderly_bind (orderly_advance (content_of_kind (Reader.kind_of_ofToken? hop) rfl)) fun _ c₁ => ?_
      exact orderly_bind (h c₁) fun right c₂ => ih _ c₂

theorem orderly_foldLeft {level : Level} (h : ∀ c, Orderly scope root operand c) (c : Cursor) :
    Orderly scope root (foldLeft level operand) c := by
  unfold foldLeft
  refine orderly_bind (h c) fun left c₁ => orderly_bound ?_
  exact orderly_foldRest h _ left c₁

theorem orderly_moreItems (h : ∀ c, Orderly scope root operand c) (fuel : Nat) (c : Cursor) :
    Orderly scope root (moreItems operand fuel) c := by
  induction fuel generalizing c with
  | zero => exact orderly_pure []
  | succ fuel ih =>
    refine orderly_current fun _ => ?_
    split
    · next hcomma =>
      refine orderly_bind (orderly_advance (content_of_kind (kind_of_isDelimiter hcomma) rfl)) fun _ c₁ => ?_
      exact orderly_bind (h c₁) fun x c₂ => orderly_bind (ih c₂) fun xs _ => orderly_pure (x :: xs)
    · exact orderly_pure []

theorem orderly_items (h : ∀ c, Orderly scope root operand c) (c : Cursor) :
    Orderly scope root (items operand) c := by
  unfold items
  refine orderly_bind (h c) fun x c₁ => orderly_bound ?_
  exact orderly_bind (orderly_moreItems h _ c₁) fun xs _ => orderly_pure (x :: xs)

theorem orderly_bracket {b : Bracket} {what : Text} (c : Cursor) :
    Orderly scope root (Reader.expect (·.isBracket b) what) c :=
  orderly_expect fun _ ht => content_of_kind (kind_of_isBracket ht) rfl

theorem orderly_itemsUntil {close : Bracket} {what : Text} (h : ∀ c, Orderly scope root operand c) (c : Cursor) :
    Orderly scope root (itemsUntil operand close what) c := by
  have hclose (xs : List Expr) (c : Cursor) :
      Orderly scope root (do Reader.expect (·.isBracket close) what; pure xs) c :=
    orderly_bind (orderly_bracket c) fun _ _ => orderly_pure xs
  refine orderly_current fun _ => ?_
  split
  · exact orderly_bind (orderly_pure []) hclose
  · exact orderly_bind (orderly_items h c) hclose

end

/-! ## The levels -/

section
variable {scope : Chain} {root : Cursor} {nested : Nested Reader}

theorem orderly_literal {kind : LiteralKind} {t : Token} {c : Cursor} (hk : c.cur.kind.isStructural = false) :
    Orderly scope root (literal kind t) c :=
  orderly_bind (orderly_advance hk) fun _ _ => orderly_pure _

theorem orderly_length (hn : ∀ e c, Orderly scope root (nested e) c) {c : Cursor}
    (hk : c.cur.kind.isStructural = false) : Orderly scope root (length nested) c := by
  unfold length
  refine orderly_bind (orderly_advance hk) fun _ c₁ => ?_
  refine orderly_bind (orderly_bracket c₁) fun _ c₂ => ?_
  refine orderly_bind (hn .expr c₂) fun _ c₃ => ?_
  exact orderly_bind (orderly_bracket c₃) fun _ _ => orderly_pure _

theorem orderly_enclosure (hn : ∀ e c, Orderly scope root (nested e) c) {c : Cursor}
    (hk : c.cur.kind.isStructural = false) : Orderly scope root (enclosure nested) c := by
  unfold enclosure
  refine orderly_bind (orderly_advance hk) fun _ c₁ => ?_
  refine orderly_bind (hn .expr c₁) fun _ c₂ => ?_
  exact orderly_bind (orderly_bracket c₂) fun _ _ => orderly_pure _

theorem orderly_list (hn : ∀ e c, Orderly scope root (nested e) c) {c : Cursor}
    (hk : c.cur.kind.isStructural = false) : Orderly scope root (list nested) c := by
  unfold list
  refine orderly_bind (orderly_advance hk) fun _ c₁ => ?_
  exact orderly_bind (orderly_itemsUntil (hn .expr) c₁) fun _ _ => orderly_pure _

/-- The one place where a name is reported. -/
theorem orderly_name (hn : ∀ e c, Orderly scope root (nested e) c) {c : Cursor} (hk : c.cur.kind = .identifier) :
    Orderly scope root (name scope nested c.cur) c := by
  unfold name
  split
  · refine orderly_bind (orderly_advance (content_of_kind hk rfl)) fun _ c₁ => orderly_current fun _ => ?_
    split
    · next hopen =>
      refine orderly_bind (orderly_advance (content_of_kind (kind_of_isBracket hopen) rfl)) fun _ c₂ => ?_
      exact orderly_bind (orderly_itemsUntil (hn .expr) c₂) fun xs _ => orderly_pure _
    · exact orderly_pure _
  · next hsees =>
    intro _ _
    constructor
    · intro a c' h
      cases h
    · intro h c' he
      cases he
      exact ⟨.refl c, .undefined ⟨hk, Bool.eq_false_iff.2 hsees, rfl⟩⟩

theorem orderly_primary (hn : ∀ e c, Orderly scope root (nested e) c) (c : Cursor) :
    Orderly scope root (primary scope nested) c := by
  refine orderly_current fun hcur => ?_
  split
  · next hk => exact orderly_literal (content_of_kind hk rfl)
  · next hk => exact orderly_literal (content_of_kind hk rfl)
  · next hk _ => exact orderly_literal (content_of_kind hk rfl)
  · next hk _ => exact orderly_literal (content_of_kind hk rfl)
  · next hk _ => exact orderly_literal (content_of_kind hk rfl)
  · next hk _ => exact orderly_length hn (content_of_kind hk rfl)
  · next hk _ => exact orderly_enclosure hn (content_of_kind hk rfl)
  · next hk _ => exact orderly_list hn (content_of_kind hk rfl)
  · next hk => exact orderly_name hn hk
  · exact orderly_fail hcur (.unexpected _)

theorem orderly_unary (hn : ∀ e c, Orderly scope root (nested e) c) (c : Cursor) :
    Orderly scope root (unary scope nested) c := by
  refine orderly_current fun hcur => ?_
  split
  · next hminus =>
    refine orderly_bind (orderly_advance (content_of_kind (kind_of_isOperator hminus) rfl)) fun _ c₁ =>
      orderly_current fun _ => ?_
    split
    · exact orderly_fail hcur .doubleMinus
    · exact orderly_bind (orderly_primary hn c₁) fun x _ => orderly_pure _
  · exact orderly_primary hn c

theorem orderly_power (hn : ∀ e c, Orderly scope root (nested e) c) (c : Cursor) :
    Orderly scope root (power scope nested) c := by
  refine orderly_bind (orderly_unary hn c) fun base c₁ => orderly_current fun _ => ?_
  split
  · next hop =>
    refine orderly_bind (orderly_advance (content_of_kind (kind_of_isOperator hop) rfl)) fun _ c₂ => ?_
    exact orderly_bind (hn .power c₂) fun x _ => orderly_pure _
  · exact orderly_pure base

theorem orderly_notsBehind (fuel : Nat) (x : Expr) (c : Cursor) : Orderly scope root (notsBehind fuel x) c := by
  induction fuel generalizing x c with
  | zero => exact orderly_pure x
  | succ fuel ih =>
    refine orderly_current fun _ => ?_
    split
    · next hnot =>
      exact orderly_bind (orderly_advance (content_of_kind (kind_of_isOperator hnot) rfl)) fun _ c₁ => ih _ c₁
    · exact orderly_pure x

theorem orderly_negation (hn : ∀ e c, Orderly scope root (nested e) c) (c : Cursor) :
    Orderly scope root (negation scope nested) c := by
  refine orderly_current fun _ => ?_
  split
  · next hnot =>
    refine orderly_bind (orderly_advance (content_of_kind (kind_of_isOperator hnot) rfl)) fun _ c₁ => ?_
    exact orderly_bind (hn .not c₁) fun x _ => orderly_pure _
  · have hcomparison : ∀ c, Orderly scope root (comparison scope nested) c :=
      orderly_foldLeft (orderly_foldLeft (orderly_foldLeft (orderly_power hn)))
    exact orderly_bind (hcomparison c) fun x c₁ => orderly_bound (orderly_notsBehind _ x c₁)

/-- The readers of expressions are orderly, by induction on the budget. -/
theorem orderly_parse (n : Nat) (e : Entry) (c : Cursor) : Orderly scope root (parse scope n e) c := by
  induction n generalizing e c with
  | zero => exact orderly_current fun hcur => orderly_fail hcur (.unexpected _)
  | succ n ih =>
    cases e with
    | expr => exact orderly_foldLeft (orderly_foldLeft (orderly_negation ih)) c
    | not => exact orderly_negation ih c
    | power => exact orderly_power ih c

end

end Expression

end Offside
