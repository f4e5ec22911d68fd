import Offside.Proofs.Grammar.Blocks
import Offside.Proofs.Parser.Failure
import Offside.Proofs.Parser.Program

/-!
# Blocks of the parser and of the layout

The parser opens a block where the layout does, and closes it there: what it has read so far leaves as many
blocks open as it has entered (`Inside`). A parser that keeps to its block and fails for a reason is `Steady`.
So it never stands on a dedent outside of blocks or on the end of the source inside of one. Main statement:
`compile_blocks`.
-/

namespace Offside

open Offside.Scanner

namespace Token.Kind

/-- Behind kinds that lead to a number of open blocks, the others go on from there. -/
theorem Nests.rest {d d' e : Nat} {ks ls : List Kind} (h : Nests d (ks ++ ls) e) (h' : Nests d ks d') :
    Nests d' ls e := by
  induction h' with
  | nil => exact h
  | indent _ ih =>
    cases h with
    | indent h => exact ih h
    | other hi _ _ => exact absurd rfl hi
  | dedent _ ih =>
    cases h with
    | dedent h => exact ih h
    | other _ hd _ => exact absurd rfl hd
  | other hi hd _ ih =>
    cases h with
    | indent _ => exact absurd rfl hi
    | dedent _ => exact absurd rfl hd
    | other _ _ h => exact ih h

end Token.Kind

namespace Cursor

open Token.Kind

/-- The tokens are those of a scan: they are in order, and they nest, up to the end if the scan does not fail. -/
structure Scanned (root : Cursor) : Prop where
  laid : root.Laid
  nested : ∃ e, Nests 0 (kindsOf root.tokens) e ∧ (root.halt = none → e = 0)

/-- What stands between leaves `d` blocks open. -/
def Inside (root : Cursor) (d : Nat) (c : Cursor) : Prop := ∃ ts, root = c.before ts ∧ Nests 0 (kindsOf ts) d

section
variable {root c c' : Cursor} {d d' : Nat}

theorem Inside.reaches (h : Inside root d c) : Reaches root c := by
  obtain ⟨ts, e, -⟩ := h
  exact ⟨ts, e⟩

theorem Inside.go {ts : List Token} (h : Inside root d c) (e : c = c'.before ts) (hts : Nests d (kindsOf ts) d') :
    Inside root d' c' := by
  obtain ⟨us, e', hus⟩ := h
  refine ⟨us ++ ts, before_trans e' e, ?_⟩
  rw [kindsOf, List.map_append]
  exact hus.append hts

theorem Inside.laid (h : Inside root d c) (hroot : root.Scanned) : c.Laid := by
  obtain ⟨ts, e, -⟩ := h
  exact laid_of_before hroot.laid e

/-- The tokens to come nest from here. -/
theorem Inside.nests (h : Inside root d c) (hroot : root.Scanned) :
    ∃ e, Nests d (kindsOf c.tokens) e ∧ (c.halt = none → e = 0) := by
  obtain ⟨e, hnests, hend⟩ := hroot.nested
  obtain ⟨ts, rfl, hts⟩ := h
  rw [tokens_before, kindsOf, List.map_append] at hnests
  rw [halt_before] at hend
  exact ⟨e, hnests.rest hts, hend⟩

/-- The source ends outside of blocks. -/
theorem Inside.eq_zero (h : Inside root d c) (hroot : root.Scanned) (hk : c.cur.kind = .eof) : d = 0 := by
  obtain ⟨hrest, hhalt⟩ := (h.laid hroot).at_eof hk
  obtain ⟨e, hnests, hend⟩ := h.nests hroot
  obtain rfl := hend hhalt
  simp only [kindsOf, tokens, hrest, List.map_cons, hk, List.map_nil] at hnests
  cases hnests with
  | other _ _ h =>
    cases h
    rfl

/-- A dedent stands inside of a block. -/
theorem Inside.pos (h : Inside root d c) (hroot : root.Scanned) (hk : c.cur.kind = .dedent) : 0 < d := by
  obtain ⟨e, hnests, -⟩ := h.nests hroot
  simp only [kindsOf, tokens, List.map_cons, hk] at hnests
  cases hnests with
  | dedent _ => exact Nat.succ_pos _
  | other _ hd _ => exact absurd rfl hd

end

/-! ## The line that is read -/

/-- These tokens of the line stand right before the place. -/
structure OnLine (root : Cursor) (line : List Token) (c : Cursor) : Prop where
  reached : ∃ pre, root = c.before (pre ++ line)
  content : ∀ t ∈ line, t.kind.isStructural = false

section
variable {root c c' : Cursor} {line ts : List Token}

theorem Reaches.onLine (h : Reaches root c) : OnLine root [] c := by
  obtain ⟨pre, e⟩ := h
  exact ⟨⟨pre, by rw [List.append_nil, e]⟩, List.forall_mem_nil _⟩

theorem OnLine.go (h : OnLine root line c) (e : c = c'.before ts) (hts : ∀ t ∈ ts, t.kind.isStructural = false) :
    OnLine root (line ++ ts) c' := by
  obtain ⟨⟨pre, e'⟩, hline⟩ := h
  exact ⟨⟨pre, by rw [← List.append_assoc, before_trans e' e]⟩, List.forall_mem_append.2 ⟨hline, hts⟩⟩

theorem OnLine.tokens (h : OnLine root line c) : ∃ pre, root.tokens = pre ++ line ++ c.cur :: c.rest := by
  obtain ⟨⟨pre, rfl⟩, -⟩ := h
  exact ⟨pre, tokens_before _ c⟩

theorem OnLine.declares (h : OnLine root line c) (hname : c.cur.kind = .identifier)
    (hbinds : Statement.Binds line c.rest.head?) : Statement.Declares root.tokens line c.cur c.rest :=
  ⟨h.tokens, h.content, hname, hbinds⟩

/-- The line begins with the definition of a function. -/
def OnDefinition (root c : Cursor) : Prop := ∃ t line, t.isKeyword .def_ = true ∧ OnLine root (t :: line) c

theorem OnDefinition.go (h : OnDefinition root c) (e : c = c'.before ts)
    (hts : ∀ t ∈ ts, t.kind.isStructural = false) : OnDefinition root c' := by
  obtain ⟨t, line, ht, hline⟩ := h
  exact ⟨t, line ++ ts, ht, hline.go e hts⟩

end

end Cursor

namespace Statement

open Offside.Cursor Offside.Grammar Offside.Expression Offside.Statement.Parser Token.Kind

/-- The reason is one for which a reader stops. -/
def Fault (root : Cursor) (h : Halt) : Prop := ∃ scope c, Reaches root c ∧ Stops scope root c h

/-- In the state, with `d` blocks open, the parser leaves as many open, and fails for a reason. -/
def Steady {α : Type} (root : Cursor) (d : Nat) (p : Parser α) (s : State) : Prop :=
  Inside root d s.cursor → (∀ a s', p s = .ok a s' → Inside root d s'.cursor) ∧
    ∀ h s', p s = .error h s' → Fault root h

section
variable {α β : Type} {root : Cursor} {d : Nat} {s : State}

theorem fault_report {t : Token} {e : Diagnostic} (ht : t ∈ root.tokens) (he : t.Reports root.tokens e) :
    Fault root (.report e) :=
  ⟨[], root, .refl root, .report ht he⟩

theorem fault_halt {h : Halt} (hh : root.halt = some h) : Fault root h := ⟨[], root, .refl root, .halt hh⟩

theorem advance_fault {s' : State} {h : Halt} (hr : Reaches root s.cursor) (he : advance s = .error h s') :
    Fault root h :=
  fault_halt (hr.halt.trans (Reader.advance_error (read_error.1 he).1).1)

theorem steady_bind {x : Parser α} {f : α → Parser β} (hx : Steady root d x s)
    (hf : ∀ a s', x s = .ok a s' → Steady root d (f a) s') : Steady root d (x >>= f) s := by
  intro hs
  obtain ⟨hok, herror⟩ := hx hs
  constructor
  · intro b s'' h
    obtain ⟨a, s', h₁, h₂⟩ := bind_ok.1 h
    exact (hf a s' h₁ (hok a s' h₁)).1 b s'' h₂
  · intro h s'' he
    rcases bind_error.1 he with h₁ | ⟨a, s', h₁, h₂⟩
    · exact herror h s'' h₁
    · exact (hf a s' h₁ (hok a s' h₁)).2 h s'' h₂

/-- The place may be used in showing that the parser is steady there. -/
theorem steady_inside {p : Parser α} (h : Inside root d s.cursor → Steady root d p s) : Steady root d p s :=
  fun hs => h hs hs

theorem steady_pure (a : α) : Steady root d (pure a) s := by
  intro hs
  constructor
  · intro b s' h
    obtain ⟨-, rfl⟩ := pure_ok.1 h
    exact hs
  · intro h s' he
    cases he

theorem steady_current {f : Token → Parser α} (h : s.cursor.cur ∈ root.tokens → Steady root d (f s.cursor.cur) s) :
    Steady root d (current >>= f) s := by
  intro hs
  rw [bind_of_ok (current_eq s)]
  exact h hs.reaches.cur_mem hs

theorem steady_frame {f : Frame → Parser α} (h : Steady root d (f s.frame) s) : Steady root d (frame >>= f) s := by
  intro hs
  rw [bind_of_ok (frame_eq s)]
  exact h hs

theorem steady_inFunction {ctx : Context} {f : Bool → Parser α} (h : Steady root d (f ctx.inFunction) s) :
    Steady root d (MonadNesting.inFunction ctx >>= f) s := by
  intro hs
  rw [bind_of_ok (inFunction_eq ctx s)]
  exact h hs

theorem steady_bound {f : Nat → Parser α} (h : Steady root d (f s.cursor.bound) s) :
    Steady root d (bound >>= f) s := by
  intro hs
  rw [bind_of_ok (bound_eq s)]
  exact h hs

theorem steady_fail {t : Token} {e : Diagnostic} (ht : t ∈ root.tokens) (he : t.Reports root.tokens e) :
    Steady root d (fail e : Parser α) s := by
  intro _
  constructor
  · intro a s' h
    cases h
  · intro h s' heq
    cases heq
    exact fault_report ht he

end

section
variable {α : Type} {root : Cursor} (hroot : root.Scanned) {d : Nat} {s : State}
include hroot

theorem steady_read {scope : Chain} {r : Reader α} (hr : ∀ c, Orderly scope root r c) : Steady root d (read r) s := by
  intro hs
  obtain ⟨hok, herror⟩ := hr s.cursor (hs.laid hroot).ended hs.reaches
  constructor
  · intro a s' h
    obtain ⟨ts, e, hts⟩ := hok a _ (read_ok.1 h).1
    exact hs.go e ((blocks_content hts).nests d)
  · intro h s' he
    obtain ⟨hpass, hstops⟩ := herror h _ (read_error.1 he).1
    exact ⟨scope, _, hpass.reaches hs.reaches, hstops⟩

/-- Going on from content or from the end of a line. -/
theorem steady_advance (hk : s.cursor.cur.kind = .newline ∨ s.cursor.cur.kind.isStructural = false) :
    Steady root d advance s := by
  intro hs
  have hblocks : Blocks [s.cursor.cur] [] 0 := by
    rcases hk with hk | hk
    · exact blocks_single hk (by decide) (by decide)
    · exact blocks_content (List.forall_mem_singleton.2 hk)
  have hend : s.cursor.cur.kind ≠ .eof := by
    rcases hk with hk | hk
    · simp [hk]
    · exact fun h => by simp [h, isStructural] at hk
  constructor
  · intro _ s' h
    exact hs.go (advance_ok (hs.laid hroot) hend h).cursor (hblocks.nests d)
  · exact fun h s' he => advance_fault hs.reaches he

theorem steady_expect {is : Token → Bool} {what : Text} (his : ∀ t, is t = true → t.kind.isStructural = false) :
    Steady root d (expect is what) s := by
  have horderly (c : Cursor) : Orderly [] root (Reader.expect is what) c := orderly_expect his
  exact steady_read hroot horderly

theorem steady_bracket {b : Bracket} {what : Text} : Steady root d (expect (·.isBracket b) what) s :=
  steady_expect hroot fun _ => content_bracket

end

section
variable {α : Type} {root : Cursor} {d : Nat} {s : State}

theorem steady_peek : Steady root d (read Reader.peek) s := by
  intro hs
  constructor
  · intro t s' h
    rw [(Reader.peek_ok (read_ok.1 h).1).1]
    exact hs
  · intro h s' he
    exact fault_halt (hs.reaches.halt.trans (Reader.peek_error (read_error.1 he).1))

/-- The parser goes on to the token that is to come. -/
theorem cur_of_advance {s' : State} {o : Token} (hrest : s.cursor.rest.head? = some o)
    (h : advance s = .ok () s') : s'.cursor.cur = o := by
  have hadvance := (read_ok.1 h).1
  unfold Reader.advance at hadvance
  split at hadvance
  · next hcons =>
    rw [hcons, List.head?_cons, Option.some.injEq] at hrest
    rw [← (EStateM.Result.ok.inj hadvance).2]
    exact hrest
  · next hnil =>
    rw [hnil] at hrest
    cases hrest

theorem steady_permit {ctx : Context} {what : Text} {c : Construct} (hwhat : what ∈
    (["If statement", "For statement", "While statement", "Function definition", "Print"] : List Text)) :
    Steady root d (permit ctx what c) s := by
  refine steady_current fun ht => ?_
  split
  · exact steady_fail ht (.disabled c hwhat)
  · exact steady_pure ()

theorem steady_declare {rules : RuleSet} {r : Reference} {t : Token} (ht : t ∈ root.tokens)
    (hr : t.Reports root.tokens ((Frame.blacklisted r.name).moved t.line t.column)) :
    Steady root d (declare rules r t) s := by
  intro hs
  unfold declare
  rw [push_one]
  cases rules.blacklisted r.name with
  | true =>
    constructor
    · intro _ s' h
      cases h
    · intro h s' he
      cases he
      exact fault_report ht hr
  | false =>
    constructor
    · intro _ s' h
      cases h
      exact hs
    · intro h s' he
      cases he

theorem steady_declareOnce {rules : RuleSet} {r : Reference} {t : Token} (ht : t ∈ root.tokens)
    (hr : t.Reports root.tokens ((Frame.blacklisted r.name).moved t.line t.column)) :
    Steady root d (declareOnce rules r t) s := by
  refine steady_frame ?_
  split
  · exact steady_pure ()
  · exact steady_declare ht hr

theorem steady_inScope {p : Parser α} (hp : Steady root d p s.entered) : Steady root d (inScope p) s := by
  intro hs
  obtain ⟨hok, herror⟩ := hp hs
  constructor
  · rintro ⟨a, g⟩ s' h
    obtain ⟨s₁, h₁, -, hcursor, -⟩ := inScope_ok h
    rw [hcursor]
    exact hok a s₁ h₁
  · exact fun h s' he => herror h s' (inScope_error he)

end

/-! ## Statements on one line -/

section
variable {root : Cursor} (hroot : root.Scanned) {d : Nat} {ctx : Context} {n : Nat}
include hroot

theorem steady_expression (s : State) : Steady root d (expression ctx n) s :=
  steady_frame (steady_read hroot (orderly_parse n .expr))

theorem steady_expressions (s : State) : Steady root d (expressions ctx n) s :=
  steady_frame (steady_read hroot (orderly_items (orderly_parse n .expr)))

theorem steady_arguments (s : State) : Steady root d (arguments ctx n) s := by
  refine steady_current fun _ => ?_
  split
  · exact steady_pure []
  · exact steady_expressions hroot s

theorem steady_endOfLine (s : State) : Steady root d endOfLine s := by
  refine steady_current fun ht => ?_
  split
  · next hk => exact steady_advance hroot (.inl hk)
  · exact steady_pure ()
  · exact steady_fail ht (.unexpected _)

theorem steady_onOneLine {p : Parser Stmt} {s : State} (hp : Steady root d p s) : Steady root d (onOneLine p) s := by
  refine steady_bind hp fun x s₁ _ => ?_
  exact steady_bind (steady_endOfLine hroot s₁) fun _ _ _ => steady_pure x

theorem steady_returnStatement {s : State} (ht : s.cursor.cur.isKeyword .return_ = true) :
    Steady root d (returnStatement ctx n) s := by
  refine steady_current fun hcur => steady_inFunction ?_
  split
  · refine steady_bind (steady_advance hroot (.inr (content_keyword ht))) fun _ s₁ _ => steady_current fun _ => ?_
    split
    · exact steady_pure _
    · exact steady_bind (steady_expressions hroot s₁) fun xs _ _ => steady_pure _
  · exact steady_fail hcur (.unexpected _)

theorem steady_printStatement {s : State} (ht : s.cursor.cur.isKeyword .print = true) :
    Steady root d (printStatement ctx n) s := by
  refine steady_bind (steady_permit (by decide +kernel)) fun _ s₀ h₀ => ?_
  obtain ⟨-, rfl⟩ := permit_ok.1 h₀
  refine steady_bind (steady_advance hroot (.inr (content_keyword ht))) fun _ _ _ => ?_
  refine steady_bind (steady_bracket hroot) fun _ s₂ _ => ?_
  refine steady_bind (steady_arguments hroot s₂) fun args _ _ => ?_
  exact steady_bind (steady_bracket hroot) fun _ _ _ => steady_pure _

theorem steady_assignment {s : State} {o : Token} (ht : s.cursor.cur.kind = .identifier)
    (hrest : s.cursor.rest.head? = some o) (ho : o.isOperator .assign = true) :
    Steady root d (assignment ctx n) s := by
  refine steady_inside fun hs => steady_current fun hcur => ?_
  have hdeclares := hs.reaches.onLine.declares ht (hrest ▸ .assign ho)
  refine steady_bind (steady_advance hroot (.inr (content_identifier ht))) fun _ s₁ h₁ => ?_
  have hassign : s₁.cursor.cur.isOperator .assign = true := by rw [cur_of_advance hrest h₁, ho]
  refine steady_bind (steady_advance hroot (.inr (content_operator hassign))) fun _ s₂ _ => ?_
  refine steady_bind (steady_expression hroot s₂) fun value _ _ => steady_frame ?_
  exact steady_bind (steady_declareOnce hcur (.blacklisted hdeclares (by simp))) fun _ _ _ => steady_pure _

theorem steady_nameStatement {s : State} (ht : s.cursor.cur.kind = .identifier) :
    Steady root d (nameStatement ctx n) s := by
  refine steady_bind (steady_peek) fun next s₁ h₁ => ?_
  obtain ⟨hpeek, hs₁⟩ := read_ok.1 h₁
  obtain ⟨hc, hnext⟩ := Reader.peek_ok hpeek
  obtain rfl : s = s₁ := by rw [hs₁, hc, State.on_cursor]
  split
  · next ho =>
    rcases hnext with hrest | rfl
    · exact steady_assignment hroot ht hrest ho
    · simp [Token.isOperator, ht] at ho
  · exact steady_bind (steady_expression hroot s) fun x _ _ => steady_pure _

theorem steady_expressionStatement (s : State) : Steady root d (expressionStatement ctx n) s :=
  steady_bind (steady_expression hroot s) fun _ _ _ => steady_pure _

end

/-! ## Statements with blocks -/

/-- The head of a loop behind its variable ends with a parenthesis. -/
theorem loopHead_ok {ctx : Context} {n : Nat} {s s₁ s₂ s₃ s₄ s₅ : State} {args : List Expr} {a b c e : Text}
    (hl : s.cursor.Laid) (h₁ : expect (·.isOperator .in_) a s = .ok () s₁)
    (h₂ : expect (·.isKeyword .range) b s₁ = .ok () s₂) (h₃ : expect (·.isBracket .roundOpen) c s₂ = .ok () s₃)
    (h₄ : arguments (m := Parser) ctx n s₃ = .ok args s₄) (h₅ : expect (·.isBracket .roundClose) e s₄ = .ok () s₅) :
    ∃ head, Reads s head s₅ ∧ (∀ t ∈ head, t.kind.isStructural = false) ∧
      ∃ t ∈ head.getLast?, t.isBracket .roundClose = true := by
  obtain ⟨hin, hr₁⟩ := expect_ok hl (fun _ ht => by simp [kind_of_isOperator ht]) h₁
  obtain ⟨hrange, hr₂⟩ := expect_ok (hr₁.laid hl) (fun _ => keyword_ne_eof) h₂
  have hl₂ := hr₂.laid (hr₁.laid hl)
  obtain ⟨hopen, hr₃⟩ := expect_ok hl₂ Reader.bracket_ne_eof h₃
  obtain ⟨ts, hr₄, hargs, -⟩ := arguments_ok (hr₃.laid hl₂) h₄
  obtain ⟨hclose, hr₅⟩ := expect_ok (hr₄.laid (hr₃.laid hl₂)) Reader.bracket_ne_eof h₅
  refine ⟨_, (((hr₁.trans hr₂).trans hr₃).trans hr₄).trans hr₅, ?_, _, List.getLast?_concat, hclose⟩
  simp only [List.forall_mem_append, List.forall_mem_singleton]
  exact ⟨⟨⟨⟨content_operator hin, content_keyword hrange⟩, content_bracket hopen⟩,
    inLine_optItems (inLine_expr n) _ _ hargs⟩, content_bracket hclose⟩

section
variable {root : Cursor} (hroot : root.Scanned) {d : Nat} {ctx : Context} {n : Nat} {block : BlockParser Parser}
  (hblock : ∀ ctx s, Steady root d (block ctx) s)
include hroot hblock

theorem steady_clauses (fuel : Nat) {s : State} (ht : s.cursor.cur.kind.isStructural = false) :
    Steady root d (clauses (expression ctx n) (block ctx) fuel) s := by
  induction fuel generalizing s with
  | zero => exact steady_pure []
  | succ fuel ih =>
    refine steady_bind (steady_advance hroot (.inr ht)) fun _ s₁ _ => ?_
    refine steady_bind (steady_expression hroot s₁) fun x s₂ _ => ?_
    refine steady_bind (hblock ctx s₂) fun body s₃ _ => steady_current fun _ => ?_
    split
    · next helif => exact steady_bind (ih (content_keyword helif)) fun rest _ _ => steady_pure _
    · split
      · next helse =>
        refine steady_bind (steady_advance hroot (.inr (content_keyword helse))) fun _ s₄ _ => ?_
        exact steady_bind (hblock ctx s₄) fun last _ _ => steady_pure _
      · exact steady_pure _

theorem steady_ifStatement {s : State} (ht : s.cursor.cur.isKeyword .if_ = true) :
    Steady root d (ifStatement ctx n block) s := by
  refine steady_bind (steady_permit (by decide +kernel)) fun _ s₀ h₀ => ?_
  obtain ⟨-, rfl⟩ := permit_ok.1 h₀
  refine steady_bound ?_
  exact steady_bind (steady_clauses hroot hblock _ (content_keyword ht)) fun cs _ _ => steady_pure _

theorem steady_whileStatement {s : State} (ht : s.cursor.cur.isKeyword .while_ = true) :
    Steady root d (whileStatement ctx n block) s := by
  refine steady_bind (steady_permit (by decide +kernel)) fun _ s₀ h₀ => ?_
  obtain ⟨-, rfl⟩ := permit_ok.1 h₀
  refine steady_bind (steady_advance hroot (.inr (content_keyword ht))) fun _ s₁ _ => ?_
  refine steady_bind (steady_expression hroot s₁) fun test s₂ _ => ?_
  exact steady_bind (hblock ctx s₂) fun body _ _ => steady_pure _

theorem steady_forStatement {s : State} (ht : s.cursor.cur.isKeyword .for_ = true) :
    Steady root d (forStatement ctx n block) s := by
  refine steady_bind (steady_permit (by decide +kernel)) fun _ s₀ h₀ => ?_
  obtain ⟨-, rfl⟩ := permit_ok.1 h₀
  refine steady_inside fun hs => ?_
  have hl := hs.laid hroot
  refine steady_bind (steady_advance hroot (.inr (content_keyword ht))) fun _ s₁ h₁ => steady_current fun hcur => ?_
  have hr₁ := advance_ok hl (keyword_ne_eof ht) h₁
  split
  · next hn =>
    refine steady_bind (steady_advance hroot (.inr (content_identifier hn))) fun _ s₂ h₂ => ?_
    have hr₂ := advance_ok (hr₁.laid hl) (by simp [hn]) h₂
    refine steady_bind (steady_expect hroot fun _ => content_operator) fun _ s₃ h₃ => ?_
    refine steady_bind (steady_expect hroot fun _ => content_keyword) fun _ s₄ h₄ => ?_
    refine steady_current fun hopening => ?_
    refine steady_bind (steady_bracket hroot) fun _ s₅ h₅ => ?_
    refine steady_bind (steady_arguments hroot s₅) fun args s₆ h₆ => ?_
    split
    · exact steady_fail hopening (.range _)
    · refine steady_bind (steady_bracket hroot) fun _ s₇ h₇ => steady_frame ?_
      refine steady_bind (steady_inScope (steady_current fun hmem => ?_)) fun _ _ _ => steady_pure _
      refine steady_bind (steady_declare hmem ?_) fun _ s₈ _ => hblock _ s₈
      -- the variable is declared behind the head of the loop, and reported there
      obtain ⟨head, hhead, hcontent, hclose⟩ := loopHead_ok (hr₂.laid (hr₁.laid hl)) h₃ h₄ h₅ h₆ h₇
      have hline : OnLine root [s.cursor.cur] s₁.cursor :=
        hs.reaches.onLine.go hr₁.cursor (List.forall_mem_singleton.2 (content_keyword ht))
      have hdeclares := hline.declares hn (.loop ht)
      have hrest : s₁.cursor.rest = head ++ s₇.cursor.cur :: s₇.cursor.rest := by
        have htokens := congrArg Cursor.tokens (before_trans hr₂.cursor hhead.cursor)
        rw [tokens_before] at htokens
        exact (List.cons.inj htokens).2
      rw [hrest] at hdeclares
      exact .loop hdeclares ht hcontent hclose
  · exact steady_fail hcur (.unexpected _)

omit hblock in
theorem steady_parameter {rules : RuleSet} {fuel : Nat}
    (hmore : ∀ s, OnDefinition root s.cursor → Steady root d (parameters rules fuel false) s) {s : State}
    (hdef : OnDefinition root s.cursor) : Steady root d (parameter rules fuel) s := by
  refine steady_inside fun hs => steady_current fun hcur => ?_
  split
  · next hn =>
    refine steady_frame ?_
    split
    · exact steady_fail hcur (.unexpected _)
    · obtain ⟨f, line, hf, hline⟩ := hdef
      have hreports := Token.Reports.blacklisted (hline.declares hn (.define hf)) (by simp [isKeyword_eq hf])
      refine steady_bind (steady_declare hcur hreports) fun _ s₁ h₁ => ?_
      obtain ⟨-, rfl⟩ := declare_ok.1 h₁
      refine steady_bind (steady_advance hroot (.inr (content_identifier hn))) fun _ s₂ h₂ => ?_
      have hl : (s.holding (s.frame.insert { name := s.cursor.cur.literal })).cursor.Laid := hs.laid hroot
      have hcursor := (advance_ok hl (by simp [State.holding, hn]) h₂).cursor
      have hdef₂ : OnDefinition root s₂.cursor :=
        ⟨f, _, hf, hline.go hcursor (List.forall_mem_singleton.2 (content_identifier hn))⟩
      exact steady_bind (hmore s₂ hdef₂) fun rest _ _ => steady_pure _
  · exact steady_fail hcur (.unexpected _)

omit hblock in
theorem steady_parameters {rules : RuleSet} (fuel : Nat) (first : Bool) (s : State)
    (hdef : OnDefinition root s.cursor) : Steady root d (parameters rules fuel first) s := by
  induction fuel generalizing first s with
  | zero => exact steady_pure []
  | succ fuel ih =>
    unfold Steady
    cases hclose : s.cursor.cur.isBracket .roundClose with
    | true =>
      rw [parameters_close hclose]
      exact steady_pure []
    | false =>
      cases first with
      | true =>
        rw [parameters_first hclose]
        exact steady_parameter hroot (ih false) hdef
      | false =>
        rw [parameters_more hclose]
        have hcontent (t : Token) (ht : t.isDelimiter .comma = true) : t.kind.isStructural = false :=
          content_of_kind (kind_of_isDelimiter ht) rfl
        refine steady_inside fun hs => steady_bind (steady_expect hroot hcontent) fun _ s₁ h₁ => ?_
        obtain ⟨hcomma, hr₁⟩ := expect_ok (hs.laid hroot) (fun _ ht => by simp [kind_of_isDelimiter ht]) h₁
        exact steady_parameter hroot (ih false)
          (hdef.go hr₁.cursor (List.forall_mem_singleton.2 (hcontent _ hcomma)))

theorem steady_defStatement {s : State} (ht : s.cursor.cur.isKeyword .def_ = true) :
    Steady root d (defStatement ctx block) s := by
  refine steady_bind (steady_permit (by decide +kernel)) fun _ s₀ h₀ => ?_
  obtain ⟨-, rfl⟩ := permit_ok.1 h₀
  refine steady_inside fun hs => ?_
  refine steady_bind (steady_advance hroot (.inr (content_keyword ht))) fun _ s₁ h₁ => steady_current fun hcur => ?_
  have hr₁ := advance_ok (hs.laid hroot) (keyword_ne_eof ht) h₁
  have hline : OnLine root [s.cursor.cur] s₁.cursor :=
    hs.reaches.onLine.go hr₁.cursor (List.forall_mem_singleton.2 (content_keyword ht))
  split
  · next hn =>
    have hreports := Token.Reports.blacklisted (hline.declares hn (.define ht)) (by simp [isKeyword_eq ht])
    refine steady_bind (steady_declareOnce hcur hreports) fun _ s₂ h₂ => ?_
    obtain ⟨f, -, rfl⟩ := declareOnce_ok.1 h₂
    have hl₁ := hr₁.laid (hs.laid hroot)
    refine steady_bind (steady_advance hroot (.inr (content_identifier hn))) fun _ s₃ h₃ => ?_
    have hr₃ := advance_ok (by exact hl₁) (by simp [hn]) h₃
    refine steady_bind (steady_bracket hroot) fun _ s₄ h₄ => steady_frame ?_
    obtain ⟨hopen, hr₄⟩ := expect_ok (hr₃.laid hl₁) Reader.bracket_ne_eof h₄
    have hdef : OnDefinition root s₄.cursor :=
      ⟨_, _, ht, (hline.go hr₃.cursor (List.forall_mem_singleton.2 (content_identifier hn))).go hr₄.cursor
        (List.forall_mem_singleton.2 (content_bracket hopen))⟩
    refine steady_bind (steady_inScope ?_) fun _ _ _ => steady_pure _
    intro hs
    have hl : s₄.entered.cursor.Laid := hs.laid hroot
    refine steady_bound (steady_bind (steady_parameters hroot _ true _ hdef) fun params s₅ h₅ => ?_) hs
    obtain ⟨-, -, hclose, -⟩ := parameters_ok hl (Nat.le_refl _) h₅
    refine steady_bind (steady_advance hroot (.inr (content_bracket hclose))) fun _ s₆ _ => ?_
    exact steady_bind (hblock _ s₆) fun body _ _ => steady_pure _
  · exact steady_fail hcur (.unexpected _)

theorem steady_keywordStatement {s : State} {k : Keyword} (ht : s.cursor.cur.isKeyword k = true) :
    Steady root d (keywordStatement ctx n block k) s := by
  unfold keywordStatement
  split
  · exact steady_onOneLine hroot (steady_returnStatement hroot ht)
  · exact steady_ifStatement hroot hblock ht
  · exact steady_forStatement hroot hblock ht
  · exact steady_whileStatement hroot hblock ht
  · exact steady_defStatement hroot hblock ht
  · exact steady_onOneLine hroot (steady_printStatement hroot ht)
  · exact steady_onOneLine hroot (steady_expressionStatement hroot s)

theorem steady_statement (s : State) : Steady root d (statement ctx n block) s := by
  -- noting down where the statement begins leaves the cursor where it is
  have hmarked {p : Parser Stmt} (heq : statement ctx n block s = p (s.marked ctx))
      (hp : Steady root d p (s.marked ctx)) : Steady root d (statement ctx n block) s := by
    unfold Steady
    rw [heq]
    exact hp
  by_cases hk : ∃ k, s.cursor.cur.isKeyword k = true
  · obtain ⟨k, hk⟩ := hk
    exact hmarked (statement_of_keyword hk) (steady_keywordStatement hroot hblock hk)
  · by_cases hi : s.cursor.cur.kind = .identifier
    · exact hmarked (statement_of_identifier hi) (steady_onOneLine hroot (steady_nameStatement hroot hi))
    · have hother : ∀ k, s.cursor.cur.isKeyword k = false := by simpa using hk
      exact hmarked (statement_of_other hother hi) (steady_onOneLine hroot (steady_expressionStatement hroot _))

end

/-! ## Blocks -/

section
variable {root : Cursor} (hroot : root.Scanned) {d : Nat}
include hroot

/-- Statements fail for a reason, by induction on the fuel: the source does not end inside of the block that
they are read in, and outside of blocks none ends. -/
theorem statements_fault {one : Parser Stmt} (hone : ∀ s, Steady root d one s) {inBlock : Bool}
    (hin : inBlock = true ↔ 0 < d) (fuel : Nat) {s s' : State} {h : Halt} (hs : Inside root d s.cursor)
    (he : statements one inBlock fuel s = .error h s') : Fault root h := by
  induction fuel generalizing s with
  | zero => cases he
  | succ fuel ih =>
    by_cases hk : ∀ k ∈ [Token.Kind.eof, .dedent, .indent, .newline], s.cursor.cur.kind ≠ k
    · rw [statements_content hk] at he
      rcases bind_error.1 he with h₁ | ⟨x, s₁, h₁, he⟩
      · exact (hone s hs).2 h s' h₁
      · rw [bind_of_ok (countStatement_eq s₁)] at he
        rcases bind_error.1 he with h₂ | ⟨rest, s₂, -, he⟩
        · exact ih (s := s₁.counted) ((hone s hs).1 x s₁ h₁) h₂
        · cases he
    · rw [statements, step_of_ok (current_eq s)] at he
      have hcases : s.cursor.cur.kind = .eof ∨ s.cursor.cur.kind = .dedent ∨ s.cursor.cur.kind = .indent ∨
          s.cursor.cur.kind = .newline := by
        simp at hk
        grind
      rcases hcases with hk | hk | hk | hk
      · have hout : inBlock = false := Bool.eq_false_iff.2 fun h => by
          have := hin.1 h
          have := hs.eq_zero hroot hk
          omega
        rw [hk, hout] at he
        cases he
      · rw [hk, hin.2 (hs.pos hroot hk)] at he
        rcases bind_error.1 he with h₁ | ⟨_, s₁, -, he⟩
        · exact advance_fault hs.reaches h₁
        · cases he
      · rw [hk] at he
        cases he
        exact fault_report hs.reaches.cur_mem (.misplaced (by decide))
      · rw [hk] at he
        have hstep : Steady root d advance s := steady_advance hroot (.inl hk)
        rcases bind_error.1 he with h₁ | ⟨u, s₁, h₁, he⟩
        · exact (hstep hs).2 h s' h₁
        · exact ih ((hstep hs).1 u s₁ h₁) he

theorem blockStart_fault {s s' : State} {h : Halt} (hs : Inside root d s.cursor)
    (he : blockStart s = .error h s') : Fault root h := by
  have hcolon : Steady root d (expect (·.isDelimiter .colon) "':'") s :=
    steady_expect hroot fun _ ht => content_of_kind (kind_of_isDelimiter ht) rfl
  rcases bind_error.1 he with h₁ | ⟨_, s₁, h₁, he⟩
  · exact (hcolon hs).2 h s' h₁
  · have hs₁ := (hcolon hs).1 _ s₁ h₁
    rw [bind_of_ok (current_eq s₁)] at he
    split at he
    · next hn =>
      have hline : Steady root d advance s₁ := steady_advance hroot (.inl hn)
      rcases bind_error.1 he with h₂ | ⟨_, s₂, h₂, he⟩
      · exact (hline hs₁).2 h s' h₂
      · have hs₂ := (hline hs₁).1 _ s₂ h₂
        rw [bind_of_ok (current_eq s₂)] at he
        split at he
        · exact advance_fault hs₂.reaches he
        · cases he
          exact fault_report hs₂.reaches.cur_mem (.misplaced (by decide))
    · cases he
      exact fault_report hs₁.reaches.cur_mem (.misplaced (by decide))

/-- Behind the start of a block one more block is open. -/
theorem blockStart_inside {s s' : State} (hs : Inside root d s.cursor) (h : blockStart s = .ok () s') :
    Inside root (d + 1) s'.cursor := by
  obtain ⟨c, n, i, hc, hn, hi, hr⟩ := blockStart_ok (hs.laid hroot) h
  refine hs.go hr.cursor ?_
  have hline := ((blocks_single hn (by decide) (by decide)).cons
    (content_of_kind (kind_of_isDelimiter hc) rfl)).nests d
  have hindent : Nests d (kindsOf [i]) (d + 1) := by
    simp only [kindsOf, List.map_cons, List.map_nil, hi]
    exact .indent (.nil _)
  exact hline.append hindent

theorem steady_block (n : Nat) : ∀ (d : Nat) (ctx : Context) (s : State), Steady root d (block n ctx) s := by
  induction n with
  | zero =>
    intro d ctx s hs
    constructor
    · intro body s' h
      obtain ⟨_, _, _, h⟩ := bind_ok.1 h
      cases h
    · intro h s' he
      rcases bind_error.1 he with h₁ | ⟨_, s₁, h₁, he⟩
      · exact blockStart_fault hroot hs h₁
      · cases he
        exact fault_report (blockStart_inside hroot hs h₁).reaches.cur_mem (.unexpected _)
  | succ n ih =>
    intro d ctx s hs
    constructor
    · -- a block that is read closes what it opens
      intro body s' h
      obtain ⟨ts, e, hbody, -⟩ := block_sound (n + 1) (hs.laid hroot) h
      exact hs.go e ((blocks_block (n + 1) ts body hbody).nests d)
    · intro h s' he
      rcases bind_error.1 he with h₁ | ⟨_, s₁, h₁, he⟩
      · exact blockStart_fault hroot hs h₁
      · rw [bind_of_ok (countBlock_eq _ s₁), bind_of_ok (bound_eq _)] at he
        have hin : true = true ↔ 0 < d + 1 := by simp
        have hs₁ : Inside root (d + 1) s₁.cursor := blockStart_inside hroot hs h₁
        exact statements_fault hroot (steady_statement hroot (ih (d + 1))) hin _ (by exact hs₁) he

end

theorem program_fault {rules : RuleSet} {n : Nat} {c : Cursor} (hc : c.Scanned) {s' : State} {h : Halt}
    (he : program rules n { cursor := c } = .error h s') : Fault c h := by
  unfold program at he
  rw [bind_of_ok (bound_eq _)] at he
  have hstart : Inside c 0 c := ⟨[], rfl, .nil 0⟩
  exact statements_fault hc (steady_statement hc (steady_block hc n 0)) (by simp) _ hstart he

end Statement

/-! ## Compilations -/

/-- A block ends where none is open, or the source ends where one is. -/
def Diagnostic.Unbalanced (d : Diagnostic) : Prop :=
  d.kind = .indentationError ∧ d.reason ∈ (["expected a dedent", "unexpected dedent"] : List Text)

/-- What else is reported about the layout gives other reasons. -/
theorem Token.Reports.balanced {tokens : List Token} {t : Token} {d : Diagnostic} (h : t.Reports tokens d) :
    ¬ d.Unbalanced := by
  rintro ⟨hkind, hreason⟩
  cases h with
  | misplaced hr =>
    have hother : ∀ r ∈ (["unexpected indent", "expected an indented block", "expected a newline"] : List Text),
        r ∉ (["expected a dedent", "unexpected dedent"] : List Text) := by decide +kernel
    exact hother _ hr hreason
  | unexpected | doubleMinus => simp [Expression.doubleMinus] at hkind
  | range => simp [Statement.rangeArguments, Diagnostic.withFact, Diagnostic.syntaxError] at hkind
  | disabled => simp [Statement.disabled, Diagnostic.withFact, Diagnostic.moved, Diagnostic.compilationError] at hkind
  | blacklisted | loop =>
    simp [Frame.blacklisted, Diagnostic.withFact, Diagnostic.moved, Diagnostic.compilationError] at hkind

theorem Scanner.Breaks.balanced {d : Diagnostic} (h : Breaks (.report d)) : ¬ d.Unbalanced := by
  rintro ⟨hkind, hreason⟩
  cases h with
  | unindent =>
    have hother : ("unindent does not match any outer indentation level" : Text) ∉
        (["expected a dedent", "unexpected dedent"] : List Text) := by decide +kernel
    exact hother hreason
  | unterminated => simp [Diagnostic.syntaxError] at hkind
  | unrecognized => simp [Diagnostic.unknownTokenError] at hkind

namespace Compile

open Offside.Grammar Offside.Statement Offside.Expression

/-- The parser starts on the tokens of a scan. -/
theorem start_scanned {source : Text} {tabWidth : Int} {t : Token} {rest : List Token}
    (h : (tokenize source tabWidth).tokens = t :: rest) :
    Cursor.Scanned { cur := t, rest, halt := (tokenize source tabWidth).halt } where
  laid := (start_laid h).1
  nested := by
    obtain ⟨d, hnests, hend⟩ := run_nests (ofSource source tabWidth)
    refine ⟨d, ?_, hend rfl⟩
    rw [Cursor.tokens, ← h]
    exact hnests

/-- A compilation fails for a reason of the scan, or for one of the parser at a token of the scan. -/
theorem compile_fault_at {o : Options} {source : Text} {d : Diagnostic} (h : compile o source = .error (.report d)) :
    ∃ d', d = d'.withSource source ∧ ((tokenize source o.tabWidth).halt = some (.report d') ∨
      ∃ root : Cursor, root.tokens = (tokenize source o.tabWidth).tokens ∧
        root.halt = (tokenize source o.tabWidth).halt ∧ Fault root (.report d')) := by
  rcases compile_error h with ⟨-, e⟩ | ⟨t, rest, r, s', htokens, hp, e⟩
  · obtain ⟨d', hstop, rfl⟩ := withSource_report e.symm
    cases hhalt : (tokenize source o.tabWidth).halt with
    | none => simp [hhalt] at hstop
    | some r =>
      rw [hhalt, Option.getD_some] at hstop
      exact ⟨d', rfl, .inl (by rw [hstop])⟩
  · obtain ⟨d', rfl, rfl⟩ := withSource_report e.symm
    let root : Cursor := { cur := t, rest, halt := (tokenize source o.tabWidth).halt }
    exact ⟨d', rfl, .inr ⟨root, htokens.symm, rfl, program_fault (start_scanned htokens) hp⟩⟩

/-- A compilation fails for a reason of the scan or of the parser. -/
theorem compile_fault {o : Options} {source : Text} {d : Diagnostic} (h : compile o source = .error (.report d)) :
    ∃ d', d = d'.withSource source ∧ ((tokenize source o.tabWidth).halt = some (.report d') ∨
      ∃ root : Cursor, root.halt = (tokenize source o.tabWidth).halt ∧ Fault root (.report d')) := by
  obtain ⟨d', e, hscan | ⟨root, -, hhalt, hfault⟩⟩ := compile_fault_at h
  · exact ⟨d', e, .inl hscan⟩
  · exact ⟨d', e, .inr ⟨root, hhalt, hfault⟩⟩

/-- The parser agrees with the layout on where blocks begin and end. No compilation reports a block that ends
where none is open, or one that is open where the source ends. And in a compiled program every body of a
block, at any depth, has a statement, and there are as many bodies as the source has indents. -/
theorem compile_blocks (o : Options) (source : Text) :
    (∀ d, compile o source = .error (.report d) → ¬ d.Unbalanced) ∧
    ∀ out, compile o source = .ok out →
      let bodies := Stmt.bodiesAll out.program.statements
      (∀ body ∈ bodies, body ≠ []) ∧
        bodies.length = (kindsOf (tokenize source o.tabWidth).tokens).count .indent := by
  constructor
  · intro d h
    obtain ⟨d', rfl, hd'⟩ := compile_fault h
    change ¬ d'.Unbalanced
    have hscan (hh : (tokenize source o.tabWidth).halt = some (.report d')) : ¬ d'.Unbalanced :=
      (run_breaks _ _ hh).balanced
    rcases hd' with hh | ⟨root, hroot, scope, c, -, hstops⟩
    · exact hscan hh
    · cases hstops with
      | halt hh => exact hscan (hroot ▸ hh)
      | report _ hreports => exact hreports.balanced
      | undefined hu =>
        cases hu.report
        exact fun hunbalanced => nomatch hunbalanced.1
  · intro out h
    obtain ⟨-, hp, -⟩ := compile_iff_resolves.1 ⟨out, h, rfl⟩
    have hblocks := blocks_program hp
    exact ⟨hblocks.nonempty, hblocks.count.symm⟩

end Compile

end Offside
