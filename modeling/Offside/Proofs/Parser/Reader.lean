import Offside.Proofs.Grammar.Expression

/-!
# Readers and phrases

A reader is sound for a phrase if what it has passed over whenever it succeeds is the phrase (`Sound`).
It is complete if it reads every such phrase whose next token stops it (`Complete`). The combinators of
the parser keep both. A cursor goes on for ever only at the end of the source: `Ended` says that the
tokens lead to that end or stop for a reason, as those of a scan do.
-/

namespace Offside

/-- The bind of two steps succeeds just when both do. -/
theorem bind_ok {ε σ α β : Type} {x : EStateM ε σ α} {f : α → EStateM ε σ β} {s s'' : σ} {b : β} :
    (x >>= f) s = .ok b s'' ↔ ∃ a s', x s = .ok a s' ∧ f a s' = .ok b s'' := by
  change EStateM.bind x f s = _ ↔ _
  unfold EStateM.bind
  cases x s with
  | ok a s' =>
    refine ⟨fun h => ⟨a, s', rfl, h⟩, ?_⟩
    rintro ⟨_, _, h, h'⟩
    cases h
    exact h'
  | error e s' => simp

/-- The bind of two steps fails if the first does, or if the second does behind it. -/
theorem bind_error {ε σ α β : Type} {x : EStateM ε σ α} {f : α → EStateM ε σ β} {s s'' : σ} {e : ε} :
    (x >>= f) s = .error e s'' ↔
      x s = .error e s'' ∨ ∃ a s', x s = .ok a s' ∧ f a s' = .error e s'' := by
  change EStateM.bind x f s = _ ↔ _
  unfold EStateM.bind
  cases x s with
  | ok a s' =>
    refine ⟨fun h => .inr ⟨a, s', rfl, h⟩, ?_⟩
    rintro (h | ⟨_, _, h, h'⟩)
    · cases h
    · cases h
      exact h'
  | error e' s' => simp

theorem bind_of_ok {ε σ α β : Type} {x : EStateM ε σ α} {f : α → EStateM ε σ β} {s s' : σ} {a : α}
    (h : x s = .ok a s') : (x >>= f) s = f a s' := by
  change EStateM.bind x f s = _
  unfold EStateM.bind
  rw [h]

/-- A step that nests nothing, which the parser runs as its own. -/
theorem step_of_ok {ε σ α β : Type} {x : EStateM ε σ α} {f : α → EStateM ε σ β} {s s' : σ} {a : α}
    (h : x s = .ok a s') : ((liftM x : EStateM ε σ α) >>= f) s = f a s' :=
  bind_of_ok h

theorem pure_ok {ε σ α : Type} {a b : α} {s s' : σ} :
    (pure a : EStateM ε σ α) s = .ok b s' ↔ a = b ∧ s = s' := by
  change EStateM.Result.ok a s = .ok b s' ↔ _
  simp

namespace Cursor

/-- The tokens from the current one on. -/
def tokens (c : Cursor) : List Token := c.cur :: c.rest

/-- The cursor one token earlier. -/
def back (t : Token) (c : Cursor) : Cursor := { cur := t, rest := c.tokens, halt := c.halt }

/-- The cursor before the tokens `ts`, which lead to `c`. -/
def before (ts : List Token) (c : Cursor) : Cursor := ts.foldr back c

@[simp] theorem before_nil (c : Cursor) : c.before [] = c := rfl

@[simp] theorem before_cons (t : Token) (ts : List Token) (c : Cursor) :
    c.before (t :: ts) = (c.before ts).back t := rfl

theorem before_append (ts us : List Token) (c : Cursor) :
    c.before (ts ++ us) = (c.before us).before ts := by
  simp [before]

theorem before_trans {a b c : Cursor} {ts us : List Token} (h : a = b.before ts) (h' : b = c.before us) :
    a = c.before (ts ++ us) := by
  rw [h, h', before_append]

@[simp] theorem cur_back (t : Token) (c : Cursor) : (c.back t).cur = t := rfl

@[simp] theorem tokens_back (t : Token) (c : Cursor) : (c.back t).tokens = t :: c.tokens := rfl

@[simp] theorem tokens_before (ts : List Token) (c : Cursor) : (c.before ts).tokens = ts ++ c.tokens := by
  induction ts with
  | nil => rfl
  | cons t ts ih => simp [ih]

@[simp] theorem halt_before (ts : List Token) (c : Cursor) : (c.before ts).halt = c.halt := by
  induction ts with
  | nil => rfl
  | cons t ts ih => simpa [back] using ih

theorem bound_before (ts : List Token) (c : Cursor) : (c.before ts).bound = ts.length + c.bound := by
  have h : ∀ c : Cursor, c.bound = c.tokens.length := fun c => rfl
  rw [h, h, tokens_before, List.length_append]

/-- A cursor is what stands on its tokens. -/
theorem eq_of_tokens {c d : Cursor} (ht : c.tokens = d.tokens) (hh : c.halt = d.halt) : c = d := by
  cases c
  cases d
  simp_all [tokens]

/-- The tokens lead to the end of the source, or stop for a reason. -/
def Ended (c : Cursor) : Prop := c.halt = none → ∃ t, c.tokens.getLast? = some t ∧ t.kind = .eof

theorem ended_back {t : Token} {c : Cursor} : (c.back t).Ended ↔ c.Ended := by
  unfold Ended
  rw [tokens_back, tokens, List.getLast?_cons_cons]
  rfl

theorem ended_before {ts : List Token} {c : Cursor} : (c.before ts).Ended ↔ c.Ended := by
  induction ts with
  | nil => rfl
  | cons t ts ih => rw [before_cons, ended_back, ih]

end Cursor

namespace Reader

open Offside.Grammar

/-- Going on from a token that is not the end leads to the next one. -/
theorem advance_ok {c c' : Cursor} (hc : c.Ended) (hk : c.cur.kind ≠ .eof) (h : advance c = .ok () c') :
    c = c'.back c.cur ∧ c'.Ended := by
  have e : c = c'.back c.cur := by
    obtain ⟨cur, rest, halt⟩ := c
    cases rest with
    | cons t rest =>
      simp only [advance, EStateM.Result.ok.injEq, true_and] at h
      subst h
      rfl
    | nil =>
      cases halt with
      | some r => simp [advance] at h
      | none =>
        obtain ⟨t, ht, hend⟩ := hc rfl
        simp only [Cursor.tokens, List.getLast?_singleton, Option.some.injEq] at ht
        exact absurd (ht ▸ hend) hk
  rw [e] at hc
  exact ⟨e, Cursor.ended_back.1 hc⟩

@[simp] theorem advance_back (t : Token) (c : Cursor) : advance (c.back t) = .ok () c := rfl

@[simp] theorem current_eq (c : Cursor) : current c = .ok c.cur c := rfl

/-- The token behind the current one is looked at and not passed over. -/
theorem peek_ok {c c' : Cursor} {t : Token} (h : peek c = .ok t c') :
    c' = c ∧ (c.rest.head? = some t ∨ t = c.cur) := by
  unfold peek at h
  split at h
  · next hrest =>
    cases h
    exact ⟨rfl, .inl (by rw [hrest]; rfl)⟩
  · split at h
    · cases h
    · cases h
      exact ⟨rfl, .inr rfl⟩

theorem expect_ok {is : Token → Bool} {what : Text} {c c' : Cursor} (hc : c.Ended)
    (hk : ∀ t, is t = true → t.kind ≠ .eof) (h : expect is what c = .ok () c') :
    is c.cur = true ∧ c = c'.back c.cur ∧ c'.Ended := by
  unfold expect at h
  rw [bind_of_ok (current_eq c)] at h
  split at h
  · next ht => exact ⟨ht, advance_ok hc (hk _ ht) h⟩
  · cases h

theorem expect_back {is : Token → Bool} {what : Text} {t : Token} (h : is t = true) (c : Cursor) :
    expect is what (c.back t) = .ok () c := by
  unfold expect
  rw [bind_of_ok (current_eq _), Cursor.cur_back, if_pos h]
  rfl

section
variable {α : Type}

/-- Whenever the reader succeeds, it has passed over the phrase. -/
def Sound (r : Reader α) (A : Phrase Token α) : Prop :=
  ∀ c a c', c.Ended → r c = .ok a c' → ∃ ts, c = c'.before ts ∧ A ts a

/-- The reader reads every such phrase behind which a token that satisfies `stop` stands. -/
def Complete (r : Reader α) (A : Phrase Token α) (stop : Token → Prop) : Prop :=
  ∀ ts a c, A ts a → stop c.cur → r (c.before ts) = .ok a c

theorem kind_ne_eof {t : Token} {k : Token.Kind} (h : t.kind = k) (hk : k ≠ .eof) : t.kind ≠ .eof := h ▸ hk

theorem bracket_ne_eof {b : Bracket} (t : Token) (h : t.isBracket b = true) : t.kind ≠ .eof :=
  kind_ne_eof (kind_of_isBracket h) (by decide)

end

/-! ## Folds -/

section
open Offside.Expression
variable {level : Level} {ops : Operators} {operand : Reader Expr} {X : Phrase Token Expr}

theorem kind_of_ofToken? {t : Token} {op : BinaryOp} (h : level.ofToken? t = some op) : t.kind = .operator := by
  unfold Level.ofToken? at h
  split at h
  · assumption
  · cases h

/-- A level of the parser has the operators of the grammar. -/
theorem ofToken?_eq_node? (h : ∀ o, level o = ops.lookup o) : level.ofToken? = ops.node? := by
  funext t
  unfold Level.ofToken?
  split
  · next o hkind hsubtype =>
    have ht : t.isOperator o = true := by simp [Token.isOperator, hkind, hsubtype]
    rw [h, node?_eq_lookup ht]
  · next hnone =>
    cases hnode : ops.node? t with
    | none => rfl
    | some op =>
      obtain ⟨o, -, ht⟩ := isOperator_of_node? hnode
      simp only [Token.isOperator, Bool.and_eq_true, beq_iff_eq] at ht
      exact absurd ht.2 (hnone o ht.1)

theorem foldRest_none {fuel : Nat} {left : Expr} {c : Cursor} (h : level.ofToken? c.cur = none) :
    foldRest level operand fuel left c = .ok left c := by
  cases fuel with
  | zero => rfl
  | succ fuel =>
    rw [foldRest, step_of_ok (current_eq c), h]
    rfl

theorem foldRest_some {fuel : Nat} {left : Expr} {c : Cursor} {op : BinaryOp}
    (h : level.ofToken? c.cur = some op) :
    foldRest level operand (fuel + 1) left c =
      (advance >>= fun _ => operand >>= fun right => foldRest level operand fuel (.binary op left right)) c := by
  rw [foldRest, step_of_ok (current_eq c), h]
  rfl

theorem foldRest_sound (hlevel : level.ofToken? = ops.node?) (h : Sound operand X) :
    ∀ (fuel : Nat) (left : Expr) (c : Cursor) (e : Expr) (c' : Cursor), c.Ended →
      foldRest level operand fuel left c = .ok e c' →
      ∃ ts, c = c'.before ts ∧ FoldRest ops.node? X left ts e := by
  intro fuel
  induction fuel with
  | zero =>
    intro left c e c' _ hr
    obtain ⟨rfl, rfl⟩ := pure_ok.1 hr
    exact ⟨[], rfl, .done left⟩
  | succ fuel ih =>
    intro left c e c' hc hr
    cases hop : ops.node? c.cur with
    | none =>
      rw [foldRest_none (hlevel ▸ hop)] at hr
      cases hr
      exact ⟨[], rfl, .done left⟩
    | some op =>
      rw [foldRest_some (hlevel ▸ hop)] at hr
      obtain ⟨_, c₁, h₁, hr⟩ := bind_ok.1 hr
      obtain ⟨right, c₂, h₂, hr⟩ := bind_ok.1 hr
      obtain ⟨e₁, hc₁⟩ := advance_ok hc (kind_ne_eof (kind_of_node? hop) (by decide)) h₁
      obtain ⟨ts, e₂, hx⟩ := h c₁ right c₂ hc₁ h₂
      have hc₂ : c₂.Ended := by rw [e₂] at hc₁; exact Cursor.ended_before.1 hc₁
      obtain ⟨us, e₃, hrest⟩ := ih _ c₂ e c' hc₂ hr
      refine ⟨c.cur :: (ts ++ us), ?_, .more hop hx hrest⟩
      rw [Cursor.before_cons, Cursor.before_append, ← e₃, ← e₂, ← e₁]

theorem foldLeft_sound (hlevel : level.ofToken? = ops.node?) (h : Sound operand X) :
    Sound (foldLeft level operand) (FoldLeft ops.node? X) := by
  intro c e c' hc hr
  obtain ⟨left, c₁, h₁, h₂⟩ := bind_ok.1 hr
  obtain ⟨ts, rfl, hx⟩ := h c left c₁ hc h₁
  obtain ⟨us, rfl, hrest⟩ := foldRest_sound hlevel h _ left c₁ e c' (Cursor.ended_before.1 hc) h₂
  exact ⟨ts ++ us, (Cursor.before_append ..).symm, hx, hrest⟩

/-- Behind operands and operators of the level the loop goes on until a token stops it. The fuel is
more than the tokens to come. -/
theorem foldRest_complete (hlevel : level.ofToken? = ops.node?) {stop : Token → Prop} (h : Complete operand X stop)
    (hop : ∀ t op, ops.node? t = some op → stop t) {left e : Expr} {ts : List Token}
    (hrest : FoldRest ops.node? X left ts e) (c : Cursor) (hc : stop c.cur) (hn : ops.node? c.cur = none) :
    ∀ fuel, ts.length < fuel → foldRest level operand fuel left (c.before ts) = .ok e c := by
  induction hrest with
  | done left =>
    intro fuel _
    exact foldRest_none (hlevel ▸ hn)
  | @more left right e t op ts us ht hx hrest ih =>
    intro fuel hf
    obtain ⟨fuel, rfl⟩ : ∃ k, fuel = k + 1 := ⟨fuel - 1, by simp at hf; omega⟩
    have hstop : stop (c.before us).cur := by
      cases hrest with
      | done => exact hc
      | more ht' _ _ => exact hop _ _ ht'
    rw [Cursor.before_cons, Cursor.before_append, foldRest_some (hlevel ▸ ht), bind_of_ok (advance_back _ _),
      bind_of_ok (h _ _ _ hx hstop)]
    exact ih fuel (by simp at hf; omega)

theorem foldLeft_complete (hlevel : level.ofToken? = ops.node?) {stop : Token → Prop} (h : Complete operand X stop)
    (hop : ∀ t op, ops.node? t = some op → stop t) :
    Complete (foldLeft level operand) (FoldLeft ops.node? X) (fun t => stop t ∧ ops.node? t = none) := by
  rintro _ e c ⟨hx, hrest⟩ ⟨hc, hn⟩
  rename_i left ts us
  have hstop : stop (c.before us).cur := by
    cases hrest with
    | done => exact hc
    | more ht' _ _ => exact hop _ _ ht'
  unfold foldLeft
  rw [Cursor.before_append, bind_of_ok (h _ _ _ hx hstop)]
  have hfuel : us.length < (c.before us).bound := by
    rw [Cursor.bound_before]
    simp [Cursor.bound]
  exact foldRest_complete hlevel h hop hrest c hc hn _ hfuel

end

/-! ## Lists of expressions -/

section
open Offside.Expression
variable {expr : Reader Expr} {X : Phrase Token Expr}

theorem moreItems_none {fuel : Nat} {c : Cursor} (h : isComma c.cur = false) :
    moreItems expr fuel c = .ok [] c := by
  cases fuel with
  | zero => rfl
  | succ fuel =>
    rw [moreItems, step_of_ok (current_eq c), if_neg (by simp [h])]
    rfl

theorem moreItems_some {fuel : Nat} {c : Cursor} (h : isComma c.cur = true) :
    moreItems expr (fuel + 1) c =
      (advance >>= fun _ => expr >>= fun x => moreItems expr fuel >>= fun xs => pure (x :: xs)) c := by
  rw [moreItems, step_of_ok (current_eq c), if_pos h]
  rfl

theorem moreItems_sound (h : Sound expr X) :
    ∀ (fuel : Nat) (c : Cursor) (xs : List Expr) (c' : Cursor), c.Ended → moreItems expr fuel c = .ok xs c' →
      ∃ ts, c = c'.before ts ∧ MoreItems isComma X ts xs := by
  intro fuel
  induction fuel with
  | zero =>
    intro c xs c' _ hr
    obtain ⟨rfl, rfl⟩ := pure_ok.1 hr
    exact ⟨[], rfl, .done⟩
  | succ fuel ih =>
    intro c xs c' hc hr
    cases hcomma : isComma c.cur with
    | false =>
      rw [moreItems_none hcomma] at hr
      cases hr
      exact ⟨[], rfl, .done⟩
    | true =>
      rw [moreItems_some hcomma] at hr
      obtain ⟨_, c₁, h₁, hr₁⟩ := bind_ok.1 hr
      obtain ⟨x, c₂, h₂, hr₂⟩ := bind_ok.1 hr₁
      obtain ⟨xs, c₃, h₃, hr₃⟩ := bind_ok.1 hr₂
      obtain ⟨rfl, rfl⟩ := pure_ok.1 hr₃
      obtain ⟨e₁, hc₁⟩ := advance_ok hc (kind_ne_eof (kind_of_isDelimiter hcomma) (by decide)) h₁
      obtain ⟨ts, e₂, hx⟩ := h c₁ x c₂ hc₁ h₂
      have hc₂ : c₂.Ended := by rw [e₂] at hc₁; exact Cursor.ended_before.1 hc₁
      obtain ⟨us, e₃, hrest⟩ := ih c₂ xs c₃ hc₂ h₃
      refine ⟨c.cur :: (ts ++ us), ?_, .more hcomma hx hrest⟩
      rw [Cursor.before_cons, Cursor.before_append, ← e₃, ← e₂, ← e₁]

theorem items_sound (h : Sound expr X) : Sound (items expr) (Items isComma X) := by
  intro c xs c' hc hr
  obtain ⟨x, c₁, h₁, hr₁⟩ := bind_ok.1 hr
  obtain ⟨_, _, hb, hr₂⟩ := bind_ok.1 hr₁
  obtain ⟨xs, c₂, h₂, hr₃⟩ := bind_ok.1 hr₂
  obtain ⟨rfl, rfl⟩ := pure_ok.1 hr₃
  cases hb
  obtain ⟨ts, rfl, hx⟩ := h c x c₁ hc h₁
  obtain ⟨us, rfl, hrest⟩ := moreItems_sound h _ c₁ xs c₂ (Cursor.ended_before.1 hc) h₂
  exact ⟨ts ++ us, (Cursor.before_append ..).symm, hx, hrest⟩

theorem moreItems_complete {stop : Token → Prop} (h : Complete expr X stop)
    (hcomma : ∀ t, isComma t = true → stop t) {ts : List Token} {xs : List Expr}
    (hrest : MoreItems isComma X ts xs) (c : Cursor) (hc : stop c.cur) (hn : isComma c.cur = false) :
    ∀ fuel, ts.length < fuel → moreItems expr fuel (c.before ts) = .ok xs c := by
  induction hrest with
  | done =>
    intro fuel _
    exact moreItems_none hn
  | @more t ts us x xs ht hx hrest ih =>
    intro fuel hf
    obtain ⟨fuel, rfl⟩ : ∃ k, fuel = k + 1 := ⟨fuel - 1, by simp at hf; omega⟩
    have hstop : stop (c.before us).cur := by
      cases hrest with
      | done => exact hc
      | more ht' _ _ => exact hcomma _ ht'
    rw [Cursor.before_cons, Cursor.before_append, moreItems_some ht, bind_of_ok (advance_back _ _),
      bind_of_ok (h _ _ _ hx hstop), bind_of_ok (ih fuel (by simp at hf; omega))]
    rfl

theorem items_complete {stop : Token → Prop} (h : Complete expr X stop)
    (hcomma : ∀ t, isComma t = true → stop t) :
    Complete (items expr) (Items isComma X) (fun t => stop t ∧ isComma t = false) := by
  rintro _ _ c ⟨hx, hrest⟩ ⟨hc, hn⟩
  rename_i ts us x xs
  have hstop : stop (c.before us).cur := by
    cases hrest with
    | done => exact hc
    | more ht' _ _ => exact hcomma _ ht'
  have hfuel : us.length < (c.before us).bound := by
    rw [Cursor.bound_before]
    simp [Cursor.bound]
  have hbound : bound (c.before us) = .ok (c.before us).bound (c.before us) := rfl
  unfold items
  rw [Cursor.before_append, bind_of_ok (h _ _ _ hx hstop), step_of_ok hbound,
    bind_of_ok (moreItems_complete h hcomma hrest c hc hn _ hfuel)]
  rfl

theorem itemsUntil_close {close : Bracket} {what : Text} {c : Cursor} (h : c.cur.isBracket close = true) :
    itemsUntil expr close what c = (expect (·.isBracket close) what >>= fun _ => pure []) c := by
  unfold itemsUntil
  rw [step_of_ok (current_eq c), if_pos h]
  rfl

theorem itemsUntil_items {close : Bracket} {what : Text} {c : Cursor} (h : c.cur.isBracket close = false) :
    itemsUntil expr close what c =
      (items expr >>= fun xs => expect (·.isBracket close) what >>= fun _ => pure xs) c := by
  unfold itemsUntil
  rw [step_of_ok (current_eq c), if_neg (by simp [h])]
  rfl

theorem itemsUntil_sound (h : Sound expr X) {close : Bracket} {what : Text} {c c' : Cursor} {xs : List Expr}
    (hc : c.Ended) (hr : itemsUntil expr close what c = .ok xs c') :
    ∃ ts r, c = c'.before (ts ++ [r]) ∧ Arguments X ts xs ∧ r.isBracket close = true := by
  cases hcur : c.cur.isBracket close with
  | true =>
    rw [itemsUntil_close hcur] at hr
    obtain ⟨_, c₁, h₁, hr₁⟩ := bind_ok.1 hr
    obtain ⟨rfl, rfl⟩ := pure_ok.1 hr₁
    obtain ⟨ht, e₁, _⟩ := expect_ok hc bracket_ne_eof h₁
    exact ⟨[], c.cur, e₁, .none, ht⟩
  | false =>
    rw [itemsUntil_items hcur] at hr
    obtain ⟨xs, c₁, h₁, hr₁⟩ := bind_ok.1 hr
    obtain ⟨_, c₂, h₂, hr₂⟩ := bind_ok.1 hr₁
    obtain ⟨rfl, rfl⟩ := pure_ok.1 hr₂
    obtain ⟨ts, rfl, hx⟩ := items_sound h c xs c₁ hc h₁
    obtain ⟨ht, e₁, _⟩ := expect_ok (Cursor.ended_before.1 hc) bracket_ne_eof h₂
    refine ⟨ts, c₁.cur, ?_, .some hx, ht⟩
    rw [Cursor.before_append, Cursor.before_cons, Cursor.before_nil, ← e₁]

theorem itemsUntil_complete {stop : Token → Prop} (h : Complete expr X stop)
    (hcomma : ∀ t, isComma t = true → stop t) {close : Bracket} (hstop : ∀ t, t.isBracket close = true → stop t)
    (hhead : Heads (fun t => t.isBracket close = false) X) {what : Text} {ts : List Token} {xs : List Expr}
    {r : Token} (hx : Arguments X ts xs) (hr : r.isBracket close = true) (c : Cursor) :
    itemsUntil expr close what (c.before (ts ++ [r])) = .ok xs c := by
  have hcr : isComma r = false := by simp [isComma, Token.isDelimiter, kind_of_isBracket hr]
  have hexpect : expect (·.isBracket close) what (c.back r) = .ok () c := expect_back hr c
  rw [Cursor.before_append, Cursor.before_cons, Cursor.before_nil]
  cases hx with
  | none =>
    rw [Cursor.before_nil, itemsUntil_close hr, bind_of_ok hexpect]
    rfl
  | some hx =>
    obtain ⟨t, us, rfl, ht⟩ := hhead.items _ _ hx
    have hi := items_complete h hcomma _ _ (c.back r) hx ⟨hstop _ hr, hcr⟩
    rw [itemsUntil_items ht, bind_of_ok hi, bind_of_ok hexpect]
    rfl

end

end Reader

end Offside
