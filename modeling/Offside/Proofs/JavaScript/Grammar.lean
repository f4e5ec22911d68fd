import Offside.Proofs.Grammar.Unambiguous
import Offside.Proofs.JavaScript.Lexer

/-!
# The grammar of JavaScript expressions

    Expression     := LogicalAnd ('||' LogicalAnd)*
    LogicalAnd     := Equality ('&&' Equality)*
    Equality       := Relational (('===' | '!==') Relational)*
    Relational     := Additive (('<' | '>' | '<=' | '>=') Additive)*
    Additive       := Multiplicative (('+' | '-') Multiplicative)*
    Multiplicative := Exponentiation (('*' | '/' | '%') Exponentiation)*
    Exponentiation := Unary | Member '**' Exponentiation
    Unary          := Member | '-' Unary | '!' Unary
    Member         := Primary ('.' 'length')*
    Primary        := number | string | 'true' | 'false' | 'null' | name
                    | name '(' [Expression (',' Expression)*] ')'
                    | '[' [Expression (',' Expression)*] ']' | '(' Expression ')'

This is the part of the grammar that expressions render to. Main statement: it is unambiguous
(`reads_unique`).
-/

namespace Offside.JavaScript

open Offside.Grammar

/-- The words that are no names. -/
def reserved : List Text :=
  List.map Text.ofString ["await", "break", "case", "catch", "class", "const", "continue", "debugger", "default",
    "delete", "do", "else", "enum", "export", "extends", "false", "finally", "for", "function", "if", "import", "in",
    "instanceof", "new", "null", "return", "super", "switch", "this", "throw", "true", "try", "typeof", "var",
    "void", "while", "with", "yield"]

/-- What a token stands for on its own. -/
def atom? : Token → Option Expr
  | .number t => some (.literal .number t)
  | .string v => some (.literal .string v)
  | .word w =>
    if w = "true" then some (.literal .boolean "True")
    else if w = "false" then some (.literal .boolean "False")
    else if w = "null" then some (.literal .null "None")
    else if w ∈ reserved then none
    else some (.access w false)
  | _ => none

/-- The token is a comma. -/
def isComma (t : Token) : Bool := t == .comma

/-- `Primary`. -/
inductive Primary (N : Phrase Token Expr) : Phrase Token Expr
  | atom {t : Token} {e : Expr} (h : atom? t = some e) : Primary N [t] e
  | call {w : Text} {ts : List Token} {xs : List Expr} (hw : w ∉ reserved) (hx : OptItems isComma N ts xs) :
      Primary N (.word w :: .roundOpen :: (ts ++ [.roundClose])) (.call w xs)
  | array {ts : List Token} {xs : List Expr} (hx : OptItems isComma N ts xs) :
      Primary N (.squareOpen :: (ts ++ [.squareClose])) (.list xs)
  | parens {ts : List Token} {e : Expr} (hx : N ts e) : Primary N (.roundOpen :: (ts ++ [.roundClose])) (.enclosure e)

/-- `('.' 'length')*` behind `x`. -/
inductive Lengths : Expr → List Token → Expr → Prop
  | done (x : Expr) : Lengths x [] x
  | more {x e : Expr} {ts : List Token} (hrest : Lengths (.length x) ts e) :
      Lengths x (.dot :: .word "length" :: ts) e

/-- `Member`. -/
inductive Member (N : Phrase Token Expr) : Phrase Token Expr
  | mk {x e : Expr} {ts us : List Token} (hx : Primary N ts x) (hrest : Lengths x us e) : Member N (ts ++ us) e

/-- `Unary`. -/
inductive Unary (N : Phrase Token Expr) : Phrase Token Expr
  | plain {ts : List Token} {e : Expr} (h : Member N ts e) : Unary N ts e
  | minus {ts : List Token} {e : Expr} (h : Unary N ts e) : Unary N (.operator .subtract :: ts) (.unary .negate e)
  | not {ts : List Token} {e : Expr} (h : Unary N ts e) : Unary N (.not :: ts) (.unary .not e)

/-- `Exponentiation`. -/
inductive Exponentiation (N : Phrase Token Expr) : Phrase Token Expr
  | plain {ts : List Token} {e : Expr} (h : Unary N ts e) : Exponentiation N ts e
  | power {ts us : List Token} {base exponent : Expr} (h : Member N ts base) (hx : Exponentiation N us exponent) :
      Exponentiation N (ts ++ .operator .power :: us) (.binary .power base exponent)

/-- The operators that fold their operands to the left, those that bind tighter first. -/
def levels : List (List BinaryOp) :=
  [[.multiply, .divide, .modulo], [.add, .subtract], [.lesser, .greater, .lesserEquals, .greaterEquals],
    [.equals, .notEquals], [.and], [.or]]

/-- The operator that a token is on a level. -/
def onLevel (ops : List BinaryOp) : Token → Option BinaryOp
  | .operator op => if op ∈ ops then some op else none
  | _ => none

/-- One level on top of the other, with `X` below them. -/
def tower : List (List BinaryOp) → Phrase Token Expr → Phrase Token Expr
  | [], X => X
  | ops :: rest, X => tower rest (FoldLeft (onLevel ops) X)

/-- `Expression`. -/
def Expression (N : Phrase Token Expr) : Phrase Token Expr := tower levels (Exponentiation N)

/-- Expressions whose brackets nest less than `n` deep. -/
def Derives : Nat → Phrase Token Expr
  | 0 => fun _ _ => False
  | n + 1 => Expression (Derives n)

/-- The text is read as the expression. -/
def Reads (text : Text) (e : Expr) : Prop := ∃ ts n, scan 0 text = some ts ∧ Derives n ts e

/-! ## How phrases begin -/

/-- The tokens that a primary begins with. -/
def beginsPrimary : Token → Bool
  | .number _ | .string _ | .word _ | .roundOpen | .squareOpen => true
  | _ => false

/-- The tokens that an expression begins with. -/
def begins (t : Token) : Prop := beginsPrimary t = true ∨ t = .operator .subtract ∨ t = .not

section
variable {N N' : Phrase Token Expr}

theorem beginsPrimary_of_atom {t : Token} {e : Expr} (h : atom? t = some e) : beginsPrimary t = true := by
  cases t with
  | number | string | word => rfl
  | _ => cases h

theorem heads_primary : Heads (fun t => beginsPrimary t = true) (Primary N) := by
  intro ts e h
  cases h with
  | atom h => exact ⟨_, _, rfl, beginsPrimary_of_atom h⟩
  | call _ _ => exact ⟨_, _, rfl, rfl⟩
  | array _ => exact ⟨_, _, rfl, rfl⟩
  | parens _ => exact ⟨_, _, rfl, rfl⟩

theorem heads_member : Heads (fun t => beginsPrimary t = true) (Member N) := by
  rintro _ e ⟨hx, -⟩
  obtain ⟨t, us, rfl, ht⟩ := heads_primary _ _ hx
  exact ⟨t, _, rfl, ht⟩

theorem heads_unary : Heads begins (Unary N) := by
  intro ts e h
  cases h with
  | plain h =>
    obtain ⟨t, us, rfl, ht⟩ := heads_member _ _ h
    exact ⟨t, us, rfl, .inl ht⟩
  | minus _ => exact ⟨_, _, rfl, .inr (.inl rfl)⟩
  | not _ => exact ⟨_, _, rfl, .inr (.inr rfl)⟩

theorem heads_exponentiation : Heads begins (Exponentiation N) := by
  intro ts e h
  cases h with
  | plain h => exact heads_unary _ _ h
  | power h _ =>
    obtain ⟨t, us, rfl, ht⟩ := heads_member _ _ h
    exact ⟨t, _, rfl, .inl ht⟩

theorem heads_tower {P : Token → Prop} {X : Phrase Token Expr} (h : Heads P X) (ls : List (List BinaryOp)) :
    Heads P (tower ls X) := by
  induction ls generalizing X with
  | nil => exact h
  | cons ops ls ih => exact ih h.foldLeft

theorem heads_derives (n : Nat) : Heads begins (Derives n) := by
  cases n with
  | zero => exact fun _ _ h => h.elim
  | succ n => exact heads_tower heads_exponentiation levels

end

/-! ## Unambiguity -/

/-- The tokens that end an expression inside brackets. -/
def Ends (t : Token) : Prop := t = .comma ∨ t = .roundClose ∨ t = .squareClose

/-- The tokens that do not go on with a member. -/
def StopsMember (t : Token) : Prop := t ≠ .roundOpen ∧ t ≠ .dot

/-- The tokens that do not go on with a power. -/
def StopsPower (t : Token) : Prop := StopsMember t ∧ t ≠ .operator .power

/-- The tokens that do not go on with an expression. -/
def Stops (t : Token) : Prop := StopsPower t ∧ ∀ ops ∈ levels, onLevel ops t = none

theorem Ends.stops {t : Token} (h : Ends t) : Stops t := by
  rcases h with rfl | rfl | rfl <;> exact ⟨⟨⟨by simp, by simp⟩, by simp⟩, fun _ _ => rfl⟩

/-- Phrases that agree do so between brackets. -/
theorem agree_bracket {α : Type} {A B : Phrase Token α} {stop : Token → Prop} (h : Agree A B stop)
    {close : Token} (hc : stop close) {ts ts' us us' : List Token} {x y : α} (hA : A ts x) (hB : B ts' y)
    (heq : ts ++ close :: us = ts' ++ close :: us') : ts = ts' ∧ x = y := by
  have hnext : ∀ us, Next stop (close :: us) := by
    intro us t ht
    cases ht
    exact hc
  exact h hA hB heq (hnext us) (hnext us')

section
variable {N N' : Phrase Token Expr}

theorem arguments_agree (h : Agree N N' Ends) (hN : Heads begins N) (hN' : Heads begins N') :
    Agree (OptItems isComma N) (OptItems isComma N') fun t => (Ends t ∧ isComma t = false) ∧ ¬ begins t := by
  refine OptItems.agree h (fun t ht => .inl ?_) hN hN'
  simpa [isComma] using ht

theorem primary_agree (h : Agree N N' Ends) (hN : Heads begins N) (hN' : Heads begins N') :
    Agree (Primary N) (Primary N') (· ≠ .roundOpen) := by
  have hround : (Ends .roundClose ∧ isComma .roundClose = false) ∧ ¬ begins .roundClose :=
    ⟨⟨.inr (.inl rfl), rfl⟩, by simp [begins, beginsPrimary]⟩
  have hsquare : (Ends .squareClose ∧ isComma .squareClose = false) ∧ ¬ begins .squareClose :=
    ⟨⟨.inr (.inr rfl), rfl⟩, by simp [begins, beginsPrimary]⟩
  intro ts ts' us us' x y hx hy heq hu hu'
  cases hx with
  | @atom t e ht =>
    cases hy with
    | atom ht' =>
      obtain ⟨rfl, -⟩ : t = _ ∧ us = us' := by simpa using heq
      exact ⟨rfl, Option.some.inj (ht.symm.trans ht')⟩
    | call _ _ =>
      obtain ⟨-, rfl⟩ : t = _ ∧ us = _ := by simpa using heq
      exact absurd rfl (hu .roundOpen rfl)
    | array _ =>
      obtain ⟨rfl, -⟩ : t = _ ∧ us = _ := by simpa using heq
      cases ht
    | parens _ =>
      obtain ⟨rfl, -⟩ : t = _ ∧ us = _ := by simpa using heq
      cases ht
  | @call w ts xs hw hxs =>
    cases hy with
    | @atom t e ht' =>
      obtain ⟨-, rfl⟩ : _ = t ∧ _ = us' := by simpa using heq
      exact absurd rfl (hu' .roundOpen rfl)
    | @call w' ts' ys hw' hys =>
      obtain ⟨rfl, hinner⟩ : w = w' ∧ ts ++ .roundClose :: us = ts' ++ .roundClose :: us' := by simpa using heq
      obtain ⟨rfl, rfl⟩ := agree_bracket (arguments_agree h hN hN') hround hxs hys hinner
      exact ⟨rfl, rfl⟩
    | array _ => simp at heq
    | parens _ => simp at heq
  | @array ts xs hxs =>
    cases hy with
    | @atom t e ht' =>
      obtain ⟨rfl, -⟩ : _ = t ∧ _ = us' := by simpa using heq
      cases ht'
    | call _ _ => simp at heq
    | @array ts' ys hys =>
      have heq : ts ++ .squareClose :: us = ts' ++ .squareClose :: us' := by simpa using heq
      obtain ⟨rfl, rfl⟩ := agree_bracket (arguments_agree h hN hN') hsquare hxs hys heq
      exact ⟨rfl, rfl⟩
    | parens _ => simp at heq
  | @parens ts e hx =>
    cases hy with
    | @atom t e ht' =>
      obtain ⟨rfl, -⟩ : _ = t ∧ _ = us' := by simpa using heq
      cases ht'
    | call _ _ => simp at heq
    | array _ => simp at heq
    | @parens ts' e' hy =>
      have heq : ts ++ .roundClose :: us = ts' ++ .roundClose :: us' := by simpa using heq
      obtain ⟨rfl, rfl⟩ := agree_bracket h hround.1.1 hx hy heq
      exact ⟨rfl, rfl⟩

theorem Lengths.next {x e : Expr} {ts us : List Token} (h : Lengths x ts e) (hu : Next StopsMember us) :
    Next (· ≠ .roundOpen) (ts ++ us) := by
  cases h with
  | done => exact hu.imp fun _ => And.left
  | more _ =>
    intro t ht
    cases ht
    simp

theorem Lengths.agree {x e e' : Expr} {ts ts' us us' : List Token} (h : Lengths x ts e) (h' : Lengths x ts' e')
    (heq : ts ++ us = ts' ++ us') (hu : Next StopsMember us) (hu' : Next StopsMember us') : ts = ts' ∧ e = e' := by
  induction h generalizing ts' e' with
  | done x =>
    cases h' with
    | done => exact ⟨rfl, rfl⟩
    | more _ =>
      rw [List.nil_append] at heq
      rw [heq] at hu
      exact absurd rfl (hu _ rfl).2
  | more hrest ih =>
    cases h' with
    | done =>
      rw [List.nil_append] at heq
      rw [← heq] at hu'
      exact absurd rfl (hu' _ rfl).2
    | more hrest' =>
      obtain ⟨rfl, rfl⟩ := ih hrest' (by simpa using heq)
      exact ⟨rfl, rfl⟩

theorem member_agree (h : Agree (Primary N) (Primary N') (· ≠ .roundOpen)) :
    Agree (Member N) (Member N') StopsMember := by
  rintro _ _ us us' e e' ⟨hx, hrest⟩ ⟨hy, hrest'⟩ heq hu hu'
  rw [List.append_assoc, List.append_assoc] at heq
  obtain ⟨rfl, rfl⟩ := h hx hy heq (hrest.next hu) (hrest'.next hu')
  obtain ⟨rfl, rfl⟩ := hrest.agree hrest' (List.append_cancel_left heq) hu hu'
  exact ⟨rfl, rfl⟩

theorem unary_agree (h : Agree (Member N) (Member N') StopsMember) : Agree (Unary N) (Unary N') StopsMember := by
  intro ts ts' us us' e e' hx
  induction hx generalizing ts' us us' e' with
  | plain hx =>
    intro hy heq hu hu'
    cases hy with
    | plain hy => exact h hx hy heq hu hu'
    | minus _ | not _ =>
      -- no member begins with a sign
      obtain ⟨t, ws, rfl, ht⟩ := heads_member _ _ hx
      obtain ⟨rfl, -⟩ := List.cons.inj heq
      cases ht
  | minus hx ih =>
    intro hy heq hu hu'
    cases hy with
    | plain hy =>
      obtain ⟨t, ws, rfl, ht⟩ := heads_member _ _ hy
      obtain ⟨rfl, -⟩ := List.cons.inj heq
      cases ht
    | minus hy =>
      obtain ⟨rfl, rfl⟩ := ih hy (List.cons.inj heq).2 hu hu'
      exact ⟨rfl, rfl⟩
    | not _ => cases (List.cons.inj heq).1
  | not hx ih =>
    intro hy heq hu hu'
    cases hy with
    | plain hy =>
      obtain ⟨t, ws, rfl, ht⟩ := heads_member _ _ hy
      obtain ⟨rfl, -⟩ := List.cons.inj heq
      cases ht
    | minus _ => cases (List.cons.inj heq).1
    | not hy =>
      obtain ⟨rfl, rfl⟩ := ih hy (List.cons.inj heq).2 hu hu'
      exact ⟨rfl, rfl⟩

/-- A power is no unary expression: what stands before the `**` would end where the unary expression does. -/
theorem unary_not_power (h : Agree (Member N) (Member N') StopsMember) {ts ts' us us' : List Token} {e e' : Expr}
    (hx : Unary N ts e) (hy : Member N' ts' e') (heq : ts ++ us = ts' ++ .operator .power :: us')
    (hu : Next StopsPower us) : False := by
  cases hx with
  | plain hx =>
    have hstop : Next StopsMember (.operator .power :: us') := by
      intro t ht
      cases ht
      exact ⟨by simp, by simp⟩
    obtain ⟨rfl, -⟩ := h hx hy heq (hu.imp fun _ => And.left) hstop
    obtain rfl := List.append_cancel_left heq
    exact (hu _ rfl).2 rfl
  | minus _ | not _ =>
    obtain ⟨t, ws, rfl, ht⟩ := heads_member _ _ hy
    obtain ⟨rfl, -⟩ := List.cons.inj heq
    cases ht

theorem exponentiation_agree (h : Agree (Member N) (Member N') StopsMember) :
    Agree (Exponentiation N) (Exponentiation N') StopsPower := by
  have hpower : ∀ us, Next StopsMember (.operator .power :: us) := by
    intro us t ht
    cases ht
    exact ⟨by simp, by simp⟩
  intro ts ts' us us' e e' hx
  induction hx generalizing ts' us us' e' with
  | plain hx =>
    intro hy heq hu hu'
    cases hy with
    | plain hy => exact unary_agree h hx hy heq (hu.imp fun _ => And.left) (hu'.imp fun _ => And.left)
    | power hy _ => exact (unary_not_power h hx hy (by simpa using heq) hu).elim
  | @power ts vs base exponent hx hexp ih =>
    intro hy heq hu hu'
    cases hy with
    | plain hy => exact (unary_not_power h.symm hy hx (by simpa using heq.symm) hu').elim
    | @power ts' vs' base' exponent' hy hexp' =>
      have heq' : ts ++ .operator .power :: (vs ++ us) = ts' ++ .operator .power :: (vs' ++ us') := by
        simpa using heq
      obtain ⟨rfl, rfl⟩ := h hx hy heq' (hpower _) (hpower _)
      obtain ⟨rfl, rfl⟩ := ih hexp' (List.cons.inj (List.append_cancel_left heq')).2 hu hu'
      exact ⟨rfl, rfl⟩

theorem tower_agree {X Y : Phrase Token Expr} {stop : Token → Prop} (h : Agree X Y stop)
    {ls : List (List BinaryOp)} (hdisjoint : ls.Pairwise fun ops ops' => ∀ op ∈ ops', op ∉ ops)
    (hops : ∀ ops ∈ ls, ∀ op ∈ ops, stop (.operator op)) :
    Agree (tower ls X) (tower ls Y) fun t => stop t ∧ ∀ ops ∈ ls, onLevel ops t = none := by
  induction ls generalizing X Y stop with
  | nil => exact h.imp fun _ => And.left
  | cons ops ls ih =>
    obtain ⟨hfirst, hdisjoint⟩ := List.pairwise_cons.1 hdisjoint
    obtain ⟨hops₀, hops⟩ := List.forall_mem_cons.1 hops
    have hstop : ∀ t op, onLevel ops t = some op → stop t := by
      intro t op ht
      cases t with
      | operator op' =>
        simp only [onLevel, Option.ite_none_right_eq_some] at ht
        exact hops₀ op' ht.1
      | _ => cases ht
    refine (ih (FoldLeft.agree h hstop) hdisjoint ?_).imp ?_
    · intro ops' hops' op hop
      exact ⟨hops ops' hops' op hop, by simp [onLevel, hfirst ops' hops' op hop]⟩
    · rintro t ⟨ht, hnone⟩
      obtain ⟨hnone₀, hnone⟩ := List.forall_mem_cons.1 hnone
      exact ⟨⟨ht, hnone₀⟩, hnone⟩

end

theorem derives_agree (n n' : Nat) : Agree (Derives n) (Derives n') Stops := by
  induction n generalizing n' with
  | zero => exact fun _ _ _ _ _ _ h => h.elim
  | succ n ih =>
    cases n' with
    | zero => exact fun _ _ _ _ _ _ _ h => h.elim
    | succ n' =>
      have hprimary := primary_agree ((ih n').imp fun _ => Ends.stops) (heads_derives n) (heads_derives n')
      have hpower := exponentiation_agree (member_agree hprimary)
      have hdisjoint : levels.Pairwise fun ops ops' => ∀ op ∈ ops', op ∉ ops := by decide
      have hlevels : ∀ ops ∈ levels, .power ∉ ops := by decide
      have hops : ∀ ops ∈ levels, ∀ op ∈ ops, StopsPower (.operator op) := by
        intro ops hops op hop
        refine ⟨⟨by simp, by simp⟩, ?_⟩
        rintro ⟨⟩
        exact hlevels ops hops hop
      exact tower_agree hpower hdisjoint hops

/-- A text is read in one way only. -/
theorem reads_unique {text : Text} {e e' : Expr} (h : Reads text e) (h' : Reads text e') : e = e' := by
  obtain ⟨ts, n, hts, hd⟩ := h
  obtain ⟨ts', n', hts', hd'⟩ := h'
  obtain rfl := Option.some.inj (hts.symm.trans hts')
  have hnil : Next Stops [] := by simp [Next]
  exact (derives_agree n n' hd hd' rfl hnil hnil).2

end Offside.JavaScript
