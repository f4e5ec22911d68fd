import Offside.Proofs.Grammar.Basic

/-!
# Unambiguous phrases

Two phrases agree if they never read the same tokens differently: where both can be read from the start of the
same tokens, and what follows each is a token that goes on with neither, they end at the same place and stand
for the same thing. A phrase is unambiguous if it agrees with itself. Agreement passes from operands to folds
and from items to lists.
-/

namespace Offside.Grammar

section
variable {τ α : Type}

/-- The next token, if there is one, is in the set. -/
def Next (stop : τ → Prop) (us : List τ) : Prop := ∀ t ∈ us.head?, stop t

theorem Next.imp {stop stop' : τ → Prop} {us : List τ} (h : Next stop us) (himp : ∀ t, stop t → stop' t) :
    Next stop' us := fun t ht => himp t (h t ht)

/-- The phrases read the same tokens in the same way. -/
def Agree (A B : Phrase τ α) (stop : τ → Prop) : Prop :=
  ∀ ⦃ts ts' us us' : List τ⦄ ⦃x y : α⦄, A ts x → B ts' y → ts ++ us = ts' ++ us' → Next stop us →
    Next stop us' → ts = ts' ∧ x = y

theorem Agree.imp {A B : Phrase τ α} {stop stop' : τ → Prop} (h : Agree A B stop) (himp : ∀ t, stop' t → stop t) :
    Agree A B stop' := fun _ _ _ _ _ _ hA hB e hu hu' => h hA hB e (hu.imp himp) (hu'.imp himp)

theorem Agree.symm {A B : Phrase τ α} {stop : τ → Prop} (h : Agree A B stop) : Agree B A stop := by
  intro ts ts' us us' x y hB hA heq hu hu'
  obtain ⟨rfl, rfl⟩ := h hA hB heq.symm hu' hu
  exact ⟨rfl, rfl⟩

/-! ## Folds -/

variable {op? : τ → Option BinaryOp} {X Y : Phrase τ Expr} {stop : τ → Prop}

/-- What stops an operand of a fold: an operator, or what stops the fold. -/
theorem FoldRest.next (hop : ∀ t op, op? t = some op → stop t) {left e : Expr} {ts us : List τ}
    (h : FoldRest op? X left ts e) (hu : Next stop us) : Next stop (ts ++ us) := by
  cases h with
  | done => exact hu
  | more ht _ _ =>
    intro t' ht'
    cases ht'
    exact hop _ _ ht

theorem FoldRest.agree (h : Agree X Y stop) (hop : ∀ t op, op? t = some op → stop t) {left e e' : Expr}
    {ts ts' us us' : List τ} (hX : FoldRest op? X left ts e) (hY : FoldRest op? Y left ts' e')
    (heq : ts ++ us = ts' ++ us') (hu : Next (fun t => stop t ∧ op? t = none) us)
    (hu' : Next (fun t => stop t ∧ op? t = none) us') : ts = ts' ∧ e = e' := by
  induction hX generalizing ts' e' with
  | done left =>
    cases hY with
    | done => exact ⟨rfl, rfl⟩
    | more ht _ _ =>
      rw [List.nil_append] at heq
      rw [heq] at hu
      have hnone := (hu _ rfl).2
      rw [ht] at hnone
      cases hnone
  | more ht hx hrest ih =>
    cases hY with
    | done =>
      rw [List.nil_append] at heq
      rw [← heq] at hu'
      have hnone := (hu' _ rfl).2
      rw [ht] at hnone
      cases hnone
    | more ht' hy hrest' =>
      simp only [List.cons_append, List.append_assoc, List.cons.injEq] at heq
      obtain ⟨rfl, heq⟩ := heq
      obtain rfl := Option.some.inj (ht.symm.trans ht')
      have hstop := hrest.next hop (hu.imp fun _ => And.left)
      have hstop' := hrest'.next hop (hu'.imp fun _ => And.left)
      obtain ⟨rfl, rfl⟩ := h hx hy heq hstop hstop'
      obtain ⟨rfl, rfl⟩ := ih hrest' (List.append_cancel_left heq)
      exact ⟨rfl, rfl⟩

theorem FoldLeft.agree (h : Agree X Y stop) (hop : ∀ t op, op? t = some op → stop t) :
    Agree (FoldLeft op? X) (FoldLeft op? Y) fun t => stop t ∧ op? t = none := by
  rintro _ _ us us' e e' ⟨hx, hrest⟩ ⟨hy, hrest'⟩ heq hu hu'
  rw [List.append_assoc, List.append_assoc] at heq
  have hstop := hrest.next hop (hu.imp fun _ => And.left)
  have hstop' := hrest'.next hop (hu'.imp fun _ => And.left)
  obtain ⟨rfl, rfl⟩ := h hx hy heq hstop hstop'
  obtain ⟨rfl, rfl⟩ := hrest.agree h hop hrest' (List.append_cancel_left heq) hu hu'
  exact ⟨rfl, rfl⟩

/-! ## Lists of items -/

variable {comma : τ → Bool} {A B : Phrase τ α}

theorem MoreItems.next (hcomma : ∀ t, comma t = true → stop t) {ts us : List τ} {xs : List α}
    (h : MoreItems comma A ts xs) (hu : Next stop us) : Next stop (ts ++ us) := by
  cases h with
  | done => exact hu
  | more ht _ _ =>
    intro t' ht'
    cases ht'
    exact hcomma _ ht

theorem MoreItems.agree (h : Agree A B stop) (hcomma : ∀ t, comma t = true → stop t) {ts ts' us us' : List τ}
    {xs ys : List α} (hA : MoreItems comma A ts xs) (hB : MoreItems comma B ts' ys) (heq : ts ++ us = ts' ++ us')
    (hu : Next (fun t => stop t ∧ comma t = false) us) (hu' : Next (fun t => stop t ∧ comma t = false) us') :
    ts = ts' ∧ xs = ys := by
  induction hA generalizing ts' ys with
  | done =>
    cases hB with
    | done => exact ⟨rfl, rfl⟩
    | more ht _ _ =>
      rw [List.nil_append] at heq
      rw [heq] at hu
      have hnone := (hu _ rfl).2
      rw [ht] at hnone
      cases hnone
  | more ht hx hrest ih =>
    cases hB with
    | done =>
      rw [List.nil_append] at heq
      rw [← heq] at hu'
      have hnone := (hu' _ rfl).2
      rw [ht] at hnone
      cases hnone
    | more ht' hy hrest' =>
      simp only [List.cons_append, List.append_assoc, List.cons.injEq] at heq
      obtain ⟨rfl, heq⟩ := heq
      have hstop := hrest.next hcomma (hu.imp fun _ => And.left)
      have hstop' := hrest'.next hcomma (hu'.imp fun _ => And.left)
      obtain ⟨rfl, rfl⟩ := h hx hy heq hstop hstop'
      obtain ⟨rfl, rfl⟩ := ih hrest' (List.append_cancel_left heq)
      exact ⟨rfl, rfl⟩

theorem Items.agree (h : Agree A B stop) (hcomma : ∀ t, comma t = true → stop t) :
    Agree (Items comma A) (Items comma B) fun t => stop t ∧ comma t = false := by
  rintro _ _ us us' xs ys ⟨hx, hrest⟩ ⟨hy, hrest'⟩ heq hu hu'
  rw [List.append_assoc, List.append_assoc] at heq
  have hstop := hrest.next hcomma (hu.imp fun _ => And.left)
  have hstop' := hrest'.next hcomma (hu'.imp fun _ => And.left)
  obtain ⟨rfl, rfl⟩ := h hx hy heq hstop hstop'
  obtain ⟨rfl, rfl⟩ := hrest.agree h hcomma hrest' (List.append_cancel_left heq) hu hu'
  exact ⟨rfl, rfl⟩

/-- Optional items end where no item begins. -/
theorem OptItems.agree (h : Agree A B stop) (hcomma : ∀ t, comma t = true → stop t) {begins : τ → Prop}
    (hA : Heads begins A) (hB : Heads begins B) :
    Agree (OptItems comma A) (OptItems comma B) fun t => (stop t ∧ comma t = false) ∧ ¬ begins t := by
  intro ts ts' us us' xs ys hxs hys heq hu hu'
  cases hxs with
  | none =>
    cases hys with
    | none => exact ⟨rfl, rfl⟩
    | some hys =>
      obtain ⟨t, ws, rfl, ht⟩ := hB.items _ _ hys
      rw [List.nil_append] at heq
      rw [heq] at hu
      exact absurd ht (hu t rfl).2
  | some hxs =>
    cases hys with
    | none =>
      obtain ⟨t, ws, rfl, ht⟩ := hA.items _ _ hxs
      rw [List.nil_append] at heq
      rw [← heq] at hu'
      exact absurd ht (hu' t rfl).2
    | some hys => exact Items.agree h hcomma hxs hys heq (hu.imp fun _ => And.left) (hu'.imp fun _ => And.left)

end

end Offside.Grammar
