import Offside.Tree.Basic

/-!
# Repetition in grammars

Phrases of a grammar as relations between tokens and what the tokens stand for. The grammars of this
library repeat phrases in two ways only: `X (op X)*`, where the operators of one level fold their
operands to the left (`FoldLeft`), and `X (',' X)*` (`Items`). Both hold for tokens of any type.
-/

namespace Offside.Grammar

/-- The tokens of a phrase and what they stand for. -/
abbrev Phrase (τ α : Type) := List τ → α → Prop

section
variable {τ α : Type}

/-- `(op X)*` behind `left`, folded to the left. -/
inductive FoldRest (op? : τ → Option BinaryOp) (X : Phrase τ Expr) : Expr → List τ → Expr → Prop
  | done (left : Expr) : FoldRest op? X left [] left
  | more {left right e : Expr} {t : τ} {op : BinaryOp} {ts us : List τ} (ht : op? t = some op)
      (hx : X ts right) (hrest : FoldRest op? X (.binary op left right) us e) :
      FoldRest op? X left (t :: (ts ++ us)) e

/-- `X (op X)*`, folded to the left. -/
inductive FoldLeft (op? : τ → Option BinaryOp) (X : Phrase τ Expr) : Phrase τ Expr
  | mk {left e : Expr} {ts us : List τ} (hx : X ts left) (hrest : FoldRest op? X left us e) :
      FoldLeft op? X (ts ++ us) e

/-- `(',' X)*`. -/
inductive MoreItems (comma : τ → Bool) (X : Phrase τ α) : Phrase τ (List α)
  | done : MoreItems comma X [] []
  | more {t : τ} {ts us : List τ} {x : α} {xs : List α} (ht : comma t = true) (hx : X ts x)
      (hrest : MoreItems comma X us xs) : MoreItems comma X (t :: (ts ++ us)) (x :: xs)

/-- `X (',' X)*`. -/
inductive Items (comma : τ → Bool) (X : Phrase τ α) : Phrase τ (List α)
  | mk {ts us : List τ} {x : α} {xs : List α} (hx : X ts x) (hrest : MoreItems comma X us xs) :
      Items comma X (ts ++ us) (x :: xs)

/-- `[X (',' X)*]`. -/
inductive OptItems (comma : τ → Bool) (X : Phrase τ α) : Phrase τ (List α)
  | none : OptItems comma X [] []
  | some {ts : List τ} {xs : List α} (h : Items comma X ts xs) : OptItems comma X ts xs

/-! ## Building folds from the left -/

variable {op? : τ → Option BinaryOp} {X Y : Phrase τ Expr}

theorem FoldLeft.single {ts : List τ} {e : Expr} (h : X ts e) : FoldLeft op? X ts e := by
  have hdone : FoldRest op? X e [] e := .done e
  simpa using FoldLeft.mk h hdone

theorem FoldRest.snoc {left l r : Expr} {ts us : List τ} {t : τ} {op : BinaryOp}
    (hl : FoldRest op? X left ts l) (ht : op? t = some op) (hr : X us r) :
    FoldRest op? X left (ts ++ t :: us) (.binary op l r) := by
  induction hl with
  | done left =>
    have := FoldRest.more ht hr (FoldRest.done (.binary op left r))
    rwa [List.append_nil] at this
  | more ht' hx' _ ih => simpa using FoldRest.more ht' hx' ih

theorem FoldLeft.snoc {l r : Expr} {ts us : List τ} {t : τ} {op : BinaryOp}
    (hl : FoldLeft op? X ts l) (ht : op? t = some op) (hr : X us r) :
    FoldLeft op? X (ts ++ t :: us) (.binary op l r) := by
  obtain ⟨hx, hrest⟩ := hl
  rw [List.append_assoc]
  exact ⟨hx, hrest.snoc ht hr⟩

/-! ## What repetition keeps -/

theorem FoldRest.imp {left e : Expr} {ts : List τ} (h : FoldRest op? X left ts e)
    (hXY : ∀ ts e, X ts e → Y ts e) : FoldRest op? Y left ts e := by
  induction h with
  | done left => exact .done left
  | more ht hx _ ih => exact .more ht (hXY _ _ hx) ih

theorem FoldLeft.imp {ts : List τ} {e : Expr} (h : FoldLeft op? X ts e)
    (hXY : ∀ ts e, X ts e → Y ts e) : FoldLeft op? Y ts e := by
  obtain ⟨hx, hrest⟩ := h
  exact ⟨hXY _ _ hx, hrest.imp hXY⟩

theorem MoreItems.imp {comma : τ → Bool} {A B : Phrase τ α} {ts : List τ} {xs : List α}
    (h : MoreItems comma A ts xs) (hAB : ∀ ts x, A ts x → B ts x) : MoreItems comma B ts xs := by
  induction h with
  | done => exact .done
  | more ht hx _ ih => exact .more ht (hAB _ _ hx) ih

theorem Items.imp {comma : τ → Bool} {A B : Phrase τ α} {ts : List τ} {xs : List α}
    (h : Items comma A ts xs) (hAB : ∀ ts x, A ts x → B ts x) : Items comma B ts xs := by
  obtain ⟨hx, hrest⟩ := h
  exact ⟨hAB _ _ hx, hrest.imp hAB⟩

theorem OptItems.imp {comma : τ → Bool} {A B : Phrase τ α} {ts : List τ} {xs : List α}
    (h : OptItems comma A ts xs) (hAB : ∀ ts x, A ts x → B ts x) : OptItems comma B ts xs := by
  cases h with
  | none => exact .none
  | some h => exact .some (h.imp hAB)

/-- A phrase whose tokens all satisfy `Q`. -/
def Only (Q : τ → Prop) (A : Phrase τ α) : Phrase τ α := fun ts x => A ts x ∧ ∀ t ∈ ts, Q t

section
variable {Q : τ → Prop} {comma : τ → Bool} {A : Phrase τ α}

theorem FoldRest.only_iff (hop : ∀ t op, op? t = some op → Q t) {left e : Expr} {ts : List τ} :
    FoldRest op? (Only Q X) left ts e ↔ FoldRest op? X left ts e ∧ ∀ t ∈ ts, Q t := by
  constructor
  · intro h
    induction h with
    | done left => exact ⟨.done left, by simp⟩
    | more ht hx _ ih =>
      refine ⟨.more ht hx.1 ih.1, ?_⟩
      simp only [List.mem_cons, List.mem_append]
      rintro u (rfl | hu | hu)
      · exact hop _ _ ht
      · exact hx.2 u hu
      · exact ih.2 u hu
  · rintro ⟨h, hQ⟩
    induction h with
    | done left => exact .done left
    | more ht hx _ ih =>
      simp only [List.mem_cons, List.mem_append] at hQ
      exact .more ht ⟨hx, fun u hu => hQ u (.inr (.inl hu))⟩ (ih fun u hu => hQ u (.inr (.inr hu)))

theorem FoldLeft.only_iff (hop : ∀ t op, op? t = some op → Q t) {ts : List τ} {e : Expr} :
    FoldLeft op? (Only Q X) ts e ↔ FoldLeft op? X ts e ∧ ∀ t ∈ ts, Q t := by
  constructor
  · rintro ⟨hx, hrest⟩
    obtain ⟨hrest, hQ⟩ := (FoldRest.only_iff hop).1 hrest
    exact ⟨⟨hx.1, hrest⟩, fun u hu => (List.mem_append.1 hu).elim (hx.2 u) (hQ u)⟩
  · rintro ⟨⟨hx, hrest⟩, hQ⟩
    have hQ' := fun u hu => hQ u (List.mem_append.2 hu)
    exact ⟨⟨hx, fun u hu => hQ' u (.inl hu)⟩, (FoldRest.only_iff hop).2 ⟨hrest, fun u hu => hQ' u (.inr hu)⟩⟩

theorem FoldLeft.only (hop : ∀ t op, op? t = some op → Q t) :
    FoldLeft op? (Only Q X) = Only Q (FoldLeft op? X) := by
  funext ts e
  exact propext (FoldLeft.only_iff hop)

theorem MoreItems.only_iff (hc : ∀ t, comma t = true → Q t) {ts : List τ} {xs : List α} :
    MoreItems comma (Only Q A) ts xs ↔ MoreItems comma A ts xs ∧ ∀ t ∈ ts, Q t := by
  constructor
  · intro h
    induction h with
    | done => exact ⟨.done, by simp⟩
    | more ht hx _ ih =>
      refine ⟨.more ht hx.1 ih.1, ?_⟩
      simp only [List.mem_cons, List.mem_append]
      rintro u (rfl | hu | hu)
      · exact hc _ ht
      · exact hx.2 u hu
      · exact ih.2 u hu
  · rintro ⟨h, hQ⟩
    induction h with
    | done => exact .done
    | more ht hx _ ih =>
      simp only [List.mem_cons, List.mem_append] at hQ
      exact .more ht ⟨hx, fun u hu => hQ u (.inr (.inl hu))⟩ (ih fun u hu => hQ u (.inr (.inr hu)))

theorem Items.only_iff (hc : ∀ t, comma t = true → Q t) {ts : List τ} {xs : List α} :
    Items comma (Only Q A) ts xs ↔ Items comma A ts xs ∧ ∀ t ∈ ts, Q t := by
  constructor
  · rintro ⟨hx, hrest⟩
    obtain ⟨hrest, hQ⟩ := (MoreItems.only_iff hc).1 hrest
    exact ⟨⟨hx.1, hrest⟩, fun u hu => (List.mem_append.1 hu).elim (hx.2 u) (hQ u)⟩
  · rintro ⟨⟨hx, hrest⟩, hQ⟩
    have hQ' := fun u hu => hQ u (List.mem_append.2 hu)
    exact ⟨⟨hx, fun u hu => hQ' u (.inl hu)⟩, (MoreItems.only_iff hc).2 ⟨hrest, fun u hu => hQ' u (.inr hu)⟩⟩

theorem OptItems.only_iff (hc : ∀ t, comma t = true → Q t) {ts : List τ} {xs : List α} :
    OptItems comma (Only Q A) ts xs ↔ OptItems comma A ts xs ∧ ∀ t ∈ ts, Q t := by
  constructor
  · rintro (_ | h)
    · exact ⟨.none, by simp⟩
    · obtain ⟨h, hQ⟩ := (Items.only_iff hc).1 h
      exact ⟨.some h, hQ⟩
  · rintro ⟨_ | h, hQ⟩
    · exact .none
    · exact .some ((Items.only_iff hc).2 ⟨h, hQ⟩)

theorem OptItems.only (hc : ∀ t, comma t = true → Q t) :
    OptItems comma (Only Q A) = Only Q (OptItems comma A) := by
  funext ts xs
  exact propext (OptItems.only_iff hc)

end

/-! ## Conditions on what the tokens stand for -/

section
variable {comma : τ → Bool} {A : Phrase τ α} {Q : α → Prop}

theorem MoreItems.such_iff {ts : List τ} {xs : List α} :
    MoreItems comma (fun ts x => A ts x ∧ Q x) ts xs ↔ MoreItems comma A ts xs ∧ ∀ x ∈ xs, Q x := by
  constructor
  · intro h
    induction h with
    | done => exact ⟨.done, by simp⟩
    | more ht hx _ ih => exact ⟨.more ht hx.1 ih.1, List.forall_mem_cons.2 ⟨hx.2, ih.2⟩⟩
  · rintro ⟨h, hQ⟩
    induction h with
    | done => exact .done
    | more ht hx _ ih =>
      obtain ⟨hx', hQ⟩ := List.forall_mem_cons.1 hQ
      exact .more ht ⟨hx, hx'⟩ (ih hQ)

theorem Items.such_iff {ts : List τ} {xs : List α} :
    Items comma (fun ts x => A ts x ∧ Q x) ts xs ↔ Items comma A ts xs ∧ ∀ x ∈ xs, Q x := by
  constructor
  · rintro ⟨hx, hrest⟩
    obtain ⟨hrest, hQ⟩ := MoreItems.such_iff.1 hrest
    exact ⟨⟨hx.1, hrest⟩, List.forall_mem_cons.2 ⟨hx.2, hQ⟩⟩
  · rintro ⟨⟨hx, hrest⟩, hQ⟩
    obtain ⟨hx', hQ⟩ := List.forall_mem_cons.1 hQ
    exact ⟨⟨hx, hx'⟩, MoreItems.such_iff.2 ⟨hrest, hQ⟩⟩

end

/-- The first token of a phrase satisfies `P`. -/
def Heads (P : τ → Prop) (A : Phrase τ α) : Prop := ∀ ts x, A ts x → ∃ t us, ts = t :: us ∧ P t

theorem Heads.foldLeft {P : τ → Prop} (h : Heads P X) : Heads P (FoldLeft op? X) := by
  rintro _ e ⟨hx, -⟩
  obtain ⟨t, us, rfl, ht⟩ := h _ _ hx
  exact ⟨t, _, rfl, ht⟩

theorem Heads.items {P : τ → Prop} {comma : τ → Bool} {A : Phrase τ α} (h : Heads P A) :
    Heads P (Items comma A) := by
  rintro _ xs ⟨hx, -⟩
  obtain ⟨t, us, rfl, ht⟩ := h _ _ hx
  exact ⟨t, _, rfl, ht⟩

end

end Offside.Grammar
