import Offside.Proofs.Grammar.Expression

/-!
# The trees of derivations

The grammar builds expressions in few ways: nothing is missing in its trees, no text stands in them raw, and
every operator exists. What holds of everything built that way holds of every expression that is derived
(`Derives.built`).
-/

namespace Offside.Grammar

open Offside.Expression Operators

/-- The property passes from expressions to whatever the grammar builds of them. -/
structure Built (P : Expr → Prop) : Prop where
  literal : ∀ kind text, P (.literal kind text)
  access : ∀ name, P (.access name false)
  enclosure : ∀ x, P x → P (.enclosure x)
  length : ∀ x, P x → P (.length x)
  list : ∀ xs, (∀ x ∈ xs, P x) → P (.list xs)
  call : ∀ name xs, (∀ x ∈ xs, P x) → P (.call name xs)
  unary : ∀ op x, op = .negate ∨ op = .not → P x → P (.unary op x)
  binary : ∀ op left right, (∀ code, op ≠ .other code) → P left → P right → P (.binary op left right)

section
variable {P : Expr → Prop} (hP : Built P)

include hP in
theorem built_foldLeft {ops : Operators} (hops : ∀ p ∈ ops, ∀ code, p.2 ≠ .other code)
    {X : Phrase Token Expr} (hX : ∀ ts e, X ts e → P e) (ts : List Token) (e : Expr)
    (h : FoldLeft ops.node? X ts e) : P e := by
  have hrest : ∀ {left e : Expr} {us : List Token}, FoldRest ops.node? X left us e → P left → P e := by
    intro left e us h
    induction h with
    | done => exact id
    | more ht hx _ ih =>
      intro hleft
      obtain ⟨o, ho, -⟩ := isOperator_of_node? ht
      exact ih (hP.binary _ _ _ (hops _ ho) hleft (hX _ _ hx))
  obtain ⟨hx, h⟩ := h
  exact hrest h (hX _ _ hx)

theorem built_moreItems {X : Phrase Token Expr} (hX : ∀ ts e, X ts e → P e) {comma : Token → Bool} {ts : List Token}
    {xs : List Expr} (h : MoreItems comma X ts xs) : ∀ x ∈ xs, P x := by
  induction h with
  | done => exact List.forall_mem_nil _
  | more _ hx _ ih => exact List.forall_mem_cons.2 ⟨hX _ _ hx, ih⟩

theorem built_items {X : Phrase Token Expr} (hX : ∀ ts e, X ts e → P e) {comma : Token → Bool} {ts : List Token}
    {xs : List Expr} (h : Items comma X ts xs) : ∀ x ∈ xs, P x := by
  obtain ⟨hx, hrest⟩ := h
  exact List.forall_mem_cons.2 ⟨hX _ _ hx, built_moreItems hX hrest⟩

theorem built_arguments {X : Phrase Token Expr} (hX : ∀ ts e, X ts e → P e) {ts : List Token} {xs : List Expr}
    (h : Arguments X ts xs) : ∀ x ∈ xs, P x := by
  cases h with
  | none => exact List.forall_mem_nil _
  | some h => exact built_items hX h

variable {sees : Text → Prop} {N : Nesting} (hN : ∀ s ts e, N s ts e → P e)

include hP hN

theorem built_primary {ts : List Token} {e : Expr} (h : Primary sees N ts e) : P e := by
  cases h with
  | number _ | string _ | true_ _ | false_ _ | none_ _ => exact hP.literal _ _
  | enclosure _ hx _ => exact hP.enclosure _ (hN _ _ _ hx)
  | list _ hx _ => exact hP.list _ (built_arguments (hN .expr) hx)
  | length _ _ hx _ => exact hP.length _ (hN _ _ _ hx)
  | name _ _ => exact hP.access _
  | call _ _ _ hx _ => exact hP.call _ _ (built_arguments (hN .expr) hx)

theorem built_power (ts : List Token) (e : Expr) (h : Power sees N ts e) : P e := by
  have hunary : ∀ {ts e}, Unary sees N ts e → P e := by
    intro ts e h
    cases h with
    | plain h => exact built_primary hP hN h
    | negate _ h => exact hP.unary _ _ (.inl rfl) (built_primary hP hN h)
  cases h with
  | plain h => exact hunary h
  | power h _ hx => exact hP.binary _ _ _ (by simp) (hunary h) (hN _ _ _ hx)

theorem built_negation (ts : List Token) (e : Expr) (h : Negation sees N ts e) : P e := by
  have hrest : ∀ {x e us}, NotsRest x us e → P x → P e := by
    intro x e us h
    induction h with
    | done => exact id
    | more _ _ ih => exact fun hx => ih (hP.unary _ _ (.inr rfl) hx)
  cases h with
  | before _ hx => exact hP.unary _ _ (.inr rfl) (hN _ _ _ hx)
  | behind hx h =>
    exact hrest h (built_foldLeft hP (by simp [cmpop]) (built_foldLeft hP (by simp [addop])
      (built_foldLeft hP (by simp [mulop]) (built_power hP hN))) _ _ hx)

end

/-- What passes to everything that the grammar builds holds of every expression that is derived. -/
theorem Derives.built {P : Expr → Prop} (hP : Built P) {sees : Text → Prop} (n : Nat) (s : Entry) (ts : List Token)
    (e : Expr) (h : Derives sees n s ts e) : P e := by
  induction n generalizing s ts e with
  | zero => exact h.elim
  | succ n ih =>
    cases s with
    | power => exact built_power hP ih ts e h
    | not => exact built_negation hP ih ts e h
    | expr =>
      exact built_foldLeft hP (by simp [orop]) (built_foldLeft hP (by simp [andop]) (built_negation hP ih)) ts e h

end Offside.Grammar
