import Offside.Proofs.Lexer.Grammar
import Offside.Proofs.Lexer.Lexeme
import Offside.Proofs.Rules

/-!
# Declared names are words

Every name that a statement declares, its target, its loop variable, its own name or a parameter, is spelled by an
identifier among the tokens that the statement derives from. Main statement: the names that the statements of a
compiled program declare, at any depth, are words (`compile_bound`).
-/

namespace Offside

open Offside.Resolution

namespace Grammar

/-- The identifiers among tokens. -/
def identifiers (ts : List Token) : List Text := (ts.filter fun t => t.kind = .identifier).map Token.literal

theorem mem_identifiers {ts : List Token} {x : Text} :
    x ∈ identifiers ts ↔ ∃ t ∈ ts, t.kind = .identifier ∧ t.literal = x := by
  simp [identifiers, and_assoc]

theorem identifiers_mono {ts us : List Token} (h : ts ⊆ us) : identifiers ts ⊆ identifiers us := by
  intro x hx
  obtain ⟨t, ht, hx⟩ := mem_identifiers.1 hx
  exact mem_identifiers.2 ⟨t, h ht, hx⟩

theorem bound_cons (s : Stmt) (ss : List Stmt) : bound (s :: ss) = s.binders ++ bound ss := List.flatMap_cons

theorem bound_append (ss ss' : List Stmt) : bound (ss ++ ss') = bound ss ++ bound ss' := List.flatMap_append

/-- The tokens of the phrase spell the names that the statements of its blocks declare. -/
def BindsTokens (B : Phrase Token (List Stmt)) : Prop := ∀ ts body, B ts body → bound (Stmt.nodes body) ⊆ identifiers ts

section
variable {E : Phrase Token Expr} {B : Phrase Token (List Stmt)} {ts us : List Token}

/-- A block that is part of a phrase. -/
theorem BindsTokens.among (hB : BindsTokens B) {body : List Stmt} (h : B us body) (hts : us ⊆ ts) :
    bound (Stmt.nodes body) ⊆ identifiers ts :=
  List.Subset.trans (hB _ _ h) (identifiers_mono hts)

theorem parameters_subset {params : List Text} (h : OptItems isComma Name ts params) : params ⊆ identifiers ts := by
  have hmore : ∀ {ts params}, MoreItems isComma Name ts params → params ⊆ identifiers ts := by
    intro ts params h
    induction h with
    | done => exact List.nil_subset _
    | more _ hx _ ih =>
      obtain ⟨hk⟩ := hx
      refine List.cons_subset.2 ⟨mem_identifiers.2 ⟨_, by simp, hk, rfl⟩, List.Subset.trans ih (identifiers_mono ?_)⟩
      exact List.subset_cons_of_subset _ (List.subset_append_right _ _)
  cases h with
  | none => exact List.nil_subset _
  | some h =>
    obtain ⟨⟨hk⟩, hrest⟩ := h
    refine List.cons_subset.2 ⟨mem_identifiers.2 ⟨_, by simp, hk, rfl⟩, ?_⟩
    exact List.Subset.trans (hmore hrest) (identifiers_mono (List.subset_append_right _ _))

theorem bound_simple {s : Stmt} (h : Simple E ts s) : bound (s :: s.inside) ⊆ identifiers ts := by
  cases h with
  | ret _ | values _ _ | print _ _ _ _ | expression _ => exact List.nil_subset _
  | assign ht _ _ => exact List.cons_subset.2 ⟨mem_identifiers.2 ⟨_, by simp, ht, rfl⟩, List.nil_subset _⟩

theorem bound_elifs (hB : BindsTokens B) {cs : List Clause} (h : Elifs E B ts cs) :
    bound (Clause.nodes cs) ⊆ identifiers ts := by
  induction h with
  | done => exact List.nil_subset _
  | elif _ _ hb _ ih =>
    rw [Clause.nodes, bound_append]
    refine List.append_subset.2 ⟨hB.among hb ?_, List.Subset.trans ih (identifiers_mono ?_)⟩
    · intro t ht
      simp [ht]
    · intro t ht
      simp [ht]
  | last _ hb =>
    rw [Clause.nodes, Clause.nodes, List.append_nil]
    exact hB.among hb (List.subset_cons_self _ _)

theorem bound_compound (hB : BindsTokens B) {s : Stmt} (h : Compound E B ts s) :
    bound (s :: s.inside) ⊆ identifiers ts := by
  rw [bound_cons]
  cases h with
  | ifChain _ _ hb hrest =>
    refine List.append_subset.2 ⟨List.nil_subset _, ?_⟩
    rw [Stmt.inside, Clause.nodes, bound_append]
    refine List.append_subset.2 ⟨hB.among hb ?_, List.Subset.trans (bound_elifs hB hrest) (identifiers_mono ?_)⟩
    · intro t ht
      simp [ht]
    · intro t ht
      simp [ht]
  | forRange _ hn _ _ _ _ _ _ hb =>
    refine List.append_subset.2 ⟨?_, hB.among hb fun t ht => by simp [ht]⟩
    exact List.cons_subset.2 ⟨mem_identifiers.2 ⟨_, by simp, hn, rfl⟩, List.nil_subset _⟩
  | whileLoop _ _ hb =>
    refine List.append_subset.2 ⟨List.nil_subset _, hB.among hb fun t ht => by simp [ht]⟩
  | define _ hn _ hx _ hb =>
    refine List.append_subset.2 ⟨?_, hB.among hb fun t ht => by simp [ht]⟩
    refine List.cons_subset.2 ⟨mem_identifiers.2 ⟨_, by simp, hn, rfl⟩, ?_⟩
    refine List.Subset.trans (parameters_subset hx) (identifiers_mono fun t ht => ?_)
    simp [ht]

theorem bound_statements (hB : BindsTokens B) {ss : List Stmt} (h : Statements (AnyStatement E B) ts ss) :
    bound (Stmt.nodes ss) ⊆ identifiers ts := by
  induction h with
  | done => exact List.nil_subset _
  | more h _ ih =>
    rw [Stmt.nodes, bound_append]
    refine List.append_subset.2 ⟨?_, List.Subset.trans ih (identifiers_mono (List.subset_append_right _ _))⟩
    refine List.Subset.trans ?_ (identifiers_mono (List.subset_append_left _ _))
    cases h with
    | simple h _ => exact List.Subset.trans (bound_simple h) (identifiers_mono (List.subset_append_left _ _))
    | compound h => exact bound_compound hB h

end

/-- By induction on how deep the blocks may nest. -/
theorem bindsTokens_block (n : Nat) : BindsTokens (DerivesBlock n) := by
  induction n with
  | zero =>
    intro ts body h
    cases h
  | succ n ih =>
    rintro _ body ⟨_, _, _, hx, _, _⟩
    refine List.Subset.trans (bound_statements ih hx) (identifiers_mono fun t ht => ?_)
    simp [ht]

end Grammar

namespace Compile

open Offside.Grammar

/-- The names that the statements of a compiled program declare are words. -/
theorem compile_bound {o : Options} {source : Text} {out : Output} (h : compile o source = .ok out) :
    ∀ x ∈ bound (Stmt.nodes out.program.statements), Lexeme.isWord x = true := by
  obtain ⟨-, hprogram, -⟩ := compile_iff_resolves.1 ⟨out, h, rfl⟩
  have hread : ∀ t ∈ (tokenize source o.tabWidth).tokens, t.kind.isStructural = false → Lexeme.Read t :=
    Scanner.run_read _
  generalize (tokenize source o.tabWidth).tokens = ts at hprogram hread
  obtain ⟨hss, -⟩ := hprogram
  intro x hx
  obtain ⟨t, ht, hk, rfl⟩ := mem_identifiers.1 (bound_statements (bindsTokens_block o.maxDepth) hss hx)
  obtain ⟨b, s, l, hl, hkind, -, hliteral⟩ := hread t (List.mem_append_left _ ht) (by rw [hk]; rfl)
  exact (Lexeme.emits_identifier ⟨b, s, l, hl, hkind ▸ hk, hliteral.symm⟩).1

end Compile

end Offside
