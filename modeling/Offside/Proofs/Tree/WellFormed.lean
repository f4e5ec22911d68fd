import Offside.Proofs.Grammar.Trees
import Offside.Proofs.Lexer.Grammar
import Offside.Proofs.Lexer.Spelling
import Offside.Proofs.Parser.Program
import Offside.Proofs.Rendering.Pieces

/-!
# Well-formed trees

The trees of statements that lack nothing: every child that the language requires is there, every operator and
every type of literal exists, and the literals are spelled as the source language spells them. A conditional
begins with a condition and only its last clause can do without one, a row of at least two values is what a
function returns and stands nowhere else, and only a function returns. Main statement: the trees of compiled
programs are well formed (`compile_wellFormed`).
-/

namespace Offside

/-! ## Statements -/

/-- The value of a return, if it has one: an expression, or a row of at least two. -/
def Expr.WellReturned : Option Expr → Prop
  | none => True
  | some (.sequence items) => 2 ≤ items.length ∧ AreWellSpelled items
  | some x => x.WellSpelled

mutual

/-- The statement is well formed, inside of a function or outside of one. -/
def Stmt.WellFormed (inFunction : Bool) : Stmt → Prop
  | .expression x => x.WellSpelled
  | .assign _ value _ => value.WellSpelled
  | .ifChain clauses => Clause.AreWellFormed inFunction true clauses
  | .whileLoop test body => test.WellSpelled ∧ Stmt.AreWellFormed inFunction body
  | .forRange _ start stop step body _ =>
    (start.WellSpelled ∧ stop.WellSpelled ∧ step.WellSpelled) ∧ Stmt.AreWellFormed inFunction body
  | .define _ _ body _ => Stmt.AreWellFormed true body
  | .ret value => inFunction = true ∧ Expr.WellReturned value
  | .print args => Expr.AreWellSpelled args
  | .block _ => False

/-- The statements are well formed. -/
def Stmt.AreWellFormed (inFunction : Bool) : List Stmt → Prop
  | [] => True
  | s :: ss => s.WellFormed inFunction ∧ Stmt.AreWellFormed inFunction ss

/-- The clauses are well formed. There is a first one and it has a condition, and of the others only the last
can lack one. -/
def Clause.AreWellFormed (inFunction first : Bool) : List Clause → Prop
  | [] => first = false
  | .mk (some cond) body :: cs =>
    (cond.WellSpelled ∧ Stmt.AreWellFormed inFunction body) ∧ Clause.AreWellFormed inFunction false cs
  | .mk none body :: cs => (first = false ∧ cs = []) ∧ Stmt.AreWellFormed inFunction body

end

/-- The statements of the program are well formed, outside of functions. -/
def Program.WellFormed (p : Program) : Prop := Stmt.AreWellFormed false p.statements

/-! ## What tokens spell -/

namespace Grammar

open Offside.Expr Offside.Lexeme

/-- A symbol in a spelling that the source language has. -/
def Symbol.Spelled : Symbol → Prop
  | .literal kind text => literalSpelled kind text
  | .name text => isWord text = true
  | _ => True

section
variable {b : UInt8} {s : Text} {x : Lexeme}

/-- A keyword is spelled by its name. -/
theorem literal_of_keyword {k : Keyword} (h : first b s = .ok x) (hk : x.subtype = .keyword k) : x.literal = k.name := by
  cases spells_of_first h with
  | word _ =>
    simp only [word, classify] at hk ⊢
    split at hk
    · next k' hfind =>
      cases hk
      have hname := List.find?_some hfind
      exact (beq_iff_eq.1 hname).symm
    · split at hk <;> cases hk
  | number _ | string _ _ _ | bracket _ | delimiter _ | operator _ => cases hk

/-- A string lies on one line. -/
theorem string_in_line (h : first b s = .ok x) (hk : x.kind = .string) : ∀ c ∈ x.literal, isLineEnd c = false := by
  cases spells_of_first h with
  | string _ hbody _ =>
    intro c hc
    have hc := hbody c hc
    simp only [Bool.and_eq_true, Bool.not_eq_true'] at hc
    exact hc.2
  | word _ =>
    simp only [word, classify] at hk
    split at hk
    · cases hk
    · split at hk <;> cases hk
  | number _ | bracket _ | delimiter _ | operator _ => cases hk

end

/-- What is read from a source is spelled as the language spells it. -/
theorem spelled_of_read {t : Token} (h : Read t) {y : Symbol} (hy : symbol? t = some y) : y.Spelled := by
  obtain ⟨b, s, x, hx, hkind, hsubtype, hliteral⟩ := h
  unfold symbol? at hy
  rw [hkind, hsubtype, hliteral] at hy
  split at hy
  · next hk =>
    cases hy
    exact ⟨b, s, x, hx, hk, rfl⟩
  · next hk =>
    cases hy
    exact string_in_line hx hk
  · next hk =>
    cases hy
    exact (emits_identifier ⟨b, s, x, hx, hk, rfl⟩).1
  · next hk =>
    cases hy
    exact .inl (literal_of_keyword hx hk)
  · next hk =>
    cases hy
    exact .inr (literal_of_keyword hx hk)
  · next hk =>
    cases hy
    exact literal_of_keyword hx hk
  · cases hy
    trivial
  · cases hy
    trivial
  · cases hy
    trivial
  · obtain ⟨op, -, rfl⟩ := Option.map_eq_some_iff.1 hy
    trivial
  · cases hy

/-! ## Expressions -/

theorem areWellSpelled_iff {xs : List Expr} : AreWellSpelled xs ↔ ∀ x ∈ xs, x.WellSpelled := by
  induction xs with
  | nil => simp [AreWellSpelled]
  | cons x xs ih => simp [AreWellSpelled, ih]

theorem symbols_subset_more {x : Expr} {xs : List Expr} (h : x ∈ xs) : x.symbols ⊆ symbolsMore xs := by
  induction xs with
  | nil => cases h
  | cons z xs ih =>
    rw [symbolsMore]
    rcases List.mem_cons.1 h with rfl | h
    · exact List.subset_cons_of_subset _ (List.subset_append_left _ _)
    · exact List.subset_cons_of_subset _ (List.subset_append_of_subset_right _ (ih h))

theorem symbols_subset_all {x : Expr} {xs : List Expr} (h : x ∈ xs) : x.symbols ⊆ symbolsAll xs := by
  cases xs with
  | nil => cases h
  | cons z xs =>
    rw [symbolsAll]
    rcases List.mem_cons.1 h with rfl | h
    · exact List.subset_append_left _ _
    · exact List.subset_append_of_subset_right _ (symbols_subset_more h)

/-- The symbols of the expression are spelled as the source language spells them. -/
def SymbolsSpelled (x : Expr) : Prop := ∀ y ∈ x.symbols, y.Spelled

theorem SymbolsSpelled.mono {x z : Expr} (h : SymbolsSpelled z) (hx : x.symbols ⊆ z.symbols) : SymbolsSpelled x :=
  fun y hy => h y (hx hy)

/-- The grammar builds well-spelled expressions of symbols that are well spelled. -/
theorem built_wellSpelled : Built fun x => SymbolsSpelled x → x.WellSpelled where
  literal kind text := by
    intro h
    rw [WellSpelled]
    exact h (.literal kind text) (by simp [symbols])
  access name := by
    intro h
    rw [WellSpelled]
    exact ⟨h (.name name) (by simp [symbols]), rfl⟩
  enclosure x hx := by
    intro h
    rw [WellSpelled]
    exact hx (h.mono (by simp [symbols]))
  length x hx := by
    intro h
    rw [WellSpelled]
    refine hx (h.mono ?_)
    rw [symbols]
    exact List.subset_cons_of_subset _ (List.subset_cons_of_subset _ (List.subset_append_left _ _))
  list xs hxs := by
    intro h
    rw [WellSpelled, areWellSpelled_iff]
    intro x hx
    refine hxs x hx (h.mono ?_)
    rw [symbols]
    exact List.subset_cons_of_subset _ (List.subset_append_of_subset_left _ (symbols_subset_all hx))
  call name xs hxs := by
    intro h
    rw [WellSpelled, areWellSpelled_iff]
    refine ⟨h (.name name) (by simp [symbols]), fun x hx => hxs x hx (h.mono ?_)⟩
    rw [symbols]
    exact List.subset_cons_of_subset _ (List.subset_cons_of_subset _
      (List.subset_append_of_subset_left _ (symbols_subset_all hx)))
  unary op x hop hx := by
    intro h
    rw [WellSpelled]
    refine ⟨hop, hx (h.mono ?_)⟩
    rcases hop with rfl | rfl <;> simp [symbols]
  binary op left right hop hleft hright := by
    intro h
    have hsymbol : op.symbol?.isSome = true := by
      cases op with
      | other code => exact absurd rfl (hop code)
      | _ => rfl
    rw [WellSpelled]
    exact ⟨hsymbol, hleft (h.mono (by simp [symbols])), hright (h.mono (by simp [symbols]))⟩

/-- The start and the step of a range that the source leaves out. -/
theorem wellSpelled_defaults : (Expr.ofInt 0).WellSpelled ∧ (Expr.ofInt 1).WellSpelled := by
  simp only [Expr.ofInt, WellSpelled]
  exact ⟨⟨48, [], _, rfl, rfl, by decide +kernel⟩, ⟨49, [], _, rfl, rfl, by decide +kernel⟩⟩

/-- The content among the tokens is read from a source. -/
def AllRead (ts : List Token) : Prop := ∀ t ∈ ts, t.kind.isStructural = false → Read t

theorem allRead_append {ts us : List Token} : AllRead (ts ++ us) ↔ AllRead ts ∧ AllRead us := List.forall_mem_append

theorem allRead_cons {t : Token} {ts : List Token} :
    AllRead (t :: ts) ↔ (t.kind.isStructural = false → Read t) ∧ AllRead ts := List.forall_mem_cons

/-- Expressions that are derived from a source are well spelled. -/
theorem wellSpelled_of_derives {n : Nat} {ts : List Token} {x : Expr} (h : DerivesExpr n ts x) (hts : AllRead ts) :
    x.WellSpelled := by
  refine Derives.built built_wellSpelled n .expr ts x h fun y hy => ?_
  have hmem : some y ∈ (ts.filter fun t => !t.isOperator .not).map symbol? := by
    rw [(Derives.keeps h).1]
    exact List.mem_map_of_mem hy
  obtain ⟨t, ht, hty⟩ := List.mem_map.1 hmem
  have ht : t ∈ ts := (List.mem_filter.1 ht).1
  exact spelled_of_read (hts t ht (Derives.content h t ht)) hty

/-! ## Derived statements -/

open Offside.Resolution Offside.Statement

/-- The expressions of the phrase are well spelled if they are read from a source. -/
def ExprsSpelled (E : Phrase Token Expr) : Prop := ∀ {ts x}, E ts x → AllRead ts → x.WellSpelled

/-- The blocks of the phrase are well formed if they are read from a source and their names resolve. -/
def BlocksFormed (B : Phrase Token (List Stmt)) : Prop :=
  ∀ {ts body p f f'}, B ts body → AllRead ts → Stmt.resolveAll p f body = some f' →
    Stmt.AreWellFormed p.inFunction body

section
variable {E : Phrase Token Expr} {B : Phrase Token (List Stmt)} {ts : List Token} {p : Place} {f f' : Frame}
  (hE : ExprsSpelled E) (hB : BlocksFormed B)

include hE

theorem wellSpelled_moreItems {xs : List Expr} (h : MoreItems isComma E ts xs) (hts : AllRead ts) :
    ∀ x ∈ xs, x.WellSpelled := by
  induction h with
  | done => exact List.forall_mem_nil _
  | more _ hx _ ih =>
    obtain ⟨hts, hus⟩ := allRead_append.1 (allRead_cons.1 hts).2
    exact List.forall_mem_cons.2 ⟨hE hx hts, ih hus⟩

theorem wellSpelled_items {xs : List Expr} (h : Items isComma E ts xs) (hts : AllRead ts) :
    ∀ x ∈ xs, x.WellSpelled := by
  obtain ⟨hx, hrest⟩ := h
  obtain ⟨hts, hus⟩ := allRead_append.1 hts
  exact List.forall_mem_cons.2 ⟨hE hx hts, wellSpelled_moreItems hE hrest hus⟩

omit hE in
theorem wellReturned_of_wellSpelled {x : Expr} (h : x.WellSpelled) : WellReturned (some x) := by
  cases x with
  | sequence items => cases (by rwa [WellSpelled] at h : False)
  | _ => exact h

theorem wellReturned_of_items {xs : List Expr} (h : Items isComma E ts xs) (hts : AllRead ts) :
    WellReturned (some (sequenceOf xs)) := by
  have hxs := wellSpelled_items hE h hts
  obtain ⟨hx, hrest⟩ := h
  cases hrest with
  | done => exact wellReturned_of_wellSpelled (hxs _ List.mem_cons_self)
  | more =>
    refine ⟨?_, areWellSpelled_iff.2 hxs⟩
    simp only [List.length_cons]
    omega

theorem wellFormed_simple {s : Stmt} (h : Simple E ts s) (hts : AllRead ts) (hs : s.resolve p f = some f') :
    s.WellFormed p.inFunction := by
  cases h with
  | ret _ =>
    rw [Stmt.WellFormed]
    exact ⟨(resolve_ret.1 hs).1, trivial⟩
  | values _ hx =>
    rw [Stmt.WellFormed]
    exact ⟨(resolve_ret.1 hs).1, wellReturned_of_items hE hx (allRead_cons.1 hts).2⟩
  | print _ _ hx _ =>
    rw [Stmt.WellFormed, areWellSpelled_iff]
    have hargs := (allRead_append.1 (allRead_cons.1 (allRead_cons.1 hts).2).2).1
    cases hx with
    | none => exact List.forall_mem_nil _
    | some hx => exact wellSpelled_items hE hx hargs
  | assign _ _ hx =>
    rw [Stmt.WellFormed]
    exact hE hx (allRead_cons.1 (allRead_cons.1 hts).2).2
  | expression hx =>
    rw [Stmt.WellFormed]
    exact hE hx hts

include hB

/-- Behind the first clause of a conditional, by induction on the clauses. -/
theorem wellFormed_elifs {cs : List Clause} (h : Elifs E B ts cs) (hts : AllRead ts)
    (hs : Clause.resolveAll p f cs = some f') : Clause.AreWellFormed p.inFunction false cs := by
  induction h generalizing f with
  | done =>
    rw [Clause.AreWellFormed]
  | elif _ hx hb _ ih =>
    obtain ⟨hcond, hrest⟩ := allRead_append.1 (allRead_cons.1 hts).2
    obtain ⟨hbody, hrest⟩ := allRead_append.1 hrest
    obtain ⟨-, g, hg, hs⟩ := resolveAll_clause.1 hs
    rw [Clause.AreWellFormed]
    exact ⟨⟨hE hx hcond, hB hb hbody hg⟩, ih hrest hs⟩
  | last _ hb =>
    obtain ⟨-, g, hg, -⟩ := resolveAll_clause.1 hs
    rw [Clause.AreWellFormed]
    exact ⟨⟨rfl, rfl⟩, hB hb (allRead_cons.1 hts).2 hg⟩

theorem wellFormed_compound {s : Stmt} (h : Compound E B ts s) (hts : AllRead ts) (hs : s.resolve p f = some f') :
    s.WellFormed p.inFunction := by
  cases h with
  | ifChain _ hx hb hrest =>
    obtain ⟨hcond, hread⟩ := allRead_append.1 (allRead_cons.1 hts).2
    obtain ⟨hbody, hread⟩ := allRead_append.1 hread
    obtain ⟨-, g, hg, hs⟩ := resolveAll_clause.1 (resolve_ifChain.1 hs).2
    rw [Stmt.WellFormed, Clause.AreWellFormed]
    exact ⟨⟨hE hx hcond, hB hb hbody hg⟩, wellFormed_elifs hE hB hrest hread hs⟩
  | forRange _ _ _ _ _ hx hargs _ hb =>
    simp only [allRead_cons, allRead_append] at hts
    obtain ⟨-, -, -, -, -, hread, -, hbody⟩ := hts
    obtain ⟨-, -, -, hscope, -⟩ := resolve_forRange.1 hs
    obtain ⟨hzero, hone⟩ := wellSpelled_defaults
    have hformed := hB hb hbody hscope
    rw [Stmt.WellFormed]
    exact ⟨forall_rangeOf hargs (wellSpelled_items hE hx hread) hzero hone, hformed⟩
  | whileLoop _ hx hb =>
    obtain ⟨hcond, hbody⟩ := allRead_append.1 (allRead_cons.1 hts).2
    rw [Stmt.WellFormed]
    exact ⟨hE hx hcond, hB hb hbody (resolve_whileLoop.1 hs).2.2⟩
  | define _ _ _ _ _ hb =>
    simp only [allRead_cons, allRead_append] at hts
    obtain ⟨-, -, -, -, -, hbody⟩ := hts
    obtain ⟨-, -, -, hscope⟩ := resolve_define.1 hs
    rw [Stmt.WellFormed]
    exact hB hb hbody hscope

theorem wellFormed_statements {ss : List Stmt} (h : Statements (AnyStatement E B) ts ss) (hts : AllRead ts)
    (hs : Stmt.resolveAll p f ss = some f') : Stmt.AreWellFormed p.inFunction ss := by
  induction h generalizing f with
  | done =>
    rw [Stmt.AreWellFormed]
    trivial
  | more h _ ih =>
    obtain ⟨hts, hus⟩ := allRead_append.1 hts
    obtain ⟨g, hg, hs⟩ := resolveAll_cons.1 hs
    rw [Stmt.AreWellFormed]
    refine ⟨?_, ih hus hs⟩
    cases h with
    | simple h _ => exact wellFormed_simple hE h (allRead_append.1 hts).1 hg
    | compound h => exact wellFormed_compound hE hB h hts hg

end

theorem exprsSpelled (n : Nat) : ExprsSpelled (DerivesExpr n) := wellSpelled_of_derives

/-- By induction on how deep the blocks may nest. -/
theorem blocksFormed (n : Nat) : BlocksFormed (DerivesBlock n) := by
  induction n with
  | zero =>
    intro ts body p f f' h
    cases h
  | succ n ih =>
    rintro _ body p f f' ⟨_, _, _, hx, _, _⟩ hts hs
    simp only [allRead_cons, allRead_append] at hts
    exact wellFormed_statements (exprsSpelled n) ih hx hts.2.2.2.1 hs

end Grammar

namespace Compile

open Offside.Grammar Offside.Statement

/-- The trees of compiled programs are well formed. -/
theorem compile_wellFormed {o : Options} {source : Text} {out : Output} (h : compile o source = .ok out) :
    out.program.WellFormed := by
  obtain ⟨-, hprogram, hs⟩ := compile_iff_resolves.1 ⟨out, h, rfl⟩
  have hread : AllRead (tokenize source o.tabWidth).tokens := Scanner.run_read _
  generalize (tokenize source o.tabWidth).tokens = ts at hprogram hread
  cases hprogram with
  | mk hstatements _ =>
    exact wellFormed_statements (exprsSpelled o.maxDepth) (blocksFormed o.maxDepth) hstatements
      (allRead_append.1 hread).1 hs

end Compile

end Offside
