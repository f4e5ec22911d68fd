import Offside.Proofs.Parser.Program

/-!
# Rules filter programs

Rules turn constructs off and forbid names to be declared. Each is checked where the parser meets the
construct or declares the name, and a name that its scope has already is not checked again. Main statement:
the programs compiled under rules are those compiled without them, less the ones with a statement that the
rules do not permit (`compile_filter`).
-/

namespace Offside

/-! ## The statements of a program -/

mutual

/-- The statements inside a statement, at any depth. -/
def Stmt.inside : Stmt → List Stmt
  | .ifChain clauses => Clause.nodes clauses
  | .whileLoop _ body | .forRange _ _ _ _ body _ | .define _ _ body _ | .block body => Stmt.nodes body
  | .expression _ | .assign .. | .ret _ | .print _ => []

/-- Statements and those inside them, in the order of the source. -/
def Stmt.nodes : List Stmt → List Stmt
  | [] => []
  | s :: ss => (s :: s.inside) ++ Stmt.nodes ss

/-- The statements inside clauses, at any depth. -/
def Clause.nodes : List Clause → List Stmt
  | [] => []
  | .mk _ body :: cs => Stmt.nodes body ++ Clause.nodes cs

end

/-- The condition of a clause, if it has one. -/
def Clause.condition : Clause → List Expr
  | .mk cond _ => cond.toList

namespace Stmt

/-- The construct that a statement is an instance of. -/
def construct? : Stmt → Option Construct
  | .ifChain _ => some .ifStatement
  | .whileLoop .. => some .whileStatement
  | .forRange .. => some .forStatement
  | .define .. => some .functionDefinition
  | .print _ => some .print
  | .expression _ | .assign .. | .ret _ | .block _ => none

/-- The names that a statement itself declares: its target, its loop variable, or its name with its
parameters. -/
def binders : Stmt → List Text
  | .assign name _ _ | .forRange name _ _ _ _ _ => [name]
  | .define name params _ _ => name :: params
  | .expression _ | .ifChain _ | .whileLoop .. | .ret _ | .print _ | .block _ => []

/-- The names that a statement itself reads. -/
def reads : Stmt → List Text
  | .expression x => x.names
  | .assign _ value _ => value.names
  | .ifChain clauses => Expr.namesAll (clauses.flatMap Clause.condition)
  | .whileLoop test _ => test.names
  | .forRange _ start stop step _ _ => Expr.namesAll [start, stop, step]
  | .ret value => Expr.namesAll value.toList
  | .print args => Expr.namesAll args
  | .define .. | .block _ => []

/-- The names in the scope that a statement opens. -/
def scopeNames : Stmt → List Text
  | .forRange _ _ _ _ _ scope | .define _ _ _ scope => scope.names
  | .expression _ | .assign .. | .ifChain _ | .whileLoop .. | .ret _ | .print _ | .block _ => []

end Stmt

/-- Every name that stands in a program: declared, read, or in one of its scopes. -/
def Program.names (p : Program) : List Text :=
  p.scope.names ++ (Stmt.nodes p.statements).flatMap fun s => s.binders ++ s.reads ++ s.scopeNames

/-- The rules let the statement stand: they turn its construct not off, and forbid no name it declares. -/
def RuleSet.Permits (rules : RuleSet) (s : Stmt) : Prop :=
  (∀ c ∈ s.construct?, rules.disabled c = false) ∧ ∀ x ∈ s.binders, rules.blacklisted x = false

instance (rules : RuleSet) (s : Stmt) : Decidable (rules.Permits s) := inferInstanceAs (Decidable (_ ∧ _))

namespace Resolution

open Offside.Statement

/-! ## Every name of a program is declared by one of its statements -/

/-- The names that statements declare. -/
def bound (ts : List Stmt) : List Text := ts.flatMap Stmt.binders

/-- What statements add to the scope `f` they declare, and each name that they read or have in a scope of
their own is visible before them or declared by them. -/
structure Accounted (p : Place) (f : Frame) (ts : List Stmt) (g : Frame) : Prop where
  added : ∀ x ∈ g.names, x ∈ f.names ∨ x ∈ bound ts
  mentioned : ∀ t ∈ ts, ∀ x ∈ t.reads ++ t.scopeNames, Chain.sees (f :: p.outer) x = true ∨ x ∈ bound ts

section
variable {p : Place} {f g h : Frame}

/-- What is visible behind an addition to a scope was visible before it, or has been added. -/
theorem sees_of_added {c : Chain} {added : List Text} (hadded : ∀ x ∈ g.names, x ∈ f.names ∨ x ∈ added) {x : Text}
    (hs : Chain.sees (g :: c) x = true) : Chain.sees (f :: c) x = true ∨ x ∈ added := by
  rcases Chain.sees_cons.1 hs with hx | hs
  · exact (hadded x hx).imp_left fun hx => Chain.sees_cons.2 (.inl hx)
  · exact .inl (Chain.sees_cons.2 (.inr hs))

theorem Accounted.nil : Accounted p f [] f := ⟨fun _ hx => .inl hx, nofun⟩

theorem Accounted.append {ts us : List Stmt} (ht : Accounted p f ts g) (hu : Accounted p g us h) :
    Accounted p f (ts ++ us) h := by
  have hbound : ∀ {x}, x ∈ bound (ts ++ us) ↔ x ∈ bound ts ∨ x ∈ bound us := by simp [bound]
  constructor
  · intro x hx
    rcases hu.added x hx with hx | hx
    · exact (ht.added x hx).imp_right fun hx => hbound.2 (.inl hx)
    · exact .inr (hbound.2 (.inr hx))
  · intro t hmem x hx
    rcases List.mem_append.1 hmem with hmem | hmem
    · exact (ht.mentioned t hmem x hx).imp_right fun hx => hbound.2 (.inl hx)
    · rcases hu.mentioned t hmem x hx with hs | hx
      · exact (sees_of_added ht.added hs).imp_right fun hx => hbound.2 (.inl hx)
      · exact .inr (hbound.2 (.inr hx))

/-- A statement whose names are accounted for by themselves stands before the statements inside it. -/
theorem Accounted.cons {s : Stmt} {ts : List Stmt} (hs : Accounted p f [s] f) (ht : Accounted p f ts g) :
    Accounted p f (s :: ts) g :=
  hs.append ht

/-- A statement that reads visible names only, and opens no scope. -/
theorem Accounted.reading {s : Stmt} (hreads : p.sees f s.reads = true) (hscope : s.scopeNames = []) :
    Accounted p f [s] f := by
  refine ⟨fun x hx => .inl hx, fun t ht x hx => .inl ?_⟩
  cases List.mem_singleton.1 ht
  rw [hscope, List.append_nil] at hx
  exact Place.sees_iff.1 hreads x hx

/-- A statement with a scope of its own, in which its body is accounted for. -/
theorem Accounted.scope {s : Stmt} {ts : List Stmt} {p' : Place} {g₀ : Frame} (hp : p'.outer = f :: p.outer)
    (hadded : ∀ x ∈ h.names, x ∈ f.names ∨ x ∈ s.binders) (hfirst : ∀ x ∈ g₀.names, x ∈ s.binders)
    (hreads : p.sees f s.reads = true) (hscope : s.scopeNames = g.names) (hbody : Accounted p' g₀ ts g) :
    Accounted p f (s :: ts) h := by
  have hs : ∀ {x}, x ∈ s.binders → x ∈ bound (s :: ts) := fun hx => by simp [bound, hx]
  have ht : ∀ {x}, x ∈ bound ts → x ∈ bound (s :: ts) := fun hx => by simp_all [bound]
  constructor
  · intro x hx
    exact (hadded x hx).imp_right hs
  · intro t hmem x hx
    rcases List.mem_cons.1 hmem with rfl | hmem
    · rw [hscope] at hx
      rcases List.mem_append.1 hx with hx | hx
      · exact .inl (Place.sees_iff.1 hreads x hx)
      · rcases hbody.added x hx with hx | hx
        · exact .inr (hs (hfirst x hx))
        · exact .inr (ht hx)
    · rcases hbody.mentioned t hmem x hx with hx | hx
      · rw [hp] at hx
        rcases Chain.sees_cons.1 hx with hx | hx
        · exact .inr (hs (hfirst x hx))
        · exact .inl hx
      · exact .inr (ht hx)

theorem names_of_declare {r : Reference} (hd : p.declare f r = some g) :
    ∀ x ∈ g.names, x ∈ f.names ∨ x = r.name := by
  intro x hx
  rcases Place.declare_iff.1 hd with ⟨-, rfl⟩ | ⟨-, -, rfl⟩
  · exact .inl hx
  · simpa [Frame.names] using hx

end

mutual

theorem resolve_accounted {p : Place} {f g : Frame} :
    ∀ {s : Stmt}, s.resolve p f = some g → Accounted p f (s :: s.inside) g
  | .expression x, h => by
    obtain ⟨hsees, rfl⟩ := resolve_expression.1 h
    exact .reading hsees rfl
  | .assign name value declared, h => by
    obtain ⟨hsees, -, hdeclare⟩ := resolve_assign.1 h
    refine ⟨fun x hx => ?_, (Accounted.reading (s := .assign name value declared) hsees rfl).mentioned⟩
    exact (names_of_declare hdeclare x hx).imp_right fun hx => by simp [bound, Stmt.binders, Stmt.inside, hx]
  | .ifChain cs, h => by
    obtain ⟨-, hcs⟩ := resolve_ifChain.1 h
    obtain ⟨hcs, hconds⟩ := clauses_accounted hcs
    refine ⟨fun x hx => ?_, fun t ht x hx => ?_⟩
    · simpa [bound, Stmt.binders, Stmt.inside] using hcs.added x hx
    · have hbound : bound (.ifChain cs :: (Stmt.ifChain cs).inside) = bound (Clause.nodes cs) := rfl
      rw [hbound]
      rcases List.mem_cons.1 ht with rfl | ht
      · exact hconds x (by simpa [Stmt.reads, Stmt.scopeNames] using hx)
      · exact hcs.mentioned t ht x hx
  | .whileLoop test body, h => by
    obtain ⟨-, hsees, hbody⟩ := resolve_whileLoop.1 h
    exact .cons (.reading hsees rfl) (resolveAll_accounted hbody)
  | .forRange name start stop step body scope, h => by
    obtain ⟨-, hsees, -, hbody, rfl⟩ := resolve_forRange.1 h
    refine .scope rfl (fun x hx => .inl hx) (fun x hx => ?_) hsees rfl (resolveAll_accounted hbody)
    simpa [Frame.names, Stmt.binders] using hx
  | .define name params body scope, h => by
    obtain ⟨-, hdeclare, -, hbody⟩ := resolve_define.1 h
    -- the body lies in the scope that has the name already
    have hinner := resolveAll_accounted hbody
    have hparams : ∀ x ∈ (declareAll [] params).names, x ∈ (Stmt.define name params body scope).binders := by
      intro x hx
      have hx : x ∈ params := by simpa [declareAll, Frame.names] using hx
      simp [Stmt.binders, hx]
    have hwhole : Accounted p g (.define name params body scope :: Stmt.nodes body) g :=
      .scope rfl (fun x hx => .inl hx) hparams rfl rfl hinner
    have hadded : ∀ x ∈ g.names, x ∈ f.names ∨ x ∈ bound (.define name params body scope :: Stmt.nodes body) := by
      intro x hx
      exact (names_of_declare hdeclare x hx).imp_right fun hx => by simp [bound, Stmt.binders, hx]
    refine ⟨hadded, fun t ht x hx => ?_⟩
    rcases hwhole.mentioned t ht x hx with hs | hx
    · exact sees_of_added hadded hs
    · exact .inr hx
  | .ret value, h => by
    obtain ⟨-, hsees, rfl⟩ := resolve_ret.1 h
    exact .reading hsees rfl
  | .print args, h => by
    obtain ⟨-, hsees, rfl⟩ := resolve_print.1 h
    exact .reading hsees rfl
  | .block body, h => by simp [Stmt.resolve] at h

theorem resolveAll_accounted {p : Place} {f g : Frame} :
    ∀ {ss : List Stmt}, Stmt.resolveAll p f ss = some g → Accounted p f (Stmt.nodes ss) g
  | [], h => by
    cases h
    exact .nil
  | s :: ss, h => by
    obtain ⟨f₁, hs, hss⟩ := resolveAll_cons.1 h
    exact (resolve_accounted hs).append (resolveAll_accounted hss)

theorem clauses_accounted {p : Place} {f g : Frame} :
    ∀ {cs : List Clause}, Clause.resolveAll p f cs = some g → Accounted p f (Clause.nodes cs) g ∧
      ∀ x ∈ Expr.namesAll (cs.flatMap Clause.condition),
        Chain.sees (f :: p.outer) x = true ∨ x ∈ bound (Clause.nodes cs)
  | [], h => by
    cases h
    exact ⟨.nil, nofun⟩
  | .mk cond body :: cs, h => by
    obtain ⟨hsees, f₁, hbody, hcs⟩ := resolveAll_clause.1 h
    have hfirst := resolveAll_accounted hbody
    obtain ⟨hrest, hconds⟩ := clauses_accounted hcs
    refine ⟨hfirst.append hrest, fun x hx => ?_⟩
    have hbound : x ∈ bound (Clause.nodes (.mk cond body :: cs)) ↔
        x ∈ bound (Stmt.nodes body) ∨ x ∈ bound (Clause.nodes cs) := by simp [bound, Clause.nodes]
    rw [hbound]
    obtain ⟨e, he, hx⟩ := Grammar.mem_namesAll.1 hx
    rcases List.mem_append.1 (show e ∈ cond.toList ++ cs.flatMap Clause.condition from he) with he | he
    · exact .inl (Place.sees_iff.1 hsees x (Grammar.mem_namesAll.2 ⟨e, he, hx⟩))
    · rcases hconds x (Grammar.mem_namesAll.2 ⟨e, he, hx⟩) with hs | hx
      · exact (sees_of_added hfirst.added hs).imp_right .inl
      · exact .inr (.inr hx)

end

/-! ## Resolution under rules -/

/-- The place without its rules. -/
def Place.free (p : Place) : Place := { p with rules := [] }

/-- The rules forbid no name of the scope. -/
def Clear (rules : RuleSet) (f : Frame) : Prop := ∀ x ∈ f.names, rules.blacklisted x = false

/-- The rules permit every statement. -/
def AllPermitted (rules : RuleSet) (ts : List Stmt) : Prop := ∀ t ∈ ts, rules.Permits t

section
variable {p : Place} {f g : Frame}

@[simp] theorem disabled_nil (c : Construct) : RuleSet.disabled [] c = false := rfl

@[simp] theorem blacklisted_nil (x : Text) : RuleSet.blacklisted [] x = false := rfl

@[simp] theorem rules_free : p.free.rules = [] := rfl

@[simp] theorem outer_free : p.free.outer = p.outer := rfl

@[simp] theorem inFunction_free : p.free.inFunction = p.inFunction := rfl

@[simp] theorem rules_inner : (p.inner f).rules = p.rules := rfl

@[simp] theorem sees_free (names : List Text) : p.free.sees f names = p.sees f names := rfl

@[simp] theorem allPermitted_cons {rules : RuleSet} {t : Stmt} {ts : List Stmt} :
    AllPermitted rules (t :: ts) ↔ rules.Permits t ∧ AllPermitted rules ts := List.forall_mem_cons

@[simp] theorem allPermitted_append {rules : RuleSet} {ts us : List Stmt} :
    AllPermitted rules (ts ++ us) ↔ AllPermitted rules ts ∧ AllPermitted rules us := List.forall_mem_append

/-- A scope stays clear behind statements that are permitted. -/
theorem Clear.after {ts : List Stmt} (hf : Clear p.rules f) (ht : Accounted p f ts g)
    (hp : AllPermitted p.rules ts) : Clear p.rules g := by
  intro x hx
  rcases ht.added x hx with hx | hx
  · exact hf x hx
  · obtain ⟨t, hmem, hx⟩ := List.mem_flatMap.1 hx
    exact (hp t hmem).2 x hx

/-- In a clear scope, a name that the scope has already is not forbidden either. -/
theorem declare_filter (hf : Clear p.rules f) {r : Reference} :
    p.declare f r = some g ↔ p.free.declare f r = some g ∧ p.rules.blacklisted r.name = false := by
  rw [Place.declare_iff, Place.declare_iff]
  constructor
  · rintro (⟨hmem, rfl⟩ | ⟨hnew, hrule, rfl⟩)
    · exact ⟨.inl ⟨hmem, rfl⟩, hf _ hmem⟩
    · exact ⟨.inr ⟨hnew, rfl, rfl⟩, hrule⟩
  · rintro ⟨⟨hmem, rfl⟩ | ⟨hnew, -, rfl⟩, hrule⟩
    · exact .inl ⟨hmem, rfl⟩
    · exact .inr ⟨hnew, hrule, rfl⟩

theorem fresh_filter {rules : RuleSet} {params : List Text} :
    Fresh rules [] params ↔ Fresh [] [] params ∧ ∀ x ∈ params, rules.blacklisted x = false := by
  simp only [Fresh, blacklisted_nil]
  grind

end

mutual

/-- Under rules a statement resolves as without them, if the rules permit it and all that is inside it. -/
theorem resolve_filter {p : Place} {f g : Frame} (hf : Clear p.rules f) : ∀ {s : Stmt},
    s.resolve p f = some g ↔ s.resolve p.free f = some g ∧ AllPermitted p.rules (s :: s.inside)
  | .expression x => by
    simp [resolve_expression, AllPermitted, RuleSet.Permits, Stmt.construct?, Stmt.binders, Stmt.inside]
  | .assign name value declared => by
    rw [resolve_assign, resolve_assign, declare_filter hf]
    simp [AllPermitted, RuleSet.Permits, Stmt.construct?, Stmt.binders, Stmt.inside, and_assoc]
  | .ifChain cs => by
    have hpermits : p.rules.Permits (.ifChain cs) ↔ p.rules.disabled .ifStatement = false := by
      simp [RuleSet.Permits, Stmt.construct?, Stmt.binders]
    rw [resolve_ifChain, resolve_ifChain, clauses_filter hf, allPermitted_cons, hpermits]
    constructor
    · rintro ⟨hrule, hcs, hp⟩
      exact ⟨⟨rfl, hcs⟩, hrule, hp⟩
    · rintro ⟨⟨-, hcs⟩, hrule, hp⟩
      exact ⟨hrule, hcs, hp⟩
  | .whileLoop test body => by
    have hpermits : p.rules.Permits (.whileLoop test body) ↔ p.rules.disabled .whileStatement = false := by
      simp [RuleSet.Permits, Stmt.construct?, Stmt.binders]
    rw [resolve_whileLoop, resolve_whileLoop, resolveAll_filter hf, allPermitted_cons, hpermits]
    constructor
    · rintro ⟨hrule, hsees, hbody, hp⟩
      exact ⟨⟨rfl, hsees, hbody⟩, hrule, hp⟩
    · rintro ⟨⟨-, hsees, hbody⟩, hrule, hp⟩
      exact ⟨hrule, hsees, hbody, hp⟩
  | .forRange name start stop step body scope => by
    have hpermits : p.rules.Permits (.forRange name start stop step body scope) ↔
        p.rules.disabled .forStatement = false ∧ p.rules.blacklisted name = false := by
      simp [RuleSet.Permits, Stmt.construct?, Stmt.binders]
    -- the scope of the loop begins with the loop variable alone
    have hbody (hname : p.rules.blacklisted name = false) :
        Stmt.resolveAll (p.inner f) [{ name }] body = some scope ↔
          Stmt.resolveAll (p.free.inner f) [{ name }] body = some scope ∧ AllPermitted p.rules (Stmt.nodes body) :=
      resolveAll_filter (p := p.inner f) (by simpa [Clear, Frame.names] using hname)
    rw [resolve_forRange, resolve_forRange, allPermitted_cons, hpermits]
    constructor
    · rintro ⟨hrule, hsees, hname, hscope, rfl⟩
      obtain ⟨hscope, hp⟩ := (hbody hname).1 hscope
      exact ⟨⟨rfl, hsees, rfl, hscope, rfl⟩, ⟨hrule, hname⟩, hp⟩
    · rintro ⟨⟨-, hsees, -, hscope, rfl⟩, ⟨hrule, hname⟩, hp⟩
      exact ⟨hrule, hsees, hname, (hbody hname).2 ⟨hscope, hp⟩, rfl⟩
  | .define name params body scope => by
    have hpermits : p.rules.Permits (.define name params body scope) ↔
        p.rules.disabled .functionDefinition = false ∧ p.rules.blacklisted name = false ∧
          ∀ x ∈ params, p.rules.blacklisted x = false := by
      simp [RuleSet.Permits, Stmt.construct?, Stmt.binders]
    have hbody (hparams : ∀ x ∈ params, p.rules.blacklisted x = false) :
        Stmt.resolveAll { p.inner g with inFunction := true } (declareAll [] params) body = some scope ↔
          Stmt.resolveAll { p.free.inner g with inFunction := true } (declareAll [] params) body = some scope ∧
            AllPermitted p.rules (Stmt.nodes body) :=
      resolveAll_filter (p := { p.inner g with inFunction := true })
        (by simpa [Clear, declareAll, Frame.names] using hparams)
    rw [resolve_define, resolve_define, declare_filter hf, fresh_filter, allPermitted_cons, hpermits]
    constructor
    · rintro ⟨hrule, ⟨hdeclare, hname⟩, ⟨hfresh, hparams⟩, hscope⟩
      obtain ⟨hscope, hp⟩ := (hbody hparams).1 hscope
      exact ⟨⟨rfl, hdeclare, hfresh, hscope⟩, ⟨hrule, hname, hparams⟩, hp⟩
    · rintro ⟨⟨-, hdeclare, hfresh, hscope⟩, ⟨hrule, hname, hparams⟩, hp⟩
      exact ⟨hrule, ⟨hdeclare, hname⟩, ⟨hfresh, hparams⟩, (hbody hparams).2 ⟨hscope, hp⟩⟩
  | .ret value => by
    simp [resolve_ret, AllPermitted, RuleSet.Permits, Stmt.construct?, Stmt.binders, Stmt.inside]
  | .print args => by
    have hpermits : AllPermitted p.rules [.print args] ↔ p.rules.disabled .print = false := by
      simp [AllPermitted, RuleSet.Permits, Stmt.construct?, Stmt.binders]
    rw [resolve_print, resolve_print, Stmt.inside, hpermits, rules_free, sees_free]
    constructor
    · rintro ⟨hrule, hsees, rfl⟩
      exact ⟨⟨rfl, hsees, rfl⟩, hrule⟩
    · rintro ⟨⟨-, hsees, rfl⟩, hrule⟩
      exact ⟨hrule, hsees, rfl⟩
  | .block body => by simp [Stmt.resolve]

theorem resolveAll_filter {p : Place} {f g : Frame} (hf : Clear p.rules f) : ∀ {ss : List Stmt},
    Stmt.resolveAll p f ss = some g ↔
      Stmt.resolveAll p.free f ss = some g ∧ AllPermitted p.rules (Stmt.nodes ss)
  | [] => by simp [Stmt.resolveAll, AllPermitted, Stmt.nodes]
  | s :: ss => by
    rw [resolveAll_cons, resolveAll_cons, Stmt.nodes, allPermitted_append]
    constructor
    · rintro ⟨f₁, hs, hss⟩
      have hfirst := (resolve_filter hf).1 hs
      have hrest := (resolveAll_filter (hf.after (resolve_accounted hs) hfirst.2)).1 hss
      exact ⟨⟨f₁, hfirst.1, hrest.1⟩, hfirst.2, hrest.2⟩
    · rintro ⟨⟨f₁, hs, hss⟩, hp, hps⟩
      have hs := (resolve_filter hf).2 ⟨hs, hp⟩
      exact ⟨f₁, hs, (resolveAll_filter (hf.after (resolve_accounted hs) hp)).2 ⟨hss, hps⟩⟩

theorem clauses_filter {p : Place} {f g : Frame} (hf : Clear p.rules f) : ∀ {cs : List Clause},
    Clause.resolveAll p f cs = some g ↔
      Clause.resolveAll p.free f cs = some g ∧ AllPermitted p.rules (Clause.nodes cs)
  | [] => by simp [Clause.resolveAll, AllPermitted, Clause.nodes]
  | .mk cond body :: cs => by
    rw [resolveAll_clause, resolveAll_clause, Clause.nodes, allPermitted_append, sees_free]
    constructor
    · rintro ⟨hsees, f₁, hbody, hcs⟩
      have hfirst := (resolveAll_filter hf).1 hbody
      have hrest := (clauses_filter (hf.after (resolveAll_accounted hbody) hfirst.2)).1 hcs
      exact ⟨⟨hsees, f₁, hfirst.1, hrest.1⟩, hfirst.2, hrest.2⟩
    · rintro ⟨⟨hsees, f₁, hbody, hcs⟩, hp, hps⟩
      have hbody := (resolveAll_filter hf).2 ⟨hbody, hp⟩
      exact ⟨hsees, f₁, hbody, (clauses_filter (hf.after (resolveAll_accounted hbody) hp)).2 ⟨hcs, hps⟩⟩

end

end Resolution

/-! ## Compiling under rules -/

namespace Compile

open Offside.Resolution

/-- Compiling the source gives the program. -/
def Gives (o : Options) (source : Text) (p : Program) : Prop := ∃ out, compile o source = .ok out ∧ out.program = p

section
variable {o : Options} {source : Text} {p : Program}

theorem gives_iff :
    Gives o source p ↔
      (tokenize source o.tabWidth).halt = none ∧
        Grammar.DerivesProgram o.maxDepth (tokenize source o.tabWidth).tokens p.statements ∧
          Stmt.resolveAll { rules := o.rules } [] p.statements = some p.scope :=
  compile_iff_resolves

/-- The rules of a compilation matter only for the statements that they do not permit. -/
theorem gives_filter :
    Gives o source p ↔
      Gives { o with rules := [] } source p ∧ ∀ s ∈ Stmt.nodes p.statements, o.rules.Permits s := by
  have hfilter : Stmt.resolveAll { rules := o.rules } [] p.statements = some p.scope ↔
      Stmt.resolveAll {} [] p.statements = some p.scope ∧ AllPermitted o.rules (Stmt.nodes p.statements) :=
    resolveAll_filter (p := { rules := o.rules }) fun x hx => by simp [Frame.names] at hx
  rw [gives_iff, gives_iff, hfilter]
  constructor
  · rintro ⟨hhalt, hp, hscope, hpermits⟩
    exact ⟨⟨hhalt, hp, hscope⟩, hpermits⟩
  · rintro ⟨⟨hhalt, hp, hscope⟩, hpermits⟩
    exact ⟨hhalt, hp, hscope, hpermits⟩

/-- Every name of a compiled program is declared by one of its statements. -/
theorem Gives.declared (h : Gives o source p) {x : Text} (hx : x ∈ p.names) :
    ∃ s ∈ Stmt.nodes p.statements, x ∈ s.binders := by
  have hnames := resolveAll_accounted (gives_iff.1 h).2.2
  have hbound : x ∈ bound (Stmt.nodes p.statements) := by
    rcases List.mem_append.1 hx with hx | hx
    · exact (hnames.added x hx).resolve_left (by simp [Frame.names])
    · obtain ⟨s, hs, hx⟩ := List.mem_flatMap.1 hx
      rw [List.append_assoc] at hx
      rcases List.mem_append.1 hx with hx | hx
      · exact List.mem_flatMap.2 ⟨s, hs, hx⟩
      · exact (hnames.mentioned s hs x hx).resolve_left (by simp [Chain.sees_cons, Frame.names])
  exact List.mem_flatMap.1 hbound

end

theorem permits_mono {rules more : RuleSet} (hsub : rules ⊆ more) {s : Stmt} (h : more.Permits s) :
    rules.Permits s := by
  constructor
  · intro c hc
    refine Bool.eq_false_iff.2 fun hdisabled => Bool.eq_false_iff.1 (h.1 c hc) ?_
    exact RuleSet.disabled_iff.2 (hsub (RuleSet.disabled_iff.1 hdisabled))
  · intro x hx
    refine Bool.eq_false_iff.2 fun hblacklisted => Bool.eq_false_iff.1 (h.2 x hx) ?_
    obtain ⟨r, hr, hxr⟩ := List.mem_flatMap.1 (RuleSet.blacklisted_iff.1 hblacklisted)
    exact RuleSet.blacklisted_iff.2 (List.mem_flatMap.2 ⟨r, hsub hr, hxr⟩)

/-- Rules act as a filter: compiling under rules gives a program just when compiling without them gives it
and the rules permit each of its statements, at any depth. So a forbidden name stands nowhere in a program,
not even where it is read, and more rules do not make a source compile. -/
theorem compile_filter (source : Text) (tabWidth : Int) (maxDepth : Nat) (rules : RuleSet) :
    (∀ p, Gives { rules, tabWidth, maxDepth } source p ↔
      Gives { tabWidth, maxDepth } source p ∧ ∀ s ∈ Stmt.nodes p.statements,
        (∀ c ∈ s.construct?, rules.disabled c = false) ∧ ∀ x ∈ s.binders, rules.blacklisted x = false) ∧
    (∀ p, Gives { rules, tabWidth, maxDepth } source p → ∀ x, rules.blacklisted x = true → x ∉ p.names) ∧
    ∀ more p, rules ⊆ more → Gives { rules := more, tabWidth, maxDepth } source p →
      Gives { rules, tabWidth, maxDepth } source p := by
  refine ⟨fun p => gives_filter, fun p h x hx hmem => ?_, fun more p hsub h => ?_⟩
  · obtain ⟨s, hs, hbinder⟩ := h.declared hmem
    have hpermitted := ((gives_filter.1 h).2 s hs).2 x hbinder
    rw [hx] at hpermitted
    cases hpermitted
  · obtain ⟨hplain, hpermits⟩ := gives_filter.1 h
    exact gives_filter.2 ⟨hplain, fun s hs => permits_mono hsub (hpermits s hs)⟩

-- Each of the last three rules is enough to reject a loop in a branch; rules about what it does not hold are not.
example :
    [[], [.disable .whileStatement, .blacklist ["j"]], [.disable .forStatement], [.disable .print],
      [.blacklist ["i"]]].map (fun rules : RuleSet =>
        (compile { rules } "if 1:\n for i in range(2):\n  print(i)\n").toOption.isSome) =
      [true, true, false, false, false] := by decide +kernel

end Compile

end Offside
