import Offside.Proofs.Parser.Program

/-!
# The scoping of names

A judgement on trees: what each place of a program sees. Statements are taken in order. The branches of a
conditional and the body of a loop with a test declare into the scope around them, and what they declare
stays visible behind them. The body of a loop over a range and the body of a function are each a scope of
their own, which begins with the loop variable or the parameters. The name of a function is bound before its
body. Values, conditions and arguments are read before the binding that they are for. A name that its scope
has already is not bound again.

The judgement looks at no mark that a parser leaves in the tree. What a tree says about itself is kept apart,
as observations: each read with what is visible there, each assignment with its mark, each scope with the
names recorded for it. Main lemma: a tree whose names resolve is right in all of them (`resolve_observed`).
-/

namespace Offside

namespace Scoping

/-- What is known of a declared name. -/
structure Binding where
  name : Text
  kind : Reference.Kind := .var
  /-- Whether the name was visible already when it was bound. -/
  declared : Bool := false
deriving Repr, DecidableEq

/-- What a place sees. -/
structure Env where
  /-- The names of the scopes around. -/
  around : List Text := []
  /-- The bindings of the scope itself, in the order of first declaration. -/
  here : List Binding := []
deriving Repr, DecidableEq

namespace Env

/-- The names that a place sees. -/
def names (e : Env) : List Text := e.here.map (·.name) ++ e.around

/-- Whether the place sees a name. -/
def Visible (e : Env) (x : Text) : Prop := x ∈ e.names

instance (e : Env) (x : Text) : Decidable (e.Visible x) := inferInstanceAs (Decidable (x ∈ e.names))

/-- Binds a name in the scope, unless the scope has it already. -/
def bind (e : Env) (b : Binding) : Env :=
  if b.name ∈ e.here.map (·.name) then e else { e with here := e.here ++ [b] }

/-- The start of a scope inside, which begins with the given names. -/
def child (e : Env) (names : List Text) : Env :=
  { around := e.names, here := names.map fun name => { name } }

end Env

/-- What a tree says about one of its places. -/
inductive Observation where
  /-- A name is read, or called. -/
  | read (e : Env) (name : Text)
  /-- A name is about to be bound by an assignment that is marked. -/
  | assigned (e : Env) (name : Text) (declared : Bool)
  /-- A scope ends with these bindings, and others are recorded for it. -/
  | scope (bindings : List Binding) (recorded : Frame)

/-- The reads of names at a place. -/
def reads (e : Env) (names : List Text) : List Observation := names.map (.read e)

end Scoping

open Offside.Scoping

/-- The bindings that a frame records. -/
def Frame.bindings (f : Frame) : List Binding := f.map fun r => ⟨r.name, r.kind, r.declared⟩

/-! ## The judgement -/

mutual

/-- What the place behind a statement sees. -/
def Stmt.after (e : Env) : Stmt → Env
  | .assign name _ _ => e.bind { name, declared := e.Visible name }
  | .ifChain clauses => Clause.afterAll e clauses
  | .whileLoop _ body | .block body => Stmt.afterAll e body
  | .define name _ _ _ => e.bind { name, kind := .function }
  | .expression _ | .forRange .. | .ret _ | .print _ => e

/-- What the place behind statements sees. -/
def Stmt.afterAll (e : Env) : List Stmt → Env
  | [] => e
  | s :: ss => Stmt.afterAll (s.after e) ss

/-- What the place behind clauses sees. -/
def Clause.afterAll (e : Env) : List Clause → Env
  | [] => e
  | .mk _ body :: cs => Clause.afterAll (Stmt.afterAll e body) cs

end

mutual

/-- What a statement says about its places, in the order of the source. A scope is observed at its start. -/
def Stmt.observed (e : Env) : Stmt → List Observation
  | .expression x => reads e x.names
  | .assign name value declared => reads e value.names ++ [.assigned e name declared]
  | .ifChain clauses => Clause.observedAll e clauses
  | .whileLoop test body => reads e test.names ++ Stmt.observedAll e body
  | .forRange name start stop step body scope =>
    let inner := e.child [name]
    reads e (Expr.namesAll [start, stop, step]) ++
      .scope (Stmt.afterAll inner body).here scope :: Stmt.observedAll inner body
  | .define name params body scope =>
    let inner := (e.bind { name, kind := .function }).child params
    .scope (Stmt.afterAll inner body).here scope :: Stmt.observedAll inner body
  | .ret value => reads e (Expr.namesAll value.toList)
  | .print args => reads e (Expr.namesAll args)
  | .block body => Stmt.observedAll e body

/-- What statements say about their places. -/
def Stmt.observedAll (e : Env) : List Stmt → List Observation
  | [] => []
  | s :: ss => s.observed e ++ Stmt.observedAll (s.after e) ss

/-- What clauses say about their places. -/
def Clause.observedAll (e : Env) : List Clause → List Observation
  | [] => []
  | .mk cond body :: cs =>
    reads e (Expr.namesAll cond.toList) ++ Stmt.observedAll e body ++
      Clause.observedAll (Stmt.afterAll e body) cs

end

namespace Scoping

/-- What a tree says is so. -/
def Observation.Right : Observation → Prop
  | .read e name => e.Visible name
  | .assigned e name declared => declared = true ↔ e.Visible name
  | .scope bindings recorded => recorded.bindings = bindings

/-! ## Frames and environments -/

open Offside.Resolution Offside.Statement

/-- What a scope with the names `f` sees. -/
def env (p : Place) (f : Frame) : Env := { around := p.outer.flatMap Frame.names, here := f.bindings }

section
variable {p : Place} {f g : Frame}

theorem names_bindings (f : Frame) : f.bindings.map (·.name) = f.names := by
  simp [Frame.bindings, Frame.names]

theorem names_env : (env p f).names = (f :: p.outer).flatMap Frame.names := by
  simp [Env.names, env, names_bindings]

/-- A chain of scopes sees the names of its environment. -/
theorem visible_env {x : Text} : (env p f).Visible x ↔ Chain.sees (f :: p.outer) x = true := by
  have hsees : ∀ c : Chain, Chain.sees c x = true ↔ x ∈ c.flatMap Frame.names := by
    intro c
    induction c with
    | nil => simp
    | cons g c ih => rw [Chain.sees_cons, ih, List.flatMap_cons, List.mem_append]
  rw [Env.Visible, names_env, hsees]

theorem env_inner (names : List Text) :
    env (p.inner f) (names.map fun name => { name }) = (env p f).child names := by
  have hhere : Frame.bindings (names.map fun name => { name }) = names.map fun name => ({ name } : Binding) := by
    simp [Frame.bindings]
  rw [Env.child, names_env, env, hhere]
  rfl

theorem env_declare {r : Reference} (h : p.declare f r = some g) :
    env p g = (env p f).bind ⟨r.name, r.kind, r.declared⟩ := by
  have hnames : (env p f).here.map (·.name) = f.names := names_bindings f
  rcases Place.declare_iff.1 h with ⟨hmem, rfl⟩ | ⟨hnew, -, rfl⟩
  · rw [Env.bind, hnames, if_pos hmem]
  · rw [Env.bind, hnames, if_neg hnew]
    simp [env, Frame.bindings]

theorem reads_right {names : List Text} (h : p.sees f names = true) : ∀ o ∈ reads (env p f) names, o.Right := by
  intro o ho
  obtain ⟨x, hx, rfl⟩ := List.mem_map.1 ho
  exact visible_env.2 (Place.sees_iff.1 h x hx)

end

/-! ## Trees whose names resolve -/

/-- A part of a tree is right about its places, and behind it the scope is as the judgement says. -/
def Follows (p : Place) (g : Frame) (observed : List Observation) (after : Env) : Prop :=
  (∀ o ∈ observed, o.Right) ∧ env p g = after

mutual

/-- A statement whose names resolve is right about its places. -/
theorem resolve_observed {p : Place} {f g : Frame} : ∀ {s : Stmt}, s.resolve p f = some g →
    Follows p g (s.observed (env p f)) (s.after (env p f))
  | .expression x, h => by
    obtain ⟨hsees, rfl⟩ := resolve_expression.1 h
    exact ⟨reads_right hsees, rfl⟩
  | .assign name value declared, h => by
    obtain ⟨hsees, hdeclared, hdeclare⟩ := resolve_assign.1 h
    have hmark : declared = true ↔ (env p f).Visible name := by rw [hdeclared, visible_env]
    refine ⟨List.forall_mem_append.2 ⟨reads_right hsees, List.forall_mem_singleton.2 hmark⟩, ?_⟩
    have heq : declared = decide ((env p f).Visible name) := Bool.eq_iff_iff.2 (by rw [hmark, decide_eq_true_iff])
    rw [env_declare hdeclare, Stmt.after, ← heq]
  | .ifChain cs, h => clauses_observed (resolve_ifChain.1 h).2
  | .whileLoop test body, h => by
    obtain ⟨-, hsees, hbody⟩ := resolve_whileLoop.1 h
    obtain ⟨hright, hafter⟩ := resolveAll_observed hbody
    exact ⟨List.forall_mem_append.2 ⟨reads_right hsees, hright⟩, hafter⟩
  | .forRange name start stop step body scope, h => by
    obtain ⟨-, hsees, -, hbody, rfl⟩ := resolve_forRange.1 h
    obtain ⟨hright, hafter⟩ := resolveAll_observed hbody
    have hchild : env (p.inner f) [{ name }] = (env p f).child [name] := env_inner [name]
    rw [hchild] at hright hafter
    have hscope : scope.bindings = (Stmt.afterAll ((env p f).child [name]) body).here := congrArg Env.here hafter
    exact ⟨List.forall_mem_append.2 ⟨reads_right hsees, List.forall_mem_cons.2 ⟨hscope, hright⟩⟩, rfl⟩
  | .define name params body scope, h => by
    obtain ⟨-, hdeclare, -, hbody⟩ := resolve_define.1 h
    obtain ⟨hright, hafter⟩ := resolveAll_observed hbody
    have hname := env_declare hdeclare
    have hchild : env { p.inner g with inFunction := true } (declareAll [] params) = (env p g).child params :=
      env_inner params
    rw [hchild, hname] at hright hafter
    exact ⟨List.forall_mem_cons.2 ⟨congrArg Env.here hafter, hright⟩, hname⟩
  | .ret value, h => by
    obtain ⟨-, hsees, rfl⟩ := resolve_ret.1 h
    exact ⟨reads_right hsees, rfl⟩
  | .print args, h => by
    obtain ⟨-, hsees, rfl⟩ := resolve_print.1 h
    exact ⟨reads_right hsees, rfl⟩
  | .block body, h => by simp [Stmt.resolve] at h

theorem resolveAll_observed {p : Place} {f g : Frame} : ∀ {ss : List Stmt}, Stmt.resolveAll p f ss = some g →
    Follows p g (Stmt.observedAll (env p f) ss) (Stmt.afterAll (env p f) ss)
  | [], h => by
    cases h
    exact ⟨nofun, rfl⟩
  | s :: ss, h => by
    obtain ⟨f₁, hs, hss⟩ := resolveAll_cons.1 h
    obtain ⟨hfirst, hafter⟩ := resolve_observed hs
    obtain ⟨hrest, hend⟩ := resolveAll_observed hss
    rw [hafter] at hrest hend
    exact ⟨List.forall_mem_append.2 ⟨hfirst, hrest⟩, hend⟩

theorem clauses_observed {p : Place} {f g : Frame} : ∀ {cs : List Clause}, Clause.resolveAll p f cs = some g →
    Follows p g (Clause.observedAll (env p f) cs) (Clause.afterAll (env p f) cs)
  | [], h => by
    cases h
    exact ⟨nofun, rfl⟩
  | .mk cond body :: cs, h => by
    obtain ⟨hsees, f₁, hbody, hcs⟩ := resolveAll_clause.1 h
    obtain ⟨hfirst, hafter⟩ := resolveAll_observed hbody
    obtain ⟨hrest, hend⟩ := clauses_observed hcs
    rw [hafter] at hrest hend
    exact ⟨List.forall_mem_append.2 ⟨List.forall_mem_append.2 ⟨reads_right hsees, hfirst⟩, hrest⟩, hend⟩

end

end Scoping

end Offside
