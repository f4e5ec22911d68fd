import Mathlib.Data.Set.Insert
import Offside.Proofs.JavaScript.Code

/-!
# How rendered code comes about

A scope of the language is the body of a function or of a loop over a range, while in JavaScript `let` and
`function` declare a name for the block between braces that they stand in. Rendering follows the scopes: `let` is
written for a name that is not visible where it is assigned, and no name is written without `let` unless it is
visible (`Unfolds`). Main statement: compiled programs are rendered like that (`compile_unfolds`).
-/

namespace Offside

open Offside.JavaScript Offside.Resolution Offside.Statement

namespace JavaScript

/-- Code is rendered where the names `V` are visible, and behind it the names `W` are. -/
inductive Unfolds : Set Text → Set Text → List Code → Prop
  | append {U V W : Set Text} {cs ds : List Code} (hc : Unfolds U V cs) (hd : Unfolds V W ds) : Unfolds U W (cs ++ ds)
  | plain {V : Set Text} {fs : List Fragment} (hf : ∀ y ∈ Fragment.names fs, y ∈ V) : Unfolds V V (Code.plains fs)
  | letting {V : Set Text} {x : Text} {value : List Fragment} (hx : x ∉ V)
      (hvalue : ∀ y ∈ Fragment.names value, y ∈ V) : Unfolds V (insert x V) [.letting x value]
  /-- What a block declares is visible behind it. -/
  | block {V W : Set Text} {body : List Code} (hbody : Unfolds V W body) : Unfolds V W [.block body]
  /-- The name of a function is not looked up before it is declared. -/
  | function {V W : Set Text} {x : Text} {params : List Text} {body : List Code}
      (hbody : Unfolds ({y | y ∈ params} ∪ insert x V) W body) : Unfolds V (insert x V) [.function x params body]
  | loop {V W : Set Text} {x : Text} {start next : List Fragment} {body : List Code}
      (hstart : ∀ y ∈ Fragment.names start, y ∈ V) (hnext : ∀ y ∈ Fragment.names next, y ∈ insert x V)
      (hbody : Unfolds (insert x V) W body) : Unfolds V V [.loop x start next body]

section
variable {p : Place} {f g : Frame}

/-- The names that a scope sees. -/
def visible (p : Place) (f : Frame) : Set Text := {x | Chain.sees (f :: p.outer) x = true}

theorem mem_visible {x : Text} : x ∈ visible p f ↔ x ∈ f.names ∨ Chain.sees p.outer x = true := Chain.sees_cons

theorem visible_declare {r : Reference} (h : p.declare f r = some g) :
    visible p g = insert r.name (visible p f) := by
  ext x
  rw [Set.mem_insert_iff, mem_visible, mem_visible]
  rcases Place.declare_iff.1 h with ⟨hmem, rfl⟩ | ⟨-, -, rfl⟩
  · grind
  · simp only [Frame.names, List.map_append, List.map_cons, List.map_nil, List.mem_append, List.mem_singleton]
    grind

theorem visible_inner (names : List Text) :
    visible (p.inner f) (names.map fun name => { name }) = {y | y ∈ names} ∪ visible p f := by
  ext x
  rw [mem_visible, Set.mem_union, Set.mem_ofPred_eq]
  have hnames : Frame.names (names.map fun name => { name }) = names := by
    simp [Frame.names, Function.comp_def]
  rw [hnames]
  rfl

theorem names_visible {x : Expr} (h : p.sees f x.names = true) :
    ∀ y ∈ Fragment.names x.fragments, y ∈ visible p f :=
  fun y hy => Place.sees_iff.1 h y (names_fragments x hy)

theorem listed_visible {xs : List Expr} (h : p.sees f (Expr.namesAll xs) = true) :
    ∀ y ∈ Fragment.names (Fragment.listed (Expr.fragmentsAll xs)), y ∈ visible p f := by
  intro y hy
  rw [Fragment.names_listed] at hy
  exact Place.sees_iff.1 h y (names_fragmentsAll xs hy)

theorem head_visible {cond : Option Expr} (first : Bool) (h : p.sees f (Expr.namesAll cond.toList) = true) :
    ∀ y ∈ Fragment.names (headFragments first cond), y ∈ visible p f := by
  cases cond with
  | none => simp [headFragments]
  | some x =>
    rw [namesAll_some] at h
    simpa [headFragments] using names_visible h

theorem returned_visible {value : Option Expr} (h : p.sees f (Expr.namesAll value.toList) = true) :
    ∀ y ∈ Fragment.names (returnedFragments value), y ∈ visible p f := by
  unfold returnedFragments
  split
  · simp
  · next items =>
    rw [namesAll_some, Expr.names] at h
    simpa using listed_visible h
  · next x _ =>
    rw [namesAll_some] at h
    simpa using names_visible h

end

section
variable {U V W : Set Text}

/-- Text without names can stand anywhere. -/
theorem Unfolds.text (V : Set Text) (t : Text) : Unfolds V V [Code.text t] :=
  @Unfolds.plain V [.text t] (List.forall_mem_nil _)

theorem Unfolds.nil (V : Set Text) : Unfolds V V [] := @Unfolds.plain V [] (List.forall_mem_nil _)

theorem Unfolds.padded {cs : List Code} (h : Unfolds V W cs) (need : Bool) : Unfolds V W (Code.padded need cs) := by
  cases need with
  | false => exact h
  | true => exact ((Unfolds.text V " ").append h).append (Unfolds.text W " ")

/-- Statements are rendered one after another. -/
theorem Unfolds.sequence_cons {cs : List Code} {css : List (List Code)} (hc : Unfolds U V cs)
    (hrest : Unfolds V W (Code.sequence css)) : Unfolds U W (Code.sequence (cs :: css)) := by
  cases css with
  | nil =>
    have hone : Code.sequence [cs] = cs ++ [] := by simp [Code.sequence]
    rw [hone]
    exact hc.append hrest
  | cons ds css =>
    rw [Code.sequence_cons_cons]
    exact hc.append ((Unfolds.text V ";").append hrest)

end

mutual

/-- How the code of a statement whose names resolve comes about. -/
theorem resolve_unfolds {p : Place} {f g : Frame} : ∀ {s : Stmt}, s.resolve p f = some g →
    Unfolds (visible p f) (visible p g) s.code
  | .expression x, h => by
    obtain ⟨hsees, rfl⟩ := resolve_expression.1 h
    exact .plain (names_visible hsees)
  | .assign name value declared, h => by
    obtain ⟨hsees, hdeclared, hdeclare⟩ := resolve_assign.1 h
    have hvalue := names_visible hsees
    rw [visible_declare hdeclare]
    cases declared with
    | true =>
      -- the name is visible, so that declaring it in the innermost scope changes nothing
      have hname : name ∈ visible p f := hdeclared.symm
      rw [Set.insert_eq_of_mem hname]
      exact .plain (List.forall_mem_cons.2 ⟨hname, hvalue⟩)
    | false =>
      have hname : name ∉ visible p f := Bool.eq_false_iff.1 hdeclared.symm
      exact .letting hname hvalue
  | .ifChain cs, h => clauses_unfolds true (resolve_ifChain.1 h).2
  | .whileLoop test body, h => by
    obtain ⟨-, hsees, hbody⟩ := resolve_whileLoop.1 h
    have htest := names_visible hsees
    rw [Stmt.code]
    refine .append (.plain ?_) (.block (resolveAll_unfolds hbody))
    simpa using htest
  | .forRange name start stop step body scope, h => by
    obtain ⟨-, hsees, -, hbody, rfl⟩ := resolve_forRange.1 h
    have hall := Place.sees_iff.1 hsees
    simp only [Expr.namesAll, List.append_nil, List.mem_append] at hall
    have hinner : visible (p.inner f) [{ name }] = insert name (visible p f) := by
      refine (visible_inner [name]).trans ?_
      ext y
      simp
    have hbody := resolveAll_unfolds hbody
    rw [hinner] at hbody
    refine .loop (fun y hy => hall y (.inl (names_fragments start hy))) ?_ hbody
    have hstop : ∀ y ∈ Fragment.names stop.fragments, y ∈ visible p f := fun y hy =>
      hall y (.inr (.inl (names_fragments stop hy)))
    have hstep : ∀ y ∈ Fragment.names step.fragments, y ∈ visible p f := fun y hy =>
      hall y (.inr (.inr (names_fragments step hy)))
    simp only [Fragment.names_append, Fragment.names_text, Fragment.names_name, List.mem_append, List.mem_cons,
      Set.mem_insert_iff, List.cons_append]
    grind
  | .define name params body scope, h => by
    obtain ⟨-, hdeclare, -, hbody⟩ := resolve_define.1 h
    have hbody := resolveAll_unfolds hbody
    have hname := visible_declare hdeclare
    have hparams : visible { p.inner g with inFunction := true } (declareAll [] params) =
        {y | y ∈ params} ∪ visible p g := visible_inner params
    rw [hparams, hname] at hbody
    rw [hname]
    exact .function hbody
  | .ret value, h => by
    obtain ⟨-, hsees, rfl⟩ := resolve_ret.1 h
    exact .plain (returned_visible hsees)
  | .print args, h => by
    obtain ⟨-, hsees, rfl⟩ := resolve_print.1 h
    refine .plain ?_
    simpa using listed_visible hsees
  | .block body, h => by simp [Stmt.resolve] at h

theorem resolveAll_unfolds {p : Place} {f g : Frame} : ∀ {ss : List Stmt}, Stmt.resolveAll p f ss = some g →
    Unfolds (visible p f) (visible p g) (Code.sequence (Stmt.codeAll ss))
  | [], h => by
    cases h
    exact .nil _
  | s :: ss, h => by
    obtain ⟨f₁, hs, hss⟩ := resolveAll_cons.1 h
    exact (resolve_unfolds hs).sequence_cons (resolveAll_unfolds hss)

theorem clauses_unfolds {p : Place} {f g : Frame} (first : Bool) : ∀ {cs : List Clause},
    Clause.resolveAll p f cs = some g → Unfolds (visible p f) (visible p g) (Clause.code first cs)
  | [], h => by
    cases h
    exact .nil _
  | .mk cond body :: cs, h => by
    obtain ⟨hsees, f₁, hbody, hcs⟩ := resolveAll_clause.1 h
    exact .append (.plain (head_visible first hsees))
      (.append (.block ((resolveAll_unfolds hbody).padded first)) (clauses_unfolds false hcs))

end

end JavaScript

/-- How the code of a compiled program comes about. -/
theorem Compile.compile_unfolds {o : Options} {source : Text} {out : Output} (h : compile o source = .ok out) :
    ∃ W, Unfolds ∅ W out.program.code := by
  obtain ⟨-, -, hresolves⟩ := compile_iff_resolves.1 ⟨out, h, rfl⟩
  have hempty : visible { rules := o.rules } [] = ∅ := by
    ext x
    simp [mem_visible, Frame.names]
  exact ⟨_, hempty ▸ resolveAll_unfolds hresolves⟩

end Offside
