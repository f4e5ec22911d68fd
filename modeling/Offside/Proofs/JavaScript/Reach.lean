import Offside.Proofs.JavaScript.Redeclaration

/-!
# Names in reach

In JavaScript a `let` or a function is declared for the block between braces that it stands in. A function is bound
in all of its block. A `let` hides what is bound around its block, and is bound itself only behind it; and so is the
variable of a loop, which hides what is bound around the loop already where its first value is computed.

What a branch of a conditional or the body of a loop with a test declares stays visible behind it in the language,
but its block ends there. The first value of a loop is computed around the loop in the language. Main statement: a
name that a rendered program uses is not bound where it stands exactly when it was declared in such a block and has
not been bound since, or is the variable of the loop whose first value it stands in (`unbound_iff_lost`).
-/

namespace Offside

open Offside.JavaScript

namespace JavaScript

open Code

/-- The names that a place of a program can reach. -/
structure Reach where
  /-- Bound in the block around the place, or in one around that, and not hidden since. -/
  bound : List Text
  /-- Declared in a block of a conditional or of a loop with a test that has ended, and not bound since. -/
  lost : List Text
  apart : ∀ x ∈ lost, x ∉ bound

/-- A name that is read, called or assigned without being declared, with what is in reach there. -/
structure Use where
  name : Text
  reach : Reach
  /-- The variable of the loop whose first value the name stands in. It has no value yet. -/
  awaited : Option Text := none
  unset : ∀ x ∈ awaited, x ∉ reach.bound := by simp

mutual

/-- The names that a piece declares, those of plain blocks included. -/
def Code.introduced : Code → List Text
  | .plain _ | .loop .. => []
  | .letting x _ | .function x _ _ => [x]
  | .block body => Code.introducedAll body

/-- The names that pieces declare. -/
def Code.introducedAll : List Code → List Text
  | [] => []
  | c :: cs => c.introduced ++ Code.introducedAll cs

end

namespace Reach

/-- Nothing is in reach. -/
def empty : Reach := { bound := [], lost := [], apart := List.forall_mem_nil _ }

/-- Binds names besides those that are bound. -/
def bind (r : Reach) (names : List Text) : Reach where
  bound := names ++ r.bound
  lost := r.lost.filter (· ∉ names)
  apart := by
    intro x hx
    obtain ⟨hlost, hnames⟩ := List.mem_filter.1 hx
    rw [List.mem_append, not_or]
    exact ⟨of_decide_eq_true hnames, r.apart x hlost⟩

/-- Hides names: none of them is what it is around the place. -/
def hide (r : Reach) (names : List Text) : Reach where
  bound := r.bound.filter (· ∉ names)
  lost := r.lost.filter (· ∉ names)
  apart := by
    intro x hx hbound
    exact r.apart x (List.mem_filter.1 hx).1 (List.mem_filter.1 hbound).1

/-- What is in reach where a block begins: the names of its head and its functions are bound, and its `let`s hide
what is around it. -/
def enter (r : Reach) (head : List Text) (body : List Code) : Reach :=
  (r.hide (lets body)).bind (head ++ functions body)

/-- Loses the names that a block declares, unless they are bound around it. -/
def lose (r : Reach) (names : List Text) : Reach where
  bound := r.bound
  lost := names.filter (· ∉ r.bound) ++ r.lost
  apart := by
    intro x hx
    rcases List.mem_append.1 hx with hx | hx
    · exact of_decide_eq_true (List.mem_filter.1 hx).2
    · exact r.apart x hx

/-- Whether a name is bound or lost. -/
def Holds (r : Reach) (x : Text) : Prop := x ∈ r.bound ∨ x ∈ r.lost

/-- What is in reach behind a piece. -/
def after (r : Reach) : Code → Reach
  | .plain _ | .loop .. => r
  | .letting x _ | .function x _ _ => r.bind [x]
  | .block body => r.lose (introducedAll body)

/-- The uses of names at one place. -/
def uses (r : Reach) (fs : List Fragment) : List Use := (Fragment.names fs).map fun name => { name, reach := r }

/-- The uses of names in the first value of a loop, which stands inside the loop. -/
def firstUses (r : Reach) (x : Text) (fs : List Fragment) : List Use :=
  (Fragment.names fs).map fun name =>
    { name, reach := r.hide [x], awaited := some x, unset := by simp [hide] }

end Reach

mutual

/-- The uses of names in a piece. -/
def Code.uses (r : Reach) : Code → List Use
  | .plain f => r.uses [f]
  | .letting _ value => r.uses value
  | .block body => Code.usesAll (r.enter [] body) body
  | .function x params body => Code.usesAll ((r.bind [x]).enter params body) body
  | .loop x start next body =>
    r.firstUses x start ++ (r.bind [x]).uses next ++ Code.usesAll ((r.bind [x]).enter [] body) body

/-- The uses of names in pieces. -/
def Code.usesAll (r : Reach) : List Code → List Use
  | [] => []
  | c :: cs => c.uses r ++ Code.usesAll (r.after c) cs

end

section
variable {r : Reach} {names : List Text} {x : Text}

theorem holds_bind : (r.bind names).Holds x ↔ x ∈ names ∨ r.Holds x := by
  by_cases hx : x ∈ names <;> simp [Reach.Holds, Reach.bind, hx]

theorem holds_hide : (r.hide names).Holds x ↔ r.Holds x ∧ x ∉ names := by
  by_cases hx : x ∈ names <;> simp [Reach.Holds, Reach.hide, hx]

theorem holds_enter {head : List Text} {body : List Code} :
    (r.enter head body).Holds x ↔ x ∈ head ∨ x ∈ functions body ∨ r.Holds x ∧ x ∉ lets body := by
  rw [Reach.enter, holds_bind, holds_hide, List.mem_append, or_assoc]

/-- A block whose `let`s are fresh for names in reach hides none of them. -/
theorem holds_enter_of_fresh {V : Set Text} (head : List Text) {body : List Code} (hfresh : Fresh V body)
    (hV : ∀ y ∈ V, y ∈ head ∨ r.Holds y) : ∀ y ∈ V, (r.enter head body).Holds y := by
  intro y hy
  have hlet : y ∉ lets body := fun hmem => hfresh.not_mem hmem hy
  exact holds_enter.2 ((hV y hy).imp_right fun hr => .inr ⟨hr, hlet⟩)

theorem holds_lose : (r.lose names).Holds x ↔ r.Holds x ∨ x ∈ names := by
  by_cases hx : x ∈ r.bound
  · simp [Reach.Holds, Reach.lose, hx]
  · simp [Reach.Holds, Reach.lose, hx, or_comm]

/-- Behind a piece everything is in reach that was before it, and what the piece declares. -/
theorem holds_after {c : Code} : (r.after c).Holds x ↔ r.Holds x ∨ x ∈ c.introduced := by
  cases c with
  | plain _ | loop _ _ _ _ => simp [Reach.after, Code.introduced]
  | letting y _ | function y _ _ =>
    rw [Reach.after, Code.introduced, holds_bind]
    exact or_comm
  | block body =>
    rw [Reach.after, Code.introduced]
    exact holds_lose

end

theorem introducedAll_append (cs ds : List Code) : introducedAll (cs ++ ds) = introducedAll cs ++ introducedAll ds := by
  induction cs with
  | nil => rfl
  | cons c cs ih => simp [introducedAll, ih]

theorem holds_afterAll {r : Reach} {cs : List Code} {x : Text} :
    (cs.foldl Reach.after r).Holds x ↔ r.Holds x ∨ x ∈ introducedAll cs := by
  induction cs generalizing r with
  | nil => simp [introducedAll]
  | cons c cs ih => simp [introducedAll, ih, holds_after, or_assoc]

theorem usesAll_append (r : Reach) (cs ds : List Code) :
    usesAll r (cs ++ ds) = usesAll r cs ++ usesAll (cs.foldl Reach.after r) ds := by
  induction cs generalizing r with
  | nil => rfl
  | cons c cs ih => simp [usesAll, ih]

theorem usesAll_single (r : Reach) (c : Code) : usesAll r [c] = c.uses r := List.append_nil _

theorem usesAll_plains (r : Reach) (fs : List Fragment) : usesAll r (plains fs) = r.uses fs := by
  induction fs with
  | nil => rfl
  | cons f fs ih =>
    have hone : r.uses (f :: fs) = r.uses [f] ++ r.uses fs := by
      cases f <;> simp [Reach.uses]
    rw [hone, ← ih]
    rfl

theorem functions_subset_introduced (cs : List Code) : functions cs ⊆ introducedAll cs := by
  intro x hx
  obtain ⟨before, params, body, after, rfl⟩ := mem_functions.1 hx
  rw [introducedAll_append]
  exact List.mem_append_right _ List.mem_cons_self

/-- A use is of a name that is bound or lost there, or of the variable of the loop whose first value it is in. -/
def Use.Reached (u : Use) : Prop := u.reach.Holds u.name ∨ u.awaited = some u.name

theorem Use.Reached.unbound_iff {u : Use} (h : u.Reached) :
    u.name ∉ u.reach.bound ↔ u.name ∈ u.reach.lost ∨ u.awaited = some u.name := by
  constructor
  · intro hunbound
    exact h.imp_left fun hholds => hholds.resolve_left hunbound
  · rintro (hlost | hawaited)
    · exact u.reach.apart u.name hlost
    · exact u.unset u.name hawaited

theorem uses_reached {r : Reach} {V : Set Text} {fs : List Fragment} (hV : ∀ x ∈ V, r.Holds x)
    (hfs : ∀ x ∈ Fragment.names fs, x ∈ V) : ∀ u ∈ r.uses fs, u.Reached := by
  intro u hu
  obtain ⟨x, hx, rfl⟩ := List.mem_map.1 hu
  exact .inl (hV x (hfs x hx))

theorem firstUses_reached {r : Reach} {V : Set Text} {x : Text} {fs : List Fragment} (hV : ∀ y ∈ V, r.Holds y)
    (hfs : ∀ y ∈ Fragment.names fs, y ∈ V) : ∀ u ∈ r.firstUses x fs, u.Reached := by
  intro u hu
  obtain ⟨y, hy, rfl⟩ := List.mem_map.1 hu
  by_cases hyx : y = x
  · exact .inr (by rw [hyx])
  · exact .inl (holds_hide.2 ⟨hV y (hfs y hy), by simpa using hyx⟩)

/-- Where the visible names are in reach, every use is of a name in reach, and so it is behind the code. -/
theorem Unfolds.reached {V W : Set Text} {cs : List Code} (h : Unfolds V W cs) {r : Reach} (hV : ∀ x ∈ V, r.Holds x) :
    (∀ u ∈ usesAll r cs, u.Reached) ∧ ∀ x ∈ W, (cs.foldl Reach.after r).Holds x := by
  have hinsert : ∀ {x : Text} {V : Set Text} {r : Reach}, (∀ y ∈ V, r.Holds y) →
      ∀ y ∈ insert x V, (r.bind [x]).Holds y := by
    intro x V r hV y hy
    rw [holds_bind, List.mem_singleton]
    exact hy.imp_right (hV y)
  induction h generalizing r with
  | append _ _ ihc ihd =>
    obtain ⟨huses, hV⟩ := ihc hV
    obtain ⟨huses', hW⟩ := ihd hV
    rw [usesAll_append, List.foldl_append]
    exact ⟨List.forall_mem_append.2 ⟨huses, huses'⟩, hW⟩
  | plain hf =>
    refine ⟨?_, fun x hx => holds_afterAll.2 (.inl (hV x hx))⟩
    rw [usesAll_plains]
    exact uses_reached hV hf
  | letting _ hvalue =>
    refine ⟨?_, hinsert hV⟩
    rw [usesAll_single, Code.uses]
    exact uses_reached hV hvalue
  | @block _ _ body hbody ih =>
    obtain ⟨huses, hW⟩ := ih (holds_enter_of_fresh [] hbody.declares.fresh fun y hy => .inr (hV y hy))
    rw [usesAll_single, Code.uses]
    -- what the block declares is in reach behind it, though no longer bound
    refine ⟨huses, fun x hx => ?_⟩
    have hreach : r.Holds x ∨ x ∈ Code.introduced (.block body) := by
      rcases holds_afterAll.1 (hW x hx) with hentered | hintroduced
      · rcases holds_enter.1 hentered with hnil | hfunction | ⟨hr, -⟩
        · simp at hnil
        · exact .inr (functions_subset_introduced body hfunction)
        · exact .inl hr
      · exact .inr hintroduced
    exact holds_after.2 hreach
  | @function V _ x params body hbody ih =>
    have hentered := holds_enter_of_fresh params hbody.declares.fresh fun y hy => hy.imp_right (hinsert hV y)
    rw [usesAll_single, Code.uses]
    exact ⟨(ih hentered).1, hinsert hV⟩
  | loop hstart hnext hbody ih =>
    have hentered := holds_enter_of_fresh [] hbody.declares.fresh fun y hy => .inr (hinsert hV y hy)
    rw [usesAll_single, Code.uses]
    exact ⟨List.forall_mem_append.2 ⟨List.forall_mem_append.2 ⟨firstUses_reached hV hstart,
      uses_reached (hinsert hV) hnext⟩, (ih hentered).1⟩, hV⟩

end JavaScript

/-- The uses of names in a rendered program. -/
def Program.uses (p : Program) : List Use := Code.usesAll (Reach.empty.enter [] p.code) p.code

namespace Compile

/-- A name that a rendered program reads, calls or assigns without `let` is bound there, by a `let` before it or a
function in the block or one around it, a parameter or a loop variable, with exactly two exceptions: names that were
declared in a block of a conditional or a loop with a test that has ended, and that nothing binds since; and the
variable of a loop in the first value of that loop, where it is declared and has no value. -/
theorem unbound_iff_lost {o : Options} {source : Text} {out : Output} (h : compile o source = .ok out) :
    out.program.render = some (Code.spelling out.program.code) ∧
      ∀ u ∈ out.program.uses, u.name ∉ u.reach.bound ↔ u.name ∈ u.reach.lost ∨ u.awaited = some u.name := by
  obtain ⟨W, hunfolds⟩ := compile_unfolds h
  obtain ⟨hreached, -⟩ := @Unfolds.reached ∅ W _ hunfolds (Reach.empty.enter [] out.program.code) (by simp)
  exact ⟨compile_spelling h, fun u hu => (hreached u hu).unbound_iff⟩

/-- A function that uses a name bound around it, one that was declared in a branch before it, and one that it gives to
a loop whose first value is that name. The loop's name is not bound in that value, nor the branch's in the test. -/
theorem unbound_iff_lost_function :
    ∃ out, compile {} "c = 1\nif c:\n    x = 1\ndef f(a):\n    for a in range(a, x):\n        print(c)\n" = .ok out ∧
      (out.program.uses.filter fun u => u.name ∉ u.reach.bound).map (·.name) = [("a" : Text), "x"] ∧
      out.program.render = some (Code.spelling out.program.code) ∧
      ∀ u ∈ out.program.uses, u.name ∉ u.reach.bound ↔ u.name ∈ u.reach.lost ∨ u.awaited = some u.name := by
  obtain ⟨out, hout, hunbound⟩ := Option.map_eq_some_iff.1 (show (compile {}
    "c = 1\nif c:\n    x = 1\ndef f(a):\n    for a in range(a, x):\n        print(c)\n").toOption.map (fun out =>
      (out.program.uses.filter fun u => u.name ∉ u.reach.bound).map (·.name)) = some [("a" : Text), "x"] by
        decide +kernel)
  have h := ok_of_toOption hout
  exact ⟨out, h, hunbound, unbound_iff_lost h⟩

/-- A source compiles to a program with the given text, in which a name is used where it is not bound. -/
def RendersUnbound (source text : Text) : Prop :=
  ∃ out, compile {} source = .ok out ∧ out.program.render = some text ∧
    ∃ u ∈ out.program.uses, u.name ∉ u.reach.bound

theorem rendersUnbound_of_run {source text : Text}
    (hrun : (compile {} source).toOption.map (fun out =>
      (out.program.render, out.program.uses.any fun u => decide (u.name ∉ u.reach.bound))) = some (some text, true)) :
    RendersUnbound source text := by
  obtain ⟨out, hout, hpair⟩ := Option.map_eq_some_iff.1 hrun
  obtain ⟨hrender, hany⟩ := Prod.mk.inj hpair
  obtain ⟨u, hu, hunbound⟩ := List.any_eq_true.1 hany
  exact ⟨out, ok_of_toOption hout, hrender, u, hu, of_decide_eq_true hunbound⟩

/-- A name is declared in a branch and read behind it: its `let` has ended with the block of the branch. And a loop
begins at the value of a name that it takes for its variable: that name is the variable already. -/
theorem unbound_behind_branch_and_in_head :
    RendersUnbound "c = 1\nif c:\n    x = 1\nprint(x)\n"
      "let c = 1;if (c) \x7b let x = 1 \x7d;console.log(x)" ∧
    RendersUnbound "i = 1\nfor i in range(i, 5):\n    print(i)\n"
      "let i = 1;for (let i=i;(function(n,r,t)\x7breturn 0<=t?n<r:r<n\x7d)(i,5,1);i+=1)\x7bconsole.log(i)\x7d" :=
  ⟨rendersUnbound_of_run (by decide +kernel), rendersUnbound_of_run (by decide +kernel)⟩

end Compile

end Offside
