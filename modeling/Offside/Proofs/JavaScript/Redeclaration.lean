import Offside.Proofs.JavaScript.Emission

/-!
# Names declared twice

No block of JavaScript may declare a name by two `let`s, by a `let` and a function, or by a `let` of a name that
its head binds. A `let` is rendered only for a name that is not visible, but a function whatever is visible. Main
statement: a block of a rendered program redeclares a name exactly by a function that follows a `let` of its name
(`redeclares_iff`).
-/

namespace Offside

open Offside.JavaScript

namespace JavaScript

namespace Code

/-- The names that pieces declare by `let`, blocks inside them apart. -/
def lets (cs : List Code) : List Text :=
  cs.filterMap fun
    | letting x _ => some x
    | _ => none

/-- The names that pieces declare by `function`, blocks inside them apart. -/
def functions (cs : List Code) : List Text :=
  cs.filterMap fun
    | function x _ _ => some x
    | _ => none

section
variable {cs ds : List Code} {x : Text}

@[simp] theorem lets_append : lets (cs ++ ds) = lets cs ++ lets ds := List.filterMap_append

@[simp] theorem functions_append : functions (cs ++ ds) = functions cs ++ functions ds := List.filterMap_append

theorem mem_lets : x ∈ lets cs ↔ ∃ before value after, cs = before ++ letting x value :: after := by
  constructor
  · intro h
    obtain ⟨c, hc, hx⟩ := List.mem_filterMap.1 h
    cases c with
    | letting y value =>
      cases hx
      obtain ⟨before, after, rfl⟩ := List.append_of_mem hc
      exact ⟨before, value, after, rfl⟩
    | _ => cases hx
  · rintro ⟨before, value, after, rfl⟩
    simp [lets]

theorem mem_functions :
    x ∈ functions cs ↔ ∃ before params body after, cs = before ++ function x params body :: after := by
  constructor
  · intro h
    obtain ⟨c, hc, hx⟩ := List.mem_filterMap.1 h
    cases c with
    | function y params body =>
      cases hx
      obtain ⟨before, after, rfl⟩ := List.append_of_mem hc
      exact ⟨before, params, body, after, rfl⟩
    | _ => cases hx
  · rintro ⟨before, params, body, after, rfl⟩
    simp [functions]

@[simp] theorem lets_plains (fs : List Fragment) : lets (plains fs) = [] := by simp [lets, plains]

@[simp] theorem functions_plains (fs : List Fragment) : functions (plains fs) = [] := by simp [functions, plains]

end

end Code

open Code

/-- A block between braces, or the whole program. -/
structure Block where
  /-- The names that a parameter list or a loop head binds for the block. -/
  head : List Text := []
  body : List Code

namespace Block

/-- A name is declared twice: by two `let`s, by a `let` and a `function`, or by a `let` and the head. -/
def Redeclares (b : Block) : Prop :=
  ¬ (lets b.body).Nodup ∨ ∃ x ∈ lets b.body, x ∈ functions b.body ∨ x ∈ b.head

instance (b : Block) : Decidable b.Redeclares :=
  inferInstanceAs (Decidable (¬ (lets b.body).Nodup ∨ ∃ x ∈ lets b.body, x ∈ functions b.body ∨ x ∈ b.head))

end Block

mutual

/-- The blocks of a piece. -/
def Code.blocks : Code → List Block
  | .plain _ | .letting .. => []
  | .block body => { body } :: Code.blocksAll body
  | .function _ params body => { head := params, body } :: Code.blocksAll body
  | .loop name _ _ body => { head := [name], body } :: Code.blocksAll body

/-- The blocks of pieces, at any depth. -/
def Code.blocksAll : List Code → List Block
  | [] => []
  | c :: cs => c.blocks ++ Code.blocksAll cs

end

theorem blocksAll_append (cs ds : List Code) : blocksAll (cs ++ ds) = blocksAll cs ++ blocksAll ds := by
  induction cs with
  | nil => rfl
  | cons c cs ih => simp [blocksAll, ih]

theorem blocksAll_single (c : Code) : blocksAll [c] = c.blocks := List.append_nil _

theorem blocksAll_plains (fs : List Fragment) : blocksAll (plains fs) = [] := by
  induction fs with
  | nil => rfl
  | cons f fs ih => exact ih

/-- No `let` names what is in `V`, nor what is declared before it. -/
def Fresh (V : Set Text) (cs : List Code) : Prop :=
  ∀ before x value after, cs = before ++ .letting x value :: after →
    x ∉ V ∧ x ∉ lets before ∧ x ∉ functions before

section
variable {U V W : Set Text} {cs ds : List Code}

theorem Fresh.mono (h : Fresh V cs) (hU : U ⊆ V) : Fresh U cs := by
  intro before x value after hcs
  obtain ⟨hx, hbefore⟩ := h before x value after hcs
  exact ⟨fun hmem => hx (hU hmem), hbefore⟩

theorem Fresh.not_mem (h : Fresh V cs) {x : Text} (hx : x ∈ lets cs) : x ∉ V := by
  obtain ⟨before, value, after, hcs⟩ := mem_lets.1 hx
  exact (h before x value after hcs).1

/-- Behind code that declares only what is in `V`, a `let` that is fresh for `V` is fresh. -/
theorem Fresh.append (hc : Fresh U cs) (hd : Fresh V ds) (hU : U ⊆ V) (hlets : ∀ x ∈ lets cs, x ∈ V)
    (hfunctions : ∀ x ∈ functions cs, x ∈ V) : Fresh U (cs ++ ds) := by
  intro before x value after h
  have hbehind : ∀ between, ds = between ++ .letting x value :: after →
      x ∉ U ∧ x ∉ lets (cs ++ between) ∧ x ∉ functions (cs ++ between) := by
    intro between hds
    obtain ⟨hx, hl, hf⟩ := hd between x value after hds
    rw [lets_append, functions_append, List.mem_append, List.mem_append]
    exact ⟨fun hmem => hx (hU hmem), fun hmem => hmem.elim (fun hmem => hx (hlets x hmem)) hl,
      fun hmem => hmem.elim (fun hmem => hx (hfunctions x hmem)) hf⟩
  rcases List.append_eq_append_iff.1 h with ⟨between, rfl, hds⟩ | ⟨rest, rfl, hrest⟩
  · exact hbehind between hds
  · -- the `let` stands in the first part, or it is the first piece of the second
    cases rest with
    | nil => simpa using hbehind [] hrest.symm
    | cons c rest =>
      cases hrest
      exact hc before x value rest rfl

theorem Fresh.nodup (h : Fresh V cs) : (lets cs).Nodup := by
  induction cs with
  | nil => exact List.nodup_nil
  | cons c cs ih =>
    have hrest : Fresh V cs := by
      intro before x value after hcs
      obtain ⟨hx, hl, hf⟩ := h ([c] ++ before) x value after (by rw [hcs]; rfl)
      rw [lets_append, List.mem_append, not_or] at hl
      rw [functions_append, List.mem_append, not_or] at hf
      exact ⟨hx, hl.2, hf.2⟩
    cases c with
    | letting x value =>
      refine List.nodup_cons.2 ⟨fun hx => ?_, ih hrest⟩
      obtain ⟨before, value', after, rfl⟩ := mem_lets.1 hx
      exact (h (.letting x value :: before) x value' after rfl).2.1 List.mem_cons_self
    | _ => exact ih hrest

/-- A block whose `let`s are fresh redeclares a name only by a function that follows a `let`. -/
theorem Block.redeclares_iff_of_fresh {b : Block} (h : Fresh {x | x ∈ b.head} b.body) :
    b.Redeclares ↔ ∃ before x value between params body after,
      b.body = before ++ .letting x value :: (between ++ .function x params body :: after) := by
  constructor
  · rintro (htwice | ⟨x, hlet, hagain⟩)
    · exact absurd h.nodup htwice
    · obtain ⟨before, value, rest, hbody⟩ := mem_lets.1 hlet
      obtain ⟨hhead, -, hbefore⟩ := h before x value rest hbody
      rcases hagain with hfunction | hmem
      · have hrest : x ∈ functions rest := by
          rw [hbody, functions_append, List.mem_append] at hfunction
          exact hfunction.resolve_left hbefore
        obtain ⟨between, params, body, after, rfl⟩ := mem_functions.1 hrest
        exact ⟨before, x, value, between, params, body, after, hbody⟩
      · exact absurd hmem hhead
  · rintro ⟨before, x, value, between, params, body, after, hbody⟩
    have hlet : x ∈ lets b.body := mem_lets.2 ⟨before, value, _, hbody⟩
    have hfunction : x ∈ functions b.body :=
      mem_functions.2 ⟨before ++ .letting x value :: between, params, body, after, by rw [hbody]; simp⟩
    exact .inr ⟨x, hlet, .inl hfunction⟩

/-- What code declares that is rendered between the visible names `V` and `W`: all of it is visible behind the code,
and every `let` is fresh, those in its blocks for the heads of the blocks. -/
structure Declares (V W : Set Text) (cs : List Code) : Prop where
  subset : V ⊆ W
  lets : ∀ x ∈ Code.lets cs, x ∈ W
  functions : ∀ x ∈ Code.functions cs, x ∈ W
  fresh : Fresh V cs
  blocks : ∀ b ∈ Code.blocksAll cs, Fresh {x | x ∈ b.head} b.body

theorem fresh_of_lets_nil (h : lets cs = []) : Fresh V cs := by
  intro before x value after hcs
  have hx : x ∈ lets cs := mem_lets.2 ⟨before, value, after, hcs⟩
  simp [h] at hx

/-- Rendered code declares like that. A block begins with all that is visible around it, its head among that. -/
theorem Unfolds.declares (h : Unfolds V W cs) : Declares V W cs := by
  induction h with
  | append _ _ ihc ihd =>
    refine ⟨ihc.subset.trans ihd.subset, ?_, ?_, ihc.fresh.append ihd.fresh ihc.subset ihc.lets ihc.functions, ?_⟩
    · rw [lets_append]
      exact List.forall_mem_append.2 ⟨fun x hx => ihd.subset (ihc.lets x hx), ihd.lets⟩
    · rw [functions_append]
      exact List.forall_mem_append.2 ⟨fun x hx => ihd.subset (ihc.functions x hx), ihd.functions⟩
    · rw [blocksAll_append]
      exact List.forall_mem_append.2 ⟨ihc.blocks, ihd.blocks⟩
  | plain _ =>
    exact ⟨subset_rfl, by simp, by simp, fresh_of_lets_nil (lets_plains _), by simp [blocksAll_plains]⟩
  | @letting V x value hx _ =>
    refine ⟨Set.subset_insert x V, by simp [Code.lets], by simp [Code.functions], ?_, by simp [blocksAll, Code.blocks]⟩
    intro before y value' after h
    cases before with
    | nil =>
      cases h
      exact ⟨hx, List.not_mem_nil, List.not_mem_nil⟩
    | cons c before => simp at h
  | block _ ih =>
    refine ⟨ih.subset, by simp [Code.lets], by simp [Code.functions], fresh_of_lets_nil rfl, ?_⟩
    have hbody : Fresh {x | x ∈ ([] : List Text)} _ := ih.fresh.mono (by simp)
    rw [blocksAll_single, Code.blocks]
    exact List.forall_mem_cons.2 ⟨hbody, ih.blocks⟩
  | @function V _ x params _ _ ih =>
    refine ⟨Set.subset_insert x V, by simp [Code.lets], by simp [Code.functions], fresh_of_lets_nil rfl, ?_⟩
    have hbody : Fresh {y | y ∈ params} _ := ih.fresh.mono Set.subset_union_left
    rw [blocksAll_single, Code.blocks]
    exact List.forall_mem_cons.2 ⟨hbody, ih.blocks⟩
  | @loop V _ x _ _ _ _ _ _ ih =>
    refine ⟨subset_rfl, by simp [Code.lets], by simp [Code.functions], fresh_of_lets_nil rfl, ?_⟩
    have hbody : Fresh {y | y ∈ [x]} _ := ih.fresh.mono (by simp)
    rw [blocksAll_single, Code.blocks]
    exact List.forall_mem_cons.2 ⟨hbody, ih.blocks⟩

end

end JavaScript

/-- The blocks of a rendered program, the program itself among them. -/
def Program.blocks (p : Program) : List Block := { body := p.code } :: Code.blocksAll p.code

namespace Compile

/-- A block of a rendered program redeclares a name exactly by a function that follows, in the same block, a
`let` of its name. No block has two `let`s of a name, a `let` behind a function of its name, or a `let` of a
name that its parameters or its loop head bind. -/
theorem redeclares_iff {o : Options} {source : Text} {out : Output} (h : compile o source = .ok out) :
    out.program.render = some (Code.spelling out.program.code) ∧
      ∀ b ∈ out.program.blocks, b.Redeclares ↔ ∃ before x value between params body after,
        b.body = before ++ .letting x value :: (between ++ .function x params body :: after) := by
  obtain ⟨W, hunfolds⟩ := compile_unfolds h
  have hdeclares := hunfolds.declares
  have hfresh : ∀ b ∈ out.program.blocks, Fresh {x | x ∈ b.head} b.body :=
    List.forall_mem_cons.2 ⟨hdeclares.fresh.mono (by simp), hdeclares.blocks⟩
  exact ⟨compile_spelling h, fun b hb => Block.redeclares_iff_of_fresh (hfresh b hb)⟩

/-- A loop in a function, both of which assign what their heads bind. -/
theorem redeclares_iff_loop_in_function :
    ∃ out, compile {} "def f(a):\n    for i in range(a):\n        i = a\n        c = i\n    return a\n" = .ok out ∧
      out.program.render = some (Code.spelling out.program.code) ∧
      ∀ b ∈ out.program.blocks, b.Redeclares ↔ ∃ before x value between params body after,
        b.body = before ++ .letting x value :: (between ++ .function x params body :: after) := by
  obtain ⟨out, hout⟩ := Option.isSome_iff_exists.1 (show (compile {}
    "def f(a):\n    for i in range(a):\n        i = a\n        c = i\n    return a\n").toOption.isSome = true by
      decide +kernel)
  have h := ok_of_toOption hout
  exact ⟨out, h, redeclares_iff h⟩

/-- A name is assigned and then given to a function: the top level declares it twice. -/
theorem let_before_function :
    ∃ out, compile {} "x = 1\ndef x():\n    return\n" = .ok out ∧
      out.program.render = some ("let x = 1;function x()\x7breturn;\x7d" : Text) ∧
      ∃ b ∈ out.program.blocks, b.Redeclares := by
  have hrun : (compile {} "x = 1\ndef x():\n    return\n").toOption.map (fun out =>
      (out.program.render, out.program.blocks.any fun b => decide b.Redeclares)) =
        some (some ("let x = 1;function x()\x7breturn;\x7d" : Text), true) := by decide +kernel
  obtain ⟨out, hout, hpair⟩ := Option.map_eq_some_iff.1 hrun
  obtain ⟨hrender, hblock⟩ := Prod.mk.inj hpair
  obtain ⟨b, hb, hredeclares⟩ := List.any_eq_true.1 hblock
  exact ⟨out, ok_of_toOption hout, hrender, b, hb, of_decide_eq_true hredeclares⟩

end Compile

end Offside
