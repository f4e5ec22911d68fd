import Mathlib.Data.Set.Operations
import Mathlib.Order.Bounds.Defs
import Offside.Proofs.Grammar.Statement
import Offside.Proofs.Lexer.Grammar

/-!
# Blocks and layout

The bodies of the blocks in a tree, at every depth, and the indents and dedents in the tokens that it derives
from. Main statement: the tokens of a phrase close every block that they open, they have one indent for each
body, no body is empty, and as many blocks as nest in the tree are open at once (`Blocks`, `blocks_statement`,
`blocks_block`).
-/

namespace Offside

mutual

/-- The bodies of the blocks in a statement. -/
def Stmt.bodies : Stmt → List (List Stmt)
  | .ifChain clauses => Clause.bodiesAll clauses
  | .whileLoop _ body | .forRange _ _ _ _ body _ | .define _ _ body _ => body :: Stmt.bodiesAll body
  | .block body => Stmt.bodiesAll body
  | .expression _ | .assign .. | .ret _ | .print _ => []

/-- The bodies of the blocks in statements. -/
def Stmt.bodiesAll : List Stmt → List (List Stmt)
  | [] => []
  | s :: ss => s.bodies ++ Stmt.bodiesAll ss

/-- The bodies of clauses and of the blocks in them. -/
def Clause.bodiesAll : List Clause → List (List Stmt)
  | [] => []
  | .mk _ body :: cs => body :: Stmt.bodiesAll body ++ Clause.bodiesAll cs

end

mutual

/-- How many bodies lie inside one another in a statement. -/
def Stmt.height : Stmt → Nat
  | .ifChain clauses => Clause.heightAll clauses
  | .whileLoop _ body | .forRange _ _ _ _ body _ | .define _ _ body _ => Stmt.heightAll body + 1
  | .block body => Stmt.heightAll body
  | .expression _ | .assign .. | .ret _ | .print _ => 0

/-- How many bodies lie inside one another in statements. -/
def Stmt.heightAll : List Stmt → Nat
  | [] => 0
  | s :: ss => max s.height (Stmt.heightAll ss)

/-- How many bodies lie inside one another in clauses. -/
def Clause.heightAll : List Clause → Nat
  | [] => 0
  | .mk _ body :: cs => max (Stmt.heightAll body + 1) (Clause.heightAll cs)

end

namespace Token.Kind

/-! ## How many blocks are open at once -/

/-- How many more blocks are opened than closed. -/
def rise (ks : List Kind) : Int := ks.count .indent - ks.count .dedent

/-- At most so many more blocks are opened than closed in front of any place, and so many at one. -/
def Peak (ks : List Kind) (height : Nat) : Prop := IsGreatest (Set.range fun n => rise (ks.take n)) (height : Int)

section
variable {ks ls : List Kind} {a b : Nat}

theorem rise_append (ks ls : List Kind) : rise (ks ++ ls) = rise ks + rise ls := by
  simp only [rise, List.count_append, Int.natCast_add]
  omega

theorem peak_level (h : ∀ k ∈ ks, k ≠ .indent ∧ k ≠ .dedent) : Peak ks 0 := by
  have hrise (n : Nat) : rise (ks.take n) = 0 := by
    have hi : (ks.take n).count .indent = 0 := List.count_eq_zero.2 fun hk => (h _ (List.mem_of_mem_take hk)).1 rfl
    have hd : (ks.take n).count .dedent = 0 := List.count_eq_zero.2 fun hk => (h _ (List.mem_of_mem_take hk)).2 rfl
    simp [rise, hi, hd]
  refine ⟨⟨0, hrise 0⟩, ?_⟩
  rintro _ ⟨n, rfl⟩
  exact Int.le_of_eq (hrise n)

/-- Behind kinds that close what they open the count begins anew. -/
theorem Peak.append (h : Peak ks a) (h' : Peak ls b) (hks : rise ks = 0) : Peak (ks ++ ls) (max a b) := by
  have htake (n : Nat) : rise ((ks ++ ls).take n) = rise (ks.take n) + rise (ls.take (n - ks.length)) := by
    rw [List.take_append, rise_append]
  constructor
  · rcases Nat.le_total a b with hab | hab
    · obtain ⟨n, hn⟩ := h'.1
      refine ⟨ks.length + n, ?_⟩
      dsimp only at hn ⊢
      rw [htake, List.take_of_length_le (Nat.le_add_right _ _), hks, Nat.add_sub_cancel_left, hn, Nat.max_eq_right hab]
      omega
    · obtain ⟨n, hn⟩ := h.1
      refine ⟨min n ks.length, ?_⟩
      dsimp only at hn ⊢
      rw [htake, Nat.sub_eq_zero_of_le (Nat.min_le_right _ _), List.take_zero, Nat.max_eq_left hab, ← hn,
        ← List.take_eq_take_min]
      exact Int.add_zero _
  · rintro _ ⟨n, rfl⟩
    dsimp only
    rw [htake]
    rcases Nat.le_total n ks.length with hn | hn
    · have hle : rise (ks.take n) ≤ a := h.2 ⟨n, rfl⟩
      have hnone : rise (ls.take 0) = 0 := rfl
      rw [Nat.sub_eq_zero_of_le hn, hnone]
      omega
    · have hle : rise (ls.take (n - ks.length)) ≤ b := h'.2 ⟨_, rfl⟩
      rw [List.take_of_length_le hn, hks]
      omega

theorem Peak.indent (h : Peak ks a) : Peak (.indent :: ks) (a + 1) := by
  have hrise (ls : List Kind) : rise (.indent :: ls) = rise ls + 1 := by
    simp only [rise, List.count_cons_self, List.count_cons_of_ne (show Kind.indent ≠ .dedent by decide)]
    omega
  constructor
  · obtain ⟨n, hn⟩ := h.1
    refine ⟨n + 1, ?_⟩
    dsimp only at hn ⊢
    rw [List.take_succ_cons, hrise, hn]
    omega
  · rintro _ ⟨n, rfl⟩
    dsimp only
    cases n with
    | zero =>
      have hnone : rise ((.indent :: ks).take 0) = 0 := rfl
      omega
    | succ n =>
      have hle : rise (ks.take n) ≤ a := h.2 ⟨n, rfl⟩
      rw [List.take_succ_cons, hrise]
      omega

theorem peak_dedent : Peak [.dedent] 0 := by
  refine ⟨⟨0, rfl⟩, ?_⟩
  rintro _ ⟨n, rfl⟩
  cases n with
  | zero => decide
  | succ n => simp [rise]

end

/-- The kinds that open and close no block. -/
theorem nests_content {ks : List Kind} (h : ∀ k ∈ ks, k.isStructural = false) (d : Nat) : Nests d ks d := by
  induction ks with
  | nil => exact .nil d
  | cons k ks ih =>
    obtain ⟨hk, hks⟩ := List.forall_mem_cons.1 h
    refine .other ?_ ?_ (ih hks)
    · rintro rfl
      cases hk
    · rintro rfl
      cases hk

end Token.Kind

namespace Grammar

open Offside.Scanner Offside.Statement Token.Kind

/-- The tokens close every block that they open. They have an indent for each of the bodies, none of which is
empty, and they open at most `height` blocks at once, and so many somewhere. -/
structure Blocks (ts : List Token) (bodies : List (List Stmt)) (height : Nat) : Prop where
  nests : ∀ d, Nests d (kindsOf ts) d
  count : (kindsOf ts).count .indent = bodies.length
  nonempty : ∀ body ∈ bodies, body ≠ []
  peak : Peak (kindsOf ts) height

section
variable {ts us : List Token} {bodies bodies' : List (List Stmt)} {m n : Nat}

theorem Blocks.rise (h : Blocks ts bodies n) : rise (kindsOf ts) = 0 := by
  have hcount := (h.nests 0).count
  simp only [Token.Kind.rise]
  omega

theorem Blocks.append (h : Blocks ts bodies m) (h' : Blocks us bodies' n) :
    Blocks (ts ++ us) (bodies ++ bodies') (max m n) where
  nests d := by
    rw [kindsOf, List.map_append]
    exact (h.nests d).append (h'.nests d)
  count := by
    rw [kindsOf, List.map_append, List.count_append, List.length_append]
    exact congr (congrArg _ h.count) h'.count
  nonempty := List.forall_mem_append.2 ⟨h.nonempty, h'.nonempty⟩
  peak := by
    rw [kindsOf, List.map_append]
    exact h.peak.append h'.peak h.rise

theorem blocks_content (h : ∀ t ∈ ts, t.kind.isStructural = false) : Blocks ts [] 0 where
  nests := nests_content (by simpa [kindsOf] using h)
  count := by
    refine List.count_eq_zero.2 fun hmem => ?_
    obtain ⟨t, ht, hk⟩ := List.mem_map.1 hmem
    have hcontent := h t ht
    rw [hk] at hcontent
    cases hcontent
  nonempty := nofun
  peak := by
    refine peak_level fun k hk => ?_
    obtain ⟨t, ht, rfl⟩ := List.mem_map.1 hk
    have hcontent := h t ht
    constructor
    · intro hk
      simp [hk, isStructural] at hcontent
    · intro hk
      simp [hk, isStructural] at hcontent

/-- Content in front of a phrase has no part in its blocks. -/
theorem Blocks.behind (h : Blocks ts bodies n) (hus : ∀ t ∈ us, t.kind.isStructural = false) :
    Blocks (us ++ ts) bodies n := by
  have hall := (blocks_content hus).append h
  rwa [Nat.zero_max] at hall

theorem Blocks.cons (h : Blocks ts bodies n) {t : Token} (ht : t.kind.isStructural = false) :
    Blocks (t :: ts) bodies n := by
  have hcons : Blocks ([t] ++ ts) bodies n := h.behind (List.forall_mem_singleton.2 ht)
  exact hcons

theorem blocks_single {t : Token} {k : Token.Kind} (ht : t.kind = k) (hi : k ≠ .indent) (hd : k ≠ .dedent) :
    Blocks [t] [] 0 where
  nests d := by
    rw [kindsOf, List.map_singleton, ht]
    exact nests_single hi hd
  count := List.count_eq_zero.2 (by simpa [kindsOf, ht] using hi.symm)
  nonempty := nofun
  peak := peak_level (by simp [kindsOf, ht, hi, hd])

/-- An indent and the dedent that closes it make a block of what is between them. -/
theorem Blocks.indented (h : Blocks ts bodies n) {i d : Token} (hi : i.kind = .indent) (hd : d.kind = .dedent)
    {body : List Stmt} (hne : body ≠ []) : Blocks (i :: (ts ++ [d])) (body :: bodies) (n + 1) where
  nests n := by
    simp only [kindsOf, List.map_cons, List.map_append, List.map_nil, hi, hd]
    exact .indent ((h.nests (n + 1)).append (.dedent (.nil n)))
  count := by
    have hcount := h.count
    simp only [kindsOf] at hcount
    simp [kindsOf, hi, hd, List.count_append, hcount]
  nonempty := List.forall_mem_cons.2 ⟨hne, h.nonempty⟩
  peak := by
    have hbody := (h.peak.append peak_dedent h.rise).indent
    rw [Nat.max_zero] at hbody
    simpa [kindsOf, hi, hd] using hbody

end

/-! ## Phrases -/

/-- The tokens of the phrase are content. -/
def InLine {α : Type} (A : Phrase Token α) : Prop := ∀ ts a, A ts a → ∀ t ∈ ts, t.kind.isStructural = false

/-- The tokens of a block, of which the phrase says what they mean, have its body and those in it. -/
def Blocky (B : Phrase Token (List Stmt)) : Prop :=
  ∀ ts body, B ts body → Blocks ts (body :: Stmt.bodiesAll body) (Stmt.heightAll body + 1)

section
variable {α : Type} {A : Phrase Token α} {E : Phrase Token Expr} {B : Phrase Token (List Stmt)} {ts : List Token}

theorem inLine_items (hA : InLine A) : InLine (Items isComma A) := by
  intro ts xs h
  have hcomma : ∀ t, isComma t = true → t.kind.isStructural = false := fun t ht => by
    rw [kind_of_isDelimiter ht]
    rfl
  exact ((Items.only_iff hcomma).1 (h.imp fun _ _ hx => ⟨hx, hA _ _ hx⟩)).2

theorem inLine_optItems (hA : InLine A) : InLine (OptItems isComma A) := by
  intro ts xs h
  cases h with
  | none => exact List.forall_mem_nil _
  | some h => exact inLine_items hA _ _ h

theorem inLine_name : InLine Name := by
  rintro _ _ ⟨ht⟩
  rw [List.forall_mem_singleton, ht]
  rfl

theorem blocks_simple (hE : InLine E) {s : Stmt} (h : Simple E ts s) : Blocks ts s.bodies s.height := by
  cases h with
  | ret ht => exact blocks_content (List.forall_mem_singleton.2 (content_keyword ht))
  | values ht hx => exact (blocks_content (inLine_items hE _ _ hx)).cons (content_keyword ht)
  | print ht hl hx hr =>
    have hargs := blocks_content (inLine_optItems hE _ _ hx)
    have hclose := blocks_content (List.forall_mem_singleton.2 (content_bracket hr))
    exact ((hargs.append hclose).cons (content_bracket hl)).cons (content_keyword ht)
  | assign ht ho hx =>
    exact ((blocks_content (hE _ _ hx)).cons (content_operator ho)).cons (content_identifier ht)
  | expression hx => exact blocks_content (hE _ _ hx)

theorem blocks_elifs (hE : InLine E) (hB : Blocky B) {cs : List Clause} (h : Elifs E B ts cs) :
    Blocks ts (Clause.bodiesAll cs) (Clause.heightAll cs) := by
  induction h with
  | done => exact blocks_content (List.forall_mem_nil _)
  | elif ht hx hb _ ih => exact (((hB _ _ hb).append ih).behind (hE _ _ hx)).cons (content_keyword ht)
  | last ht hb =>
    simpa [Clause.bodiesAll, Clause.heightAll] using (hB _ _ hb).cons (content_keyword ht)

theorem blocks_compound (hE : InLine E) (hB : Blocky B) {s : Stmt} (h : Compound E B ts s) :
    Blocks ts s.bodies s.height := by
  cases h with
  | ifChain ht hx hb hrest =>
    have hclauses := (hB _ _ hb).append (blocks_elifs hE hB hrest)
    exact (hclauses.behind (hE _ _ hx)).cons (content_keyword ht)
  | forRange ht hn hi hk hl hx hargs hr hb =>
    have hbody := ((hB _ _ hb).cons (content_bracket hr)).behind (inLine_items hE _ _ hx)
    exact ((((hbody.cons (content_bracket hl)).cons (content_keyword hk)).cons (content_operator hi)).cons
      (content_identifier hn)).cons (content_keyword ht)
  | whileLoop ht hx hb => exact ((hB _ _ hb).behind (hE _ _ hx)).cons (content_keyword ht)
  | define ht hn hl hx hr hb =>
    have hparams := ((hB _ _ hb).cons (content_bracket hr)).behind (inLine_optItems inLine_name _ _ hx)
    exact ((hparams.cons (content_bracket hl)).cons (content_identifier hn)).cons (content_keyword ht)

theorem blocks_statement (hE : InLine E) (hB : Blocky B) {s : Stmt} (h : AnyStatement E B ts s) :
    Blocks ts s.bodies s.height := by
  cases h with
  | simple h hn =>
    have hline := (blocks_simple hE h).append (blocks_single hn (by decide) (by decide))
    rwa [List.append_nil, Nat.max_zero] at hline
  | compound h => exact blocks_compound hE hB h

theorem blocks_statements (hE : InLine E) (hB : Blocky B) {ss : List Stmt} (h : Statements (AnyStatement E B) ts ss) :
    Blocks ts (Stmt.bodiesAll ss) (Stmt.heightAll ss) := by
  induction h with
  | done => exact blocks_content (List.forall_mem_nil _)
  | more h _ ih => exact (blocks_statement hE hB h).append ih

end

theorem inLine_expr (n : Nat) : InLine (DerivesExpr n) := fun _ _ h => Derives.content h

/-- The layout of a block is that of its tree, by induction on how deep it may nest. -/
theorem blocks_block (n : Nat) : Blocky (DerivesBlock n) := by
  induction n with
  | zero =>
    intro ts body h
    cases h
  | succ n ih =>
    rintro _ body ⟨hc, hn, hi, hx, hne, hd⟩
    have hbody := (blocks_statements (inLine_expr n) ih hx).indented hi hd hne
    have hline := (blocks_single hn (by decide) (by decide)).append hbody
    rw [Nat.zero_max] at hline
    exact hline.cons (content_of_kind (kind_of_isDelimiter hc) rfl)

theorem blocks_program {n : Nat} {ts : List Token} {ss : List Stmt} (h : DerivesProgram n ts ss) :
    Blocks ts (Stmt.bodiesAll ss) (Stmt.heightAll ss) := by
  obtain ⟨hss, ht⟩ := h
  have hend := blocks_single ht (by decide) (by decide)
  have hall := (blocks_statements (inLine_expr n) (blocks_block n) hss).append hend
  rwa [List.append_nil, Nat.max_zero] at hall

end Grammar

end Offside
