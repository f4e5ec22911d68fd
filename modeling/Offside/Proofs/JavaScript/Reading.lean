import Offside.Proofs.JavaScript.Grammar

/-!
# Reading a rendered expression

The tokens of a rendered expression derive the expression with all its enclosures in the grammar of
JavaScript. What decides it is that each operand binds at least as tightly as its place requires, which is
what rendering adds parentheses for. Main statement: JavaScript reads a rendered expression back, in one way
only and as the same expression but for enclosures, just when it has all its numbers (`reads_render_iff`).
-/

namespace Offside.JavaScript

open Offside.Grammar Offside.Piece Offside.Expr

/-! ## Levels -/

section
variable {X : Phrase Token Expr} {ts us : List Token} {l r e : Expr}

theorem tower_append (ls ms : List (List BinaryOp)) : tower (ls ++ ms) X = tower ms (tower ls X) := by
  induction ls generalizing X with
  | nil => rfl
  | cons ops ls ih => exact ih

theorem tower_single (h : X ts e) (ls : List (List BinaryOp)) : tower ls X ts e := by
  induction ls generalizing X with
  | nil => exact h
  | cons ops ls ih => exact ih (FoldLeft.single h)

/-- What binds tightly enough for one level does so for those above it. -/
theorem tower_le {k k' : Nat} (h : tower (levels.take k) X ts e) (hk : k ≤ k') : tower (levels.take k') X ts e := by
  obtain ⟨d, rfl⟩ := Nat.exists_eq_add_of_le hk
  rw [List.take_add, tower_append]
  exact tower_single h _

/-- An operator takes a left operand of its own level and a right operand of the level below. -/
theorem tower_binary {op : BinaryOp} (hop : op.rank ≠ 0) (hl : tower (levels.take op.rank) X ts l)
    (hr : tower (levels.take (op.rank - 1)) X us r) :
    tower (levels.take op.rank) X (ts ++ .operator op :: us) (.binary op l r) := by
  cases op with
  | power | other => exact absurd rfl hop
  | _ => exact FoldLeft.snoc hl rfl hr

end

/-! ## Operands -/

/-- The tokens derive the expression on the lowest level that it can stand on. -/
def Shaped (N : Phrase Token Expr) (ts : List Token) : Expr → Prop
  | .binary op l r => tower (levels.take op.rank) (Exponentiation N) ts (.binary op l r)
  | .unary op x => Unary N ts (.unary op x)
  | x => Member N ts x

section
variable {N : Phrase Token Expr} {ts : List Token} {x : Expr}

theorem Shaped.unary (h : Shaped N ts x) {op : UnaryOp} (hx : unaryNeeds op x = false) : Unary N ts x := by
  cases x with
  | binary => cases hx
  | unary => exact h
  | _ => exact .plain h

theorem Shaped.tower (h : Shaped N ts x) {k : Nat} (hk : x.rank ≤ k) :
    tower (levels.take k) (Exponentiation N) ts x := by
  cases x with
  | binary => exact tower_le h hk
  | unary => exact tower_single (.plain h) _
  | _ => exact tower_single (.plain (.plain h)) _

theorem Shaped.base (h : Shaped N ts x) (hx : x.WellSpelled) (hneeds : leftNeeds .power x = false) : Member N ts x := by
  cases x with
  | binary op l r =>
    rw [WellSpelled] at hx
    simp [leftNeeds_power hx.1] at hneeds
  | unary => simp [leftNeeds] at hneeds
  | _ => exact h

theorem Shaped.measured (h : Shaped N ts x) (hneeds : lengthNeeds x = false) : Member N ts x := by
  cases x with
  | binary | unary => cases hneeds
  | _ => exact h

end

/-! ## Deriving an expression from its tokens -/

@[simp] theorem tokens_nil : tokens [] = [] := rfl

@[simp] theorem tokens_append (ps qs : List Piece) : tokens (ps ++ qs) = tokens ps ++ tokens qs :=
  List.filterMap_append

theorem tokens_cons {p : Piece} {t : Token} (h : token? p = some t) (ps : List Piece) :
    tokens (p :: ps) = t :: tokens ps :=
  List.filterMap_cons_some h

theorem tokens_blank (ps : List Piece) : tokens (.blank :: ps) = tokens ps := rfl

theorem atom_name {w : Text} (h : w ∉ reserved) : atom? (.word w) = some (.access w false) := by
  have htrue : w ≠ "true" := by
    rintro rfl
    exact h (by decide)
  have hfalse : w ≠ "false" := by
    rintro rfl
    exact h (by decide)
  have hnull : w ≠ "null" := by
    rintro rfl
    exact h (by decide)
  simp [atom?, htrue, hfalse, hnull, h]

theorem atom_literal {kind : LiteralKind} {t : Text} (h : literalSpelled kind t) :
    ∃ u, token? (literalPiece kind t) = some u ∧ atom? u = some (.literal kind t) := by
  cases kind with
  | number => exact ⟨_, rfl, rfl⟩
  | string => exact ⟨_, rfl, rfl⟩
  | boolean =>
    refine ⟨_, rfl, ?_⟩
    rcases h with rfl | rfl <;> rfl
  | null =>
    obtain rfl := h
    exact ⟨_, rfl, rfl⟩
  | other => exact h.elim

theorem Member.primary {N : Phrase Token Expr} {ts : List Token} {x : Expr} (h : Primary N ts x) : Member N ts x := by
  have hdone := Member.mk h (Lengths.done x)
  rwa [List.append_nil] at hdone

theorem Lengths.snoc {x e : Expr} {ts : List Token} (h : Lengths x ts e) :
    Lengths x (ts ++ [.dot, .word "length"]) (.length e) := by
  induction h with
  | done x => exact .more (.done _)
  | more _ ih => exact .more ih

theorem Member.length {N : Phrase Token Expr} {ts : List Token} {x : Expr} (h : Member N ts x) :
    Member N (ts ++ [.dot, .word "length"]) (.length x) := by
  obtain ⟨hx, hrest⟩ := h
  rw [List.append_assoc]
  exact ⟨hx, hrest.snoc⟩

/-- An expression inside brackets. -/
theorem nested_derives {n : Nat} {ts : List Token} {x : Expr} (h : Shaped (Derives n) ts x) : Derives (n + 1) ts x := by
  have hrank : x.rank ≤ 6 := by
    cases x with
    | binary op l r => cases op <;> simp [Expr.rank, BinaryOp.rank]
    | _ => exact Nat.zero_le _
  exact h.tower hrank

mutual

theorem shaped_pieces : ∀ x : Expr, x.WellSpelled → x.IsGrouped → (∀ w ∈ x.names, w ∉ reserved) →
    ∀ n, x.nesting ≤ n → Shaped (Derives n) (tokens x.pieces) x
  | .literal kind t, h, _, _, n, _ => by
    rw [WellSpelled] at h
    obtain ⟨u, hu, hatom⟩ := atom_literal h
    rw [pieces, tokens_cons hu]
    exact .primary (.atom hatom)
  | .access name quoted, h, _, hw, n, _ => by
    rw [WellSpelled] at h
    obtain ⟨-, rfl⟩ := h
    rw [pieces, tokens_cons rfl]
    exact .primary (.atom (atom_name (hw name (by simp [names]))))
  | .call name args, h, hg, hw, n, hn => by
    rw [WellSpelled] at h
    rw [IsGrouped] at hg
    rw [names] at hw
    rw [nesting] at hn
    obtain ⟨hname, hw⟩ := List.forall_mem_cons.1 hw
    obtain ⟨m, rfl⟩ : ∃ m, n = m + 1 := ⟨n - 1, by omega⟩
    have hargs := shaped_piecesAll args h.2 hg hw m (by omega)
    rw [pieces, tokens_cons rfl, tokens_cons rfl, tokens_append, tokens_cons rfl]
    exact .primary (.call hname hargs)
  | .list items, h, hg, hw, n, hn => by
    rw [WellSpelled] at h
    rw [IsGrouped] at hg
    rw [names] at hw
    rw [nesting] at hn
    obtain ⟨m, rfl⟩ : ∃ m, n = m + 1 := ⟨n - 1, by omega⟩
    have hitems := shaped_piecesAll items h hg hw m (by omega)
    rw [pieces, tokens_cons rfl, tokens_append, tokens_cons rfl]
    exact .primary (.array hitems)
  | .enclosure inner, h, hg, hw, n, hn => by
    rw [WellSpelled] at h
    rw [IsGrouped] at hg
    rw [names] at hw
    rw [nesting] at hn
    obtain ⟨m, rfl⟩ : ∃ m, n = m + 1 := ⟨n - 1, by omega⟩
    have hinner := nested_derives (shaped_pieces inner h hg hw m (by omega))
    rw [pieces, tokens_cons rfl, tokens_append, tokens_cons rfl]
    exact .primary (.parens hinner)
  | .length operand, h, hg, hw, n, hn => by
    rw [WellSpelled] at h
    rw [IsGrouped] at hg
    rw [names] at hw
    rw [nesting] at hn
    have hoperand := (shaped_pieces operand h hg.2 hw n hn).measured hg.1
    rw [pieces, tokens_append, tokens_cons rfl, tokens_cons rfl]
    exact hoperand.length
  | .unary op operand, h, hg, hw, n, hn => by
    rw [WellSpelled] at h
    rw [IsGrouped] at hg
    rw [names] at hw
    rw [nesting] at hn
    have hoperand := (shaped_pieces operand h.2 hg.2 hw n hn).unary hg.1
    rcases h.1 with rfl | rfl
    · rw [pieces, tokens_cons (show token? (signPiece .negate) = some (.operator .subtract) from rfl)]
      exact .minus hoperand
    · rw [pieces, tokens_cons (show token? (signPiece .not) = some .not from rfl)]
      exact .not hoperand
  | .binary op l r, h, hg, hw, n, hn => by
    rw [WellSpelled] at h
    rw [IsGrouped] at hg
    rw [names] at hw
    rw [nesting] at hn
    obtain ⟨hop, hl, hr⟩ := h
    obtain ⟨⟨hleft, hgl⟩, hright, hgr⟩ := hg
    have hwl : ∀ w ∈ l.names, w ∉ reserved := fun w h => hw w (List.mem_append_left _ h)
    have hwr : ∀ w ∈ r.names, w ∉ reserved := fun w h => hw w (List.mem_append_right _ h)
    have hL := shaped_pieces l hl hgl hwl n (by omega)
    have hR := shaped_pieces r hr hgr hwr n (by omega)
    rw [pieces, tokens_append, tokens_blank, tokens_cons rfl, tokens_blank]
    by_cases hpower : op = .power
    · subst hpower
      exact .power (hL.base hl hleft) (hR.tower (right_rank hop hr hright))
    · have hrank : op.rank ≠ 0 := by
        cases op <;> simp_all [BinaryOp.rank, BinaryOp.symbol?]
      exact tower_binary hrank (hL.tower (left_rank hop hl hleft)) (hR.tower (right_rank hop hr hright))
  | .absent, h, _, _, _, _ | .atom _, h, _, _, _, _ | .atomOf _, h, _, _, _, _ | .sequence _, h, _, _, _, _ => by
    rw [WellSpelled] at h
    exact h.elim

theorem shaped_piecesAll : ∀ xs : List Expr, AreWellSpelled xs → AreGrouped xs → (∀ w ∈ namesAll xs, w ∉ reserved) →
    ∀ n, nestingAll xs ≤ n → OptItems isComma (Derives (n + 1)) (tokens (piecesAll xs)) xs
  | [], _, _, _, _, _ => .none
  | x :: xs, h, hg, hw, n, hn => by
    rw [AreWellSpelled] at h
    rw [AreGrouped] at hg
    rw [namesAll] at hw
    rw [nestingAll] at hn
    have hx := shaped_pieces x h.1 hg.1 (fun w h => hw w (List.mem_append_left _ h)) n (by omega)
    have hxs := shaped_piecesMore xs h.2 hg.2 (fun w h => hw w (List.mem_append_right _ h)) n (by omega)
    rw [piecesAll, tokens_append]
    exact .some (.mk (nested_derives hx) hxs)

theorem shaped_piecesMore : ∀ xs : List Expr, AreWellSpelled xs → AreGrouped xs → (∀ w ∈ namesAll xs, w ∉ reserved) →
    ∀ n, nestingAll xs ≤ n → MoreItems isComma (Derives (n + 1)) (tokens (piecesMore xs)) xs
  | [], _, _, _, _, _ => .done
  | x :: xs, h, hg, hw, n, hn => by
    rw [AreWellSpelled] at h
    rw [AreGrouped] at hg
    rw [namesAll] at hw
    rw [nestingAll] at hn
    have hx := shaped_pieces x h.1 hg.1 (fun w h => hw w (List.mem_append_left _ h)) n (by omega)
    have hxs := shaped_piecesMore xs h.2 hg.2 (fun w h => hw w (List.mem_append_right _ h)) n (by omega)
    rw [piecesMore, tokens_cons rfl, tokens_append]
    exact .more rfl (nested_derives hx) hxs

end

/-! ## The numbers that are read -/

/-- Each number of the expression is one of the tokens. -/
def Covers (ts : List Token) (e : Expr) : Prop := ∀ u ∈ e.numbers, .number u ∈ ts

section
variable {N : Phrase Token Expr}

theorem Covers.binary {ts us : List Token} {l r : Expr} (hl : Covers ts l) (hr : Covers us r) (t : Token)
    (op : BinaryOp) : Covers (ts ++ t :: us) (.binary op l r) := by
  intro u hu
  rw [numbers, List.mem_append] at hu
  rw [List.mem_append, List.mem_cons]
  exact hu.imp (hl u) fun hu => .inr (hr u hu)

theorem covers_foldRest {op? : Token → Option BinaryOp} {X : Phrase Token Expr} (h : ∀ ts e, X ts e → Covers ts e)
    {left e : Expr} {ts us : List Token} (hrest : FoldRest op? X left us e) (hleft : Covers ts left) :
    Covers (ts ++ us) e := by
  induction hrest generalizing ts with
  | done => rwa [List.append_nil]
  | @more left right e t op vs us ht hx _ ih =>
    have hmore := ih (hleft.binary (h _ _ hx) t op)
    simpa using hmore

theorem covers_tower {X : Phrase Token Expr} (h : ∀ ts e, X ts e → Covers ts e) (ls : List (List BinaryOp)) :
    ∀ ts e, tower ls X ts e → Covers ts e := by
  induction ls generalizing X with
  | nil => exact h
  | cons ops ls ih =>
    refine ih ?_
    rintro _ e ⟨hx, hrest⟩
    exact covers_foldRest h hrest (h _ _ hx)

theorem covers_moreItems (h : ∀ ts e, N ts e → Covers ts e) {ts : List Token} {xs : List Expr}
    (hx : MoreItems isComma N ts xs) : ∀ u ∈ numbersAll xs, .number u ∈ ts := by
  induction hx with
  | done => simp [numbersAll]
  | @more t ts us x xs ht hx _ ih =>
    intro u hu
    rw [numbersAll, List.mem_append] at hu
    rw [List.mem_cons, List.mem_append]
    exact .inr (hu.imp (h _ _ hx u) (ih u))

theorem covers_arguments (h : ∀ ts e, N ts e → Covers ts e) {ts : List Token} {xs : List Expr}
    (hx : OptItems isComma N ts xs) : ∀ u ∈ numbersAll xs, .number u ∈ ts := by
  cases hx with
  | none => simp [numbersAll]
  | some hx =>
    obtain ⟨hx, hrest⟩ := hx
    intro u hu
    rw [numbersAll, List.mem_append] at hu
    rw [List.mem_append]
    exact hu.imp (h _ _ hx u) (covers_moreItems h hrest u)

theorem covers_atom {t : Token} {e : Expr} (h : atom? t = some e) : Covers [t] e := by
  intro u hu
  unfold atom? at h
  split at h
  · cases h
    rw [numbers, List.mem_singleton] at hu
    simp [hu]
  · cases h
    cases hu
  · repeat' split at h
    all_goals cases h
    all_goals cases hu
  · cases h

theorem covers_primary (h : ∀ ts e, N ts e → Covers ts e) {ts : List Token} {e : Expr} (hx : Primary N ts e) :
    Covers ts e := by
  cases hx with
  | atom ht => exact covers_atom ht
  | call _ hx =>
    intro u hu
    have hu := covers_arguments h hx u (by rwa [numbers] at hu)
    simp [hu]
  | array hx =>
    intro u hu
    have hu := covers_arguments h hx u (by rwa [numbers] at hu)
    simp [hu]
  | parens hx =>
    intro u hu
    have hu := h _ _ hx u (by rwa [numbers] at hu)
    simp [hu]

theorem covers_lengths {x e : Expr} {ts us : List Token} (hrest : Lengths x us e) (hx : Covers ts x) :
    Covers (ts ++ us) e := by
  induction hrest generalizing ts with
  | done => rwa [List.append_nil]
  | @more x e us _ ih =>
    have hlength : Covers (ts ++ [.dot, .word "length"]) (.length x) := by
      intro u hu
      rw [numbers] at hu
      exact List.mem_append_left _ (hx u hu)
    simpa using ih hlength

theorem covers_exponentiation (h : ∀ ts e, N ts e → Covers ts e) :
    ∀ ts e, Exponentiation N ts e → Covers ts e := by
  have hmember : ∀ {ts e}, Member N ts e → Covers ts e := by
    rintro _ e ⟨hx, hrest⟩
    exact covers_lengths hrest (covers_primary h hx)
  have hunary : ∀ {ts e}, Unary N ts e → Covers ts e := by
    intro ts e hx
    induction hx with
    | plain hx => exact hmember hx
    | minus _ ih | not _ ih =>
      intro u hu
      rw [numbers] at hu
      exact List.mem_cons_of_mem _ (ih u hu)
  intro ts e hx
  induction hx with
  | plain hx => exact hunary hx
  | power hx _ ih => exact (hmember hx).binary ih _ _

end

theorem covers_derives (n : Nat) : ∀ ts e, Derives n ts e → Covers ts e := by
  induction n with
  | zero => exact fun _ _ h => h.elim
  | succ n ih => exact covers_tower (covers_exponentiation ih) levels

/-- An expression that is read has numbers that JavaScript has. -/
theorem numeric_of_reads {text : Text} {e : Expr} (h : Reads text e) : ∀ t ∈ e.numbers, Numeric t := by
  obtain ⟨ts, n, hts, hd⟩ := h
  exact fun t ht => numeric_of_scan hts (covers_derives n ts e hd t ht)

/-! ## Reading what has been rendered -/

/-- The text of an expression that has all its enclosures is read as that expression. -/
theorem reads_spelling {x : Expr} (h : x.WellSpelled) (hg : x.IsGrouped) (hnames : ∀ w ∈ x.names, w ∉ reserved)
    (hnumbers : ∀ t ∈ x.numbers, Numeric t) : Reads (spelling x.pieces) x := by
  have hend : EndsAt x [] := by simp [EndsAt]
  have hscan := scan_written (written_pieces x h hg hend) fun u hu => hnumbers u (mem_numbers x u hu)
  have hderives := nested_derives (shaped_pieces x h hg hnames x.nesting le_rfl)
  refine ⟨tokens x.pieces, x.nesting + 1, ?_, hderives⟩
  simpa [scan] using hscan

/-- Rendering gives a text. JavaScript reads it back as the same expression but for enclosures, and in no other
way, just when it has all the numbers of the expression. -/
theorem reads_render_iff (e : Expr) (h : e.WellSpelled) (hnames : ∀ w ∈ e.names, w ∉ reserved) :
    ∃ text, e.render = some text ∧
      ((∀ t ∈ e.numbers, Numeric t) ↔ ∃ e', (∀ x, Reads text x ↔ x = e') ∧ e'.bare = e.bare) := by
  have hbare := bare_grouped e
  have hspelled := wellSpelled_grouped e h
  have hgrouped := isGrouped_grouped e
  refine ⟨spelling e.grouped.pieces, ?_, ?_, ?_⟩
  · rw [← render_grouped, render_pieces _ hspelled hgrouped]
  · intro hnumbers
    rw [← names_congr hbare] at hnames
    rw [← numbers_congr hbare] at hnumbers
    have hreads := reads_spelling hspelled hgrouped hnames hnumbers
    refine ⟨e.grouped, fun x => ⟨fun hx => reads_unique hx hreads, ?_⟩, hbare⟩
    rintro rfl
    exact hreads
  · rintro ⟨e', hreads, he'⟩
    rw [← numbers_congr he']
    exact numeric_of_reads ((hreads e').2 rfl)

/-- The base of a power is negated, its exponent is a power, and a quote stands in the string. -/
theorem reads_render_iff_power :
    let e := binary .power (unary .negate (access "x" false))
      (binary .power (literal .number "09.5") (length (list [literal .string "it's"])))
    e.WellSpelled ∧ (∀ w ∈ e.names, w ∉ reserved) ∧
      ∃ e', (∀ x, Reads "(-x) ** 09.5 ** ['it\\'s'].length" x ↔ x = e') ∧ e'.bare = e.bare := by
  intro e
  have hspelled : e.WellSpelled := by
    simp only [e, WellSpelled, AreWellSpelled, literalSpelled]
    exact ⟨rfl, ⟨.inl trivial, rfl, trivial⟩, rfl, ⟨48, [57, 46, 53], _, rfl, rfl, rfl⟩, by decide +kernel, trivial⟩
  have hnames : ∀ w ∈ e.names, w ∉ reserved := by decide
  obtain ⟨text, htext, hreads⟩ := reads_render_iff e hspelled hnames
  obtain rfl : Text.ofString "(-x) ** 09.5 ** ['it\\'s'].length" = text := Option.some.inj htext
  exact ⟨hspelled, hnames, hreads.1 (by decide)⟩

/-- A fraction behind octal digits is a number of its own, and no expression has one number behind another. -/
theorem octal_fraction_not_read :
    let e := literal .number "07.5"
    e.WellSpelled ∧ (∀ w ∈ e.names, w ∉ reserved) ∧ e.render = some "07.5" ∧ ¬ ∃ x, Reads "07.5" x := by
  intro e
  have hspelled : e.WellSpelled := by
    simp only [e, WellSpelled, literalSpelled]
    exact ⟨48, [55, 46, 53], _, rfl, rfl, rfl⟩
  refine ⟨hspelled, by simp [e, names], rfl, ?_⟩
  rintro ⟨x, ts, n, hts, hd⟩
  have hscan : scan 0 "07.5" = some [.number "07", .number ".5"] := rfl
  obtain rfl := Option.some.inj (hscan.symm.trans hts)
  have hfirst : Derives 1 [.number "07"] (literal .number "07") := tower_single (.plain (.plain (.primary (.atom rfl)))) _
  have hstop : Next Stops [.number ".5"] := by
    intro t ht
    obtain rfl : Token.number ".5" = t := by simpa using ht
    exact ⟨⟨⟨by simp, by simp⟩, by simp⟩, fun _ _ => rfl⟩
  have hend : Next Stops [] := by simp [Next]
  have hall := (derives_agree 1 n hfirst hd rfl hstop hend).1
  simp at hall

end Offside.JavaScript
