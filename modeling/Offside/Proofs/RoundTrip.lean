import Offside.Proofs.Lexer.Pieces
import Offside.Proofs.Parser.Program

/-!
# Reading rendered arithmetic back

Arithmetic is written in the same way in JavaScript and in the source language, parentheses included: an
operand that JavaScript would not take without them would not be read back as it was either. Main statement:
the text of an arithmetic expression is scanned and parsed to the same expression but for enclosures, which
has the same value and the same text (`parses_render`).
-/

namespace Offside

open Offside.Lexeme Offside.Piece

namespace Expr

/-! ## Arithmetic expressions -/

mutual

/-- Trees of numbers, names, calls, lists, enclosures, minus signs and the operators that both languages write
in the same way. -/
def Arithmetic : Expr → Prop
  | .literal .number text => Emits .number text
  | .access name quoted => Emits .identifier name ∧ quoted = false
  | .call name args => Emits .identifier name ∧ AreArithmetic args
  | .list items => AreArithmetic items
  | .enclosure inner => inner.Arithmetic
  | .unary op operand => op = .negate ∧ operand.Arithmetic
  | .binary op left right => op.shared?.isSome = true ∧ left.Arithmetic ∧ right.Arithmetic
  | .literal .. | .length _ | .absent | .atom _ | .atomOf _ | .sequence _ => False

/-- All of the expressions are arithmetic. -/
def AreArithmetic : List Expr → Prop
  | [] => True
  | x :: xs => x.Arithmetic ∧ AreArithmetic xs

end

theorem symbol_of_shared {op : BinaryOp} (h : op.shared?.isSome = true) : op.symbol?.isSome = true := by
  cases op with
  | other code => cases h
  | _ => rfl

theorem rank_of_shared {op : BinaryOp} (h : op.shared?.isSome = true) : op.rank ≤ 3 := by
  cases op with
  | equals | notEquals | and | or | other => cases h
  | _ => decide

mutual

theorem Arithmetic.wellSpelled : ∀ {x : Expr}, x.Arithmetic → x.WellSpelled
  | .literal kind t, h => by
    rw [WellSpelled]
    cases kind with
    | number =>
      rw [Arithmetic] at h
      exact h
    | _ => simp [Arithmetic] at h
  | .access name quoted, h => by
    rw [Arithmetic] at h
    rw [WellSpelled]
    exact ⟨(emits_identifier h.1).1, h.2⟩
  | .call name args, h => by
    rw [Arithmetic] at h
    rw [WellSpelled]
    exact ⟨(emits_identifier h.1).1, AreArithmetic.wellSpelled h.2⟩
  | .list items, h => by
    rw [Arithmetic] at h
    rw [WellSpelled]
    exact AreArithmetic.wellSpelled h
  | .enclosure inner, h => by
    rw [Arithmetic] at h
    rw [WellSpelled]
    exact Arithmetic.wellSpelled h
  | .unary op operand, h => by
    rw [Arithmetic] at h
    rw [WellSpelled]
    exact ⟨.inl h.1, Arithmetic.wellSpelled h.2⟩
  | .binary op l r, h => by
    rw [Arithmetic] at h
    rw [WellSpelled]
    exact ⟨symbol_of_shared h.1, Arithmetic.wellSpelled h.2.1, Arithmetic.wellSpelled h.2.2⟩
  | .length _, h | .absent, h | .atom _, h | .atomOf _, h | .sequence _, h => by
    rw [Arithmetic] at h
    exact h.elim

theorem AreArithmetic.wellSpelled : ∀ {xs : List Expr}, AreArithmetic xs → AreWellSpelled xs
  | [], _ => trivial
  | x :: xs, h => by
    rw [AreArithmetic] at h
    rw [AreWellSpelled]
    exact ⟨Arithmetic.wellSpelled h.1, AreArithmetic.wellSpelled h.2⟩

end

mutual

theorem arithmetic_bare : ∀ x : Expr, x.bare.Arithmetic ↔ x.Arithmetic
  | .absent | .literal .. | .atom _ | .access .. => by simp [bare]
  | .enclosure inner => by rw [bare, arithmetic_bare inner, Arithmetic]
  | .atomOf _ | .length _ | .sequence _ => by simp [bare, Arithmetic]
  | .unary _ x => by simp [bare, Arithmetic, arithmetic_bare x]
  | .binary _ l r => by simp [bare, Arithmetic, arithmetic_bare l, arithmetic_bare r]
  | .call _ xs | .list xs => by simp [bare, Arithmetic, areArithmetic_bare xs]

theorem areArithmetic_bare : ∀ xs : List Expr, AreArithmetic (bareAll xs) ↔ AreArithmetic xs
  | [] => by simp [bareAll]
  | x :: xs => by simp [bareAll, AreArithmetic, arithmetic_bare x, areArithmetic_bare xs]

end

theorem arithmetic_grouped {x : Expr} (h : x.Arithmetic) : x.grouped.Arithmetic := by
  rwa [← arithmetic_bare, bare_grouped, arithmetic_bare]

/-! ## Their pieces -/

theorem shared_name {t : Text} (h : Emits .identifier t) : (Piece.word t).Shared := by
  refine ⟨.inr rfl, ?_⟩
  rintro _ ⟨⟩
  exact h

theorem shared_mark {p : Piece} (hm : p.mark?.isSome = true) (hp : ∀ t, p ≠ .word t) : p.Shared :=
  ⟨.inr hm, fun t ht => absurd ht (hp t)⟩

theorem shared_blank : Piece.blank.Shared := ⟨.inl rfl, fun _ h => nomatch h⟩

/-- Brackets, and what stands between them. -/
theorem shared_between {l r : Piece} {ps : List Piece} (hl : l.Shared) (hps : ∀ p ∈ ps, p.Shared) (hr : r.Shared) :
    ∀ p ∈ l :: (ps ++ [r]), p.Shared :=
  List.forall_mem_cons.2 ⟨hl, List.forall_mem_append.2 ⟨hps, List.forall_mem_singleton.2 hr⟩⟩

mutual

/-- The pieces of arithmetic are written in the source language as well. -/
theorem shared_pieces : ∀ x : Expr, x.Arithmetic → ∀ p ∈ x.pieces, p.Shared
  | .literal kind t, h => by
    cases kind with
    | number => simpa [pieces, literalPiece] using shared_mark rfl (by simp)
    | _ => simp [Arithmetic] at h
  | .access name quoted, h => by
    rw [Arithmetic] at h
    simpa [pieces] using shared_name h.1
  | .call name args, h => by
    rw [Arithmetic] at h
    rw [pieces]
    refine List.forall_mem_cons.2 ⟨shared_name h.1, ?_⟩
    exact shared_between (shared_mark rfl (by simp)) (shared_piecesAll args h.2) (shared_mark rfl (by simp))
  | .list items, h => by
    rw [Arithmetic] at h
    rw [pieces]
    exact shared_between (shared_mark rfl (by simp)) (shared_piecesAll items h) (shared_mark rfl (by simp))
  | .enclosure inner, h => by
    rw [Arithmetic] at h
    rw [pieces]
    exact shared_between (shared_mark rfl (by simp)) (shared_pieces inner h) (shared_mark rfl (by simp))
  | .unary op operand, h => by
    rw [Arithmetic] at h
    obtain ⟨rfl, h⟩ := h
    rw [pieces]
    exact List.forall_mem_cons.2 ⟨shared_mark rfl (by simp [signPiece]), shared_pieces operand h⟩
  | .binary op l r, h => by
    rw [Arithmetic] at h
    rw [pieces]
    have hop : (Piece.operator op).Shared := shared_mark (by simpa [mark?] using h.1) (by simp)
    have hr := List.forall_mem_cons.2 ⟨shared_blank, shared_pieces r h.2.2⟩
    have hright := List.forall_mem_cons.2 ⟨shared_blank, List.forall_mem_cons.2 ⟨hop, hr⟩⟩
    exact List.forall_mem_append.2 ⟨shared_pieces l h.2.1, hright⟩
  | .length _, h | .absent, h | .atom _, h | .atomOf _, h | .sequence _, h => by
    rw [Arithmetic] at h
    exact h.elim

theorem shared_piecesAll : ∀ xs : List Expr, AreArithmetic xs → ∀ p ∈ piecesAll xs, p.Shared
  | [], _ => by simp [piecesAll]
  | x :: xs, h => by
    rw [AreArithmetic] at h
    rw [piecesAll]
    exact List.forall_mem_append.2 ⟨shared_pieces x h.1, shared_piecesMore xs h.2⟩

theorem shared_piecesMore : ∀ xs : List Expr, AreArithmetic xs → ∀ p ∈ piecesMore xs, p.Shared
  | [], _ => by simp [piecesMore]
  | x :: xs, h => by
    rw [AreArithmetic] at h
    rw [piecesMore]
    refine List.forall_mem_cons.2 ⟨shared_mark rfl (by simp), ?_⟩
    exact List.forall_mem_append.2 ⟨shared_pieces x h.1, shared_piecesMore xs h.2⟩

end

end Expr

namespace Grammar

open Offside.Expr

/-! ## Levels of the grammar -/

section
variable {sees : Text → Prop} {N : Nesting} {ts us : List Token} {x l r e : Expr}

/-- The level of the grammar that has the operators of a rank. -/
def Stage (sees : Text → Prop) (N : Nesting) : Nat → Phrase Token Expr
  | 0 => Power sees N
  | 1 => Product sees N
  | 2 => Sum sees N
  | _ => Comparison sees N

theorem stage_succ : ∀ {k : Nat}, Stage sees N k ts e → Stage sees N (k + 1) ts e
  | 0, h | 1, h | 2, h => FoldLeft.single h
  | _ + 3, h => h

theorem stage_le {k k' : Nat} (h : Stage sees N k ts e) (hk : k ≤ k') : Stage sees N k' ts e := by
  induction hk with
  | refl => exact h
  | step _ ih => exact stage_succ ih

theorem stage_binary {op : BinaryOp} {o : Operator} (hop : op.shared? = some o) (hpower : op ≠ .power) {t : Token}
    (hkind : t.kind = .operator) (hsubtype : t.subtype = .operator o) (hl : Stage sees N op.rank ts l)
    (hr : Stage sees N (op.rank - 1) us r) : Stage sees N op.rank (ts ++ t :: us) (.binary op l r) := by
  have ht : t.isOperator o = true := by simp [Token.isOperator, hkind, hsubtype]
  cases op with
  | power => exact absurd rfl hpower
  | equals | notEquals | and | or | other => cases hop
  | _ =>
    cases hop
    exact FoldLeft.snoc hl (node?_eq_lookup ht _) hr

/-- A comparison is a whole expression. -/
theorem Comparison.disjunction (h : Comparison sees N ts e) : Disjunction sees N ts e := by
  have hbehind := Negation.behind h (NotsRest.done e)
  rw [List.append_nil] at hbehind
  exact FoldLeft.single (FoldLeft.single hbehind)

/-! ## Operands -/

/-- The tokens derive the expression on the lowest level that it can stand on. -/
def Stands (sees : Text → Prop) (N : Nesting) (ts : List Token) : Expr → Prop
  | .binary op l r => Stage sees N op.rank ts (.binary op l r)
  | .unary op x => Unary sees N ts (.unary op x)
  | x => Primary sees N ts x

theorem Stands.stage (h : Stands sees N ts x) {k : Nat} (hk : x.rank ≤ k) : Stage sees N k ts x := by
  cases x with
  | binary => exact stage_le h hk
  | unary => exact stage_le (k := 0) (.plain h) (Nat.zero_le k)
  | _ => exact stage_le (k := 0) (.plain (.plain h)) (Nat.zero_le k)

/-- An expression inside brackets. -/
theorem Stands.derives {n : Nat} (h : Stands sees (Derives sees n) ts x) (hx : x.Arithmetic) :
    Derives sees (n + 1) .expr ts x := by
  have hrank : x.rank ≤ 3 := by
    cases x with
    | binary op l r =>
      rw [Arithmetic] at hx
      exact rank_of_shared hx.1
    | _ => exact Nat.zero_le _
  exact Comparison.disjunction (h.stage hrank)

/-- The operand of a minus sign. -/
theorem Stands.negated (h : Stands sees N ts x) (hx : x.Arithmetic) (hneeds : unaryNeeds .negate x = false) :
    Primary sees N ts x := by
  cases x with
  | binary => cases hneeds
  | unary op y =>
    rw [Arithmetic] at hx
    simp [unaryNeeds, hx.1] at hneeds
  | _ => exact h

/-- The base of a power. -/
theorem Stands.base (h : Stands sees N ts x) (hx : x.Arithmetic) (hneeds : leftNeeds .power x = false) :
    Unary sees N ts x := by
  cases x with
  | binary op l r =>
    rw [Arithmetic] at hx
    simp [leftNeeds_power (symbol_of_shared hx.1)] at hneeds
  | unary => exact h
  | _ => exact .plain h

end

/-! ## Deriving an expression from its tokens -/

section
variable {sees : Text → Prop}

mutual

theorem stands_placed : ∀ x : Expr, x.Arithmetic → x.IsGrouped → (∀ w ∈ x.names, sees w) → ∀ n, x.nesting ≤ n →
    ∀ column, Stands sees (Derives sees n) (placed column x.pieces) x
  | .literal kind t, h, _, _, n, _, column => by
    cases kind with
    | number =>
      rw [pieces, literalPiece, placed_cons rfl]
      exact Primary.number rfl
    | _ => simp [Arithmetic] at h
  | .access name quoted, h, _, hw, n, _, column => by
    rw [Arithmetic] at h
    obtain ⟨-, rfl⟩ := h
    rw [pieces, placed_cons rfl]
    exact Primary.name rfl (hw name (by simp [names]))
  | .call name args, h, hg, hw, n, hn, column => by
    rw [Arithmetic] at h
    rw [IsGrouped] at hg
    rw [names] at hw
    rw [nesting] at hn
    obtain ⟨hname, hw⟩ := List.forall_mem_cons.1 hw
    obtain ⟨m, rfl⟩ : ∃ m, n = m + 1 := ⟨n - 1, by omega⟩
    have hargs := stands_placedAll args h.2 hg hw m (by omega)
    rw [pieces, placed_cons rfl, placed_cons rfl, placed_append, placed_cons rfl]
    exact Primary.call rfl hname rfl (hargs _) rfl
  | .list items, h, hg, hw, n, hn, column => by
    rw [Arithmetic] at h
    rw [IsGrouped] at hg
    rw [names] at hw
    rw [nesting] at hn
    obtain ⟨m, rfl⟩ : ∃ m, n = m + 1 := ⟨n - 1, by omega⟩
    have hitems := stands_placedAll items h hg hw m (by omega)
    rw [pieces, placed_cons rfl, placed_append, placed_cons rfl]
    exact Primary.list rfl (hitems _) rfl
  | .enclosure inner, h, hg, hw, n, hn, column => by
    rw [Arithmetic] at h
    rw [IsGrouped] at hg
    rw [names] at hw
    rw [nesting] at hn
    obtain ⟨m, rfl⟩ : ∃ m, n = m + 1 := ⟨n - 1, by omega⟩
    have hinner := fun column => (stands_placed inner h hg hw m (by omega) column).derives h
    rw [pieces, placed_cons rfl, placed_append, placed_cons rfl]
    exact Primary.enclosure rfl (hinner _) rfl
  | .unary op operand, h, hg, hw, n, hn, column => by
    rw [Arithmetic] at h
    rw [IsGrouped] at hg
    rw [names] at hw
    rw [nesting] at hn
    obtain ⟨rfl, h⟩ := h
    have hoperand := fun column => (stands_placed operand h hg.2 hw n hn column).negated h hg.1
    rw [pieces, signPiece, placed_cons rfl]
    exact Unary.negate rfl (hoperand _)
  | .binary op l r, h, hg, hw, n, hn, column => by
    rw [Arithmetic] at h
    rw [IsGrouped] at hg
    rw [names] at hw
    rw [nesting] at hn
    obtain ⟨hop, hl, hr⟩ := h
    obtain ⟨⟨hleft, hgl⟩, hright, hgr⟩ := hg
    have hwl : ∀ w ∈ l.names, sees w := fun w h => hw w (List.mem_append_left _ h)
    have hwr : ∀ w ∈ r.names, sees w := fun w h => hw w (List.mem_append_right _ h)
    have hsymbol := symbol_of_shared hop
    have hrank := right_rank hsymbol hr.wellSpelled hright
    obtain ⟨o, ho⟩ := Option.isSome_iff_exists.1 hop
    obtain ⟨m, rfl⟩ : ∃ m, n = m + 1 := ⟨n - 1, by omega⟩
    have hL := stands_placed l hl hgl hwl (m + 1) (by omega)
    rw [pieces, placed_append, placed_blank, placed_cons (by rw [mark?, ho]; rfl), placed_blank]
    by_cases hpower : op = .power
    · -- the exponent nests
      subst hpower
      cases ho
      have hR := stands_placed r hr hgr hwr m (by omega)
      exact Power.power ((hL _).base hl hleft) rfl ((hR _).stage hrank)
    · have hR := stands_placed r hr hgr hwr (m + 1) (by omega)
      have hleft' := left_rank hsymbol hl.wellSpelled hleft
      exact stage_binary ho hpower rfl rfl ((hL _).stage hleft') ((hR _).stage hrank)
  | .length _, h, _, _, _, _, _ | .absent, h, _, _, _, _, _ | .atom _, h, _, _, _, _, _
  | .atomOf _, h, _, _, _, _, _ | .sequence _, h, _, _, _, _, _ => by
    rw [Arithmetic] at h
    exact h.elim

theorem stands_placedAll : ∀ xs : List Expr, AreArithmetic xs → AreGrouped xs → (∀ w ∈ namesAll xs, sees w) →
    ∀ n, nestingAll xs ≤ n → ∀ column, Arguments (Derives sees (n + 1) .expr) (placed column (piecesAll xs)) xs
  | [], _, _, _, _, _, _ => .none
  | x :: xs, h, hg, hw, n, hn, column => by
    rw [AreArithmetic] at h
    rw [AreGrouped] at hg
    rw [namesAll] at hw
    rw [nestingAll] at hn
    have hx := stands_placed x h.1 hg.1 (fun w h => hw w (List.mem_append_left _ h)) n (by omega)
    have hxs := stands_placedMore xs h.2 hg.2 (fun w h => hw w (List.mem_append_right _ h)) n (by omega)
    rw [piecesAll, placed_append]
    exact .some (.mk ((hx _).derives h.1) (hxs _))

theorem stands_placedMore : ∀ xs : List Expr, AreArithmetic xs → AreGrouped xs → (∀ w ∈ namesAll xs, sees w) →
    ∀ n, nestingAll xs ≤ n → ∀ column, MoreItems isComma (Derives sees (n + 1) .expr) (placed column (piecesMore xs)) xs
  | [], _, _, _, _, _, _ => .done
  | x :: xs, h, hg, hw, n, hn, column => by
    rw [AreArithmetic] at h
    rw [AreGrouped] at hg
    rw [namesAll] at hw
    rw [nestingAll] at hn
    have hx := stands_placed x h.1 hg.1 (fun w h => hw w (List.mem_append_left _ h)) n (by omega)
    have hxs := stands_placedMore xs h.2 hg.2 (fun w h => hw w (List.mem_append_right _ h)) n (by omega)
    rw [piecesMore, placed_cons rfl, placed_append]
    exact .more rfl ((hx _).derives h.1) (hxs _)

end

end

end Grammar

/-! ## Scanning and parsing -/

open Offside.Grammar Offside.Expr Offside.Expression

/-- The text is scanned to its end, and what stands on its line is read as the expression. -/
def Parses (scope : Chain) (depth : Nat) (tabWidth : Int) (text : Text) (e : Expr) : Prop :=
  ∃ t rest c, (tokenize text tabWidth).tokens = t :: rest ∧ (tokenize text tabWidth).halt = none ∧
    parse scope depth .expr { cur := t, rest } = .ok e c ∧ c.tokens.map (·.kind) = [.newline, .eof]

/-- A program of one expression. -/
theorem derives_line {n : Nat} {ts : List Token} {x : Expr} {k k' : Token} (hx : DerivesExpr n ts x)
    (hk : k.kind = .newline) (hk' : k'.kind = .eof) : DerivesProgram n (ts ++ [k, k']) [.expression x] := by
  have hline : DerivesStatement n (ts ++ [k]) (.expression x) := .simple (.expression hx) hk
  have hlines := Statements.more hline .done
  rw [List.append_nil] at hlines
  have hprogram := DerivesProgram.mk hlines hk'
  rwa [List.append_assoc] at hprogram

section
variable {x : Expr}

theorem tokenize_pieces (h : x.Arithmetic) (hg : x.IsGrouped) (tabWidth : Int) :
    (tokenize (spelling x.pieces) tabWidth).halt = none ∧ (tokenize (spelling x.pieces) tabWidth).tokens =
      placed 1 x.pieces ++ lineEnd (1 + (spelling x.pieces).length) := by
  obtain ⟨b, t, e, hb, -⟩ := pieces_open x h.wellSpelled hg
  have hend : EndsAt x [] := by simp [EndsAt]
  exact Scanner.tokenize_spelling (written_pieces x h.wellSpelled hg hend) (shared_pieces x h) e hb tabWidth

theorem parses_spelling (h : x.Arithmetic) (hg : x.IsGrouped) {scope : Chain}
    (hw : ∀ w ∈ x.names, scope.sees w = true) {depth : Nat} (hdepth : x.nesting + 1 ≤ depth) (tabWidth : Int) :
    Parses scope depth tabWidth (spelling x.pieces) x := by
  obtain ⟨hhalt, htokens⟩ := tokenize_pieces h hg tabWidth
  let c : Cursor :=
    { cur := { kind := .newline, line := 1, column := 1 + (spelling x.pieces).length },
      rest := [{ kind := .eof, line := 1, column := 1 + (spelling x.pieces).length }] }
  have hd : Derives (Sees scope) (x.nesting + 1) .expr (placed 1 x.pieces) x :=
    (stands_placed x h hg hw x.nesting le_rfl 1).derives h
  have hread := (parse_complete scope depth).complete .expr _ x c (hd.mono hdepth) (Statement.newline_stops rfl).1
  obtain ⟨t, rest, hstart⟩ : ∃ t rest, (c.before (placed 1 x.pieces)).tokens = t :: rest := ⟨_, _, rfl⟩
  have heq : c.before (placed 1 x.pieces) = { cur := t, rest } := Cursor.eq_of_tokens hstart (by simp [c])
  rw [heq] at hread
  refine ⟨t, rest, c, ?_, hhalt, hread, rfl⟩
  rw [htokens, ← hstart, Cursor.tokens_before]
  rfl

theorem compile_spelling (h : x.Arithmetic) (hg : x.IsGrouped) (hw : x.names = []) {depth : Nat}
    (hdepth : x.nesting + 1 ≤ depth) (tabWidth : Int) :
    ∃ out, compile { tabWidth, maxDepth := depth } (spelling x.pieces) = .ok out ∧
      out.program = { statements := [.expression x], scope := [] } := by
  obtain ⟨hhalt, htokens⟩ := tokenize_pieces h hg tabWidth
  have hd : Derives (fun _ => True) (x.nesting + 1) .expr (placed 1 x.pieces) x :=
    (stands_placed x h hg (fun _ _ => trivial) x.nesting le_rfl 1).derives h
  refine Compile.compile_of_derives hhalt ?_ ?_
  · rw [htokens]
    exact derives_line (hd.mono hdepth) rfl rfl
  · simp [Stmt.resolveAll, Stmt.resolve, Resolution.Place.sees, hw]

end

/-- The text of an arithmetic expression is scanned and parsed, in every scope that sees its names and with
enough depth, to the same expression but for enclosures. That expression has the same value and the same
text. Without names, the text is a program of its own. -/
theorem parses_render (e : Expr) (h : e.Arithmetic) :
    ∃ text e' depth, e.render = some text ∧ e'.bare = e.bare ∧ e'.evaluate = e.evaluate ∧ e'.render = e.render ∧
      ∀ tabWidth n, depth ≤ n →
        (∀ scope : Chain, (∀ w ∈ e.names, scope.sees w = true) → Parses scope n tabWidth text e') ∧
        (e.names = [] → ∃ out, compile { tabWidth, maxDepth := n } text = .ok out ∧
          out.program = { statements := [.expression e'], scope := [] }) := by
  have hgrouped := isGrouped_grouped e
  have harith := arithmetic_grouped h
  have hnames := names_congr (bare_grouped e)
  have hrender := render_pieces _ harith.wellSpelled hgrouped
  refine ⟨spelling e.grouped.pieces, e.grouped, e.grouped.nesting + 1, ?_, bare_grouped e, evaluate_grouped e,
    render_grouped e, fun tabWidth n hn => ⟨fun scope hw => ?_, fun hw => ?_⟩⟩
  · rw [← render_grouped, hrender]
  · rw [← hnames] at hw
    exact parses_spelling harith hgrouped hw hn tabWidth
  · rw [← hnames] at hw
    exact compile_spelling harith hgrouped hw hn tabWidth

/-- Two minus signs, a negated base, and a difference on the right of a difference. -/
theorem parses_render_minus :
    let e := binary .subtract (unary .negate (unary .negate (access "x" false)))
      (binary .subtract (binary .power (unary .negate (literal .number "2")) (literal .number "1.5e3"))
        (call "f" [list [literal .number ".5"]]))
    e.Arithmetic ∧ ∃ e' depth, e'.bare = e.bare ∧ e'.evaluate = e.evaluate ∧ e'.render = e.render ∧
      ∀ n, depth ≤ n →
        Parses [[{ name := "x" }, { name := "f" }]] n 4 "-(-x) - ((-2) ** 1.5e3 - f([.5]))" e' := by
  intro e
  have hname : Emits .identifier "x" := ⟨120, [], _, rfl, rfl, rfl⟩
  have hcalled : Emits .identifier "f" := ⟨102, [], _, rfl, rfl, rfl⟩
  have hbase : Emits .number "2" := ⟨50, [], _, rfl, rfl, rfl⟩
  have hexponent : Emits .number "1.5e3" := ⟨49, ".5e3", _, rfl, rfl, rfl⟩
  have hitem : Emits .number ".5" := ⟨46, "5", _, rfl, rfl, rfl⟩
  have h : e.Arithmetic := by
    simp [e, Arithmetic, AreArithmetic, BinaryOp.shared?, hname, hcalled, hbase, hexponent, hitem]
  obtain ⟨text, e', depth, htext, hbare, hvalue, hrender, hparses⟩ := parses_render e h
  obtain rfl : Text.ofString "-(-x) - ((-2) ** 1.5e3 - f([.5]))" = text := Option.some.inj htext
  refine ⟨h, e', depth, hbare, hvalue, hrender, fun n hn => (hparses 4 n hn).1 _ ?_⟩
  decide

end Offside
