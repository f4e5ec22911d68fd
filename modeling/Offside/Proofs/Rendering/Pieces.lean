import Offside.Proofs.Lexer.Lexeme
import Offside.Proofs.Rendering.Grouping
import Offside.Proofs.Resolution

/-!
# The pieces of a rendered text

The text of an expression is a row of pieces: numbers, words, strings, brackets, operators and the blanks
around them. `Expr.pieces` writes them down for an expression that has all its enclosures. Main statements:
rendering is writing the pieces one after another (`render_pieces`), and no piece runs into the next one
(`written_pieces`), so that a reader of the text finds the pieces again.
-/

namespace Offside

open Offside.Lexeme

/-- A piece of a rendered text. -/
inductive Piece where
  | number (text : Text)
  | string (value : Text)
  | word (text : Text)
  | roundOpen | roundClose | squareOpen | squareClose | comma | dot
  | negate | not
  | operator (op : BinaryOp)
  | blank

namespace Piece

/-- The text of a piece. -/
def text : Piece → Text
  | number t => t
  | string v => quoteJavaScript v
  | word t => t
  | roundOpen => [40]
  | roundClose => [41]
  | squareOpen => [91]
  | squareClose => [93]
  | comma => [44]
  | dot => [46]
  | negate => [45]
  | not => [33]
  | operator op => op.symbol?.getD []
  | blank => [32]

/-- The text of pieces. -/
def spelling (ps : List Piece) : Text := ps.flatMap text

@[simp] theorem spelling_nil : spelling [] = [] := rfl

@[simp] theorem spelling_cons (p : Piece) (ps : List Piece) : spelling (p :: ps) = p.text ++ spelling ps := rfl

@[simp] theorem spelling_append (ps qs : List Piece) : spelling (ps ++ qs) = spelling ps ++ spelling qs :=
  List.flatMap_append

end Piece

open Offside.Piece

namespace Expr

/-- The literals have a spelling of the source language, and the names are words. -/
def literalSpelled : LiteralKind → Text → Prop
  | .number, t => Emits .number t
  | .string, t => ∀ b ∈ t, isLineEnd b = false
  | .boolean, t => t = "True" ∨ t = "False"
  | .null, t => t = "None"
  | .other _, _ => False

mutual

/-- Trees of the constructs that the language has, with literals and names in a spelling that it has. Sequences
and raw text are left out. -/
def WellSpelled : Expr → Prop
  | .literal kind text => literalSpelled kind text
  | .access name quoted => isWord name = true ∧ quoted = false
  | .call name args => isWord name = true ∧ AreWellSpelled args
  | .list items => AreWellSpelled items
  | .enclosure inner => inner.WellSpelled
  | .length operand => operand.WellSpelled
  | .unary op operand => (op = .negate ∨ op = .not) ∧ operand.WellSpelled
  | .binary op left right => op.symbol?.isSome = true ∧ left.WellSpelled ∧ right.WellSpelled
  | .absent | .atom _ | .atomOf _ | .sequence _ => False

/-- All of the expressions are well spelled. -/
def AreWellSpelled : List Expr → Prop
  | [] => True
  | x :: xs => x.WellSpelled ∧ AreWellSpelled xs

end

theorem WellSpelled.wrapped {x : Expr} (h : x.WellSpelled) (need : Bool) : (wrapped need x).WellSpelled := by
  cases need with
  | true =>
    rw [Expr.wrapped, if_pos rfl, WellSpelled]
    exact h
  | false => exact h

mutual

theorem wellSpelled_grouped : ∀ x : Expr, x.WellSpelled → x.grouped.WellSpelled
  | .literal .., h | .access .., h => by rwa [grouped]
  | .call _ args, h => by
    rw [WellSpelled] at h
    rw [grouped, WellSpelled]
    exact ⟨h.1, areWellSpelled_grouped args h.2⟩
  | .list items, h => by
    rw [WellSpelled] at h
    rw [grouped, WellSpelled]
    exact areWellSpelled_grouped items h
  | .enclosure inner, h => by
    rw [WellSpelled] at h
    rw [grouped, WellSpelled]
    exact wellSpelled_grouped inner h
  | .length operand, h => by
    rw [WellSpelled] at h
    rw [grouped, WellSpelled]
    exact (wellSpelled_grouped operand h).wrapped _
  | .unary _ operand, h => by
    rw [WellSpelled] at h
    rw [grouped, WellSpelled]
    exact ⟨h.1, (wellSpelled_grouped operand h.2).wrapped _⟩
  | .binary _ left right, h => by
    rw [WellSpelled] at h
    rw [grouped, WellSpelled]
    exact ⟨h.1, (wellSpelled_grouped left h.2.1).wrapped _, (wellSpelled_grouped right h.2.2).wrapped _⟩
  | .absent, h | .atom _, h | .atomOf _, h | .sequence _, h => by
    rw [WellSpelled] at h
    exact h.elim

theorem areWellSpelled_grouped : ∀ xs : List Expr, AreWellSpelled xs → AreWellSpelled (groupedAll xs)
  | [], h => h
  | x :: xs, h => by
    rw [AreWellSpelled] at h
    rw [groupedAll, AreWellSpelled]
    exact ⟨wellSpelled_grouped x h.1, areWellSpelled_grouped xs h.2⟩

end

/-- The piece that a literal is. -/
def literalPiece : LiteralKind → Text → Piece
  | .string, t => .string t
  | .boolean, t => .word (if t = "True" then "true" else "false")
  | .null, _ => .word "null"
  | .number, t => .number t
  | .other _, t => .word t

/-- The piece that a unary operator is. -/
def signPiece : UnaryOp → Piece
  | .negate => .negate
  | _ => .not

mutual

/-- The pieces of an expression that has all its enclosures. -/
def pieces : Expr → List Piece
  | .literal kind text => [literalPiece kind text]
  | .access name _ => [.word name]
  | .call name args => .word name :: .roundOpen :: (piecesAll args ++ [.roundClose])
  | .list items => .squareOpen :: (piecesAll items ++ [.squareClose])
  | .enclosure inner => .roundOpen :: (inner.pieces ++ [.roundClose])
  | .length operand => operand.pieces ++ [.dot, .word "length"]
  | .unary op operand => signPiece op :: operand.pieces
  | .binary op left right => left.pieces ++ .blank :: .operator op :: .blank :: right.pieces
  | .absent | .atom _ | .atomOf _ | .sequence _ => []

/-- The pieces of expressions with commas between them. -/
def piecesAll : List Expr → List Piece
  | [] => []
  | x :: xs => x.pieces ++ piecesMore xs

/-- The pieces of expressions with a comma before each. -/
def piecesMore : List Expr → List Piece
  | [] => []
  | x :: xs => .comma :: (x.pieces ++ piecesMore xs)

end

/-! ## Rendering writes the pieces -/

theorem renderLiteral_piece {kind : LiteralKind} {t : Text} (h : literalSpelled kind t) :
    renderLiteral kind t = (literalPiece kind t).text := by
  cases kind with
  | other code => exact h.elim
  | _ => rfl

theorem renderUnary_piece {op : UnaryOp} (h : op = .negate ∨ op = .not) (t : Text) :
    renderUnary op t = (signPiece op).text ++ t := by
  rcases h with rfl | rfl <;> rfl

theorem operandText_of_false {needs : Expr → Bool} {x : Expr} (h : needs x = false) :
    operandText needs x = x.render := by
  unfold operandText
  rw [h]
  cases x.render <;> rfl

/-- Texts with commas between them are texts with a comma before each, but for the first comma. -/
theorem join_eq_tail : ∀ ts : List Text, Text.join "," ts = (ts.flatMap (44 :: ·)).tail
  | [] => rfl
  | [t] => by simp [Text.join]
  | t :: u :: ts => by
    have ih := join_eq_tail (u :: ts)
    have hcomma : (("," : String) : Text) = [44] := rfl
    rw [Text.join, ih, hcomma]
    · simp
    · simp

theorem spelling_piecesAll (xs : List Expr) : spelling (piecesAll xs) = (spelling (piecesMore xs)).tail := by
  cases xs with
  | nil => rfl
  | cons x xs => rfl

mutual

theorem render_pieces : ∀ x : Expr, x.WellSpelled → x.IsGrouped → x.render = some (spelling x.pieces)
  | .literal kind t, h, _ => by
    rw [WellSpelled] at h
    simp [render, pieces, renderLiteral_piece h]
  | .access name quoted, h, _ => by
    rw [WellSpelled] at h
    simp [render, pieces, h.2, text]
  | .call name args, h, hg => by
    rw [WellSpelled] at h
    rw [IsGrouped] at hg
    obtain ⟨texts, htexts, hjoin⟩ := renderAll_pieces args h.2 hg
    have hargs : Text.join "," texts = spelling (piecesAll args) := by
      rw [join_eq_tail, hjoin, spelling_piecesAll]
    simp only [render, htexts, pieces, Option.bind_eq_bind, Option.bind_some, hargs]
    change some (name ++ [40] ++ spelling (piecesAll args) ++ [41]) = _
    simp [text]
  | .list items, h, hg => by
    rw [WellSpelled] at h
    rw [IsGrouped] at hg
    obtain ⟨texts, htexts, hjoin⟩ := renderAll_pieces items h hg
    have hitems : Text.join "," texts = spelling (piecesAll items) := by
      rw [join_eq_tail, hjoin, spelling_piecesAll]
    simp only [render, htexts, pieces, Option.bind_eq_bind, Option.bind_some, hitems]
    change some ([91] ++ spelling (piecesAll items) ++ [93]) = _
    simp [text]
  | .enclosure inner, h, hg => by
    rw [WellSpelled] at h
    rw [IsGrouped] at hg
    simp only [render, render_pieces inner h hg, pieces]
    change some ([40] ++ spelling inner.pieces ++ [41]) = _
    simp [text]
  | .length operand, h, hg => by
    rw [WellSpelled] at h
    rw [IsGrouped] at hg
    rw [render_length, operandText_of_false hg.1, render_pieces operand h hg.2, pieces]
    change some (spelling operand.pieces ++ ([46] ++ Text.ofString "length")) = _
    simp [text]
  | .unary op operand, h, hg => by
    rw [WellSpelled] at h
    rw [IsGrouped] at hg
    rw [render_unary, operandText_of_false hg.1, render_pieces operand h.2 hg.2]
    simp [pieces, renderUnary_piece h.1]
  | .binary op l r, h, hg => by
    rw [WellSpelled] at h
    rw [IsGrouped] at hg
    obtain ⟨symbol, hsymbol⟩ := Option.isSome_iff_exists.1 h.1
    rw [render_binary, operandText_of_false hg.1.1, operandText_of_false hg.2.1,
      render_pieces l h.2.1 hg.1.2, render_pieces r h.2.2 hg.2.2, hsymbol, pieces]
    change some (spelling l.pieces ++ [32] ++ symbol ++ [32] ++ spelling r.pieces) = _
    simp [text, hsymbol]
  | .absent, h, _ | .atom _, h, _ | .atomOf _, h, _ | .sequence _, h, _ => by
    rw [WellSpelled] at h
    exact h.elim

theorem renderAll_pieces : ∀ xs : List Expr, AreWellSpelled xs → AreGrouped xs →
    ∃ texts, renderAll xs = some texts ∧ texts.flatMap (44 :: ·) = spelling (piecesMore xs)
  | [], _, _ => ⟨[], rfl, rfl⟩
  | x :: xs, h, hg => by
    rw [AreWellSpelled] at h
    rw [AreGrouped] at hg
    obtain ⟨texts, htexts, hmore⟩ := renderAll_pieces xs h.2 hg.2
    refine ⟨spelling x.pieces :: texts, ?_, ?_⟩
    · simp [renderAll, render_pieces x h.1 hg.1, htexts]
    · simp [piecesMore, hmore, text]

end

end Expr

/-! ## No piece runs into the next -/

namespace Piece

/-- The bytes that stand behind an expression: a blank, a comma or a closing bracket. -/
def isCloser (b : UInt8) : Bool := b == 32 || b == 41 || b == 44 || b == 93

/-- The bytes that an expression begins with. -/
def isOpener (b : UInt8) : Bool := isWordPart b || b == 46 || b == 39 || b == 40 || b == 91 || b == 45 || b == 33

/-- Whether a piece may stand before the byte, or at the end of the text. -/
def precedes (next : Option UInt8) : Piece → Prop
  | number _ => ∀ b ∈ next, isCloser b = true
  | word _ => ∀ b ∈ next, isCloser b = true ∨ b = 40 ∨ b = 46
  | negate => ∃ b, next = some b ∧ isOpener b = true ∧ b ≠ 45
  | not => ∃ b, next = some b ∧ isOpener b = true
  | dot => ∃ b, next = some b ∧ isWordStart b = true
  | operator _ => next = some 32
  | string _ | roundOpen | roundClose | squareOpen | squareClose | comma | blank => True

/-- The piece is spelled as it should be. -/
def Spelled : Piece → Prop
  | number t => Emits .number t
  | string v => ∀ b ∈ v, isLineEnd b = false
  | word t => isWord t = true
  | operator op => op.symbol?.isSome = true
  | roundOpen | roundClose | squareOpen | squareClose | comma | dot | negate | not | blank => True

/-- The pieces can stand one after another before `rest`. -/
def Written : List Piece → Text → Prop
  | [], _ => True
  | p :: ps, rest => p.Spelled ∧ p.precedes (spelling ps ++ rest).head? ∧ Written ps rest

theorem written_append {ps qs : List Piece} {rest : Text} (hp : Written ps (spelling qs ++ rest))
    (hq : Written qs rest) : Written (ps ++ qs) rest := by
  induction ps with
  | nil => exact hq
  | cons p ps ih =>
    obtain ⟨hspelled, hnext, hps⟩ := hp
    refine ⟨hspelled, ?_, ih hps⟩
    change p.precedes (spelling (ps ++ qs) ++ rest).head?
    rwa [spelling_append, List.append_assoc]

end Piece

namespace Expr

theorem literalPiece_spelled {kind : LiteralKind} {t : Text} (h : literalSpelled kind t) :
    (literalPiece kind t).Spelled := by
  cases kind with
  | number => exact h
  | string => exact h
  | boolean =>
    change isWord (if t = "True" then "true" else "false") = true
    split <;> decide
  | null =>
    change isWord "null" = true
    decide
  | other => exact h.elim

/-- Numbers begin with a digit or a point, words with a letter and strings with a quote. -/
theorem text_opens {p : Piece} (h : p.Spelled)
    (hp : (∃ t, p = .number t) ∨ (∃ t, p = .word t) ∨ ∃ t, p = .string t) :
    ∃ b s, p.text = b :: s ∧ isOpener b = true ∧ b ≠ 45 := by
  rcases hp with ⟨t, rfl⟩ | ⟨t, rfl⟩ | ⟨t, rfl⟩
  · obtain ⟨whole, part, power, hform, rfl⟩ := emits_number h
    cases htext : whole ++ (part ++ (power ++ [])) with
    | nil =>
      have hnil : whole = [] ∧ part = [] ∧ power = [] := by simpa using htext
      rcases hform.nonempty with hne | ⟨d, ds, hpart⟩
      · exact absurd hnil.1 hne
      · rw [hnil.2.1] at hpart
        cases hpart
    | cons b s =>
      have hb := number_starts hform htext
      refine ⟨b, s, by simpa [text] using htext, ?_, ?_⟩
      · simp only [Bool.or_eq_true, Bool.and_eq_true, beq_iff_eq] at hb
        rcases hb with hb | ⟨rfl, -⟩
        · simp [isOpener, isWordPart, hb]
        · rfl
      · rintro rfl
        simp at hb
        cases hb
  · cases t with
    | nil => cases h
    | cons b s =>
      have hb : isWordPart b = true := isWord_part h b List.mem_cons_self
      refine ⟨b, s, rfl, by simp [isOpener, hb], ?_⟩
      rintro rfl
      cases hb
  · exact ⟨39, _, rfl, rfl, by decide⟩

theorem text_ne_nil {p : Piece} (h : p.Spelled) : p.text ≠ [] := by
  have hopens : (∃ t, p = .number t) ∨ (∃ t, p = .word t) ∨ (∃ t, p = .string t) → p.text ≠ [] := by
    intro hp
    obtain ⟨b, s, e, -⟩ := text_opens h hp
    simp [e]
  cases p with
  | number t => exact hopens (.inl ⟨t, rfl⟩)
  | word t => exact hopens (.inr (.inl ⟨t, rfl⟩))
  | string t => exact hopens (.inr (.inr ⟨t, rfl⟩))
  | operator op =>
    cases op with
    | other code => cases h
    | _ => exact List.cons_ne_nil _ _
  | _ => exact List.cons_ne_nil _ _

theorem literalPiece_opens {kind : LiteralKind} {t : Text} (h : literalSpelled kind t) :
    ∃ b s, (literalPiece kind t).text = b :: s ∧ isOpener b = true ∧ b ≠ 45 := by
  refine text_opens (literalPiece_spelled h) ?_
  cases kind with
  | number => exact .inl ⟨_, rfl⟩
  | string => exact .inr (.inr ⟨_, rfl⟩)
  | boolean => exact .inr (.inl ⟨_, rfl⟩)
  | null => exact .inr (.inl ⟨_, rfl⟩)
  | other => exact h.elim

/-- What no length puts in parentheses, no minus sign does. -/
theorem unaryNeeds_of_lengthNeeds {x : Expr} (h : lengthNeeds x = false) : unaryNeeds .negate x = false := by
  cases x <;> simp_all [lengthNeeds, unaryNeeds]

/-- The text of an expression begins with an opener, and with a minus sign only where an expression is
negated. -/
theorem pieces_open : ∀ x : Expr, x.WellSpelled → x.IsGrouped →
    ∃ b s, spelling x.pieces = b :: s ∧ isOpener b = true ∧ (unaryNeeds .negate x = false → b ≠ 45)
  | .literal kind t, h, _ => by
    rw [WellSpelled] at h
    obtain ⟨b, s, e, hb, hne⟩ := literalPiece_opens h
    exact ⟨b, s, by simp [pieces, e], hb, fun _ => hne⟩
  | .access name quoted, h, _ => by
    rw [WellSpelled] at h
    obtain ⟨b, s, e, hb, hne⟩ := text_opens (p := .word name) h.1 (.inr (.inl ⟨_, rfl⟩))
    exact ⟨b, s, by simp [pieces, e], hb, fun _ => hne⟩
  | .call name args, h, _ => by
    rw [WellSpelled] at h
    obtain ⟨b, s, e, hb, hne⟩ := text_opens (p := .word name) h.1 (.inr (.inl ⟨_, rfl⟩))
    exact ⟨b, _, by rw [pieces, spelling_cons, e]; rfl, hb, fun _ => hne⟩
  | .list items, _, _ => ⟨91, _, by rw [pieces]; rfl, rfl, fun _ => by decide⟩
  | .enclosure inner, _, _ => ⟨40, _, by rw [pieces]; rfl, rfl, fun _ => by decide⟩
  | .length operand, h, hg => by
    rw [WellSpelled] at h
    rw [IsGrouped] at hg
    obtain ⟨b, s, e, hb, hne⟩ := pieces_open operand h hg.2
    exact ⟨b, _, by rw [pieces, spelling_append, e]; rfl, hb,
      fun _ => hne (unaryNeeds_of_lengthNeeds hg.1)⟩
  | .unary op operand, h, _ => by
    rw [WellSpelled] at h
    rcases h.1 with rfl | rfl
    · exact ⟨45, _, by rw [pieces]; rfl, rfl, fun hn => by simp [unaryNeeds] at hn⟩
    · exact ⟨33, _, by rw [pieces]; rfl, rfl, fun _ => by decide⟩
  | .binary op l r, h, hg => by
    rw [WellSpelled] at h
    rw [IsGrouped] at hg
    obtain ⟨b, s, e, hb, -⟩ := pieces_open l h.2.1 hg.1.2
    exact ⟨b, _, by rw [pieces, spelling_append, e]; rfl, hb, fun hn => by simp [unaryNeeds] at hn⟩
  | .absent, h, _ | .atom _, h, _ | .atomOf _, h, _ | .sequence _, h, _ => by
    rw [WellSpelled] at h
    exact h.elim

/-- The bytes that may stand behind an expression: a closer, or a point if the length of the expression needs
no parentheses. -/
def EndsAt (x : Expr) (rest : Text) : Prop :=
  ∀ b ∈ rest.head?, isCloser b = true ∨ b = 46 ∧ lengthNeeds x = false

theorem endsAt_closer (x : Expr) {b : UInt8} (h : isCloser b = true) (rest : Text) : EndsAt x (b :: rest) := by
  intro c hc
  obtain rfl : b = c := by simpa using hc
  exact .inl h

/-- Behind what a length puts in parentheses no point stands. -/
theorem EndsAt.closer {x : Expr} {rest : Text} (h : EndsAt x rest) (hx : lengthNeeds x = true) :
    ∀ b ∈ rest.head?, isCloser b = true := by
  intro b hb
  rcases h b hb with h | ⟨-, h⟩
  · exact h
  · rw [hx] at h
    cases h

theorem EndsAt.word {x : Expr} {rest : Text} (h : EndsAt x rest) (t : Text) : (Piece.word t).precedes rest.head? :=
  fun b hb => (h b hb).imp id fun h => .inr h.1

/-- Behind an argument stands a comma or what closes the arguments. -/
theorem endsAt_more (x : Expr) (xs : List Expr) {b : UInt8} (h : isCloser b = true) (rest : Text) :
    EndsAt x (spelling (piecesMore xs) ++ b :: rest) := by
  cases xs with
  | nil => exact endsAt_closer x h rest
  | cons y ys =>
    rw [piecesMore]
    exact endsAt_closer x rfl _

theorem precedes_literal {kind : LiteralKind} {t : Text} {rest : Text} (h : literalSpelled kind t)
    (hr : EndsAt (.literal kind t) rest) : (literalPiece kind t).precedes rest.head? := by
  cases kind with
  | number => exact hr.closer rfl
  | string => trivial
  | boolean => exact hr.word _
  | null => exact hr.word _
  | other => exact h.elim

theorem precedes_sign {op : UnaryOp} {x : Expr} (hop : op = .negate ∨ op = .not) (h : x.WellSpelled)
    (hg : x.IsGrouped) (hneeds : unaryNeeds op x = false) (rest : Text) :
    (signPiece op).precedes (spelling x.pieces ++ rest).head? := by
  obtain ⟨b, s, e, hb, hne⟩ := pieces_open x h hg
  rw [e]
  rcases hop with rfl | rfl
  · exact ⟨b, rfl, hb, hne hneeds⟩
  · exact ⟨b, rfl, hb⟩

mutual

theorem written_pieces : ∀ x : Expr, x.WellSpelled → x.IsGrouped → ∀ {rest : Text}, EndsAt x rest →
    Written x.pieces rest
  | .literal kind t, h, _, rest, hr => by
    rw [WellSpelled] at h
    rw [pieces]
    exact ⟨literalPiece_spelled h, precedes_literal h hr, trivial⟩
  | .access name _, h, _, rest, hr => by
    rw [WellSpelled] at h
    rw [pieces]
    exact ⟨h.1, hr.word name, trivial⟩
  | .call name args, h, hg, rest, _ => by
    rw [WellSpelled] at h
    rw [IsGrouped] at hg
    rw [pieces]
    refine ⟨h.1, ?_, trivial, trivial, written_append ?_ ⟨trivial, trivial, trivial⟩⟩
    · intro b hb
      obtain rfl : (40 : UInt8) = b := by simpa [text] using hb
      exact .inr (.inl rfl)
    · exact written_piecesAll args h.2 hg 41 rfl rest
  | .list items, h, hg, rest, _ => by
    rw [WellSpelled] at h
    rw [IsGrouped] at hg
    rw [pieces]
    exact ⟨trivial, trivial, written_append (written_piecesAll items h hg 93 rfl rest) ⟨trivial, trivial, trivial⟩⟩
  | .enclosure inner, h, hg, rest, _ => by
    rw [WellSpelled] at h
    rw [IsGrouped] at hg
    rw [pieces]
    exact ⟨trivial, trivial, written_append (written_pieces inner h hg (endsAt_closer inner rfl rest))
      ⟨trivial, trivial, trivial⟩⟩
  | .length operand, h, hg, rest, hr => by
    rw [WellSpelled] at h
    rw [IsGrouped] at hg
    rw [pieces]
    refine written_append (written_pieces operand h hg.2 ?_) ⟨trivial, ⟨108, rfl, rfl⟩, ?_, hr.word _, trivial⟩
    · intro b hb
      obtain rfl : (46 : UInt8) = b := by simpa [text] using hb
      exact .inr ⟨rfl, hg.1⟩
    · change isWord "length" = true
      decide
  | .unary op operand, h, hg, rest, hr => by
    rw [WellSpelled] at h
    rw [IsGrouped] at hg
    rw [pieces]
    refine ⟨?_, precedes_sign h.1 h.2 hg.2 hg.1 rest, written_pieces operand h.2 hg.2 ?_⟩
    · rcases h.1 with rfl | rfl <;> trivial
    · exact fun b hb => .inl (hr.closer rfl b hb)
  | .binary op l r, h, hg, rest, hr => by
    rw [WellSpelled] at h
    rw [IsGrouped] at hg
    rw [pieces]
    refine written_append (written_pieces l h.2.1 hg.1.2 (endsAt_closer l rfl _))
      ⟨trivial, trivial, h.1, rfl, trivial, trivial, written_pieces r h.2.2 hg.2.2 ?_⟩
    exact fun b hb => .inl (hr.closer rfl b hb)
  | .absent, h, _, _, _ | .atom _, h, _, _, _ | .atomOf _, h, _, _, _ | .sequence _, h, _, _, _ => by
    rw [WellSpelled] at h
    exact h.elim

theorem written_piecesAll : ∀ xs : List Expr, AreWellSpelled xs → AreGrouped xs → ∀ b, isCloser b = true →
    ∀ rest, Written (piecesAll xs) (b :: rest)
  | [], _, _, _, _, _ => trivial
  | x :: xs, h, hg, b, hb, rest => by
    rw [AreWellSpelled] at h
    rw [AreGrouped] at hg
    rw [piecesAll]
    exact written_append (written_pieces x h.1 hg.1 (endsAt_more x xs hb rest))
      (written_piecesMore xs h.2 hg.2 b hb rest)

theorem written_piecesMore : ∀ xs : List Expr, AreWellSpelled xs → AreGrouped xs → ∀ b, isCloser b = true →
    ∀ rest, Written (piecesMore xs) (b :: rest)
  | [], _, _, _, _, _ => trivial
  | x :: xs, h, hg, b, hb, rest => by
    rw [AreWellSpelled] at h
    rw [AreGrouped] at hg
    rw [piecesMore]
    exact ⟨trivial, trivial, written_append (written_pieces x h.1 hg.1 (endsAt_more x xs hb rest))
      (written_piecesMore xs h.2 hg.2 b hb rest)⟩

end

/-! ## Levels -/

end Expr

namespace BinaryOp

/-- The level of an operator: the tightest operator is on the lowest. -/
def rank : BinaryOp → Nat
  | .power | .other _ => 0
  | .multiply | .divide | .modulo => 1
  | .add | .subtract => 2
  | .lesser | .greater | .lesserEquals | .greaterEquals => 3
  | .equals | .notEquals => 4
  | .and => 5
  | .or => 6

theorem mem_all {op : BinaryOp} (h : op.symbol?.isSome = true) : op ∈ all := by
  cases op with
  | other code => cases h
  | _ => decide

theorem rank_le {op op' : BinaryOp} (h : op.symbol?.isSome = true) (h' : op'.symbol?.isSome = true)
    (hp : op.precedence ≤ op'.precedence) : op'.rank ≤ op.rank := by
  have hall : ∀ op ∈ all, ∀ op' ∈ all, op.precedence ≤ op'.precedence → op'.rank ≤ op.rank := by decide
  exact hall op (mem_all h) op' (mem_all h') hp

theorem rank_lt {op op' : BinaryOp} (h : op.symbol?.isSome = true) (h' : op'.symbol?.isSome = true)
    (hp : op.precedence < op'.precedence) : op'.rank < op.rank := by
  have hall : ∀ op ∈ all, ∀ op' ∈ all, op.precedence < op'.precedence → op'.rank < op.rank := by decide
  exact hall op (mem_all h) op' (mem_all h') hp

end BinaryOp

namespace Expr

/-- The level of the outermost operator. What has none stands on the lowest level. -/
def rank : Expr → Nat
  | .binary op _ _ => op.rank
  | _ => 0

/-- A left operand without parentheses is on no higher level. -/
theorem left_rank {op : BinaryOp} {x : Expr} (hop : op.symbol?.isSome = true) (hx : x.WellSpelled)
    (hneeds : leftNeeds op x = false) : x.rank ≤ op.rank := by
  cases x with
  | binary op' l r =>
    rw [WellSpelled] at hx
    simp only [leftNeeds, Bool.or_eq_false_iff, decide_eq_false_iff_not] at hneeds
    exact BinaryOp.rank_le hop hx.1 (by omega)
  | _ => exact Nat.zero_le _

/-- No operator binds tighter than a power, so that every base with an operator has parentheses. -/
theorem leftNeeds_power {op : BinaryOp} (hop : op.symbol?.isSome = true) {l r : Expr} :
    leftNeeds .power (.binary op l r) = true := by
  have hall : ∀ op ∈ BinaryOp.all, op.precedence ≤ BinaryOp.power.precedence := by decide
  rcases Nat.lt_or_eq_of_le (hall op (BinaryOp.mem_all hop)) with hlt | heq
  · simp [leftNeeds, hlt]
  · simp [leftNeeds, heq]

/-- A right operand without parentheses is on a lower level, unless both are powers. -/
theorem right_rank {op : BinaryOp} {x : Expr} (hop : op.symbol?.isSome = true) (hx : x.WellSpelled)
    (hneeds : rightNeeds op x = false) : x.rank ≤ op.rank - 1 := by
  cases x with
  | binary op' l r =>
    rw [WellSpelled] at hx
    simp only [rightNeeds, Bool.or_eq_false_iff, decide_eq_false_iff_not, Bool.and_eq_false_iff, beq_eq_false_iff_ne,
      bne_eq_false_iff_eq] at hneeds
    obtain ⟨hle, hne | rfl⟩ := hneeds
    · have hlt := BinaryOp.rank_lt hop hx.1 (by omega)
      exact Nat.le_sub_one_of_lt hlt
    · exact BinaryOp.rank_le hop hx.1 (by omega)
  | _ => exact Nat.zero_le _

/-! ## Numbers and names -/

mutual

/-- The numbers in an expression, in order. -/
def numbers : Expr → List Text
  | .literal .number t => [t]
  | .absent | .literal .. | .atom _ | .access .. => []
  | .atomOf inner | .enclosure inner | .length inner => inner.numbers
  | .unary _ operand => operand.numbers
  | .binary _ left right => left.numbers ++ right.numbers
  | .call _ args => numbersAll args
  | .sequence items | .list items => numbersAll items

/-- The numbers in expressions, in order. -/
def numbersAll : List Expr → List Text
  | [] => []
  | x :: xs => x.numbers ++ numbersAll xs

end

mutual

theorem numbers_bare : ∀ x : Expr, x.bare.numbers = x.numbers
  | .absent | .atom _ | .access .. | .literal .. => by simp [bare]
  | .enclosure inner => by rw [bare, numbers, numbers_bare inner]
  | .atomOf inner | .length inner => by simp [bare, numbers, numbers_bare inner]
  | .unary _ x => by simp [bare, numbers, numbers_bare x]
  | .binary _ l r => by simp [bare, numbers, numbers_bare l, numbers_bare r]
  | .call _ xs | .sequence xs | .list xs => by simp [bare, numbers, numbersAll_bare xs]

theorem numbersAll_bare : ∀ xs : List Expr, numbersAll (bareAll xs) = numbersAll xs
  | [] => by simp [bareAll]
  | x :: xs => by simp [bareAll, numbersAll, numbers_bare x, numbersAll_bare xs]

end

mutual

theorem names_bare : ∀ x : Expr, x.bare.names = x.names
  | .absent | .atom _ | .access .. | .literal .. => by simp [bare]
  | .enclosure inner => by rw [bare, names, names_bare inner]
  | .atomOf inner | .length inner => by simp [bare, names, names_bare inner]
  | .unary _ x => by simp [bare, names, names_bare x]
  | .binary _ l r => by simp [bare, names, names_bare l, names_bare r]
  | .call _ xs | .sequence xs | .list xs => by simp [bare, names, namesAll_bare xs]

theorem namesAll_bare : ∀ xs : List Expr, namesAll (bareAll xs) = namesAll xs
  | [] => by simp [bareAll]
  | x :: xs => by simp [bareAll, namesAll, names_bare x, namesAll_bare xs]

end

/-- Expressions that are the same but for enclosures have the same numbers. -/
theorem numbers_congr {x y : Expr} (h : x.bare = y.bare) : x.numbers = y.numbers := by
  rw [← numbers_bare x, h, numbers_bare]

/-- Expressions that are the same but for enclosures have the same names. -/
theorem names_congr {x y : Expr} (h : x.bare = y.bare) : x.names = y.names := by
  rw [← names_bare x, h, names_bare]

mutual

theorem mem_numbers : ∀ x : Expr, ∀ u, .number u ∈ x.pieces → u ∈ x.numbers
  | .literal kind t, u, h => by
    rw [pieces] at h
    cases kind with
    | number => simpa [literalPiece, numbers, eq_comm] using h
    | _ => simp [literalPiece] at h
  | .access .., u, h => by simp [pieces] at h
  | .call _ xs, u, h => by
    have h : .number u ∈ piecesAll xs := by simpa [pieces] using h
    rw [numbers]
    exact mem_numbersAll xs u h
  | .list xs, u, h => by
    have h : .number u ∈ piecesAll xs := by simpa [pieces] using h
    rw [numbers]
    exact mem_numbersAll xs u h
  | .enclosure x, u, h => by
    rw [numbers]
    exact mem_numbers x u (by simpa [pieces] using h)
  | .length x, u, h => by
    rw [numbers]
    exact mem_numbers x u (by simpa [pieces] using h)
  | .unary op x, u, h => by
    have hsign : signPiece op ≠ .number u := by cases op <;> simp [signPiece]
    rw [numbers]
    exact mem_numbers x u (by simpa [pieces, hsign.symm] using h)
  | .binary _ l r, u, h => by
    rw [numbers, List.mem_append]
    have h : .number u ∈ l.pieces ∨ .number u ∈ r.pieces := by simpa [pieces] using h
    exact h.imp (mem_numbers l u) (mem_numbers r u)
  | .absent, _, h | .atom _, _, h | .atomOf _, _, h | .sequence _, _, h => by simp [pieces] at h

theorem mem_numbersAll : ∀ xs : List Expr, ∀ u, .number u ∈ piecesAll xs → u ∈ numbersAll xs
  | [], _, h => by simp [piecesAll] at h
  | x :: xs, u, h => by
    rw [numbersAll, List.mem_append]
    have h : .number u ∈ x.pieces ∨ .number u ∈ piecesMore xs := by simpa [piecesAll] using h
    exact h.imp (mem_numbers x u) (mem_numbersMore xs u)

theorem mem_numbersMore : ∀ xs : List Expr, ∀ u, .number u ∈ piecesMore xs → u ∈ numbersAll xs
  | [], _, h => by simp [piecesMore] at h
  | x :: xs, u, h => by
    rw [numbersAll, List.mem_append]
    have h : .number u ∈ x.pieces ∨ .number u ∈ piecesMore xs := by simpa [piecesMore] using h
    exact h.imp (mem_numbers x u) (mem_numbersMore xs u)

end

end Expr

end Offside
