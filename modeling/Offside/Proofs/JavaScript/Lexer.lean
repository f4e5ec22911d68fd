import Offside.Proofs.Rendering.Pieces

/-!
# The tokens of JavaScript

A reader of the tokens that expressions of JavaScript are made of. It follows the standard for the
characters of ASCII: the longest token counts, a number in digits that all count as octal behind a zero has
neither fraction nor exponent, and no letter or digit follows a number. Where a text goes on with a token of
another kind (a comment, an assignment, an escape other than of a quote or a backslash), nothing is read.

Main statement: the pieces of a rendered text are read back as its tokens, if JavaScript has its numbers
(`scan_written`).
-/

namespace Offside.JavaScript

open Offside.Lexeme

/-- A token of an expression. -/
inductive Token where
  | number (text : Text)
  | string (value : Text)
  /-- An identifier or a reserved word. -/
  | word (text : Text)
  | roundOpen | roundClose | squareOpen | squareClose | comma | dot | not
  /-- An operator between operands. The minus sign before an operand is that of a difference. -/
  | operator (op : BinaryOp)
deriving Repr, DecidableEq

/-! ## Reading tokens -/

/-- Blank space and line ends. -/
def isSpace (b : UInt8) : Bool := isBlank b || isLineEnd b

/-- A byte that may begin an identifier. -/
def isIdentifierStart (b : UInt8) : Bool := isWordStart b || b == 36

/-- A byte that may stand inside an identifier. -/
def isIdentifierPart (b : UInt8) : Bool := isWordPart b || b == 36

/-- A byte that goes on with a word: part of an identifier, the backslash of an escape, or part of a
character outside ASCII. -/
def joins (b : UInt8) : Bool := isIdentifierPart b || b == 92 || 128 ≤ b

/-- Digits behind a zero that all count as octal. -/
def isLegacyOctal (digits : Text) : Bool :=
  2 ≤ digits.length && digits.head? == some 48 && digits.all (· ≤ 55)

/-- The number at the start of a text. -/
def numeric (s : Text) : Text :=
  let whole := s.takeWhile Text.isDigit
  if isLegacyOctal whole then whole
  else
    let s := s.drop whole.length
    let part := fraction s
    whole ++ part ++ exponent (s.drop part.length)

/-- What stands between the quote `q` and the next one, and how many bytes up to there. -/
def stringBody (q : UInt8) : Text → Option (Text × Nat)
  | [] => none
  | b :: s =>
    if b = q then some ([], 1)
    else if isLineEnd b then none
    else if b = 92 then
      match s with
      | [] => none
      | c :: s =>
        if c = 92 ∨ isQuote c = true then (stringBody q s).map fun (v, n) => (c :: v, n + 2) else none
    else (stringBody q s).map fun (v, n) => (b :: v, n + 1)

/-- The punctuator that begins with `b`, and how many bytes it takes. -/
def punctuator? (b : UInt8) (s : Text) : Option (Token × Nat) :=
  let next := s.head?
  let third := s.tail.head?
  let alone (t : Token) : Option (Token × Nat) := if next = some 61 then none else some (t, 1)
  if b = 40 then some (.roundOpen, 1)
  else if b = 41 then some (.roundClose, 1)
  else if b = 91 then some (.squareOpen, 1)
  else if b = 93 then some (.squareClose, 1)
  else if b = 44 then some (.comma, 1)
  else if b = 46 then if next = some 46 then none else some (.dot, 1)
  else if b = 43 then if next = some 43 then none else alone (.operator .add)
  else if b = 45 then if next = some 45 then none else alone (.operator .subtract)
  else if b = 42 then
    if next = some 42 then if third = some 61 then none else some (.operator .power, 2)
    else alone (.operator .multiply)
  else if b = 47 then if next = some 47 ∨ next = some 42 then none else alone (.operator .divide)
  else if b = 37 then alone (.operator .modulo)
  else if b = 60 then
    if next = some 61 then some (.operator .lesserEquals, 2)
    else if next = some 60 ∨ s.take 3 = [33, 45, 45] then none else some (.operator .lesser, 1)
  else if b = 62 then
    if next = some 61 then some (.operator .greaterEquals, 2)
    else if next = some 62 then none else some (.operator .greater, 1)
  else if b = 61 then if next = some 61 ∧ third = some 61 then some (.operator .equals, 3) else none
  else if b = 33 then
    if next = some 61 then if third = some 61 then some (.operator .notEquals, 3) else none
    else some (.not, 1)
  else if b = 38 then if next = some 38 ∧ third ≠ some 61 then some (.operator .and, 2) else none
  else if b = 124 then if next = some 124 ∧ third ≠ some 61 then some (.operator .or, 2) else none
  else none

/-- The token at the start of `b :: s`, and how many bytes it takes. -/
def first (b : UInt8) (s : Text) : Option (Token × Nat) :=
  if Text.isDigit b || (b == 46 && startsWithDigit s) then
    let t := numeric (b :: s)
    if ((b :: s).drop t.length).head?.any joins then none else some (.number t, t.length)
  else if isIdentifierStart b then
    let t := (b :: s).takeWhile isIdentifierPart
    some (.word t, t.length)
  else if isQuote b then (stringBody b s).map fun (v, n) => (.string v, n + 1)
  else punctuator? b s

/-- The tokens of a text behind its first `skip` bytes. -/
def scan : (skip : Nat) → Text → Option (List Token)
  | _, [] => some []
  | skip + 1, _ :: s => scan skip s
  | 0, b :: s =>
    if isSpace b then scan 0 s
    else match first b s with
      | none => none
      | some (t, n) => (scan (n - 1) s).map (t :: ·)

/-- JavaScript has the number. -/
def Numeric (t : Text) : Prop := numeric t = t

instance (t : Text) : Decidable (Numeric t) := inferInstanceAs (Decidable (numeric t = t))

/-! ## Pieces are read back -/

open Offside.Piece

theorem scan_skip (skip : Nat) (s : Text) : scan skip s = scan 0 (s.drop skip) := by
  induction skip generalizing s with
  | zero => rfl
  | succ skip ih =>
    cases s with
    | nil => rfl
    | cons b s => exact ih s

theorem scan_space {b : UInt8} (h : isSpace b = true) (s : Text) : scan 0 (b :: s) = scan 0 s := by
  simp [scan, h]

theorem scan_first {b : UInt8} {s : Text} {t : Token} {n : Nat} (hb : isSpace b = false)
    (h : first b s = some (t, n + 1)) : scan 0 (b :: s) = (scan 0 (s.drop n)).map (t :: ·) := by
  simp [scan, hb, h, scan_skip n]

section
variable {rest s : Text} {b : UInt8}

theorem isCloser_joins (h : isCloser b = true) : isNumberPart b = false ∧ joins b = false := by
  simp only [isCloser, Bool.or_eq_true, beq_iff_eq] at h
  rcases h with ((rfl | rfl) | rfl) | rfl <;> decide

theorem numeric_again {whole part power : Text} (h : NumberForm whole part power)
    (hr : ∀ b ∈ rest.head?, isNumberPart b = false) :
    numeric (whole ++ (part ++ (power ++ rest))) = if isLegacyOctal whole then whole else whole ++ part ++ power := by
  simp only [numeric, whole_again h hr, List.drop_left, fraction_again h hr, exponent_again h hr]

theorem numeric_eq {whole part power : Text} (h : NumberForm whole part power) :
    numeric (whole ++ part ++ power) = if isLegacyOctal whole then whole else whole ++ part ++ power := by
  have hnil : ∀ b ∈ ([] : Text).head?, isNumberPart b = false := by simp
  simpa using numeric_again h hnil

/-- JavaScript has a number just when nothing stands behind digits that all count as octal. -/
theorem numeric_iff {whole part power : Text} (h : NumberForm whole part power) :
    Numeric (whole ++ part ++ power) ↔ (isLegacyOctal whole = true → part = [] ∧ power = []) := by
  rw [Numeric, numeric_eq h]
  cases isLegacyOctal whole with
  | true => simp
  | false => simp

theorem first_number {t : Text} (ht : Emits .number t) (hn : Numeric t) (hr : ∀ b ∈ rest.head?, isCloser b = true)
    (e : t ++ rest = b :: s) : first b s = some (.number t, t.length) := by
  obtain ⟨whole, part, power, hform, rfl⟩ := emits_number ht
  have hr' : ∀ b ∈ rest.head?, isNumberPart b = false := fun b hb => (isCloser_joins (hr b hb)).1
  have e' : whole ++ (part ++ (power ++ rest)) = b :: s := by simpa using e
  have hnumeric : numeric (b :: s) = whole ++ part ++ power := by
    rw [← e', numeric_again hform hr', ← numeric_eq hform]
    exact hn
  have hjoins : rest.head?.any joins = false := by
    cases rest with
    | nil => rfl
    | cons c rest => exact (isCloser_joins (hr c rfl)).2
  unfold first
  rw [if_pos (number_starts hform e'), hnumeric, ← e]
  dsimp only
  rw [List.drop_left, hjoins]
  rfl

theorem isWordPart_identifier {b : UInt8} (h : isWordPart b = true) : isIdentifierPart b = true := by
  simp [isIdentifierPart, h]

theorem first_word {t : Text} (ht : isWord t = true)
    (hr : ∀ b ∈ rest.head?, isCloser b = true ∨ b = 40 ∨ b = 46) (e : t ++ rest = b :: s) :
    first b s = some (.word t, t.length) := by
  have hparts : ∀ b ∈ t, isIdentifierPart b = true := fun b hb => isWordPart_identifier (isWord_part ht b hb)
  have hrest : ∀ b ∈ rest.head?, isIdentifierPart b = false := by
    intro b hb
    rcases hr b hb with h | rfl | rfl
    · have hjoins := (isCloser_joins h).2
      simp only [joins, Bool.or_eq_false_iff] at hjoins
      exact hjoins.1.1
    · rfl
    · rfl
  cases t with
  | nil => cases ht
  | cons c t =>
    obtain ⟨rfl, rfl⟩ : c = b ∧ t ++ rest = s := by simpa using e
    have hc : isWordStart c = true := by
      simp only [isWord, Bool.and_eq_true] at ht
      exact ht.1
    obtain ⟨hdigit, hpoint⟩ := isWordStart_not_number hc
    unfold first
    rw [if_neg (by simp [hdigit, hpoint]), if_pos (by simp [isIdentifierStart, hc]), ← List.cons_append,
      takeWhile_stop hparts hrest]

/-- A byte inside a string between single quotes. -/
def escaped (b : UInt8) : Text := if b = 92 ∨ b = 39 then [92, b] else [b]

theorem stringBody_quote (q : UInt8) (s : Text) : stringBody q (q :: s) = some ([], 1) := by
  cases s <;> simp [stringBody]

theorem stringBody_plain {q c : UInt8} (hq : c ≠ q) (hl : isLineEnd c = false) (hc : c ≠ 92) (s : Text) :
    stringBody q (c :: s) = (stringBody q s).map fun (v, n) => (c :: v, n + 1) := by
  cases s <;> simp [stringBody, hq, hl, hc]

theorem stringBody_escaped {v : Text} (hv : ∀ b ∈ v, isLineEnd b = false) (rest : Text) :
    stringBody 39 (v.flatMap escaped ++ 39 :: rest) = some (v, (v.flatMap escaped).length + 1) := by
  induction v with
  | nil => exact stringBody_quote 39 rest
  | cons b v ih =>
    obtain ⟨hb, hv⟩ := List.forall_mem_cons.1 hv
    have ih := ih hv
    by_cases he : b = 92 ∨ b = 39
    · have hquote : b = 92 ∨ isQuote b = true := by
        rcases he with rfl | rfl
        · exact .inl rfl
        · exact .inr rfl
      have hescaped : escaped b = [92, b] := if_pos he
      have hline : isLineEnd 92 = false := rfl
      rw [List.flatMap_cons, hescaped]
      simp [stringBody, hline, hquote, ih]
    · obtain ⟨hslash, hquote⟩ := not_or.1 he
      have hescaped : escaped b = [b] := if_neg he
      rw [List.flatMap_cons, hescaped, List.append_assoc, List.singleton_append, stringBody_plain hquote hb hslash, ih]
      rfl

theorem needsEscape_iff {b : UInt8} : needsEscape b = true ↔ b = 92 ∨ b = 39 := by
  simp [needsEscape, or_comm]

theorem flatMap_escaped_of_plain {v : Text} (h : v.any needsEscape = false) : v.flatMap escaped = v := by
  rw [List.any_eq_false] at h
  have hbytes : ∀ b ∈ v, escaped b = [b] := fun b hb => if_neg fun he => h b hb (needsEscape_iff.2 he)
  rw [List.flatMap_def, List.map_congr_left hbytes, ← List.flatMap_def, List.flatMap_singleton']

/-- A text that is copied between the quotes as it stands has nothing in it to be escaped. -/
theorem quoteJavaScript_eq (v : Text) : quoteJavaScript v = 39 :: (v.flatMap escaped ++ [39]) := by
  have hbytes : (fun b => if needsEscape b then [92, b] else [b]) = escaped := by
    funext b
    simp only [escaped, needsEscape_iff]
  unfold quoteJavaScript
  rw [hbytes]
  cases hplain : v.any needsEscape with
  | true => rfl
  | false =>
    rw [flatMap_escaped_of_plain hplain]
    rfl

theorem first_string {v : Text} (hv : ∀ b ∈ v, isLineEnd b = false) (e : quoteJavaScript v ++ rest = b :: s) :
    b = 39 ∧ first b s = some (.string v, (quoteJavaScript v).length) := by
  rw [quoteJavaScript_eq] at e ⊢
  obtain ⟨rfl, rfl⟩ : (39 : UInt8) = b ∧ v.flatMap escaped ++ 39 :: rest = s := by simpa using e
  refine ⟨rfl, ?_⟩
  change (stringBody 39 (v.flatMap escaped ++ 39 :: rest)).map _ = _
  rw [stringBody_escaped hv]
  simp

theorem first_dot {c : UInt8} (hc : isWordStart c = true) (s : Text) : first 46 (c :: s) = some (.dot, 1) := by
  obtain ⟨hdigit, hpoint⟩ := isWordStart_not_number hc
  have hpunct : punctuator? 46 (c :: s) = if c = 46 then none else some (.dot, 1) := by simp [punctuator?]
  have hstart : isIdentifierStart 46 = false := rfl
  have hquote : isQuote 46 = false := rfl
  have hpoint' : Text.isDigit 46 = false := rfl
  simp [first, hpoint', startsWithDigit, hdigit, hstart, hquote, hpunct, hpoint]

theorem first_minus {c : UInt8} (hc : isOpener c = true) (hne : c ≠ 45) (s : Text) :
    first 45 (c :: s) = some (.operator .subtract, 1) := by
  have hequal : c ≠ 61 := by
    rintro rfl
    cases hc
  change punctuator? 45 (c :: s) = _
  simp [punctuator?, hne, hequal]

theorem first_not {c : UInt8} (hc : isOpener c = true) (s : Text) : first 33 (c :: s) = some (.not, 1) := by
  have hequal : c ≠ 61 := by
    rintro rfl
    cases hc
  change punctuator? 33 (c :: s) = _
  simp [punctuator?, hequal]

/-- An operator between blanks is read as a whole. -/
theorem first_operator {op : BinaryOp} {symbol : Text} (h : op.symbol? = some symbol) {b : UInt8} {s r : Text}
    (e : symbol ++ 32 :: r = b :: s) : first b s = some (.operator op, symbol.length) := by
  cases op <;> cases h <;> cases e <;> rfl

end

/-- The token that a piece is. A blank is none. -/
def token? : Piece → Option Token
  | .number t => some (.number t)
  | .string v => some (.string v)
  | .word t => some (.word t)
  | .roundOpen => some .roundOpen
  | .roundClose => some .roundClose
  | .squareOpen => some .squareOpen
  | .squareClose => some .squareClose
  | .comma => some .comma
  | .dot => some .dot
  | .negate => some (.operator .subtract)
  | .not => some .not
  | .operator op => some (.operator op)
  | .blank => none

/-- The tokens of pieces. -/
def tokens (ps : List Piece) : List Token := ps.filterMap token?

theorem first_piece {p : Piece} {t : Token} (ht : token? p = some t) (hs : p.Spelled)
    (hn : ∀ u, p = .number u → Numeric u) {rest : Text} (hp : p.precedes rest.head?) {b : UInt8} {s : Text}
    (e : p.text ++ rest = b :: s) : first b s = some (t, p.text.length) := by
  cases p with
  | number u =>
    cases ht
    exact first_number hs (hn u rfl) hp e
  | string v =>
    cases ht
    exact (first_string hs e).2
  | word u =>
    cases ht
    exact first_word hs hp e
  | negate =>
    cases ht
    obtain ⟨c, hc, hopen, hne⟩ := hp
    obtain ⟨r, rfl⟩ := List.head?_eq_some_iff.1 hc
    cases e
    exact first_minus hopen hne r
  | not =>
    cases ht
    obtain ⟨c, hc, hopen⟩ := hp
    obtain ⟨r, rfl⟩ := List.head?_eq_some_iff.1 hc
    cases e
    exact first_not hopen r
  | dot =>
    cases ht
    obtain ⟨c, hc, hword⟩ := hp
    obtain ⟨r, rfl⟩ := List.head?_eq_some_iff.1 hc
    cases e
    exact first_dot hword r
  | operator op =>
    cases ht
    obtain ⟨symbol, hsymbol⟩ := Option.isSome_iff_exists.1 hs
    obtain ⟨r, rfl⟩ := List.head?_eq_some_iff.1 hp
    simp only [text, hsymbol, Option.getD_some] at e ⊢
    exact first_operator hsymbol e
  | blank => cases ht
  | _ =>
    cases ht
    cases e
    rfl

theorem first_space {b : UInt8} (h : isSpace b = true) (s : Text) : first b s = none := by
  simp only [isSpace, isBlank, isLineEnd, Bool.or_eq_true, beq_iff_eq] at h
  rcases h with (((rfl | rfl) | rfl) | rfl) | rfl | rfl <;> rfl

/-- Reading goes on behind a piece. -/
theorem scan_piece {p : Piece} (hs : p.Spelled) (hn : ∀ u, p = .number u → Numeric u) {rest : Text}
    (hp : p.precedes rest.head?) : scan 0 (p.text ++ rest) = (scan 0 rest).map ((token? p).toList ++ ·) := by
  cases ht : token? p with
  | none =>
    cases p with
    | blank =>
      rw [text, List.singleton_append, scan_space rfl]
      simp
    | _ => cases ht
  | some t =>
    obtain ⟨b, s, e⟩ := List.exists_cons_of_ne_nil (Expr.text_ne_nil hs)
    have hfirst := first_piece ht hs hn hp (b := b) (s := s ++ rest) (by rw [e]; rfl)
    have hb : isSpace b = false := by
      by_contra hb
      rw [first_space (by simpa using hb)] at hfirst
      cases hfirst
    rw [e, List.length_cons] at hfirst
    rw [e, List.cons_append, scan_first hb hfirst, List.drop_left]
    rfl

theorem scan_written {ps : List Piece} {rest : Text} (h : Written ps rest)
    (hn : ∀ u, .number u ∈ ps → Numeric u) : scan 0 (spelling ps ++ rest) = (scan 0 rest).map (tokens ps ++ ·) := by
  induction ps with
  | nil => simp [tokens]
  | cons p ps ih =>
    obtain ⟨hs, hp, hps⟩ := h
    rw [spelling_cons, List.append_assoc, scan_piece hs (fun u hu => hn u (by simp [hu])) hp,
      ih hps fun u hu => hn u (List.mem_cons_of_mem _ hu), Option.map_map]
    have htokens : tokens (p :: ps) = (token? p).toList ++ tokens ps := by
      cases ht : token? p with
      | none => simp [tokens, ht]
      | some t => simp [tokens, ht]
    rw [htokens]
    simp [Function.comp_def]

/-! ## Numbers that are read -/

theorem numeric_numeric {b : UInt8} {s : Text}
    (h : (Text.isDigit b || (b == 46 && startsWithDigit s)) = true) : Numeric (numeric (b :: s)) := by
  obtain ⟨part, power, hform, hnumber⟩ := number_form h
  have hliteral : (Lexeme.number (b :: s)).literal = (b :: s).takeWhile Text.isDigit ++ part ++ power := by rw [hnumber]
  have hnumeric : numeric (b :: s) = if isLegacyOctal ((b :: s).takeWhile Text.isDigit) then
      (b :: s).takeWhile Text.isDigit else (b :: s).takeWhile Text.isDigit ++ part ++ power := by
    rw [← hliteral]
    rfl
  generalize (b :: s).takeWhile Text.isDigit = whole at hform hnumeric
  rw [hnumeric]
  cases hoctal : isLegacyOctal whole with
  | true =>
    have hwhole : NumberForm whole [] [] := by
      refine ⟨hform.digits, .inl rfl, .inl rfl, .inl ?_⟩
      rintro rfl
      cases hoctal
    simpa using (numeric_iff hwhole).2 fun _ => ⟨rfl, rfl⟩
  | false => exact (numeric_iff hform).2 fun h => by simp [hoctal] at h

theorem punctuator?_ne_number {b : UInt8} {s : Text} {u : Text} {n : Nat} :
    punctuator? b s ≠ some (.number u, n) := by
  have hite : ∀ {c : Prop} [Decidable c] {x y z : Option (Token × Nat)}, x ≠ z → y ≠ z → (if c then x else y) ≠ z := by
    intro c _ x y z hx hy
    split
    · exact hx
    · exact hy
  unfold punctuator?
  dsimp only
  repeat' apply hite
  all_goals simp

theorem numeric_of_first {b : UInt8} {s : Text} {u : Text} {n : Nat} (h : first b s = some (.number u, n)) :
    Numeric u := by
  unfold first at h
  split at h
  · next hb =>
    dsimp only at h
    split at h
    · cases h
    · cases h
      exact numeric_numeric hb
  · split at h
    · cases h
    · split at h
      · simp at h
      · exact absurd h punctuator?_ne_number

/-- The number tokens of a text are numbers that JavaScript has. -/
theorem numeric_of_scan {k : Nat} {s : Text} {ts : List Token} (h : scan k s = some ts) {u : Text}
    (hu : .number u ∈ ts) : Numeric u := by
  induction s generalizing k ts with
  | nil =>
    simp only [scan, Option.some.injEq] at h
    simp [← h] at hu
  | cons b s ih =>
    cases k with
    | succ k => exact ih h hu
    | zero =>
      rw [scan] at h
      split at h
      · exact ih h hu
      · split at h
        · cases h
        · next t n hfirst =>
          obtain ⟨us, hus, rfl⟩ := Option.map_eq_some_iff.1 h
          rcases List.mem_cons.1 hu with rfl | hu
          · exact numeric_of_first hfirst
          · exact ih hus hu

end Offside.JavaScript
