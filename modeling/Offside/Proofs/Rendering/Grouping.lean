import Offside.Tree.Evaluation

/-!
# Where parentheses stand

An expression says how its operands are grouped; a text has to say it with parentheses. `Expr.grouped`
puts an enclosure wherever rendering adds parentheses, so that rendering has none to add any more. Both
expressions are the same but for enclosures (`bare_grouped`), and have the same text and the same value
(`render_grouped`, `evaluate_grouped`).
-/

namespace Offside.Expr

mutual

/-- The expression without its enclosures. -/
def bare : Expr → Expr
  | .enclosure inner => inner.bare
  | .atomOf inner => .atomOf inner.bare
  | .unary op operand => .unary op operand.bare
  | .binary op left right => .binary op left.bare right.bare
  | .call name args => .call name (bareAll args)
  | .sequence items => .sequence (bareAll items)
  | .list items => .list (bareAll items)
  | .length operand => .length operand.bare
  | .absent => .absent
  | .literal kind text => .literal kind text
  | .atom text => .atom text
  | .access name quoted => .access name quoted

/-- The expressions without their enclosures. -/
def bareAll : List Expr → List Expr
  | [] => []
  | x :: xs => x.bare :: bareAll xs

end

/-- An expression, in an enclosure if need be. -/
def wrapped (need : Bool) (x : Expr) : Expr := if need then .enclosure x else x

mutual

/-- The expression with an enclosure wherever rendering adds parentheses. -/
def grouped : Expr → Expr
  | .enclosure inner => .enclosure inner.grouped
  | .atomOf inner => .atomOf inner.grouped
  | .unary op operand => .unary op (wrapped (unaryNeeds op operand) operand.grouped)
  | .binary op left right =>
    .binary op (wrapped (leftNeeds op left) left.grouped) (wrapped (rightNeeds op right) right.grouped)
  | .call name args => .call name (groupedAll args)
  | .sequence items => .sequence (groupedAll items)
  | .list items => .list (groupedAll items)
  | .length operand => .length (wrapped (lengthNeeds operand) operand.grouped)
  | .absent => .absent
  | .literal kind text => .literal kind text
  | .atom text => .atom text
  | .access name quoted => .access name quoted

/-- The expressions with enclosures wherever rendering adds parentheses. -/
def groupedAll : List Expr → List Expr
  | [] => []
  | x :: xs => x.grouped :: groupedAll xs

end

/-! ## What grouping keeps -/

section
variable (x : Expr)

theorem bare_wrapped (need : Bool) : (wrapped need x).bare = x.bare := by
  cases need with
  | true => simp [wrapped, bare]
  | false => rfl

theorem evaluate_wrapped (need : Bool) : (wrapped need x).evaluate = x.evaluate := by
  cases need with
  | true => simp [wrapped, evaluate]
  | false => rfl

/-! Grouping keeps the outermost construct, which is all that a need for parentheses depends on. -/

@[simp] theorem unaryNeeds_grouped (op : UnaryOp) : unaryNeeds op x.grouped = unaryNeeds op x := by
  cases x <;> simp [grouped, unaryNeeds]

@[simp] theorem leftNeeds_grouped (op : BinaryOp) : leftNeeds op x.grouped = leftNeeds op x := by
  cases x <;> simp [grouped, leftNeeds]

@[simp] theorem rightNeeds_grouped (op : BinaryOp) : rightNeeds op x.grouped = rightNeeds op x := by
  cases x <;> simp [grouped, rightNeeds]

@[simp] theorem lengthNeeds_grouped : lengthNeeds x.grouped = lengthNeeds x := by
  cases x with
  | literal kind text => simp [grouped]
  | _ => simp [grouped, lengthNeeds]

/-- What has been put in an enclosure where it needs parentheses needs none any more. -/
theorem needs_wrapped {needs : Expr → Bool} (h : ∀ x, needs (.enclosure x) = false)
    (hg : needs x.grouped = needs x) : needs (wrapped (needs x) x.grouped) = false := by
  cases hn : needs x with
  | true => exact h x.grouped
  | false => exact hg.trans hn

end

mutual

theorem bare_grouped : ∀ x : Expr, x.grouped.bare = x.bare
  | .absent | .literal .. | .atom _ | .access .. => by simp [grouped, bare]
  | .enclosure inner | .atomOf inner => by simp [grouped, bare, bare_grouped inner]
  | .unary _ operand | .length operand => by simp [grouped, bare, bare_wrapped, bare_grouped operand]
  | .binary _ left right => by simp [grouped, bare, bare_wrapped, bare_grouped left, bare_grouped right]
  | .call _ xs | .sequence xs | .list xs => by simp [grouped, bare, bareAll_grouped xs]

theorem bareAll_grouped : ∀ xs : List Expr, bareAll (groupedAll xs) = bareAll xs
  | [] => rfl
  | x :: xs => by simp [groupedAll, bareAll, bare_grouped x, bareAll_grouped xs]

end

mutual

theorem evaluate_grouped : ∀ x : Expr, x.grouped.evaluate = x.evaluate
  | .absent | .literal .. | .atom _ | .access .. => by simp [grouped]
  | .enclosure inner | .atomOf inner => by simp [grouped, evaluate, evaluate_grouped inner]
  | .unary _ operand => by simp [grouped, evaluate, evaluate_wrapped, evaluate_grouped operand]
  | .length _ | .call .. => by simp [grouped, evaluate]
  | .binary _ left right => by
    simp [grouped, evaluate, evaluate_wrapped, evaluate_grouped left, evaluate_grouped right]
  | .sequence xs | .list xs => by simp [grouped, evaluate, evaluateAll_grouped xs]

theorem evaluateAll_grouped : ∀ xs : List Expr, evaluateAll (groupedAll xs) = evaluateAll xs
  | [] => by simp [groupedAll]
  | x :: xs => by simp [groupedAll, evaluateAll, evaluate_grouped x, evaluateAll_grouped xs]

end

/-! ## The text -/

/-- The text of an operand, in parentheses if it needs them. -/
def operandText (needs : Expr → Bool) (x : Expr) : Option Text := x.render.map (enclosed (needs x))

theorem render_unary (op : UnaryOp) (x : Expr) :
    (unary op x).render = (operandText (unaryNeeds op) x).map (renderUnary op) := by
  simp only [render, operandText]
  cases x.render <;> rfl

theorem render_length (x : Expr) : (length x).render = (operandText lengthNeeds x).map fun s : Text => s ++ ".length" := by
  simp only [render, operandText]
  cases x.render <;> rfl

theorem render_binary (op : BinaryOp) (l r : Expr) :
    (binary op l r).render = op.symbol?.bind fun symbol =>
      (operandText (leftNeeds op) l).bind fun left =>
        (operandText (rightNeeds op) r).map fun right => left ++ " " ++ symbol ++ " " ++ right := by
  simp only [render, operandText]
  cases op.symbol? <;> cases l.render <;> cases r.render <;> rfl

/-- An enclosure says what the parentheses of an operand say. -/
theorem operandText_wrapped {needs : Expr → Bool} (h : ∀ x, needs (.enclosure x) = false) {x : Expr}
    (hg : needs x.grouped = needs x) (hr : x.grouped.render = x.render) :
    operandText needs (wrapped (needs x) x.grouped) = operandText needs x := by
  unfold operandText
  rw [needs_wrapped x h hg]
  cases hn : needs x with
  | true =>
    simp only [wrapped, if_true, render, hr]
    cases x.render <;> rfl
  | false => simp only [wrapped, Bool.false_eq_true, if_false, hr]

mutual

theorem render_grouped : ∀ x : Expr, x.grouped.render = x.render
  | .absent | .literal .. | .atom _ | .access .. => by simp [grouped]
  | .enclosure inner | .atomOf inner => by simp [grouped, render, render_grouped inner]
  | .unary op x => by
    rw [grouped, render_unary, render_unary,
      operandText_wrapped (fun _ => rfl) (unaryNeeds_grouped x op) (render_grouped x)]
  | .length x => by
    rw [grouped, render_length, render_length,
      operandText_wrapped (fun _ => rfl) (lengthNeeds_grouped x) (render_grouped x)]
  | .binary op l r => by
    rw [grouped, render_binary, render_binary,
      operandText_wrapped (fun _ => rfl) (leftNeeds_grouped l op) (render_grouped l),
      operandText_wrapped (fun _ => rfl) (rightNeeds_grouped r op) (render_grouped r)]
  | .call _ xs | .sequence xs | .list xs => by simp [grouped, render, renderAll_grouped xs]

theorem renderAll_grouped : ∀ xs : List Expr, renderAll (groupedAll xs) = renderAll xs
  | [] => rfl
  | x :: xs => by simp [groupedAll, renderAll, render_grouped x, renderAll_grouped xs]

end

/-! ## Nothing left to add -/

mutual

/-- Rendering has no parentheses to add. -/
def IsGrouped : Expr → Prop
  | .enclosure inner | .atomOf inner => inner.IsGrouped
  | .unary op operand => unaryNeeds op operand = false ∧ operand.IsGrouped
  | .binary op left right =>
    (leftNeeds op left = false ∧ left.IsGrouped) ∧ rightNeeds op right = false ∧ right.IsGrouped
  | .call _ args => AreGrouped args
  | .sequence items | .list items => AreGrouped items
  | .length operand => lengthNeeds operand = false ∧ operand.IsGrouped
  | .absent | .literal .. | .atom _ | .access .. => True

/-- Rendering has no parentheses to add in any of the expressions. -/
def AreGrouped : List Expr → Prop
  | [] => True
  | x :: xs => x.IsGrouped ∧ AreGrouped xs

end

theorem IsGrouped.wrapped {x : Expr} (h : x.IsGrouped) (need : Bool) : (wrapped need x).IsGrouped := by
  cases need with
  | true => simpa [Expr.wrapped, IsGrouped] using h
  | false => exact h

mutual

theorem isGrouped_grouped : ∀ x : Expr, x.grouped.IsGrouped
  | .absent | .literal .. | .atom _ | .access .. => by simp [grouped, IsGrouped]
  | .enclosure inner | .atomOf inner => by simpa [grouped, IsGrouped] using isGrouped_grouped inner
  | .unary op x => by
    rw [grouped, IsGrouped]
    exact ⟨needs_wrapped x (fun _ => rfl) (unaryNeeds_grouped x op), (isGrouped_grouped x).wrapped _⟩
  | .length x => by
    rw [grouped, IsGrouped]
    exact ⟨needs_wrapped x (fun _ => rfl) (lengthNeeds_grouped x), (isGrouped_grouped x).wrapped _⟩
  | .binary op l r => by
    rw [grouped, IsGrouped]
    exact ⟨⟨needs_wrapped l (fun _ => rfl) (leftNeeds_grouped l op), (isGrouped_grouped l).wrapped _⟩,
      needs_wrapped r (fun _ => rfl) (rightNeeds_grouped r op), (isGrouped_grouped r).wrapped _⟩
  | .call _ xs | .sequence xs | .list xs => by simpa [grouped, IsGrouped] using areGrouped_grouped xs

theorem areGrouped_grouped : ∀ xs : List Expr, AreGrouped (groupedAll xs)
  | [] => by simp [groupedAll, AreGrouped]
  | x :: xs => by
    rw [groupedAll, AreGrouped]
    exact ⟨isGrouped_grouped x, areGrouped_grouped xs⟩

end

/-! ## Depth -/

mutual

/-- How deep brackets and exponents nest, or more. -/
def nesting : Expr → Nat
  | .enclosure inner | .atomOf inner => inner.nesting + 1
  | .unary _ operand | .length operand => operand.nesting
  | .binary _ left right => max left.nesting (right.nesting + 1)
  | .call _ args => nestingAll args + 1
  | .sequence items | .list items => nestingAll items + 1
  | .absent | .literal .. | .atom _ | .access .. => 0

/-- How deep the deepest of the expressions nests. -/
def nestingAll : List Expr → Nat
  | [] => 0
  | x :: xs => max x.nesting (nestingAll xs)

end

end Offside.Expr
