import Mathlib.Data.List.Nodup
import Offside.Proofs.Lexer.Lexeme
import Offside.Proofs.Text
import Offside.Tree.Outline

/-!
# Indented lines

A line of an outline is the heading of a node, perhaps with something behind it, and in front as many blanks as say how
deep the node lies. Below a node stand the lines that are deeper than its own, up to the next one that is not. Main
statement: trees of headings are told apart by the texts of their lines (`outlineText_inj`), if every heading exists
and no line is broken by what it says.
-/

namespace Offside

open Offside.Lexeme

/-! ## Headings -/

/-- The sort of a node, or of a clause. -/
inductive Heading where
  | absent | literal (kind : LiteralKind) | atom | enclosure | unary (op : UnaryOp) | binary (op : BinaryOp)
  | access | call | sequence | list | length
  | expression | assign | ifChain | clause | otherwise | whileLoop | forRange | define | ret | print | block
deriving Repr, DecidableEq

namespace Heading

/-- The word that a line begins with. -/
def name : Heading → Text
  | absent => "<nil>"
  | literal kind => kind.name
  | atom => "Atom"
  | enclosure => "Enclosure"
  | unary op => op.name
  | binary op => op.name
  | access => "Access"
  | call => "Call"
  | sequence => "Sequence"
  | list => "List"
  | length => "Length"
  | expression => "ExpressionStmt"
  | assign => "Assign"
  | ifChain => "If"
  | clause => "Clause"
  | otherwise => "Else"
  | whileLoop => "While"
  | forRange => "For"
  | define => "FuncDef"
  | ret => "Return"
  | print => "Print"
  | block => "StatementList"

/-- The headings of what the language has. -/
def all : List Heading :=
  [absent, atom, enclosure, access, call, sequence, list, length, expression, assign, ifChain, clause, otherwise,
    whileLoop, forRange, define, ret, print, block] ++
    [LiteralKind.string, .number, .boolean, .null].map literal ++ [UnaryOp.negate, .not].map unary ++
    BinaryOp.all.map binary

theorem nodup_names : (all.map name).Nodup := by decide +kernel

theorem name_inj {h k : Heading} (hh : h ∈ all) (hk : k ∈ all) (e : h.name = k.name) : h = k :=
  List.inj_on_of_nodup_map nodup_names hh hk e

/-- A heading is not empty and is one word, on one line. -/
theorem name_word {h : Heading} (hh : h ∈ all) : h.name ≠ [] ∧ 32 ∉ h.name ∧ 10 ∉ h.name := by
  have hall : ∀ h ∈ all, h.name ≠ [] ∧ 32 ∉ h.name ∧ 10 ∉ h.name := by decide +kernel
  exact hall h hh

end Heading

/-! ## Labels -/

/-- What a line says: a heading, and perhaps something behind it. -/
structure Label where
  heading : Heading
  detail : Option Text := none

namespace Label

/-- The text of a line without its indentation. -/
def text (l : Label) : Text := l.heading.name ++ l.detail.elim [] (32 :: ·)

/-- The heading exists, and the label lies on one line. -/
structure Legible (l : Label) : Prop where
  heading : l.heading ∈ Heading.all
  inLine : ∀ s ∈ l.detail, 10 ∉ s

section
variable {h : Heading} {s : Text} {l m : Label}

theorem text_bare (h : Heading) : text { heading := h } = h.name := List.append_nil _

theorem Legible.bare (hh : h ∈ Heading.all) : Legible { heading := h } := ⟨hh, by simp⟩

theorem Legible.detail (hh : h ∈ Heading.all) (hs : 10 ∉ s) : Legible { heading := h, detail := some s } :=
  ⟨hh, by simpa using hs⟩

/-- The heading goes up to the first blank. -/
theorem takeWhile_text (hl : l.Legible) : l.text.takeWhile (· != 32) = l.heading.name := by
  refine takeWhile_stop (fun b hb => ?_) fun b hb => ?_
  · simpa using ne_of_mem_of_not_mem hb (Heading.name_word hl.heading).2.1
  · cases hd : l.detail with
    | none => simp [hd] at hb
    | some s => simp_all

theorem text_inj (hl : l.Legible) (hm : m.Legible) (e : l.text = m.text) : l = m := by
  have hname : l.heading.name = m.heading.name := by rw [← takeWhile_text hl, e, takeWhile_text hm]
  have hdetail : l.detail.elim [] (32 :: ·) = m.detail.elim [] (32 :: ·) := by
    rw [text, text, hname] at e
    exact List.append_cancel_left e
  obtain ⟨h, d⟩ := l
  obtain ⟨k, d'⟩ := m
  obtain rfl := Heading.name_inj hl.heading hm.heading hname
  cases d <;> cases d' <;> simp_all

theorem text_inLine (hl : l.Legible) : 10 ∉ l.text := by
  have hword := (Heading.name_word hl.heading).2.2
  have hline := hl.inLine
  cases hd : l.detail <;> simp_all [text]

/-- A label does not begin with a blank. -/
theorem text_ne_blank (hl : l.Legible) (s : Text) : l.text ≠ 32 :: s := by
  intro e
  have hword := takeWhile_text hl
  rw [e] at hword
  exact (Heading.name_word hl.heading).1 (by simpa using hword.symm)

end

end Label

/-! ## Trees of headings -/

/-- A line with the lines below it. -/
inductive Outline where
  | item (label : Label) (below : List Outline)

namespace Outline

mutual

/-- The lines, one level deeper for each level of the tree. -/
def lines (depth : Nat) : Outline → List Text
  | item label below => outlineLine depth label.text :: linesAll (depth + 1) below

/-- The lines of several trees, one after another. -/
def linesAll (depth : Nat) : List Outline → List Text
  | [] => []
  | t :: ts => t.lines depth ++ linesAll depth ts

end

mutual

/-- Every line is legible. -/
def Legible : Outline → Prop
  | item label below => label.Legible ∧ AreLegible below

/-- Every line of the trees is legible. -/
def AreLegible : List Outline → Prop
  | [] => True
  | t :: ts => t.Legible ∧ AreLegible ts

end

theorem linesAll_single (depth : Nat) (t : Outline) : linesAll depth [t] = t.lines depth := List.append_nil _

/-- The lines are at an end, or go on less deep. -/
def Rises (depth : Nat) (rest : List Text) : Prop :=
  ∀ s ∈ rest.head?, ∃ k < depth, ∃ l : Label, l.Legible ∧ s = outlineLine k l.text

/-- A line tells how deep it is, since what it says does not begin with a blank. -/
theorem outlineLine_inj {l m : Label} (hl : l.Legible) (hm : m.Legible) {j k : Nat}
    (h : outlineLine j l.text = outlineLine k m.text) : j = k ∧ l = m := by
  have hsucc : ∀ k s, outlineLine (k + 1) s = 32 :: 32 :: outlineLine k s := fun _ _ => rfl
  induction j generalizing k with
  | zero =>
    cases k with
    | zero => exact ⟨rfl, Label.text_inj hl hm h⟩
    | succ k => exact absurd h (Label.text_ne_blank hl _)
  | succ j ih =>
    cases k with
    | zero => exact absurd h.symm (Label.text_ne_blank hm _)
    | succ k =>
      rw [hsucc, hsucc] at h
      obtain ⟨rfl, rfl⟩ := ih (List.cons.inj (List.cons.inj h).2).2
      exact ⟨rfl, rfl⟩

theorem rises_nil (depth : Nat) : Rises depth [] := by simp [Rises]

theorem Rises.mono {j k : Nat} {rest : List Text} (h : Rises j rest) (hjk : j ≤ k) : Rises k rest := by
  intro s hs
  obtain ⟨i, hi, hline⟩ := h s hs
  exact ⟨i, Nat.lt_of_lt_of_le hi hjk, hline⟩

theorem Rises.linesAll {depth : Nat} {rest : List Text} (h : Rises depth rest) :
    ∀ {ts : List Outline}, AreLegible ts → Rises (depth + 1) (linesAll depth ts ++ rest)
  | [], _ => h.mono (Nat.le_succ _)
  | item label below :: ts, hts => by
    rintro _ ⟨⟩
    exact ⟨depth, Nat.lt_succ_self _, label, hts.1.1, rfl⟩

/-- A line of this depth is not one that rises. -/
theorem Rises.ne_line {depth : Nat} {rest : List Text} (h : Rises depth rest) {l : Label} (hl : l.Legible)
    (lines : List Text) : rest ≠ outlineLine depth l.text :: lines := by
  rintro rfl
  obtain ⟨k, hk, m, hm, hline⟩ := h _ rfl
  obtain ⟨rfl, -⟩ := outlineLine_inj hl hm hline
  exact Nat.lt_irrefl _ hk

mutual

/-- The lines up to where they rise are those of one tree. -/
theorem lines_inj {depth : Nat} {rest rest' : List Text} (hrest : Rises (depth + 1) rest)
    (hrest' : Rises (depth + 1) rest') : ∀ {t u : Outline}, t.Legible → u.Legible →
      t.lines depth ++ rest = u.lines depth ++ rest' → t = u ∧ rest = rest'
  | item l ts, item m us, ht, hu, h => by
    obtain ⟨hline, hbelow⟩ := List.cons.inj h
    obtain ⟨-, rfl⟩ := outlineLine_inj ht.1 hu.1 hline
    obtain ⟨rfl, rfl⟩ := linesAll_inj hrest hrest' ht.2 hu.2 hbelow
    exact ⟨rfl, rfl⟩

theorem linesAll_inj {depth : Nat} {rest rest' : List Text} (hrest : Rises depth rest) (hrest' : Rises depth rest') :
    ∀ {ts us : List Outline}, AreLegible ts → AreLegible us →
      linesAll depth ts ++ rest = linesAll depth us ++ rest' → ts = us ∧ rest = rest'
  | [], [], _, _, h => ⟨rfl, h⟩
  | [], item _ _ :: _, _, hu, h => absurd h (hrest.ne_line hu.1.1 _)
  | item _ _ :: _, [], ht, _, h => absurd h.symm (hrest'.ne_line ht.1.1 _)
  | t :: ts, u :: us, ht, hu, h => by
    rw [linesAll, linesAll, List.append_assoc, List.append_assoc] at h
    obtain ⟨rfl, hafter⟩ := lines_inj (hrest.linesAll ht.2) (hrest'.linesAll hu.2) ht.1 hu.1 h
    obtain ⟨rfl, rfl⟩ := linesAll_inj hrest hrest' ht.2 hu.2 hafter
    exact ⟨rfl, rfl⟩

end

mutual

theorem lines_inLine {depth : Nat} : ∀ {t : Outline}, t.Legible → ∀ s ∈ t.lines depth, 10 ∉ s
  | item label below, h => by
    have hblanks : 10 ∉ Text.repeated "  " depth := by
      intro hmem
      obtain ⟨s, hs, hb⟩ := List.mem_flatten.1 hmem
      rw [List.eq_of_mem_replicate hs] at hb
      exact absurd hb (by decide)
    refine List.forall_mem_cons.2 ⟨?_, linesAll_inLine h.2⟩
    simp [outlineLine, hblanks, Label.text_inLine h.1]

theorem linesAll_inLine {depth : Nat} : ∀ {ts : List Outline}, AreLegible ts → ∀ s ∈ linesAll depth ts, 10 ∉ s
  | [], _ => List.forall_mem_nil _
  | _ :: _, h => List.forall_mem_append.2 ⟨lines_inLine h.1, linesAll_inLine h.2⟩

end

/-- The lines of a text that ends each of them. -/
theorem split_outlineText {lines : List Text} (h : ∀ s ∈ lines, 10 ∉ s) :
    Text.split 10 (outlineText lines) = lines ++ [[]] := by
  induction lines with
  | nil => rfl
  | cons s lines ih =>
    obtain ⟨hs, hlines⟩ := List.forall_mem_cons.1 h
    have htext : outlineText (s :: lines) = s ++ 10 :: outlineText lines := List.append_assoc s [10] _
    rw [htext, Text.split_first hs, ih hlines, List.cons_append]

/-- Trees of headings are told apart by their texts. -/
theorem outlineText_inj {t u : Outline} (ht : t.Legible) (hu : u.Legible)
    (h : outlineText (t.lines 0) = outlineText (u.lines 0)) : t = u := by
  have hsplit := congrArg (Text.split 10) h
  rw [split_outlineText (lines_inLine ht), split_outlineText (lines_inLine hu)] at hsplit
  have hlines : t.lines 0 ++ [] = u.lines 0 ++ [] := by simpa using hsplit
  exact (lines_inj (rises_nil _) (rises_nil _) ht hu hlines).1

end Outline

end Offside
