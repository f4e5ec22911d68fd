import Offside.Proofs.Grammar.Trees
import Offside.Proofs.Parser.Program
import Offside.Tree.JavaScript

/-!
# The structure of rendered programs

A rendered program is a text with some structure: names that it reads, calls or assigns, declarations by `let`
and by `function`, loop heads, and blocks between braces. `Code` keeps that structure beside the text, and
`Code.spelling` forgets it. Main statement: every compiled program renders, and its text is the spelling of its
code (`compile_spelling`).

The names that rendering brings along by itself, those of `console.log` and of the check of a range, are plain
text here.
-/

namespace Offside

namespace JavaScript

/-- A stretch of text that declares nothing. -/
inductive Fragment where
  | text (t : Text)
  /-- A name that is read, called or assigned. -/
  | name (x : Text)
deriving Repr, DecidableEq

namespace Fragment

/-- The text of a stretch. -/
def spelled : Fragment → Text
  | text t => t
  | name x => x

/-- The text of stretches. -/
def spelling (fs : List Fragment) : Text := fs.flatMap spelled

/-- The names among stretches. -/
def names (fs : List Fragment) : List Text :=
  fs.filterMap fun
    | text _ => none
    | name x => some x

@[simp] theorem spelling_nil : spelling [] = [] := rfl

@[simp] theorem spelling_text (t : Text) (fs : List Fragment) : spelling (text t :: fs) = t ++ spelling fs := rfl

@[simp] theorem spelling_name (x : Text) (fs : List Fragment) : spelling (name x :: fs) = x ++ spelling fs := rfl

@[simp] theorem spelling_append (fs gs : List Fragment) : spelling (fs ++ gs) = spelling fs ++ spelling gs :=
  List.flatMap_append

@[simp] theorem names_nil : names [] = [] := rfl

@[simp] theorem names_text (t : Text) (fs : List Fragment) : names (text t :: fs) = names fs := rfl

@[simp] theorem names_name (x : Text) (fs : List Fragment) : names (name x :: fs) = x :: names fs := rfl

@[simp] theorem names_append (fs gs : List Fragment) : names (fs ++ gs) = names fs ++ names gs :=
  List.filterMap_append

/-- Stretches in parentheses, if need be. -/
def enclosed (need : Bool) (fs : List Fragment) : List Fragment :=
  if need then text "(" :: fs ++ [text ")"] else fs

@[simp] theorem spelling_enclosed (need : Bool) (fs : List Fragment) :
    spelling (enclosed need fs) = Expr.enclosed need (spelling fs) := by
  cases need <;> simp [enclosed, Expr.enclosed]

@[simp] theorem names_enclosed (need : Bool) (fs : List Fragment) : names (enclosed need fs) = names fs := by
  cases need <;> simp [enclosed]

/-- Stretches with commas between neighbours. -/
def listed (fss : List (List Fragment)) : List Fragment := List.intercalate [text ","] fss

@[simp] theorem spelling_listed (fss : List (List Fragment)) :
    spelling (listed fss) = Text.join "," (fss.map spelling) := by
  unfold listed
  induction fss with
  | nil => rfl
  | cons fs fss ih =>
    cases fss with
    | nil => simp [Text.join]
    | cons gs fss => simp [List.intercalate_cons_cons, Text.join, ih]

@[simp] theorem names_listed (fss : List (List Fragment)) : names (listed fss) = fss.flatMap names := by
  unfold listed
  induction fss with
  | nil => rfl
  | cons fs fss ih =>
    cases fss with
    | nil => simp
    | cons gs fss => simp [List.intercalate_cons_cons, ih]

end Fragment

/-- A rendered program, piece by piece. -/
inductive Code where
  | plain (f : Fragment)
  /-- A declaration by `let` with its value. -/
  | letting (name : Text) (value : List Fragment)
  /-- A block between braces. -/
  | block (body : List Code)
  | function (name : Text) (params : List Text) (body : List Code)
  /-- A loop that declares its variable: the first value, the rest of the head, and the body. -/
  | loop (name : Text) (start next : List Fragment) (body : List Code)

namespace Code

mutual

/-- The text of a piece. -/
def spelled : Code → Text
  | plain f => f.spelled
  | letting name value => "let " ++ name ++ " = " ++ Fragment.spelling value
  | block body => "\x7b" ++ spelling body ++ "\x7d"
  | function name params body =>
    "function " ++ name ++ "(" ++ Text.join "," params ++ ")\x7b" ++ spelling body ++ "\x7d"
  | loop name start next body =>
    "for (let " ++ name ++ "=" ++ Fragment.spelling start ++ ";" ++ Fragment.spelling next ++ ")\x7b" ++
      spelling body ++ "\x7d"

/-- The text of pieces. -/
def spelling : List Code → Text
  | [] => []
  | c :: cs => c.spelled ++ spelling cs

end

/-- Stretches as pieces. -/
def plains (fs : List Fragment) : List Code := fs.map plain

/-- Text as a piece. -/
def text (t : Text) : Code := plain (.text t)

@[simp] theorem spelling_nil : spelling [] = [] := rfl

@[simp] theorem spelling_cons (c : Code) (cs : List Code) : spelling (c :: cs) = c.spelled ++ spelling cs := rfl

@[simp] theorem spelling_append (cs ds : List Code) : spelling (cs ++ ds) = spelling cs ++ spelling ds := by
  induction cs with
  | nil => rfl
  | cons c cs ih => simp [ih]

@[simp] theorem spelled_text (t : Text) : (text t).spelled = t := rfl

@[simp] theorem spelling_plains (fs : List Fragment) : spelling (plains fs) = Fragment.spelling fs := by
  induction fs with
  | nil => rfl
  | cons f fs ih => exact congrArg (f.spelled ++ ·) ih

/-- Pieces with a blank on either side, if need be. -/
def padded (need : Bool) (cs : List Code) : List Code := if need then text " " :: cs ++ [text " "] else cs

/-- The code of statements one after another. -/
def sequence (css : List (List Code)) : List Code := List.intercalate [text ";"] css

theorem sequence_cons_cons (cs ds : List Code) (css : List (List Code)) :
    sequence (cs :: ds :: css) = cs ++ text ";" :: sequence (ds :: css) := by
  simp [sequence, List.intercalate_cons_cons]

@[simp] theorem spelling_sequence (css : List (List Code)) :
    spelling (sequence css) = Text.join ";" (css.map spelling) := by
  induction css with
  | nil => rfl
  | cons cs css ih =>
    cases css with
    | nil => simp [sequence, Text.join]
    | cons ds css =>
      rw [sequence_cons_cons, spelling_append, spelling_cons, ih]
      simp [Text.join]

end Code

end JavaScript

open Offside.JavaScript

/-! ## The code of a tree -/

mutual

/-- The fragments of an expression. -/
def Expr.fragments : Expr → List Fragment
  | .absent => []
  | .literal kind text => [.text (renderLiteral kind text)]
  | .atom text => [.text text]
  | .atomOf inner | .enclosure inner => Fragment.enclosed true inner.fragments
  | .unary op operand =>
    .text (renderUnary op []) :: Fragment.enclosed (unaryNeeds op operand) operand.fragments
  | .binary op left right =>
    Fragment.enclosed (leftNeeds op left) left.fragments ++ .text (" " ++ op.symbol?.getD [] ++ " ") ::
      Fragment.enclosed (rightNeeds op right) right.fragments
  | .access name quoted => if quoted then [.text (quoteJavaScript name)] else [.name name]
  | .call name args => .name name :: Fragment.enclosed true (Fragment.listed (Expr.fragmentsAll args))
  | .sequence items => Fragment.listed (Expr.fragmentsAll items)
  | .list items => .text "[" :: Fragment.listed (Expr.fragmentsAll items) ++ [.text "]"]
  | .length operand => Fragment.enclosed (lengthNeeds operand) operand.fragments ++ [.text ".length"]

/-- The fragments of expressions, each apart. -/
def Expr.fragmentsAll : List Expr → List (List Fragment)
  | [] => []
  | x :: xs => x.fragments :: Expr.fragmentsAll xs

end

/-- The fragments of a return. -/
def returnedFragments : Option Expr → List Fragment
  | none => [.text "return;"]
  | some (.sequence items) => .text "return [" :: Fragment.listed (Expr.fragmentsAll items) ++ [.text "];"]
  | some x => .text "return " :: x.fragments ++ [.text ";"]

/-- What stands before the block of a clause. -/
def headFragments (first : Bool) : Option Expr → List Fragment
  | none => [.text "else "]
  | some cond => .text (if first then "if (" else "else if (") :: cond.fragments ++ [.text ") "]

open Code in
mutual

/-- The code of a statement. -/
def Stmt.code : Stmt → List Code
  | .expression x => plains x.fragments
  | .assign name value declared =>
    if declared then plains (.name name :: .text " = " :: value.fragments) else [letting name value.fragments]
  | .ifChain clauses => Clause.code true clauses
  | .whileLoop test body =>
    plains (.text "while (" :: test.fragments ++ [.text ")"]) ++ [block (sequence (Stmt.codeAll body))]
  | .forRange name start stop step body _ =>
    [loop name start.fragments
      (.text (rangeCheck ++ "(") :: .name name :: .text "," :: stop.fragments ++ .text "," :: step.fragments ++
        .text ");" :: .name name :: .text "+=" :: step.fragments)
      (sequence (Stmt.codeAll body))]
  | .define name params body _ => [function name params (sequence (Stmt.codeAll body))]
  | .ret value => plains (returnedFragments value)
  | .print args =>
    plains (.text "console.log(" :: Fragment.listed (Expr.fragmentsAll args) ++ [.text ")"])
  | .block body => sequence (Stmt.codeAll body)

/-- The code of statements, each apart. -/
def Stmt.codeAll : List Stmt → List (List Code)
  | [] => []
  | s :: ss => s.code :: Stmt.codeAll ss

/-- The code of clauses. The block of the first one has blanks inside its braces. -/
def Clause.code (first : Bool) : List Clause → List Code
  | [] => []
  | .mk cond body :: rest =>
    plains (headFragments first cond) ++ block (padded first (sequence (Stmt.codeAll body))) :: Clause.code false rest

end

/-- The code of a program. -/
def Program.code (p : Program) : List Code := Code.sequence (Stmt.codeAll p.statements)

mutual

/-- The names among the fragments of an expression are names that it reads. -/
theorem names_fragments : ∀ x : Expr, Fragment.names x.fragments ⊆ x.names
  | .absent | .literal .. | .atom _ => by simp [Expr.fragments]
  | .atomOf inner | .enclosure inner | .length inner => by
    simpa [Expr.fragments, Expr.names] using names_fragments inner
  | .unary _ operand => by simpa [Expr.fragments, Expr.names] using names_fragments operand
  | .binary _ left right => by
    simp only [Expr.fragments, Expr.names, Fragment.names_append, Fragment.names_text, Fragment.names_enclosed]
    exact List.append_subset.2 ⟨List.subset_append_of_subset_left _ (names_fragments left),
      List.subset_append_of_subset_right _ (names_fragments right)⟩
  | .access name quoted => by cases quoted <;> simp [Expr.fragments, Expr.names]
  | .call name args => by
    simpa [Expr.fragments, Expr.names] using List.cons_subset_cons name (names_fragmentsAll args)
  | .sequence items | .list items => by simpa [Expr.fragments, Expr.names] using names_fragmentsAll items

theorem names_fragmentsAll : ∀ xs : List Expr, (Expr.fragmentsAll xs).flatMap Fragment.names ⊆ Expr.namesAll xs
  | [] => by simp [Expr.fragmentsAll]
  | x :: xs => by
    rw [Expr.fragmentsAll, List.flatMap_cons, Expr.namesAll]
    exact List.append_subset.2 ⟨List.subset_append_of_subset_left _ (names_fragments x),
      List.subset_append_of_subset_right _ (names_fragmentsAll xs)⟩

end

/-! ## The text of derived trees -/

section
variable {xs : List Expr}

/-- An expression renders, and its text is the spelling of its fragments. -/
def Expr.Spells (x : Expr) : Prop := x.render = some (Fragment.spelling x.fragments)

theorem Expr.Spells.eq {x : Expr} (h : x.Spells) : x.render = some (Fragment.spelling x.fragments) := h

theorem renderAll_fragments (h : ∀ x ∈ xs, x.Spells) :
    Expr.renderAll xs = some ((Expr.fragmentsAll xs).map Fragment.spelling) := by
  induction xs with
  | nil => rfl
  | cons x xs ih =>
    obtain ⟨hx, hxs⟩ := List.forall_mem_cons.1 h
    rw [Expr.renderAll, hx, ih hxs]
    rfl

theorem renderUnary_eq (op : UnaryOp) (t : Text) : Expr.renderUnary op t = Expr.renderUnary op [] ++ t := by
  cases op <;> simp [Expr.renderUnary]

theorem built_spells : Grammar.Built Expr.Spells where
  literal kind text := by simp [Expr.Spells, Expr.render, Expr.fragments]
  access name := by simp [Expr.Spells, Expr.render, Expr.fragments]
  enclosure x hx := by simp [Expr.Spells, Expr.render, Expr.fragments, hx.eq, Expr.enclosed]
  length x hx := by simp [Expr.Spells, Expr.render, Expr.fragments, hx.eq]
  list xs hxs := by simp [Expr.Spells, Expr.render, Expr.fragments, renderAll_fragments hxs]
  call name xs hxs := by simp [Expr.Spells, Expr.render, Expr.fragments, renderAll_fragments hxs, Expr.enclosed]
  unary op x _ hx := by
    simp only [Expr.Spells, Expr.render, Expr.fragments, hx.eq, Option.bind_eq_bind, Option.bind_some]
    rw [renderUnary_eq]
    simp
  binary op left right hop hleft hright := by
    obtain ⟨symbol, hsymbol⟩ : ∃ t, op.symbol? = some t := by
      cases op with
      | other code => exact absurd rfl (hop code)
      | _ => exact ⟨_, rfl⟩
    simp [Expr.Spells, Expr.render, Expr.fragments, hsymbol, hleft.eq, hright.eq]

end

open Offside.Grammar Offside.Statement

/-- A row of values is built by a return only, never inside an expression. -/
theorem built_ne_sequence : Built fun x => ∀ items, x ≠ .sequence items := by
  constructor <;> simp

theorem returned_spells {x : Expr} (hx : x.Spells) (hne : ∀ items, x ≠ .sequence items) :
    renderReturned (some x) = some (Fragment.spelling (returnedFragments (some x))) := by
  unfold renderReturned returnedFragments
  split
  · next h => cases h
  · next items h =>
    cases h
    exact absurd rfl (hne items)
  · next y _ h =>
    cases h
    simp [hx.eq]

section
variable {E : Phrase Token Expr} {B : Phrase Token (List Stmt)} {ts : List Token}

/-- A statement renders, and its text is the spelling of its code. -/
def Stmt.Spells (s : Stmt) : Prop := s.render = some (Code.spelling s.code)

/-- Statements render, and their texts are the spellings of their codes. -/
def Stmt.AllSpell (ss : List Stmt) : Prop := Stmt.renderAll ss = some ((Stmt.codeAll ss).map Code.spelling)

theorem spells_simple (hE : ∀ ts x, E ts x → x.Spells) (hne : ∀ ts x, E ts x → ∀ items, x ≠ .sequence items)
    {s : Stmt} (h : Simple E ts s) : s.Spells := by
  cases h with
  | ret _ => simp [Stmt.Spells, Stmt.render, Stmt.code, renderReturned, returnedFragments]
  | @values _ _ xs _ hx =>
    have hspells := built_items hE hx
    have hnone := built_items hne hx
    rw [Stmt.Spells, Stmt.render, Stmt.code, Code.spelling_plains]
    rcases xs with _ | ⟨x, _ | ⟨y, xs⟩⟩
    · simp [sequenceOf, renderReturned, returnedFragments, renderAll_fragments hspells]
    · exact returned_spells (hspells x List.mem_cons_self) (hnone x List.mem_cons_self)
    · simp [sequenceOf, renderReturned, returnedFragments, renderAll_fragments hspells]
  | print _ _ hx _ =>
    simp [Stmt.Spells, Stmt.render, Stmt.code, renderAll_fragments (built_arguments hE hx)]
  | @assign _ _ _ x declared _ _ hx =>
    have hspells := (hE _ _ hx).eq
    cases declared <;> simp [Stmt.Spells, Stmt.render, Stmt.code, hspells, Code.spelled]
  | expression hx =>
    have hspells := (hE _ _ hx).eq
    simp [Stmt.Spells, Stmt.render, Stmt.code, hspells]

theorem spells_elifs (hE : ∀ ts x, E ts x → x.Spells) (hB : ∀ ts ss, B ts ss → Stmt.AllSpell ss) {cs : List Clause}
    (h : Elifs E B ts cs) : Clause.renderRest cs = some (Code.spelling (Clause.code false cs)) := by
  induction h with
  | done => rfl
  | elif _ hx hb _ ih =>
    have hopen : (") \x7b" : Text) = ") " ++ "\x7b" := rfl
    rw [Clause.renderRest, (hE _ _ hx).eq, hB _ _ hb, ih]
    simp [Clause.code, headFragments, Code.padded, Code.spelled, hopen]
  | last _ hb =>
    have hopen : ("else \x7b" : Text) = "else " ++ "\x7b" := rfl
    rw [Clause.renderRest, hB _ _ hb, Clause.renderRest]
    simp [Clause.code, headFragments, Code.padded, Code.spelled, hopen]

theorem spells_compound (hE : ∀ ts x, E ts x → x.Spells) (hB : ∀ ts ss, B ts ss → Stmt.AllSpell ss) {s : Stmt}
    (h : Compound E B ts s) : s.Spells := by
  cases h with
  | ifChain _ hx hb hrest =>
    have hopen : (") \x7b " : Text) = ") " ++ "\x7b" ++ " " := rfl
    have hclose : (" \x7d" : Text) = " " ++ "\x7d" := rfl
    rw [Stmt.Spells, Stmt.render, Clause.renderChain, (hE _ _ hx).eq, hB _ _ hb, spells_elifs hE hB hrest]
    simp [Stmt.code, Clause.code, headFragments, Code.padded, Code.spelled, hopen, hclose]
  | forRange _ _ _ _ _ hx hargs _ hb =>
    obtain ⟨hstart, hstop, hstep⟩ := forall_rangeOf hargs (built_items hE hx)
      (built_spells.literal _ _) (built_spells.literal _ _)
    rw [Stmt.Spells, Stmt.render, hstart.eq, hstop.eq, hstep.eq, hB _ _ hb]
    simp [Stmt.code, Code.spelled]
  | whileLoop _ hx hb =>
    have hopen : (")\x7b" : Text) = ")" ++ "\x7b" := rfl
    rw [Stmt.Spells, Stmt.render, (hE _ _ hx).eq, hB _ _ hb]
    simp [Stmt.code, Code.spelled, hopen]
  | define _ _ _ _ _ hb =>
    rw [Stmt.Spells, Stmt.render, hB _ _ hb]
    simp [Stmt.code, Code.spelled]

theorem spells_statements {S : Phrase Token Stmt} (hS : ∀ ts s, S ts s → s.Spells) {ss : List Stmt}
    (h : Statements S ts ss) : Stmt.AllSpell ss := by
  induction h with
  | done => rfl
  | @more _ _ s ss hs _ ih =>
    have hone : s.render = some (Code.spelling s.code) := hS _ _ hs
    have hrest : Stmt.renderAll ss = some ((Stmt.codeAll ss).map Code.spelling) := ih
    rw [Stmt.AllSpell, Stmt.renderAll, hone, hrest]
    rfl

end

theorem spells_statement {n : Nat} (hB : ∀ ts ss, DerivesBlock n ts ss → Stmt.AllSpell ss) (ts : List Token)
    (s : Stmt) (h : DerivesStatement n ts s) : s.Spells := by
  have hE : ∀ ts x, DerivesExpr n ts x → x.Spells := Derives.built built_spells n .expr
  have hne : ∀ ts x, DerivesExpr n ts x → ∀ items, x ≠ .sequence items := Derives.built built_ne_sequence n .expr
  cases h with
  | simple h _ => exact spells_simple hE hne h
  | compound h => exact spells_compound hE hB h

theorem spells_block (n : Nat) (ts : List Token) (ss : List Stmt) (h : DerivesBlock n ts ss) : Stmt.AllSpell ss := by
  induction n generalizing ts ss with
  | zero => exact h.elim
  | succ n ih =>
    cases h with
    | mk _ _ _ hx _ _ => exact spells_statements (spells_statement ih) hx

theorem spells_program {n : Nat} {ts : List Token} {ss : List Stmt} (h : DerivesProgram n ts ss) : Stmt.AllSpell ss := by
  cases h with
  | mk h _ => exact spells_statements (spells_statement (spells_block n)) h

/-- A compiled program renders, and its text is the spelling of its code. -/
theorem Compile.compile_spelling {o : Options} {source : Text} {out : Output} (h : compile o source = .ok out) :
    out.program.render = some (Code.spelling out.program.code) := by
  obtain ⟨-, hprogram, -⟩ := compile_iff_resolves.1 ⟨out, h, rfl⟩
  have hall : Stmt.renderAll out.program.statements = _ := spells_program hprogram
  rw [Program.render, renderBody, hall]
  simp [Program.code]

end Offside
