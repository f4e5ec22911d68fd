import Offside.Proofs.Parser.Excerpt
import Offside.Proofs.Scoping.UndefinedNames

/-!
# Where a name is reported

A name is reported if it is read where it is not visible, or declared although a rule forbids it. The report
carries the place of the name, with one exception: the variable of a loop is declared when the head of the loop has
been read, and is reported at the token behind the head. Main statement: `compile_blames`.
-/

namespace Offside

/-- The token is an occurrence of the name. -/
def Token.Names (t : Token) (name : Text) : Prop := t.kind = .identifier ∧ t.literal = name

instance (t : Token) (name : Text) : Decidable (t.Names name) := inferInstanceAs (Decidable (_ ∧ _))

namespace Diagnostic

/-- The report carries the place of the token. -/
def At (d : Diagnostic) (t : Token) : Prop := d.line = t.line ∧ d.column = t.column

/-- The report says that a rule forbids the name. -/
def Forbids (d : Diagnostic) (name : Text) : Prop :=
  d.kind = .compilationError ∧ d.reason = "Variable name is blacklisted: " ++ name

instance (d : Diagnostic) (name : Text) : Decidable (d.Forbids name) := inferInstanceAs (Decidable (_ ∧ _))

end Diagnostic

namespace Statement

/-- The name `t` is read behind a part of its line, where it is not visible. -/
def Unseen (maxDepth : Nat) (tokens : List Token) (t : Token) : Prop :=
  ∃ pre line post, tokens = pre ++ line ++ t :: post ∧ (∀ u ∈ line, u.kind.isStructural = false) ∧
    t.kind = .identifier ∧ ¬ Binds line post.head? ∧
    Completed (Grammar.DerivesProgram maxDepth) (Stmt.observedAll {}) pre t

/-- The name is the variable of a loop, and `u` is the token behind the head of that loop. -/
def BehindLoop (tokens : List Token) (name : Text) (u : Token) : Prop :=
  ∃ pre f v head post, tokens = pre ++ f :: v :: (head ++ u :: post) ∧ f.isKeyword .for_ = true ∧ v.Names name ∧
    (∀ t ∈ head, t.kind.isStructural = false) ∧ ∃ c ∈ head.getLast?, c.isBracket .roundClose = true

end Statement

/-- A construct that is turned off is reported in other words than a name. -/
theorem Token.Reports.forbidden {tokens : List Token} {t : Token} {d : Diagnostic} {name : Text}
    (h : t.Reports tokens d) (hd : d.Forbids name) :
    (t.literal = name ∧ ∃ line post, Statement.Declares tokens line t post ∧
      ∀ f ∈ line.head?, f.isKeyword .for_ = false) ∨ Statement.BehindLoop tokens name t := by
  obtain ⟨hkind, hreason⟩ := hd
  cases h with
  | unexpected | doubleMinus => simp [Expression.doubleMinus] at hkind
  | misplaced => simp [Token.misplaced, Diagnostic.indentationError] at hkind
  | range => simp [Statement.rangeArguments, Diagnostic.withFact, Diagnostic.syntaxError] at hkind
  | @disabled what c hwhat =>
    have hfirst : ("Variable name is blacklisted: " : Text).head? = some 86 := by decide +kernel
    have hother : ∀ w ∈ (["If statement", "For statement", "While statement", "Function definition", "Print"] :
        List Text), w.head? ≠ none ∧ w.head? ≠ some 86 := by decide +kernel
    have hhead : (what ++ " is disabled").head? = ("Variable name is blacklisted: " ++ name).head? :=
      congrArg List.head? hreason
    rw [List.head?_append, List.head?_append, hfirst] at hhead
    cases hw : what.head? with
    | none => exact absurd hw (hother what hwhat).1
    | some b =>
      rw [hw] at hhead
      exact absurd (hw.trans hhead) (hother what hwhat).2
  | blacklisted h hline => exact .inl ⟨List.append_cancel_left hreason, _, _, h, hline⟩
  | @loop f v head post h hf hhead hclose =>
    obtain ⟨⟨pre, htokens⟩, -, hname, -⟩ := h
    refine .inr ⟨pre, f, v, head, post, ?_, hf, ⟨hname, List.append_cancel_left hreason⟩, hhead, hclose⟩
    rw [htokens, List.append_assoc]
    rfl

theorem Scanner.Breaks.kind_ne {d : Diagnostic} (h : Breaks (.report d)) : d.kind ≠ .compilationError := by
  cases h with
  | unindent => simp [Diagnostic.withFact, Diagnostic.indentationError]
  | unterminated => simp [Diagnostic.syntaxError]
  | unrecognized => simp [Diagnostic.unknownTokenError]

namespace Compile

open Offside.Statement Offside.Expression Offside.Scanner

/-- Behind content of the source stands content or the end of the line. -/
theorem kind_behind_content {source : Text} {tabWidth : Int} {pre post : List Token} {t u : Token}
    (htokens : (tokenize source tabWidth).tokens = pre ++ t :: u :: post) (ht : t.kind.isStructural = false) :
    u.kind.isStructural = false ∨ u.kind = .newline := by
  cases hfirst : (tokenize source tabWidth).tokens with
  | nil => simp [hfirst] at htokens
  | cons first rest =>
    obtain ⟨hl, -⟩ := start_laid hfirst
    let c : Cursor := ⟨u, post, (tokenize source tabWidth).halt⟩
    have hbefore : (⟨first, rest, (tokenize source tabWidth).halt⟩ : Cursor) = c.before (pre ++ [t]) := by
      refine Cursor.eq_of_tokens ?_ (by simp [c])
      rw [Cursor.tokens_before, Cursor.tokens, ← hfirst, htokens]
      simp [Cursor.tokens, c]
    rw [hbefore] at hl
    have hleads := Cursor.leadsTo_of_laid hl
    change t.kind.leadsTo u.kind = true at hleads
    cases hkind : t.kind <;> simp_all [Token.Kind.leadsTo, Token.Kind.isStructural]

/-- A forbidden name is reported where it is declared, or at the token behind the head of its loop. -/
theorem compile_forbidden {o : Options} {source : Text} {d : Diagnostic} {name : Text}
    (h : compile o source = .error (.report d)) (hd : d.Forbids name) :
    ∃ t ∈ (tokenize source o.tabWidth).tokens, d.At t ∧
      ((t.literal = name ∧ ∃ line post, Declares (tokenize source o.tabWidth).tokens line t post ∧
        ∀ f ∈ line.head?, f.isKeyword .for_ = false) ∨ BehindLoop (tokenize source o.tabWidth).tokens name t) := by
  obtain ⟨e, rfl, hfault⟩ := compile_fault_at h
  have hkind : e.kind = .compilationError := hd.1
  have hscan (hh : (tokenize source o.tabWidth).halt = some (.report e)) : e.kind ≠ .compilationError :=
    (run_breaks _ _ hh).kind_ne
  rcases hfault with hh | ⟨root, hroot, hhalt, scope, c, -, hstops⟩
  · exact absurd hkind (hscan hh)
  · rw [← hroot]
    cases hstops with
    | halt hh => exact absurd hkind (hscan (hhalt ▸ hh))
    | @report t _ ht hreports => exact ⟨t, ht, hreports.place, hreports.forbidden hd⟩
    | undefined hu =>
      cases hu.report
      cases hkind

/-- A token behind the head of a loop is content or ends the line. -/
theorem kind_behindLoop {source : Text} {tabWidth : Int} {name : Text} {u : Token}
    (h : BehindLoop (tokenize source tabWidth).tokens name u) : u.kind.isStructural = false ∨ u.kind = .newline := by
  obtain ⟨pre, f, v, head, post, htokens, -, -, hhead, c, hc, -⟩ := h
  obtain ⟨ts, rfl⟩ := List.getLast?_eq_some_iff.1 hc
  have hparts : (tokenize source tabWidth).tokens = (pre ++ f :: v :: ts) ++ c :: u :: post := by
    rw [htokens]
    simp
  exact kind_behind_content hparts (hhead c (by simp))

/-- The names of a report about a name are at its place just when the token there is one. -/
theorem named_iff {source : Text} {tabWidth : Int} {d : Diagnostic} {name : Text} {u : Token}
    (hu : u ∈ (tokenize source tabWidth).tokens) (hkind : u.kind.isStructural = false ∨ u.kind = .newline)
    (hat : d.At u) :
    (∃ t ∈ (tokenize source tabWidth).tokens, t.Names name ∧ d.At t) ↔ u.Names name := by
  refine ⟨?_, fun hnames => ⟨u, hu, hnames, hat⟩⟩
  rintro ⟨t, ht, ⟨hidentifier, hliteral⟩, hline, hcolumn⟩
  obtain ⟨htokens, -⟩ := tokenize_placed source tabWidth
  obtain ⟨before, rest, hplace, hstands⟩ := htokens t ht
  obtain ⟨before', rest', hplace', hstands'⟩ := htokens u hu
  -- both stand at the place that the report carries
  rw [← hline, ← hcolumn] at hplace
  rw [← hat.1, ← hat.2] at hplace'
  obtain ⟨-, rfl⟩ := hplace.unique hplace'
  obtain ⟨hsame, hsame'⟩ := hstands.eq hstands' (by rw [hidentifier]; rfl) hkind
  exact ⟨hsame ▸ hidentifier, hsame' ▸ hliteral⟩

/-- A report about a name carries the place of that name: of an occurrence that is read and not visible, or of one
that is declared and forbidden. Only the variable of a loop is reported elsewhere, at the token behind the head of the
loop. Then the name does not stand at the place of the report, unless that token is the name once more. -/
theorem compile_blames {o : Options} {source : Text} {d : Diagnostic} (h : compile o source = .error (.report d)) :
    (d.kind = .nameError → ∃ t ∈ (tokenize source o.tabWidth).tokens,
      Unseen o.maxDepth (tokenize source o.tabWidth).tokens t ∧ d.At t ∧
      d.reason = "variable or function with name '" ++ t.literal ++ "' is not defined") ∧
    ∀ name, d.Forbids name →
      (∃ line t post, Declares (tokenize source o.tabWidth).tokens line t post ∧
        (∀ f ∈ line.head?, f.isKeyword .for_ = false) ∧ t.Names name ∧ d.At t) ∨
      ∃ u ∈ (tokenize source o.tabWidth).tokens, BehindLoop (tokenize source o.tabWidth).tokens name u ∧ d.At u ∧
        ((∃ t ∈ (tokenize source o.tabWidth).tokens, t.Names name ∧ d.At t) ↔ u.Names name) := by
  refine ⟨fun hkind => ?_, fun name hd => ?_⟩
  · obtain ⟨c, c', scope, hc, rfl, pre, line, hlocated, hcompleted⟩ := compile_stops h hkind
    have htokens : (tokenize source o.tabWidth).tokens = pre ++ line ++ c'.cur :: c'.rest := by
      rw [hc, hlocated.cursor, Cursor.tokens_before]
      rfl
    refine ⟨c'.cur, by simp [htokens], ⟨pre, line, c'.rest, htokens, hlocated.content, hlocated.name, hlocated.read,
      hcompleted⟩, ⟨rfl, rfl⟩, rfl⟩
  · obtain ⟨t, ht, hat, ⟨hliteral, line, post, hdeclares, hline⟩ | hloop⟩ := compile_forbidden h hd
    · exact .inl ⟨line, t, post, hdeclares, hline, ⟨hdeclares.name, hliteral⟩, hat⟩
    · exact .inr ⟨t, ht, hloop, hat, named_iff ht (kind_behindLoop hloop) hat⟩

/-- The second parameter of a function is forbidden, and a name on the second line is not visible. -/
theorem compile_blames_parameter_and_read :
    (∃ d, compile { rules := [.blacklist ["tmp"]] } "def f(a, tmp):\n return a\n" = .error (.report d) ∧
      d.Forbids "tmp" ∧ (d.line = 1 ∧ d.column = 10) ∧
      ((∃ line t post, Declares (tokenize "def f(a, tmp):\n return a\n" defaultTabWidth).tokens line t post ∧
        (∀ f ∈ line.head?, f.isKeyword .for_ = false) ∧ t.Names "tmp" ∧ d.At t) ∨
      ∃ u ∈ (tokenize "def f(a, tmp):\n return a\n" defaultTabWidth).tokens,
        BehindLoop (tokenize "def f(a, tmp):\n return a\n" defaultTabWidth).tokens "tmp" u ∧ d.At u ∧
        ((∃ t ∈ (tokenize "def f(a, tmp):\n return a\n" defaultTabWidth).tokens, t.Names "tmp" ∧ d.At t) ↔
          u.Names "tmp"))) ∧
    ∃ d, compile {} "x = 1\nprint(x + y)\n" = .error (.report d) ∧ d.kind = .nameError ∧ (d.line = 2 ∧ d.column = 11) ∧
      ∃ t ∈ (tokenize "x = 1\nprint(x + y)\n" defaultTabWidth).tokens,
        Unseen ({} : Options).maxDepth (tokenize "x = 1\nprint(x + y)\n" defaultTabWidth).tokens t ∧ d.At t ∧
        d.reason = "variable or function with name '" ++ t.literal ++ "' is not defined" := by
  constructor
  · have hrun : (report? (compile { rules := [.blacklist ["tmp"]] } "def f(a, tmp):\n return a\n")).map
        (fun d : Diagnostic => (decide (d.Forbids "tmp"), d.line, d.column)) = some (true, 1, 10) := by decide +kernel
    obtain ⟨d, hd, e⟩ := Option.map_eq_some_iff.1 hrun
    obtain ⟨hforbids, hplace⟩ : d.Forbids "tmp" ∧ d.line = 1 ∧ d.column = 10 := by simpa using e
    have h := error_of_report? hd
    exact ⟨d, h, hforbids, hplace, (compile_blames h).2 _ hforbids⟩
  · have hrun : (report? (compile {} "x = 1\nprint(x + y)\n")).map
        (fun d : Diagnostic => (decide (d.kind = .nameError), d.line, d.column)) = some (true, 2, 11) := by
      decide +kernel
    obtain ⟨d, hd, e⟩ := Option.map_eq_some_iff.1 hrun
    obtain ⟨hkind, hplace⟩ : d.kind = .nameError ∧ d.line = 2 ∧ d.column = 11 := by simpa using e
    have h := error_of_report? hd
    exact ⟨d, h, hkind, hplace, (compile_blames h).1 hkind⟩

/-- The variable of a loop is reported where it does not stand: at the colon, not behind the first word. -/
theorem loop_variable_misplaced :
    ∃ d, compile { rules := [.blacklist ["tmp"]] } "for tmp in range(3):\n    print(tmp)\n" = .error (.report d) ∧
      d.Forbids "tmp" ∧ (d.line = 1 ∧ d.column = 20) ∧
      ¬ ∃ t ∈ (tokenize "for tmp in range(3):\n    print(tmp)\n" defaultTabWidth).tokens, t.Names "tmp" ∧ d.At t := by
  have hrun : (report? (compile { rules := [.blacklist ["tmp"]] } "for tmp in range(3):\n    print(tmp)\n")).map
      (fun d : Diagnostic => (decide (d.Forbids "tmp"), d.line, d.column)) = some (true, 1, 20) := by decide +kernel
  have hplaces : ∀ t ∈ (tokenize "for tmp in range(3):\n    print(tmp)\n" defaultTabWidth).tokens,
      t.Names "tmp" → ¬ (t.line = 1 ∧ t.column = 20) := by decide +kernel
  obtain ⟨d, hd, e⟩ := Option.map_eq_some_iff.1 hrun
  obtain ⟨hforbids, hline, hcolumn⟩ : d.Forbids "tmp" ∧ d.line = 1 ∧ d.column = 20 := by simpa using e
  refine ⟨d, error_of_report? hd, hforbids, ⟨hline, hcolumn⟩, ?_⟩
  rintro ⟨t, ht, hnames, hat⟩
  exact hplaces t ht hnames ⟨hat.1.symm.trans hline, hat.2.symm.trans hcolumn⟩

end Compile

end Offside
