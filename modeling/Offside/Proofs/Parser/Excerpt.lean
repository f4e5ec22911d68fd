import Offside.Proofs.Lexer.Places
import Offside.Proofs.Parser.Blocks
import Offside.Proofs.Text

/-!
# What a report shows of the source

A report carries the line and the column of a place in the source, and shows the line with a caret below the
column. The scanner ends a line at a line feed, at a carriage return, or at both together; the excerpt takes its
line from between line feeds only. So it shows the right line as long as no return stands alone in front of it or in
it. Main statement: `compile_excerpt`.
-/

namespace Offside

open Lexeme

namespace Text

/-! ## Lines -/

/-- `line` is the line with this number, without its line end; lines are counted as the scanner does. -/
structure IsLine (source : Text) (number : Int) (before line after : Text) : Prop where
  parts : source = before ++ (line ++ after)
  number : number = 1 + before.lineEnds
  starts : ∀ b ∈ before.getLast?, isLineEnd b = true
  whole : before.getLast? = some 13 → (line ++ after).head? ≠ some 10
  inside : ∀ b ∈ line, isLineEnd b = false
  ends : ∀ b ∈ after.head?, isLineEnd b = true

/-- A place is on a line, or right behind it. -/
theorem Place.isLine {source before rest : Text} {line column : Int} (h : source.Place line column before rest) :
    ∃ start text after, source.IsLine line start text after ∧ 1 ≤ column ∧ column ≤ text.length + 1 := by
  obtain ⟨w, hbefore, hw, hstart⟩ := dropEndWhile_spec (fun b => !isLineEnd b) before
  generalize dropEndWhile (fun b => !isLineEnd b) before = start at hbefore hstart
  have hw : ∀ b ∈ w, isLineEnd b = false := by simpa using hw
  have hstart : ∀ b ∈ start.getLast?, isLineEnd b = true := by simpa using hstart
  have hrest := List.takeWhile_append_dropWhile (p := fun b => !isLineEnd b) (l := rest)
  obtain ⟨hinside, hends⟩ := takeWhile_spec (fun b => !isLineEnd b) rest
  simp only [Bool.not_eq_eq_eq_not, Bool.not_true, Bool.not_false] at hinside hends
  have hsince : start.sinceLineEnd = 0 := by
    rcases List.eq_nil_or_concat start with rfl | ⟨u, b, rfl⟩
    · rfl
    · rw [List.concat_eq_append]
      exact sinceLineEnd_concat (hstart b (by simp))
  have hjoin : start.getLast? = some 13 → w.head? ≠ some 10 := by
    intro _ hhead
    cases hw 10 (List.mem_of_head? hhead)
  refine ⟨start, w ++ rest.takeWhile fun b => !isLineEnd b, rest.dropWhile fun b => !isLineEnd b, ⟨?_, ?_, hstart, ?_,
    List.forall_mem_append.2 ⟨hw, hinside⟩, hends⟩, ?_⟩
  · rw [h.parts, hbefore, List.append_assoc, List.append_assoc, hrest]
  · rw [h.line, hbefore, lineEnds_append hjoin, lineEnds_eq_zero hw, Nat.add_zero]
  · intro hlast
    rw [List.append_assoc, hrest]
    cases w with
    | nil =>
      rw [hbefore, List.append_nil] at h
      exact h.whole hlast
    | cons c w => exact hjoin hlast
  · have hcolumn := h.column
    rw [hbefore, sinceLineEnd_append hw, hsince] at hcolumn
    simp only [List.length_append]
    omega

/-- Each line feed ends a line. -/
theorem count_le_lineEnds (s : Text) : s.count 10 ≤ s.lineEnds := by
  induction s with
  | nil => simp [lineEnds]
  | cons b s ih =>
    rw [lineEnds, List.count_cons]
    by_cases hb : b = 10
    · simp [hb, ih]
    · simp [hb]
      omega

/-- The text holds a carriage return that ends a line by itself. -/
def LoneReturn (s : Text) : Prop := s.count 10 ≠ s.lineEnds

instance (s : Text) : Decidable s.LoneReturn := inferInstanceAs (Decidable (_ ≠ _))

/-- If no return in front of a line stands alone, the line begins behind a line feed. -/
theorem IsLine.starts_feed {source before line after : Text} {number : Int} (h : source.IsLine number before line after)
    (hlone : ¬ before.LoneReturn) : ∀ b ∈ before.getLast?, b = 10 := by
  intro b hb
  obtain ⟨u, rfl⟩ := List.getLast?_eq_some_iff.1 hb
  have hend := h.starts b hb
  simp only [isLineEnd, Bool.or_eq_true, beq_iff_eq] at hend
  refine hend.resolve_right fun hreturn => hlone ?_
  subst hreturn
  have hcount := count_le_lineEnds u
  have hparts : lineEnds (u ++ [13]) = lineEnds u + 1 := lineEnds_append (by simp)
  simp only [LoneReturn, hparts, List.count_append]
  rw [List.count_singleton]
  simp
  omega

section
variable {source before line after : Text} {number : Int}

theorem IsLine.not_mem (h : source.IsLine number before line after) : 10 ∉ line ∧ 13 ∉ line := by
  constructor
  · intro hb
    cases h.inside 10 hb
  · intro hb
    cases h.inside 13 hb

/-- Between line feeds, the line stands in front of what follows it up to the next of them. -/
theorem IsLine.piece (h : source.IsLine number before line after) (hlone : ¬ before.LoneReturn) :
    (split 10 source)[before.lineEnds]? = some (line ++ after.takeWhile (· ≠ 10)) := by
  obtain ⟨hinside, hends⟩ := takeWhile_spec (fun b => b ≠ 10) after
  refine getElem?_split.2 ⟨before, after.dropWhile (· ≠ 10), ?_, ?_, h.starts_feed hlone, ?_, by simpa using hends⟩
  · rw [h.parts, List.append_assoc line, List.takeWhile_append_dropWhile]
  · exact Classical.not_not.1 hlone
  · rw [List.mem_append]
    rintro (hb | hb)
    · exact h.not_mem.1 hb
    · simpa using hinside 10 hb

/-- Behind a return that stands alone, the piece with the number of the line begins behind the line. -/
theorem IsLine.piece_behind (h : source.IsLine number before line after) (hlone : before.LoneReturn) {piece : Text}
    (hpiece : (split 10 source)[before.lineEnds]? = some piece) :
    ∃ u v, source = u ++ (piece ++ v) ∧ (before ++ line).length < u.length := by
  obtain ⟨u, v, hparts, hnumber, -, -, -⟩ := getElem?_split.1 hpiece
  refine ⟨u, v, hparts, Nat.lt_of_not_le fun hle => ?_⟩
  have hprefix : u <+: before ++ line := by
    refine List.prefix_of_prefix_length_le ⟨piece ++ v, hparts.symm⟩ ⟨after, ?_⟩ hle
    rw [h.parts, List.append_assoc]
  have hcount := hprefix.sublist.count_le 10
  rw [List.count_append, List.count_eq_zero_of_not_mem h.not_mem.1, hnumber] at hcount
  have hless := count_le_lineEnds before
  exact hlone (by omega)

/-- Dropping returns from its end leaves the line alone just when nothing but returns follows it. -/
theorem IsLine.dropEndWhile_eq (h : source.IsLine number before line after) (rest : Text) :
    dropEndWhile (· == 13) (line ++ rest) = line ↔ ∀ b ∈ rest, b = 13 := by
  obtain ⟨t, hparts, ht, hlast⟩ := dropEndWhile_spec (· == 13) (line ++ rest)
  have ht : ∀ b ∈ t, b = 13 := by simpa using ht
  constructor
  · intro e
    rw [e] at hparts
    rwa [List.append_cancel_left hparts]
  · intro hrest
    rcases List.append_eq_append_iff.1 hparts with ⟨w, hw, hwt⟩ | ⟨w, hw, hwt⟩
    · -- nothing of the rest is left, as its bytes are returns
      rcases List.eq_nil_or_concat w with rfl | ⟨v, b, rfl⟩
      · rw [hw, List.append_nil]
      · have hb := hrest b (by rw [hwt]; simp)
        have hnot := hlast b (by rw [hw]; simp)
        simp [hb] at hnot
    · -- nothing of the line is dropped, as it has no return
      cases w with
      | nil => exact (List.append_nil _ ▸ hw).symm
      | cons b w =>
        obtain rfl : b = 13 := ht b (by rw [hwt]; simp)
        exact absurd (by rw [hw]; simp) h.not_mem.2

end

end Text

namespace Diagnostic

/-! ## Excerpts -/

/-- What stands in front of the line in its row of an excerpt. -/
def margin (d : Diagnostic) : Text := lineNumber d.line ++ " | "

/-- The rows of an excerpt above the line, and the margin of the line. -/
def heading (d : Diagnostic) : Text :=
  "  --> " ++ Text.ofInt d.line ++ ":" ++ Text.ofInt d.column ++ "\n" ++ "   |\n" ++ d.margin

/-- The text shows the message and, in a row of its own, the line. It ends with a caret in the row below, which is
as far from the left as the byte of the line at the column. -/
def Points (d : Diagnostic) (line text : Text) : Prop :=
  ∃ below : Text, text = d.message ++ "\n" ++ d.heading ++ line ++ "\n" ++ below ++ "^" ∧ 10 ∉ below ∧
    (below.length + 1 : Int) = d.margin.length + d.column

theorem length_margin {d : Diagnostic} (h : 1 ≤ d.line) : d.margin.length = 5 ↔ d.line < 100 := by
  obtain ⟨n, hn⟩ := Int.eq_ofNat_of_zero_le (show 0 ≤ d.line by omega)
  have hdigits : (Text.ofInt d.line).length ≤ 2 ↔ n < 10 ^ 2 := by
    rw [hn, ← Nat.length_toDigits_le_iff (by decide) (by decide)]
    exact iff_of_eq (congrArg (· ≤ 2) (List.length_map _))
  have hspace : (" " : Text).length = 1 := by decide +kernel
  have hbar : (" | " : Text).length = 3 := by decide +kernel
  have hlength : d.margin.length = (2 - (Text.ofInt d.line).length) + (Text.ofInt d.line).length + 3 := by
    simp only [margin, lineNumber, Text.repeated, List.length_append, List.length_flatten, List.map_replicate,
      List.sum_replicate_nat, hspace, hbar, Nat.mul_one]
  omega

section
variable {d : Diagnostic} {line shown : Text}

theorem excerpt_eq (d : Diagnostic) (line : Text) :
    d.excerpt line = d.heading ++ line ++ "\n" ++ ("   | " ++ if 0 < d.column ∧ d.column ≤ line.length + 1 then
      Text.repeated " " (d.column - 1).toNat ++ "^" else []) := by
  simp only [excerpt, heading, margin, List.append_assoc]

/-- An excerpt points into the line just when it shows this line, and its margin is as wide as that of the caret. -/
theorem points_iff (hline : 10 ∉ line) (hshown : 10 ∉ shown) (hnumber : 1 ≤ d.line) (hcolumn : 1 ≤ d.column)
    (hwidth : d.column ≤ line.length + 1) :
    d.Points line (d.message ++ "\n" ++ d.excerpt shown) ↔ shown = line ∧ d.line < 100 := by
  have hfeed : ("\n" : Text) = [10] := by decide +kernel
  have hspace : (" " : Text).length = 1 := by decide +kernel
  have hbar : ("   | " : Text).length = 5 := by decide +kernel
  have hcaret : 0 < d.column ∧ d.column ≤ line.length + 1 := ⟨by omega, hwidth⟩
  have hspaces : (Text.repeated " " (d.column - 1).toNat).length = (d.column - 1).toNat := by
    simp [Text.repeated, hspace]
  rw [← length_margin hnumber, excerpt_eq]
  constructor
  · rintro ⟨below, e, -, hbelow⟩
    simp only [List.append_assoc, List.append_cancel_left_eq] at e
    rw [hfeed] at e
    obtain rfl : shown = line := Text.eq_of_append_cons hshown hline e
    simp only [List.append_cancel_left_eq, if_pos hcaret] at e
    have hlength := congrArg List.length e
    simp only [List.length_append, hspaces, hbar] at hlength
    exact ⟨rfl, by omega⟩
  · rintro ⟨rfl, hmargin⟩
    refine ⟨"   | " ++ Text.repeated " " (d.column - 1).toNat, ?_, ?_, ?_⟩
    · simp only [if_pos hcaret, List.append_assoc]
    · rw [List.mem_append, Text.repeated, List.mem_flatten]
      rintro (hb | ⟨l, hl, hb⟩)
      · exact absurd hb (by decide +kernel)
      · rw [List.eq_of_mem_replicate hl] at hb
        exact absurd hb (by decide +kernel)
    · simp only [List.length_append, hspaces, hbar, hmargin]
      omega

end

end Diagnostic

namespace Compile

open Offside.Statement Offside.Expression Offside.Scanner

/-! ## Compilations -/

/-- A report of a compilation is about a place of the source. -/
theorem compile_reported {o : Options} {source : Text} {d : Diagnostic} (h : compile o source = .error (.report d)) :
    Reported source d := by
  obtain ⟨htokens, hhalts⟩ := tokenize_placed source o.tabWidth
  have hat {t : Token} {e : Diagnostic} (ht : t ∈ (tokenize source o.tabWidth).tokens)
      (he : e.line = t.line ∧ e.column = t.column) : Reported source e := by
    obtain ⟨before, rest, hplace, -⟩ := htokens t ht
    exact ⟨before, rest, he.1 ▸ he.2 ▸ hplace⟩
  obtain ⟨e, rfl, hscan | ⟨root, hroot, hhalt, scope, c, hreaches, hstops⟩⟩ := compile_fault_at h
  · exact hhalts e hscan
  · rw [← hroot] at hat
    cases hstops with
    | halt hh => exact hhalts e (hhalt ▸ hh)
    | report ht hreports => exact hat ht hreports.place
    | undefined hu =>
      cases hu.report
      exact hat hreaches.cur_mem ⟨rfl, rfl⟩

/-- What a compilation reports. -/
def report? : Except Halt Output → Option Diagnostic
  | .error (.report d) => some d
  | _ => none

theorem error_of_report? {r : Except Halt Output} {d : Diagnostic} (h : report? r = some d) :
    r = .error (.report d) := by
  unfold report? at h
  split at h
  · cases h
    rfl
  · cases h

/-- The empty source compiles. -/
theorem compile_nil (o : Options) : ∃ out, compile o [] = .ok out := ⟨_, rfl⟩

/-- What a report shows below its message, by what stands between line feeds at the number of its line. -/
theorem detail_eq {o : Options} {source : Text} {d : Diagnostic} (h : compile o source = .error (.report d)) {k : Nat}
    (hk : d.line = 1 + k) :
    d.detail? = some ((Text.split 10 source)[k]?.elim d.message fun piece =>
      d.message ++ "\n" ++ d.excerpt (Text.dropEndWhile (· == 13) piece)) := by
  have hsource : d.source = source := by
    obtain ⟨e, rfl, -⟩ := compile_fault_at h
    rfl
  have hne : source ≠ [] := by
    rintro rfl
    obtain ⟨out, hout⟩ := compile_nil o
    rw [hout] at h
    cases h
  have hindex : (d.line - 1).toNat = k := by omega
  rw [Diagnostic.detail?, hsource, if_neg (by simp [hne]; omega), if_neg (by omega), hindex]
  cases (Text.split 10 source)[k]? with
  | none => rfl
  | some piece => rfl

/-- A report of a compilation carries the line and the column of a place in the source, at most one byte behind the
line. If no return stands alone in front of the line, its excerpt shows the line, with a caret below the column,
just when nothing but returns follows the line up to the next line feed, and the number of the line has no more than
two digits. Behind a return that stands alone it shows nothing, or a text from further down in the source. -/
theorem compile_excerpt {o : Options} {source : Text} {d : Diagnostic} (h : compile o source = .error (.report d)) :
    1 ≤ d.line ∧ 1 ≤ d.column ∧ ∃ before line after, source.IsLine d.line before line after ∧
      d.column ≤ line.length + 1 ∧
      (¬ before.LoneReturn → ∃ text, d.detail? = some text ∧
        (d.Points line text ↔ (∀ b ∈ after.takeWhile (· ≠ 10), b = 13) ∧ d.line < 100)) ∧
      (before.LoneReturn → d.detail? = some d.message ∨ ∃ u shown v, source = u ++ (shown ++ v) ∧
        (before ++ line).length < u.length ∧ d.detail? = some (d.message ++ "\n" ++ d.excerpt shown)) := by
  obtain ⟨_, _, hplace⟩ := compile_reported h
  obtain ⟨before, line, after, hline, hcolumn, hwidth⟩ := hplace.isLine
  have hnumber : 1 ≤ d.line := by
    rw [hline.number]
    omega
  have hdetail := detail_eq h hline.number
  refine ⟨hnumber, hcolumn, before, line, after, hline, hwidth, fun hlone => ?_, fun hlone => ?_⟩
  · have hpiece := hline.piece hlone
    rw [hpiece] at hdetail
    refine ⟨_, hdetail, ?_⟩
    have hshown : 10 ∉ Text.dropEndWhile (· == 13) (line ++ after.takeWhile (· ≠ 10)) := by
      obtain ⟨u, v, hwhole⟩ := Text.getElem?_split.1 hpiece
      obtain ⟨t, hparts, -⟩ := Text.dropEndWhile_spec (· == 13) (line ++ after.takeWhile (· ≠ 10))
      exact fun hb => hwhole.inside (hparts ▸ List.mem_append_left t hb)
    rw [← hline.dropEndWhile_eq]
    exact Diagnostic.points_iff hline.not_mem.1 hshown hnumber hcolumn hwidth
  · cases hpiece : (Text.split 10 source)[before.lineEnds]? with
    | none =>
      rw [hpiece] at hdetail
      exact .inl hdetail
    | some piece =>
      rw [hpiece] at hdetail
      obtain ⟨u, v, hparts, hbehind⟩ := hline.piece_behind hlone hpiece
      obtain ⟨t, hpiece, -⟩ := Text.dropEndWhile_spec (· == 13) piece
      refine .inr ⟨u, _, t ++ v, ?_, hbehind, hdetail⟩
      rw [hparts, ← List.append_assoc _ t v, ← hpiece]

/-- A parenthesis on the second line, behind a return and a line feed. -/
theorem compile_excerpt_second_line :
    ∃ d, compile {} "x = 1\r\n)\r\n" = .error (.report d) ∧ (d.line = 2 ∧ d.column = 1) ∧
      1 ≤ d.line ∧ 1 ≤ d.column ∧ ∃ before line after,
        Text.IsLine "x = 1\r\n)\r\n" d.line before line after ∧ d.column ≤ line.length + 1 ∧
        (¬ before.LoneReturn → ∃ text, d.detail? = some text ∧
          (d.Points line text ↔ (∀ b ∈ after.takeWhile (· ≠ 10), b = 13) ∧ d.line < 100)) ∧
        (before.LoneReturn → d.detail? = some d.message ∨ ∃ u shown v, ("x = 1\r\n)\r\n" : Text) = u ++ (shown ++ v) ∧
          (before ++ line).length < u.length ∧ d.detail? = some (d.message ++ "\n" ++ d.excerpt shown)) := by
  have hrun : (report? (compile {} "x = 1\r\n)\r\n")).map (fun d => (d.line, d.column)) = some (2, 1) := by
    decide +kernel
  obtain ⟨d, hd, hplace⟩ := Option.map_eq_some_iff.1 hrun
  have h := error_of_report? hd
  exact ⟨d, h, Prod.mk.inj hplace, compile_excerpt h⟩

/-- Behind a return that stands alone no line is shown, and on the hundredth line the caret stands too far left. -/
theorem excerpt_misses :
    (∃ d, compile {} "x = 1\r)\r" = .error (.report d) ∧ d.column = 1 ∧
      Text.IsLine "x = 1\r)\r" d.line "x = 1\r" ")" "\r" ∧ d.detail? = some d.message) ∧
    ∃ d, compile {} (Text.repeated "\n" 99 ++ ")") = .error (.report d) ∧ d.column = 1 ∧ d.line = 100 ∧
      d.detail? = some (d.message ++ ("\n  --> 100:1\n   |\n100 | )\n   | ^" : Text)) := by
  constructor
  · have hrun : (report? (compile {} "x = 1\r)\r")).map
        (fun d => (d.line, d.column, decide (d.detail? = some d.message))) = some (2, 1, true) := by decide +kernel
    obtain ⟨d, hd, e⟩ := Option.map_eq_some_iff.1 hrun
    obtain ⟨hline, hcolumn, hdetail⟩ : d.line = 2 ∧ d.column = 1 ∧ d.detail? = some d.message := by simpa using e
    refine ⟨d, error_of_report? hd, hcolumn, ⟨?_, ?_, ?_, ?_, ?_, ?_⟩, hdetail⟩
    · decide +kernel
    · rw [hline]
      decide +kernel
    · decide +kernel
    · decide +kernel
    · decide +kernel
    · decide +kernel
  · have hrun : (report? (compile {} (Text.repeated "\n" 99 ++ ")"))).map (fun d : Diagnostic => (d.line, d.column,
        decide (d.detail? = some (d.message ++ ("\n  --> 100:1\n   |\n100 | )\n   | ^" : Text))))) =
          some (100, 1, true) := by decide +kernel
    obtain ⟨d, hd, e⟩ := Option.map_eq_some_iff.1 hrun
    obtain ⟨hline, hcolumn, hdetail⟩ : d.line = 100 ∧ d.column = 1 ∧
        d.detail? = some (d.message ++ ("\n  --> 100:1\n   |\n100 | )\n   | ^" : Text)) := by simpa using e
    exact ⟨d, error_of_report? hd, hcolumn, hline, hdetail⟩

end Compile

end Offside
