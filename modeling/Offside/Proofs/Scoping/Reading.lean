import Offside.Proofs.Parser.Compound
import Offside.Proofs.Parser.Failure

/-!
# Where a name is reported

If a reader of expressions reports a name then it stands on that name, which is not visible (`Careful`). What
else the parser of statements is made of reports no name (`Quiet`). The reason for which the tokens stop is
never such a report, as the scan knows nothing of names.
-/

namespace Offside

/-- A report on a name that is not visible. -/
def Halt.OnName (h : Halt) : Prop := ∃ d, h = .report d ∧ d.kind = .nameError

@[simp] theorem Halt.onName_report {d : Diagnostic} : (Halt.report d).OnName ↔ d.kind = .nameError := by
  simp [Halt.OnName]

namespace Cursor

/-- The tokens end as those of a scan do: at the end of the source, or for a reason that is not a name. -/
structure Sane (c : Cursor) : Prop where
  ended : c.Ended
  calm : ∀ h ∈ c.halt, ¬ h.OnName

end Cursor

namespace Expression

open Offside.Cursor Offside.Grammar

/-- At the place the reader passes over content only, and reports no name but one that is not visible, on
which it then stands. -/
def Careful {α : Type} (scope : Chain) (r : Reader α) (c : Cursor) : Prop :=
  c.Sane → (∀ a c', r c = .ok a c' → Passes c c') ∧
    ∀ h c', r c = .error h c' → h.OnName → Passes c c' ∧ Undefined scope c' h

section
variable {α : Type} {scope : Chain} {c : Cursor}

/-- A reader that fails for a reason reports no other name: the reason for which the tokens stop is none. -/
theorem Orderly.careful {r : Reader α} (h : Orderly scope c r c) : Careful scope r c := by
  intro hc
  obtain ⟨hok, herror⟩ := h hc.ended (.refl c)
  refine ⟨hok, fun r c' he hname => ?_⟩
  obtain ⟨hpass, hstops⟩ := herror r c' he
  cases hstops with
  | halt hh => exact absurd hname (hc.calm r hh)
  | report _ hd => exact absurd (Halt.onName_report.1 hname) hd.kind_ne
  | undefined hu => exact ⟨hpass, hu⟩

theorem careful_parse (n : Nat) (e : Entry) (c : Cursor) : Careful scope (parse scope n e) c :=
  (orderly_parse n e c).careful

theorem careful_items (n : Nat) (c : Cursor) : Careful scope (items (parse scope n .expr)) c :=
  (orderly_items (orderly_parse n .expr) c).careful

/-- Without a budget no name is read. -/
theorem parse_zero {e : Entry} {c c' : Cursor} {h : Halt} (he : parse scope 0 e c = .error h c') : ¬ h.OnName := by
  cases he
  simp [Token.tooDeep]

end

end Expression

/-! ## Scans -/

namespace Scanner

/-- A scan stops for no name. -/
theorem run_calm (s : Scanner) : ∀ h ∈ s.run.halt, ¬ h.OnName := by
  intro h hh
  cases run_breaks s h hh <;>
    simp [Halt.OnName, Diagnostic.indentationError, Diagnostic.syntaxError, Diagnostic.unknownTokenError,
      Diagnostic.withFact]

end Scanner

namespace Statement

open Offside.Grammar Offside.Statement.Parser

/-! ## Parsers that report no name -/

/-- The reason for which the tokens stop is not a name. -/
def Calm (s : State) : Prop := ∀ h ∈ s.cursor.halt, ¬ h.OnName

/-- In the state the parser reports no name. -/
def Quiet {α : Type} (p : Parser α) (s : State) : Prop :=
  Calm s → (∀ a s', p s = .ok a s' → s'.cursor.halt = s.cursor.halt) ∧ ∀ h s', p s = .error h s' → ¬ h.OnName

section
variable {α β : Type} {s : State}

theorem quiet_bind {x : Parser α} {f : α → Parser β} (hx : Quiet x s) (hf : ∀ a s', Quiet (f a) s') :
    Quiet (x >>= f) s := by
  intro hs
  obtain ⟨hok, herror⟩ := hx hs
  have hcalm : ∀ {a s'}, x s = .ok a s' → Calm s' := fun h => by
    unfold Calm
    rw [hok _ _ h]
    exact hs
  constructor
  · intro b s'' h
    obtain ⟨a, s', h₁, h₂⟩ := bind_ok.1 h
    rw [(hf a s' (hcalm h₁)).1 b s'' h₂, hok a s' h₁]
  · intro h s'' he
    rcases bind_error.1 he with h₁ | ⟨a, s', h₁, h₂⟩
    · exact herror h s'' h₁
    · exact (hf a s' (hcalm h₁)).2 h s'' h₂

theorem quiet_pure (a : α) : Quiet (pure a) s := by
  intro _
  constructor
  · intro b s' h
    obtain ⟨-, rfl⟩ := pure_ok.1 h
    rfl
  · intro h s' he
    cases he

theorem quiet_current {f : Token → Parser α} (h : Quiet (f s.cursor.cur) s) : Quiet (current >>= f) s := by
  intro hs
  rw [bind_of_ok (current_eq s)]
  exact h hs

theorem quiet_frame {f : Frame → Parser α} (h : Quiet (f s.frame) s) : Quiet (frame >>= f) s := by
  intro hs
  rw [bind_of_ok (frame_eq s)]
  exact h hs

theorem quiet_fail {d : Diagnostic} (hd : d.kind ≠ .nameError) : Quiet (fail d : Parser α) s := by
  intro _
  constructor
  · intro a s' h
    cases h
  · intro h s' he hname
    cases he
    exact hd (Halt.onName_report.1 hname)

/-- A reader that fails only where the tokens stop reports no name. -/
theorem quiet_read {r : Reader α} (hok : ∀ {a c c'}, r c = .ok a c' → c'.halt = c.halt)
    (herror : ∀ {h c c'}, r c = .error h c' → c.halt = some h) (s : State) : Quiet (read r) s := by
  intro hs
  constructor
  · intro a s' h
    exact hok (read_ok.1 h).1
  · intro h s' he
    exact hs _ (herror (read_error.1 he).1)

theorem quiet_advance (s : State) : Quiet advance s :=
  quiet_read Reader.halt_of_advance (fun h => (Reader.advance_error h).1) s

theorem quiet_peek (s : State) : Quiet (read Reader.peek) s := by
  refine quiet_read (fun h => ?_) Reader.peek_error s
  rw [(Reader.peek_ok h).1]

theorem quiet_expect {is : Token → Bool} {what : Text} (s : State) : Quiet (expect is what) s := by
  have hfail : Quiet (fail (s.cursor.cur.notExpected what) : Parser Unit) s := quiet_fail (by simp [Token.notExpected])
  unfold Quiet
  rw [expect_eq]
  split
  · exact quiet_advance s
  · exact hfail

theorem quiet_permit {ctx : Context} {what : Text} {c : Construct} (s : State) : Quiet (permit ctx what c) s := by
  refine quiet_current ?_
  split
  · exact quiet_fail (by simp [disabled, Diagnostic.withFact, Diagnostic.moved, Diagnostic.compilationError])
  · exact quiet_pure ()

theorem quiet_declare {rules : RuleSet} {r : Reference} {t : Token} (s : State) : Quiet (declare rules r t) s := by
  intro _
  unfold declare
  rw [push_one]
  cases rules.blacklisted r.name with
  | true =>
    constructor
    · intro _ s' h
      cases h
    · intro h s' he
      cases he
      simp [Frame.blacklisted, Diagnostic.moved, Diagnostic.withFact, Diagnostic.compilationError]
  | false =>
    constructor
    · intro _ s' h
      cases h
      rfl
    · intro h s' he
      cases he

theorem quiet_declareOnce {rules : RuleSet} {r : Reference} {t : Token} (s : State) :
    Quiet (declareOnce rules r t) s := by
  refine quiet_frame ?_
  split
  · exact quiet_pure ()
  · exact quiet_declare s

theorem quiet_endOfLine (s : State) : Quiet endOfLine s := by
  refine quiet_current ?_
  split
  · exact quiet_advance s
  · exact quiet_pure ()
  · exact quiet_fail (by simp [Token.invalid])

theorem quiet_misplaced {t : Token} {reason : Text} : Quiet (fail (t.misplaced reason) : Parser α) s :=
  quiet_fail (by simp [Token.misplaced, Diagnostic.indentationError])

theorem quiet_blockStart (s : State) : Quiet blockStart s := by
  refine quiet_bind (quiet_expect s) fun _ s₁ => quiet_current ?_
  split
  · refine quiet_bind (quiet_advance s₁) fun _ s₂ => quiet_current ?_
    split
    · exact quiet_advance s₂
    · exact quiet_misplaced
  · exact quiet_misplaced

theorem quiet_parameter {rules : RuleSet} {fuel : Nat} (hmore : ∀ s, Quiet (parameters rules fuel false) s)
    (s : State) : Quiet (parameter rules fuel) s := by
  refine quiet_current ?_
  split
  · refine quiet_frame ?_
    split
    · exact quiet_fail (by simp)
    · refine quiet_bind (quiet_declare s) fun _ s₁ => quiet_bind (quiet_advance s₁) fun _ s₂ => ?_
      exact quiet_bind (hmore s₂) fun rest _ => quiet_pure _
  · exact quiet_fail (by simp [Token.notExpected])

theorem quiet_parameters {rules : RuleSet} (fuel : Nat) (first : Bool) (s : State) :
    Quiet (parameters rules fuel first) s := by
  induction fuel generalizing first s with
  | zero => exact quiet_pure []
  | succ fuel ih =>
    cases hclose : s.cursor.cur.isBracket .roundClose with
    | true =>
      unfold Quiet
      rw [parameters_close hclose]
      exact quiet_pure [] (s := s)
    | false =>
      cases first with
      | true =>
        unfold Quiet
        rw [parameters_first hclose]
        exact quiet_parameter (ih false) s
      | false =>
        unfold Quiet
        rw [parameters_more hclose]
        exact quiet_bind (quiet_expect s) fun _ s₁ => quiet_parameter (ih false) s₁

/-- If a report on a name comes out of two steps of which the first is quiet, it comes out of the second. -/
theorem Quiet.past {x : Parser α} {f : α → Parser β} (hx : Quiet x s) (hs : Calm s) {h : Halt} {s'' : State}
    (he : (x >>= f) s = .error h s'') (hname : h.OnName) : ∃ a s', x s = .ok a s' ∧ f a s' = .error h s'' := by
  rcases bind_error.1 he with h₁ | h₁
  · exact absurd hname ((hx hs).2 h s'' h₁)
  · exact h₁

end

end Statement

end Offside
