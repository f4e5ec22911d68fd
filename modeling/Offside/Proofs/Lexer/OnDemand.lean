import Offside.Lexer.OnDemand
import Offside.Proofs.Lexer.Run

/-!
# A lexer gives what the scan gives

A lexer takes the steps of the scan when a token is asked for. What it has handed out and noted down at any
time, with what the rest of the scan would give, is always the same (`Agrees`). Main statement: once every token
of a scan that does not fail has been taken, in whatever way the lexer was also looked into, it has noted down
the whole scan (`events_after`).
-/

namespace Offside

namespace Scanner

/-! ## The notes of a scan -/

/-- Only the end of the source ends the scan, and it is a token. -/
theorem tokens_of_done {s : Scanner} (hd : s.done = false) (hdone : s.step.scanner.done = true) :
    s.step.tokens ≠ [] := by
  generalize hst : s.step = st at hdone
  have ht : Takes s st := hst ▸ takes_step s
  have hblank : s.pastBlank.done = false := hd
  cases ht with
  | blankEnd => simp [hblank] at hdone
  | commentLine =>
    simp only at hdone
    split at hdone
    · simp [skipComment, skipWhile, skip, hblank] at hdone
    · simp [skipComment, skipWhile, skip, breakLine, hblank] at hdone
  | blankLine => simp [breakLine, hblank] at hdone
  | enter =>
    simp only [enterLine] at hdone
    split at hdone <;> simp [hblank] at hdone
  | finish => simp [finish]
  | endLine =>
    simp only [endLine] at hdone
    split at hdone <;> simp [breakLine, hblank] at hdone
  | comment => simp [skipComment, skipWhile, skip, hblank] at hdone
  | content =>
    simp only [content] at hdone
    split at hdone <;> simp [skip, hblank] at hdone

/-- A scan that goes on and does not fail gives a token. -/
theorem run_tokens_ne_nil {s : Scanner} (hd : s.done = false) (hh : s.run.halt = none) : s.run.tokens ≠ [] := by
  induction s using run_induction with
  | done s h => simp [h] at hd
  | halt s r _ hr => simp [run_halt hd hr] at hh
  | step s _ hr ih =>
    simp only [run_step hd hr] at hh ⊢
    cases hnext : s.step.scanner.done with
    | true => exact List.append_ne_nil_of_left_ne_nil (tokens_of_done hd hnext) _
    | false => exact List.append_ne_nil_of_right_ne_nil _ (ih hnext hh)

theorem step_notes (s : Scanner) : s.step.notes.filterMap Event.token? = [] := by
  generalize hst : s.step = st
  have ht : Takes s st := hst ▸ takes_step s
  cases ht with
  | enter =>
    simp only [enterLine]
    split <;> rfl
  | endLine =>
    simp only [endLine]
    split <;> rfl
  | content =>
    simp only [content]
    split <;> rfl
  | blankEnd | commentLine | blankLine | finish | comment => rfl

/-- A step notes down its tokens. -/
theorem step_events (s : Scanner) : s.step.events.filterMap Event.token? = s.step.tokens := by
  rw [Step.events, List.filterMap_append, step_notes, List.filterMap_map]
  exact List.filterMap_some

/-- A scan that does not fail notes down its tokens. -/
theorem run_events {s : Scanner} (hh : s.run.halt = none) : s.run.events.filterMap Event.token? = s.run.tokens := by
  induction s using run_induction with
  | done s hd => simp [run_done hd, Run.events]
  | halt s r hd hr => simp [run_halt hd hr] at hh
  | step s hd hr ih =>
    rw [run_step hd hr] at hh ⊢
    have hrest := ih hh
    simp only [Run.events] at hrest
    simp only [Run.events, List.flatMap_cons, List.filterMap_append, step_events, hrest]

end Scanner

namespace Lexer

open Offside.Scanner

/-! ## What is still to come -/

/-- The tokens that the lexer hands out from now on, if the scan does not fail. -/
def ahead (l : Lexer) : List Token := l.queue ++ l.scanner.run.tokens

/-- What the lexer has noted down in the end. -/
def noted (l : Lexer) : List Event := l.events ++ l.scanner.run.events

/-- The second lexer has scanned more, and both give the same. -/
structure Agrees (l l' : Lexer) : Prop where
  ahead : l'.ahead = l.ahead
  noted : l'.noted = l.noted
  halt : l'.scanner.run.halt = l.scanner.run.halt
  last : l'.scanner.run.scanner = l.scanner.run.scanner
  done : l.scanner.done = true → l'.scanner.done = true

theorem Agrees.refl (l : Lexer) : Agrees l l := ⟨rfl, rfl, rfl, rfl, id⟩

theorem Agrees.trans {l l' l'' : Lexer} (h : Agrees l l') (h' : Agrees l' l'') : Agrees l l'' :=
  ⟨h'.ahead.trans h.ahead, h'.noted.trans h.noted, h'.halt.trans h.halt, h'.last.trans h.last, h'.done ∘ h.done⟩

/-- The lexer behind a step of the scan. -/
def stepped (l : Lexer) : Lexer :=
  { scanner := l.scanner.step.scanner
    queue := l.queue ++ l.scanner.step.tokens
    events := l.events ++ l.scanner.step.events }

section
variable {l l' : Lexer}

theorem agrees_stepped (hd : l.scanner.done = false) (hh : l.scanner.step.halt = none) : Agrees l l.stepped where
  ahead := by simp [Lexer.ahead, stepped, run_step hd hh]
  noted := by simp [Lexer.noted, stepped, run_step hd hh, Run.events]
  halt := by simp [stepped, run_step hd hh]
  last := by simp [stepped, run_step hd hh]
  done := by simp [hd]

theorem fill_stop {fuel : Nat} (h : (!l.queue.isEmpty || l.scanner.done) = true) : l.fill fuel = (l, none) := by
  cases fuel with
  | zero => rfl
  | succ fuel => simp only [fill, h, if_true]

theorem fill_step {fuel : Nat} (hq : l.queue = []) (hd : l.scanner.done = false) :
    l.fill (fuel + 1) = match l.scanner.step.halt with
      | some h => (l.stepped, some h)
      | none => l.stepped.fill fuel := by
  simp only [fill, hq, hd, stepped]
  rfl

/-- Filling the queue, by induction on the fuel: with enough of it a token waits, or the source has ended. -/
theorem fill_ok (fuel : Nat) (h : l.fill fuel = (l', none)) :
    Agrees l l' ∧ (l.scanner.toDo ≤ fuel → l'.queue ≠ [] ∨ l'.scanner.done = true) := by
  induction fuel generalizing l with
  | zero =>
    cases h
    refine ⟨.refl l', fun hle => .inr ?_⟩
    cases hd : l'.scanner.done with
    | true => rfl
    | false =>
      have hpos := toDo_pos hd
      omega
  | succ fuel ih =>
    cases hstop : !l.queue.isEmpty || l.scanner.done with
    | true =>
      rw [fill_stop hstop] at h
      cases h
      exact ⟨.refl l', fun _ => by simpa using hstop⟩
    | false =>
      obtain ⟨hq, hd⟩ : l.queue = [] ∧ l.scanner.done = false := by simpa using hstop
      rw [fill_step hq hd] at h
      cases hh : l.scanner.step.halt with
      | some r => simp [hh] at h
      | none =>
        rw [hh] at h
        obtain ⟨hagrees, hready⟩ := ih h
        have hlt := toDo_step hd hh
        exact ⟨(agrees_stepped hd hh).trans hagrees, fun hle => hready (by simp only [stepped]; omega)⟩

/-- Filling the queue fails as the scan does, and behind all its tokens. -/
theorem fill_halt (fuel : Nat) {r : Halt} (h : l.fill fuel = (l', some r)) :
    l.scanner.run.halt = some r ∧ l.ahead = [] := by
  induction fuel generalizing l with
  | zero => cases h
  | succ fuel ih =>
    cases hstop : !l.queue.isEmpty || l.scanner.done with
    | true => simp [fill_stop hstop] at h
    | false =>
      obtain ⟨hq, hd⟩ : l.queue = [] ∧ l.scanner.done = false := by simpa using hstop
      rw [fill_step hq hd] at h
      cases hh : l.scanner.step.halt with
      | some e =>
        obtain ⟨-, rfl⟩ : l.stepped = l' ∧ e = r := by simpa [hh] using h
        simp [run_halt hd hh, Lexer.ahead, hq]
      | none =>
        rw [hh] at h
        have hagrees := agrees_stepped hd hh
        rw [← hagrees.halt, ← hagrees.ahead]
        exact ih h

/-- A token waits: the next one of the scan, or the end of the source once more. -/
theorem ensure_ok (h : l.ensure = (l', none)) :
    (l'.queue ≠ [] ∧ Agrees l l') ∨
      (l.ahead = [] ∧ l.scanner.done = true ∧ l' = { l with queue := [l.scanner.token .eof] }) := by
  unfold ensure at h
  split at h
  · next hq =>
    cases h
    exact .inl ⟨by simpa using hq, .refl l⟩
  · next hq =>
    have hq : l.queue = [] := by simpa using hq
    split at h
    · next hd =>
      cases h
      exact .inr ⟨by simp [Lexer.ahead, hq, run_done hd], hd, rfl⟩
    · next hd =>
      have hd : l.scanner.done = false := Bool.eq_false_iff.2 hd
      obtain ⟨hagrees, hready⟩ := fill_ok _ h
      refine .inl ⟨fun hempty => ?_, hagrees⟩
      -- the source cannot have ended without a token
      have hdone := (hready (toDo_le_bound _)).resolve_left (absurd hempty)
      have hhalt : l.scanner.run.halt = none := by
        rw [← hagrees.halt, run_done hdone]
      have hahead := hagrees.ahead
      simp only [Lexer.ahead, hempty, run_done hdone, hq, List.nil_append] at hahead
      exact run_tokens_ne_nil hd hhalt hahead.symm

theorem ensure_halt {r : Halt} (h : l.ensure = (l', some r)) : l.scanner.run.halt = some r ∧ l.ahead = [] := by
  unfold ensure at h
  split at h
  · cases h
  · split at h
    · cases h
    · exact fill_halt _ h

end

/-! ## Calls -/

/-- A call for a token. -/
inductive Call where
  /-- Takes it. -/
  | next
  /-- Looks at it. -/
  | peek
deriving Repr, DecidableEq

/-- What a call gives, and the lexer behind it. -/
def perform (l : Lexer) : Call → Except Halt Token × Lexer
  | .next => l.next
  | .peek => l.peek

/-- The lexer behind calls, whatever they give. -/
def after (l : Lexer) : List Call → Lexer
  | [] => l
  | c :: calls => (l.perform c).2.after calls

/-- Of a scan that does not fail, `n` tokens have been taken, unless the source has ended. -/
structure Serves (r : Run) (n : Nat) (l : Lexer) : Prop where
  noted : l.noted = r.events
  halt : l.scanner.run.halt = none
  ahead : l.scanner.done = false → l.ahead = r.tokens.drop n

section
variable {r : Run} {n : Nat} {l l' : Lexer}

theorem serves_ofSource {source : Text} {tabWidth : Int} (hh : (tokenize source tabWidth).halt = none) :
    Serves (tokenize source tabWidth) 0 (ofSource source tabWidth) :=
  ⟨rfl, hh, fun _ => rfl⟩

/-- A lexer of which every token has been taken has scanned everything. -/
theorem Serves.done (h : Serves r n l) (hn : r.tokens.length ≤ n) : l.scanner.done = true := by
  cases hd : l.scanner.done with
  | true => rfl
  | false =>
    have hahead := h.ahead hd
    rw [List.drop_eq_nil_of_le hn] at hahead
    exact absurd (List.append_eq_nil_iff.1 hahead).2 (run_tokens_ne_nil hd h.halt)

theorem Serves.agrees (h : Serves r n l) (ha : Agrees l l') : Serves r n l' where
  noted := ha.noted.trans h.noted
  halt := ha.halt.trans h.halt
  ahead hd := ha.ahead.trans (h.ahead (Bool.eq_false_iff.2 fun hdone => by simp [ha.done hdone] at hd))

/-- A token waits in the lexer, and nothing else has changed. -/
theorem Serves.ensure (h : Serves r n l) : ∃ t queue l', l.ensure = (l', none) ∧ l'.queue = t :: queue ∧
    Serves r n l' := by
  cases he : l.ensure with
  | mk l' stop =>
    cases stop with
    | some e =>
      have hhalt := (ensure_halt he).1
      rw [h.halt] at hhalt
      cases hhalt
    | none =>
      rcases ensure_ok he with ⟨hq, hagrees⟩ | ⟨-, hd, rfl⟩
      · obtain ⟨t, queue, hcons⟩ := List.exists_cons_of_ne_nil hq
        exact ⟨t, queue, l', rfl, hcons, h.agrees hagrees⟩
      · refine ⟨_, [], _, rfl, rfl, h.noted, h.halt, fun hnot => ?_⟩
        simp [hd] at hnot

/-- What one call keeps. -/
theorem Serves.perform (h : Serves r n l) (c : Call) :
    Serves r (n + [c].count .next) (l.perform c).2 := by
  obtain ⟨t, queue, l', he, hq, hserves⟩ := h.ensure
  cases c with
  | next =>
    have hnext : l.next = (.ok t, { l' with queue }) := by simp only [next, he, hq]
    simp only [Lexer.perform, hnext]
    refine ⟨hserves.noted, hserves.halt, fun hd => ?_⟩
    have hahead := hserves.ahead hd
    simp only [Lexer.ahead, hq, List.cons_append] at hahead
    change queue ++ l'.scanner.run.tokens = r.tokens.drop (n + 1)
    rw [← List.tail_drop, ← hahead, List.tail_cons]
  | peek =>
    have hpeek : l.peek = (.ok t, l') := by simp only [peek, he, hq]
    simp only [Lexer.perform, hpeek]
    exact hserves

/-- What calls keep, by induction on them. -/
theorem Serves.after (h : Serves r n l) (calls : List Call) : Serves r (n + calls.count .next) (l.after calls) := by
  induction calls generalizing n l with
  | nil => exact h
  | cons c calls ih =>
    have hrest := ih (h.perform c)
    rw [Nat.add_assoc, ← List.count_append] at hrest
    exact hrest

end

/-- A lexer of which every token has been taken has noted down the whole scan, however often it was looked into
and called behind the end. -/
theorem events_after {source : Text} {tabWidth : Int} (hh : (tokenize source tabWidth).halt = none)
    {calls : List Call} (hcalls : (tokenize source tabWidth).tokens.length ≤ calls.count .next) :
    ((ofSource source tabWidth).after calls).events = (tokenize source tabWidth).events := by
  have hserves := (serves_ofSource hh).after calls
  have hd := hserves.done (by omega)
  have hnoted := hserves.noted
  simpa [noted, run_done hd, Run.events] using hnoted

end Lexer

end Offside
