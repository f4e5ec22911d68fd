import Offside.Proofs.Lexer.Grammar
import Offside.Proofs.Lexer.OnDemand

/-!
# What calls give

A lexer is called for tokens, now to take one and now to look at one. What the next call gives, and those behind it, is
settled by what the scan has still to give (`answer`): looking leaves it as it is, and taking passes on to the next.
Main statement: up to the first failure, calls in any order are answered from the tokens of the whole scan
(`calls_transparent`). What a lexer does inside of calls, failed ones as well, is a sequence of small moves (`Works`).
-/

namespace Offside

namespace Scanner

/-- The answer to a call behind `n` tokens of a run: the next token, or the failure that stopped the run, or the end
of the source once more. -/
def Run.answer (r : Run) (n : Nat) : Except Halt Token :=
  match r.tokens[n]? with
  | some t => .ok t
  | none =>
    match r.halt with
    | some h => .error h
    | none => .ok (r.scanner.token .eof)

section
variable {r : Run} {n : Nat}

theorem Run.answer_of_lt (h : n < r.tokens.length) : r.answer n = .ok r.tokens[n] := by
  simp [Run.answer, h]

theorem Run.answer_of_halt {e : Halt} (h : r.tokens.length ≤ n) (hh : r.halt = some e) : r.answer n = .error e := by
  simp [Run.answer, h, hh]

theorem Run.answer_of_end (h : r.tokens.length ≤ n) (hh : r.halt = none) : r.answer n = .ok (r.scanner.token .eof) := by
  simp [Run.answer, h, hh]

/-- Only the failure of the run is answered by a failure, and only behind its tokens. -/
theorem Run.answer_eq_error {e : Halt} : r.answer n = .error e ↔ r.halt = some e ∧ r.tokens.length ≤ n := by
  by_cases h : n < r.tokens.length
  · simp [Run.answer_of_lt h, h]
  · have hle : r.tokens.length ≤ n := by omega
    cases hh : r.halt with
    | some e' => simp [Run.answer_of_halt hle hh, hle]
    | none => simp [Run.answer_of_end hle hh]

end

/-- The last token of a scan that does not fail is the end of the source, and stands where the scan does. -/
theorem run_last {s : Scanner} (hd : s.done = false) (hh : s.run.halt = none) :
    s.run.tokens.getLast? = some (s.run.scanner.token .eof) := by
  induction s using run_induction with
  | done s h => simp [h] at hd
  | halt s r _ hr => simp [run_halt hd hr] at hh
  | step s _ hr ih =>
    rw [run_step hd hr] at hh ⊢
    rcases advances_step hd with ⟨-, hd'⟩ | ⟨-, hfinish⟩
    · simp only [List.getLast?_append, ih hd' hh, Option.some_or]
    · have hdone : s.step.scanner.done = true := by rw [hfinish]; rfl
      rw [run_done hdone, hfinish]
      simp only [finish, List.append_nil, List.getLast?_concat]
      rfl

end Scanner

namespace Lexer

open Scanner

/-! ## Calls one behind the other -/

/-- The tokens that a call takes, given what it gives. -/
def Call.takes : Call → Except Halt Token → List Token
  | .next, .ok t => [t]
  | _, _ => []

/-- What calls give, in order. -/
def outcomes (l : Lexer) : List Call → List (Except Halt Token)
  | [] => []
  | c :: calls => (l.perform c).1 :: (l.perform c).2.outcomes calls

/-- The tokens that calls take, in order. -/
def taken (l : Lexer) : List Call → List Token
  | [] => []
  | c :: calls => c.takes (l.perform c).1 ++ (l.perform c).2.taken calls

theorem taken_append (l : Lexer) (calls more : List Call) :
    l.taken (calls ++ more) = l.taken calls ++ (l.after calls).taken more := by
  induction calls generalizing l with
  | nil => rfl
  | cons c calls ih => simp only [List.cons_append, taken, ih, List.append_assoc, after]

/-! ## Answers -/

/-- The answer to the call behind `n` further ones that take a token. -/
def answer (l : Lexer) (n : Nat) : Except Halt Token := Run.answer { l.scanner.run with tokens := l.ahead } n

section
variable {l l' : Lexer}

theorem Agrees.answer (h : Agrees l l') (n : Nat) : l'.answer n = l.answer n := by
  simp only [Lexer.answer, Run.answer, h.ahead, h.halt, h.last]

theorem answer_ensure (h : l.ensure = (l', none)) : l'.queue ≠ [] ∧ ∀ n, l'.answer n = l.answer n := by
  rcases ensure_ok h with ⟨hq, hagrees⟩ | ⟨hahead, hd, rfl⟩
  · exact ⟨hq, hagrees.answer⟩
  · refine ⟨List.cons_ne_nil _ _, fun n => ?_⟩
    have hnow : l.answer n = .ok (l.scanner.token .eof) := by
      simp [answer, Run.answer, hahead, run_done hd]
    rw [hnow]
    cases n with
    | zero => rfl
    | succ n => simp [answer, Run.answer, ahead, run_done hd]

theorem answer_cons {t : Token} {queue : List Token} (hq : l.queue = t :: queue) :
    l.answer 0 = .ok t ∧ ∀ n, answer { l with queue } n = l.answer (n + 1) := by
  constructor
  · simp [answer, Run.answer, ahead, hq]
  · intro n
    simp [answer, Run.answer, ahead, hq]

theorem answer_halt {r : Halt} (h : l.ensure = (l', some r)) : l.answer 0 = .error r := by
  obtain ⟨hhalt, hahead⟩ := ensure_halt h
  simp [answer, Run.answer, hahead, hhalt]

/-- A call fails as filling the queue does, and gives the first token that waits if that does not. -/
theorem perform_cases (l : Lexer) (c : Call) :
    (∃ r l', l.ensure = (l', some r) ∧ l.perform c = (.error r, l')) ∨
      ∃ t queue l', l.ensure = (l', none) ∧ l'.queue = t :: queue ∧
        l.perform c = (.ok t, if c = .next then { l' with queue } else l') := by
  cases he : l.ensure with
  | mk l' stop =>
    cases stop with
    | some r => exact .inl ⟨r, l', rfl, by cases c <;> simp only [perform, next, peek, he]⟩
    | none =>
      obtain ⟨t, queue, hq⟩ := List.exists_cons_of_ne_nil (answer_ensure he).1
      exact .inr ⟨t, queue, l', rfl, hq, by cases c <;> simp [perform, next, peek, he, hq]⟩

/-- A call gives the first answer, whether it takes the token or looks at it. If it does not fail, the answers behind
it are the same, less the token that it takes. -/
theorem perform_answer (l : Lexer) (c : Call) : (l.perform c).1 = l.answer 0 ∧
    ((l.perform c).1.isOk = true → ∀ n, (l.perform c).2.answer n = l.answer (n + [c].count .next)) := by
  rcases perform_cases l c with ⟨r, l', he, hperform⟩ | ⟨t, queue, l', he, hq, hperform⟩
  · rw [hperform, answer_halt he]
    exact ⟨rfl, nofun⟩
  · have hanswer := (answer_ensure he).2
    obtain ⟨hfirst, hrest⟩ := answer_cons hq
    rw [hanswer] at hfirst
    rw [hfirst, hperform]
    refine ⟨rfl, fun _ n => ?_⟩
    cases c with
    | next => exact (hrest n).trans (hanswer _)
    | peek => exact hanswer n

/-- Calls that do not fail pass on by as many answers as they take tokens, and the tokens are those answers. -/
theorem after_answers {calls : List Call} (hok : ∀ r ∈ l.outcomes calls, r.isOk = true) :
    (∀ n, (l.after calls).answer n = l.answer (n + calls.count .next)) ∧
      (l.taken calls).map .ok = (List.range (calls.count .next)).map l.answer := by
  induction calls generalizing l with
  | nil => exact ⟨fun _ => rfl, rfl⟩
  | cons c calls ih =>
    obtain ⟨hfirst, hrest⟩ := List.forall_mem_cons.1 hok
    obtain ⟨hgives, hbehind⟩ := perform_answer l c
    have hbehind := hbehind hfirst
    obtain ⟨hafter, htaken⟩ := ih hrest
    constructor
    · intro n
      rw [after, hafter, hbehind, Nat.add_assoc, Nat.add_comm (calls.count .next), ← List.count_append]
      rfl
    · rw [taken, List.map_append, htaken]
      cases c with
      | peek => exact List.map_congr_left fun n _ => hbehind n
      | next =>
        obtain ⟨t, ht⟩ : ∃ t, (l.perform .next).1 = .ok t := by
          cases hgive : (l.perform .next).1 with
          | ok t => exact ⟨t, rfl⟩
          | error e => simp [hgive, Except.isOk, Except.toBool] at hfirst
        rw [List.count_cons_self, List.range_succ_eq_map, List.map_cons, List.map_map, ← hgives, ht]
        exact congrArg (_ :: ·) (List.map_congr_left fun n _ => hbehind n)

/-- However often it is looked at, a token stays the next one. -/
theorem next_peeks (hok : l.peek.1.isOk = true) (k : Nat) : (l.after (List.replicate k .peek)).next.1 = l.peek.1 := by
  induction k generalizing l with
  | zero =>
    have hnext : l.next.1 = l.answer 0 := (perform_answer l .next).1
    have hpeek : l.peek.1 = l.answer 0 := (perform_answer l .peek).1
    exact hnext.trans hpeek.symm
  | succ k ih =>
    have hsame : l.peek.2.peek.1 = l.peek.1 := by
      have hpeek : l.peek.1 = l.answer 0 := (perform_answer l .peek).1
      have hagain : l.peek.2.peek.1 = l.peek.2.answer 0 := (perform_answer l.peek.2 .peek).1
      have hbehind : l.peek.2.answer 0 = l.answer 0 := (perform_answer l .peek).2 hok 0
      rw [hagain, hbehind, hpeek]
    have hrest := ih (l := l.peek.2) (by rw [hsame]; exact hok)
    exact hrest.trans hsame

end

/-- The first `n` answers of a run, if none of them is a failure: its tokens, and then the end of the source. -/
theorem map_answer {r : Run} {n : Nat} (hok : r.tokens.length < n → r.halt = none) :
    (List.range n).map r.answer =
      (r.tokens.take n ++ List.replicate (n - r.tokens.length) (r.scanner.token .eof)).map .ok := by
  refine List.ext_getElem (by simp; omega) fun i hi _ => ?_
  have hi : i < n := by simpa using hi
  simp only [List.getElem_map, List.getElem_range]
  by_cases hlt : i < r.tokens.length
  · rw [Run.answer_of_lt hlt, List.getElem_append_left (by simp; omega), List.getElem_take]
  · rw [Run.answer_of_end (by omega) (hok (by omega)), List.getElem_append_right (by simp; omega),
      List.getElem_replicate]

/-- Calls for tokens, up to and including the first that fails. The tokens that are taken are the first tokens of the
source, and the last of these again and again behind it; what a call looks at is what the next one takes; and a call
of either kind fails exactly when the scan of the source does, with the same failure and behind as many tokens. -/
theorem calls_transparent (source : Text) (tabWidth : Int) {calls : List Call}
    (hok : ∀ r ∈ (ofSource source tabWidth).outcomes calls, r.isOk = true) :
    let run := tokenize source tabWidth
    let l := (ofSource source tabWidth).after calls
    let n := calls.count .next
    (ofSource source tabWidth).taken calls =
      run.tokens.take n ++ List.replicate (n - run.tokens.length) (run.scanner.token .eof) ∧
    (run.tokens.length < n → run.halt = none ∧ run.tokens.getLast? = some (run.scanner.token .eof)) ∧
    (∀ t, l.peek.1 = .ok t → ∀ k, (l.after (List.replicate k .peek)).next.1 = .ok t) ∧
    ∀ c h, (l.perform c).1 = .error h ↔ run.halt = some h ∧ n = run.tokens.length := by
  intro run l n
  obtain ⟨hafter, htaken⟩ := after_answers hok
  have hanswer : (ofSource source tabWidth).answer = run.answer := rfl
  rw [hanswer] at hafter htaken
  -- the call behind all tokens of a run that fails would have failed
  have hends : run.tokens.length < n → run.halt = none := by
    intro hlt
    cases hh : run.halt with
    | none => rfl
    | some h =>
      have hmem : run.answer run.tokens.length ∈ ((ofSource source tabWidth).taken calls).map .ok := by
        rw [htaken]
        exact List.mem_map_of_mem (List.mem_range.2 hlt)
      rw [Run.answer_of_halt (Nat.le_refl _) hh] at hmem
      simp at hmem
  have hnow : ∀ c, (l.perform c).1 = run.answer n := by
    intro c
    rw [(perform_answer l c).1, hafter, Nat.zero_add]
  refine ⟨?_, fun hlt => ⟨hends hlt, run_last rfl (hends hlt)⟩, fun t ht k => ?_, fun c h => ?_⟩
  · rw [map_answer hends] at htaken
    exact (List.map_inj_right fun _ _ => Except.ok.inj).1 htaken
  · rw [← ht]
    exact next_peeks (by rw [ht]; rfl) k
  · rw [hnow, Run.answer_eq_error]
    constructor
    · rintro ⟨hh, hle⟩
      refine ⟨hh, Nat.le_antisymm (Nat.le_of_not_lt fun hlt => ?_) hle⟩
      simp [hends hlt] at hh
    · rintro ⟨hh, hn⟩
      exact ⟨hh, Nat.le_of_eq hn.symm⟩

/-- Two tokens, which are looked at and taken, and then a character that begins none: also the call that only looks for
a third token fails. -/
theorem calls_transparent_unrecognized :
    let calls : List Call := [.peek, .next, .peek, .peek, .next]
    (∀ r ∈ (ofSource "a + $" 4).outcomes calls, r.isOk = true) ∧
    ((ofSource "a + $" 4).taken calls).map (·.literal) = [[97], [43]] ∧
    (((ofSource "a + $" 4).after calls).perform .peek).1 =
      .error (.report (.unknownTokenError "unrecognized character '$'" "$" 1 5)) := by
  intro calls
  have hok : ∀ r ∈ (ofSource "a + $" 4).outcomes calls, r.isOk = true := by decide +kernel
  obtain ⟨htaken, -, -, hfails⟩ := calls_transparent "a + $" 4 hok
  refine ⟨hok, ?_, (hfails .peek _).2 ⟨?_, ?_⟩⟩
  · rw [htaken]
    decide +kernel
  · decide +kernel
  · decide +kernel

/-! ## Moves inside of calls -/

/-- The lexer goes on and hands out the tokens. If none waits it takes a step of the scan, which may fail, or at the
end of the source puts that into the queue again; if one waits it can hand it out. -/
inductive Works : Lexer → List Token → Lexer → Prop
  | refl (l : Lexer) : Works l [] l
  | step {l l' : Lexer} {ts : List Token} (hq : l.queue = []) (hd : l.scanner.done = false)
      (h : Works l.stepped ts l') : Works l ts l'
  | ended {l l' : Lexer} {ts : List Token} (hq : l.queue = []) (hd : l.scanner.done = true)
      (h : Works { l with queue := [l.scanner.token .eof] } ts l') : Works l ts l'
  | take {l l' : Lexer} {t : Token} {queue ts : List Token} (hq : l.queue = t :: queue)
      (h : Works { l with queue } ts l') : Works l (t :: ts) l'

/-- The lexer goes on to a step of the scan that fails. -/
def Stops (l : Lexer) (r : Halt) : Prop :=
  ∃ l₁, Works l [] l₁ ∧ l₁.queue = [] ∧ l₁.scanner.done = false ∧ l₁.scanner.step.halt = some r

section
variable {l l' : Lexer}

theorem Works.trans {l'' : Lexer} {ts us : List Token} (h : Works l ts l') (h' : Works l' us l'') :
    Works l (ts ++ us) l'' := by
  induction h with
  | refl => exact h'
  | step hq hd _ ih => exact .step hq hd (ih h')
  | ended hq hd _ ih => exact .ended hq hd (ih h')
  | take hq _ ih => exact .take hq (ih h')

/-- What holds of a lexer whatever waits in its queue, and behind each step, holds as long as the lexer works. -/
theorem Works.keeps {P : Lexer → Prop} (hstep : ∀ l, l.scanner.done = false → P l → P l.stepped)
    (hqueue : ∀ l queue, P l → P { l with queue }) {ts : List Token} (h : Works l ts l') (hl : P l) : P l' := by
  induction h with
  | refl => exact hl
  | step _ hd _ ih => exact ih (hstep _ hd hl)
  | ended _ _ _ ih => exact ih (hqueue _ _ hl)
  | take _ _ ih => exact ih (hqueue _ _ hl)

theorem works_fill (fuel : Nat) (l : Lexer) :
    Works l [] (l.fill fuel).1 ∧ ∀ r, (l.fill fuel).2 = some r → l.Stops r := by
  induction fuel generalizing l with
  | zero => exact ⟨.refl l, nofun⟩
  | succ fuel ih =>
    cases hstop : !l.queue.isEmpty || l.scanner.done with
    | true =>
      rw [fill_stop hstop]
      exact ⟨.refl l, nofun⟩
    | false =>
      obtain ⟨hq, hd⟩ : l.queue = [] ∧ l.scanner.done = false := by simpa using hstop
      rw [fill_step hq hd]
      cases hh : l.scanner.step.halt with
      | some e =>
        refine ⟨.step hq hd (.refl _), fun r hr => ⟨l, .refl l, hq, hd, ?_⟩⟩
        rw [hh]
        exact hr
      | none =>
        obtain ⟨hworks, hstops⟩ := ih l.stepped
        refine ⟨.step hq hd hworks, fun r hr => ?_⟩
        obtain ⟨l₁, hworks₁, hfails⟩ := hstops r hr
        exact ⟨l₁, .step hq hd hworks₁, hfails⟩

theorem works_ensure (l : Lexer) : Works l [] l.ensure.1 ∧ ∀ r, l.ensure.2 = some r → l.queue = [] ∧ l.Stops r := by
  unfold ensure
  split
  · exact ⟨.refl l, nofun⟩
  · next hq =>
    have hq : l.queue = [] := by simpa using hq
    split
    · next hd => exact ⟨.ended hq hd (.refl _), nofun⟩
    · obtain ⟨hworks, hstops⟩ := works_fill l.scanner.bound l
      exact ⟨hworks, fun r hr => ⟨hq, hstops r hr⟩⟩

/-- A call is answered by the lexer at work. It fails only if no token waits, at a step that fails. -/
theorem works_perform (l : Lexer) (c : Call) : Works l (c.takes (l.perform c).1) (l.perform c).2 ∧
    ∀ r, (l.perform c).1 = .error r → l.queue = [] ∧ l.Stops r := by
  obtain ⟨hworks, hstops⟩ := works_ensure l
  rcases perform_cases l c with ⟨e, l', he, hperform⟩ | ⟨t, queue, l', he, hq, hperform⟩
  · have htakes : c.takes (.error e) = [] := by cases c <;> rfl
    rw [he] at hworks hstops
    rw [hperform, htakes]
    refine ⟨hworks, fun r hr => ?_⟩
    cases hr
    exact hstops e rfl
  · rw [he] at hworks
    rw [hperform]
    refine ⟨?_, nofun⟩
    cases c with
    | next => exact hworks.trans (.take hq (.refl _))
    | peek => exact hworks

theorem works_after (l : Lexer) (calls : List Call) : Works l (l.taken calls) (l.after calls) := by
  induction calls generalizing l with
  | nil => exact .refl l
  | cons c calls ih => exact (works_perform l c).1.trans (ih _)

end

end Lexer

end Offside
