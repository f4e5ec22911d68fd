import Mathlib.Algebra.GroupWithZero.Nat
import Mathlib.Data.List.DropRight
import Offside.Proofs.Engine.Cache

/-!
# Calls that take turns

Several calls of `compile` may share an engine. Each looks its fingerprint up in one step and ends in another,
and between the two any steps of other calls and any resets may fall: the program that was found may have been
dropped, or one that was missed may have been stored. Main statement: whatever the order of the steps, the
cache stays sound, holds the programs stored last, and its counters account for every call and for every
program (`run_consistent`).
-/

namespace Offside.Engine

/-! ## Steps -/

/-- A call that has looked its fingerprint up and has not ended. -/
structure Call where
  source : Text
  rules : List Rule
  /-- What it found. -/
  found : Option Compiled
deriving Repr

/-- What has happened to the cache. -/
inductive Event where
  /-- A call ended with the program that it had found. -/
  | found
  /-- A call ended with a report. -/
  | failed
  /-- A call crashed, and so did not end. -/
  | crashed
  /-- A call ended with a program of its own, which was stored under the fingerprint. -/
  | stored (f : Fingerprint)
  /-- A call ended with a program of its own, which was not stored. -/
  | discarded
  /-- A reset dropped so many programs. -/
  | reset (dropped : Nat)
deriving Repr, DecidableEq

/-- An engine that calls share. -/
structure Shared where
  engine : Engine
  /-- The calls under way. -/
  calls : List Call := []
  /-- What has happened so far, in order. -/
  history : List Event := []
deriving Repr

/-- A step of one of the calls, or a reset. -/
inductive Action where
  /-- A new call looks its fingerprint up. -/
  | lookup (source : Text) (rules : List Rule)
  /-- The `i`-th of the calls under way ends. -/
  | conclude (i : Nat)
  | reset
deriving Repr

/-- What the end of a call comes to. -/
def Call.event (c : Call) (e : Engine) : Event :=
  match c.found with
  | some _ => .found
  | none =>
    match Offside.compile (e.options c.rules) c.source with
    | .error .crash => .crashed
    | .error _ => .failed
    | .ok _ =>
      let f := e.fingerprint c.source c.rules
      if e.cache.Accepts f then .stored f else .discarded

namespace Shared

/-- One step. A call that is not under way cannot end. -/
def step (s : Shared) : Action → Shared
  | .lookup source rules =>
    { s with calls := s.calls ++ [⟨source, rules, s.engine.cache.lookup (s.engine.fingerprint source rules)⟩] }
  | .conclude i =>
    match s.calls[i]? with
    | none => s
    | some c =>
      { engine := (s.engine.conclude c.source c.rules c.found).2
        calls := s.calls.eraseIdx i
        history := s.history ++ [c.event s.engine] }
  | .reset =>
    { s with engine := s.engine.reset, history := s.history ++ [.reset s.engine.cache.size] }

/-- Steps one after the other. -/
def run (s : Shared) (actions : List Action) : Shared := actions.foldl step s

end Shared

/-- A call alone on an engine looks up and ends. -/
theorem run_lookup_conclude (e : Engine) (source : Text) (rules : List Rule) :
    (Shared.run { engine := e } [.lookup source rules, .conclude 0]).engine = (e.compile source rules).2 := rfl

/-! ## What the history says -/

namespace Event

/-- Whether a call ended. -/
def endsCall : Event → Bool
  | found | failed | stored _ | discarded => true
  | crashed | reset _ => false

/-- Whether a program was stored. -/
def isStored : Event → Bool
  | stored _ => true
  | found | failed | crashed | discarded | reset _ => false

/-- How many programs a reset dropped. -/
def dropped : Event → Nat
  | reset n => n
  | found | failed | crashed | stored _ | discarded => 0

/-- Whether the programs stayed as they were. -/
def keepsPrograms : Event → Bool
  | found | failed | crashed | discarded => true
  | stored _ | reset _ => false

/-- The fingerprints stored since the last reset, in order, after one more event. -/
def record (fs : List Fingerprint) : Event → List Fingerprint
  | stored f => fs ++ [f]
  | reset _ => []
  | found | failed | crashed | discarded => fs

theorem of_keepsPrograms {ev : Event} (h : ev.keepsPrograms = true) (fs : List Fingerprint) :
    ev.record fs = fs ∧ ev.dropped = 0 ∧ ev.isStored = false := by
  cases ev with
  | found | failed | crashed | discarded => exact ⟨rfl, rfl, rfl⟩
  | stored | reset => cases h

end Event

/-- The fingerprints stored since the last reset, in order. -/
def storedSinceReset (history : List Event) : List Fingerprint := history.foldl Event.record []

@[simp] theorem storedSinceReset_append (history : List Event) (ev : Event) :
    storedSinceReset (history ++ [ev]) = ev.record (storedSinceReset history) := by
  simp [storedSinceReset]

/-- The longest of the suffixes of `l` that have at most `n` members. -/
def IsLongestSuffix {α : Type} (n : Nat) (t l : List α) : Prop :=
  t <:+ l ∧ t.length ≤ n ∧ ∀ u, u <:+ l → u.length ≤ n → u.length ≤ t.length

theorem length_rtake {α : Type} (n : Nat) (l : List α) : (l.rtake n).length = min n l.length := by
  simp only [List.rtake, List.length_drop]
  omega

theorem isLongestSuffix_rtake {α : Type} (n : Nat) (l : List α) : IsLongestSuffix n (l.rtake n) l := by
  refine ⟨List.drop_suffix _ _, ?_, fun u hu hn => ?_⟩
  · rw [length_rtake]
    omega
  · have := hu.length_le
    rw [length_rtake]
    omega

/-- The last members of a list behind which one more comes: the first of them goes if there are too many. -/
theorem rtake_concat {α : Type} {n : Nat} (hn : n ≠ 0) (l : List α) (a : α) :
    (l ++ [a]).rtake n = (l.rtake n).drop ((l.rtake n).length + 1 - n) ++ [a] := by
  have hkept : l.length + 1 - n ≤ l.length := by omega
  have hdrop : l.length + 1 - n = l.length - n + (min n l.length + 1 - n) := by omega
  rw [length_rtake, List.rtake, List.rtake, List.drop_drop, ← hdrop, List.length_append, List.length_singleton,
    List.drop_append_of_le_length hkept]

/-! ## Consistency -/

/-- The engine is in a state that began as `e₀` and to which the history has happened. -/
structure Consistent (e₀ e : Engine) (history : List Event) : Prop where
  tabWidth : e.tabWidth = e₀.tabWidth
  capacity : e.cache.capacity = e₀.cache.capacity
  sound : e.cache.Sound
  genuine : ∀ f p, (f, p) ∈ e.cache.programs → e₀.fingerprint p.source p.rules = f
  order : e.cache.order = (storedSinceReset history).rtake e₀.cache.capacity
  ended : e.cache.stats.ended = history.countP Event.endsCall
  balance : e.cache.order.length + e.cache.stats.evictions + (history.map Event.dropped).sum =
    history.countP Event.isStored

section
variable {e₀ e : Engine} {history : List Event}

theorem Consistent.reset (h : Consistent e₀ e history) :
    Consistent e₀ e.reset (history ++ [.reset e.cache.size]) := by
  have hsize := h.sound.size_eq
  have hbalance := h.balance
  refine ⟨h.tabWidth, h.capacity, ⟨.nil, .nil, nofun⟩, nofun, ?_, ?_, ?_⟩
  · simp [Event.record, List.rtake, Engine.reset, Cache.reset]
  · simpa [Event.endsCall] using! h.ended
  · simp only [Engine.reset, Cache.reset, List.length_nil, List.map_append, List.map_singleton, List.sum_append,
      List.sum_singleton, List.countP_append, List.countP_singleton, Event.dropped, Event.isStored]
    simp
    omega

/-- The state after an event that leaves the programs as they are. -/
theorem Consistent.count (h : Consistent e₀ e history) {c : Cache} {ev : Event} (hev : ev.keepsPrograms = true)
    (hc : Cache.Counts (if ev.endsCall then 1 else 0) e.cache c) :
    Consistent e₀ { e with cache := c } (history ++ [ev]) := by
  obtain ⟨hrecord, hdropped, hstored⟩ := Event.of_keepsPrograms hev (storedSinceReset history)
  refine ⟨h.tabWidth, hc.capacity.trans h.capacity, hc.sound h.sound, ?_, ?_, ?_, ?_⟩
  · simpa only [hc.programs] using h.genuine
  · simpa only [hc.order, storedSinceReset_append, hrecord] using h.order
  · simp only [hc.ended, h.ended, List.countP_append, List.countP_singleton]
  · simpa [hc.order, hc.evictions, hdropped, hstored] using h.balance

/-- The state after a program has been taken in. -/
theorem Consistent.store (h : Consistent e₀ e history) {p : Compiled} (ha : e.cache.Accepts p.fingerprint)
    (hp : e₀.fingerprint p.source p.rules = p.fingerprint) :
    Consistent e₀ { e with cache := e.cache.store p } (history ++ [.stored p.fingerprint]) := by
  obtain ⟨room, hroom, horder, hstore⟩ := Cache.store_of_accepts ha
  have hcapacity : room.capacity = e₀.cache.capacity := hroom.capacity.trans h.capacity
  have hended : room.stats.ended = e.cache.stats.ended + 1 := hroom.ended.trans (Cache.counts_miss e.cache).ended
  have hevictions : room.order.length + room.stats.evictions = e.cache.order.length + e.cache.stats.evictions :=
    hroom.evictions
  have hended₀ := h.ended
  have hbalance := h.balance
  refine ⟨h.tabWidth, ?_, h.sound.store p, ?_, ?_, ?_, ?_⟩
  · rw [hstore]
    exact hcapacity
  · intro f q hq
    rcases Cache.mem_store hq with hq | hq
    · exact h.genuine f q hq
    · cases hq
      exact hp
  · have hn : e₀.cache.capacity ≠ 0 := h.capacity ▸ ha.1
    rw [h.order, h.capacity] at horder
    simp only [hstore, Cache.add, storedSinceReset_append, Event.record, rtake_concat hn, horder]
  · simp [hstore, Cache.add, Event.endsCall]
    omega
  · simp [hstore, Cache.add, Event.dropped, Event.isStored]
    omega

/-- The state after a call has ended, or crashed. What the call found may be out of date. -/
theorem Consistent.conclude (h : Consistent e₀ e history) (c : Call) :
    Consistent e₀ (e.conclude c.source c.rules c.found).2 (history ++ [c.event e]) := by
  obtain ⟨source, rules, found⟩ := c
  have hc := concludes e source rules found
  dsimp only at hc ⊢
  generalize e.conclude source rules found = result at hc
  cases hc with
  -- The program may have been dropped since it was found; ending counts the call and touches nothing else.
  | hit p => exact h.count rfl (Cache.counts_hit e.cache)
  | crash hcompile =>
    have hev : Call.event ⟨source, rules, none⟩ e = .crashed := by simp [Call.event, hcompile]
    rw [hev]
    exact h.count rfl (Cache.counts_refl e.cache)
  | @fail halt hcompile hne =>
    have hev : Call.event ⟨source, rules, none⟩ e = .failed := by
      cases halt <;> simp_all [Call.event]
    rw [hev]
    exact h.count rfl (Cache.counts_fail e.cache)
  | @store out hcompile =>
    have hp : e₀.fingerprint source rules = e.fingerprint source rules := by
      simp only [fingerprint, h.tabWidth]
    -- Another call may have stored the same program since the look-up.
    by_cases ha : e.cache.Accepts (e.fingerprint source rules)
    · have hev : Call.event ⟨source, rules, none⟩ e = .stored (e.fingerprint source rules) := by
        simp [Call.event, hcompile, ha]
      rw [hev]
      exact h.store (p := e.compiled source rules out) ha hp
    · have hev : Call.event ⟨source, rules, none⟩ e = .discarded := by simp [Call.event, hcompile, ha]
      rw [hev, Cache.store_of_not_accepts (p := e.compiled source rules out) ha]
      exact h.count rfl (Cache.counts_miss e.cache)

end

/-- One step keeps the state consistent, whatever the calls under way have found. -/
theorem Consistent.step {e₀ : Engine} {s : Shared} (h : Consistent e₀ s.engine s.history) (a : Action) :
    Consistent e₀ (s.step a).engine (s.step a).history := by
  cases a with
  | lookup source rules => exact h
  | conclude i =>
    simp only [Shared.step]
    split
    · exact h
    · next c _ => exact h.conclude c
  | reset => exact h.reset

/-- A run keeps it so. -/
theorem Consistent.run {e₀ : Engine} {s : Shared} (h : Consistent e₀ s.engine s.history) (actions : List Action) :
    Consistent e₀ (s.run actions).engine (s.run actions).history := by
  induction actions generalizing s with
  | nil => exact h
  | cons a actions ih => exact ih (h.step a)

/-- A new engine, of which nothing has been asked. -/
theorem consistent_ofOptions (tabWidth : Int) (capacity : Option Int) (verbosity : Compile.Verbosity) :
    let e := ofOptions tabWidth capacity verbosity
    Consistent e e [] := by
  intro e
  obtain ⟨n, hnew⟩ := cache_ofOptions tabWidth capacity verbosity
  refine ⟨rfl, rfl, ⟨?_, ?_, ?_⟩, ?_, ?_, ?_, ?_⟩
  · simp [e, hnew]
  · simp [e, hnew, Cache.keys]
  · simp [e, hnew]
  · simp [e, hnew]
  · simp [e, hnew, storedSinceReset, List.rtake]
  · simp [e, hnew, Cache.Stats.ended]
  · simp [e, hnew]

/-- Whatever steps the calls and the resets take, and in whatever order: the cache lists each of its keys once
and holds every program under its own fingerprint; it holds the programs stored last, in the order of storing,
and no more than its capacity; and its counters account for every call that ended and for every program stored. -/
theorem run_consistent (tabWidth : Int) (capacity : Option Int) (verbosity : Compile.Verbosity)
    (actions : List Action) :
    let e := ofOptions tabWidth capacity verbosity
    let s := Shared.run { engine := e } actions
    let c := s.engine.cache
    (c.order.Nodup ∧ c.keys.Perm c.order) ∧
    (∀ f p, c.lookup f = some p → p.fingerprint = f ∧ e.fingerprint p.source p.rules = f) ∧
    c.size ≤ e.cache.capacity ∧
    IsLongestSuffix e.cache.capacity c.order (storedSinceReset s.history) ∧
    c.stats.hits + c.stats.misses + c.stats.failures = s.history.countP Event.endsCall ∧
    c.size + c.stats.evictions + (s.history.map Event.dropped).sum = s.history.countP Event.isStored := by
  intro e s c
  have h : Consistent e s.engine s.history :=
    Consistent.run (s := { engine := e }) (consistent_ofOptions tabWidth capacity verbosity) actions
  have hsuffix : IsLongestSuffix e.cache.capacity c.order (storedSinceReset s.history) :=
    h.order ▸ isLongestSuffix_rtake _ _
  have hsize : c.size = c.order.length := h.sound.size_eq
  refine ⟨⟨h.sound.nodup, h.sound.keys⟩, fun f p hp => ?_, ?_, hsuffix, h.ended, ?_⟩
  · have hmem := Cache.mem_of_lookup hp
    exact ⟨h.sound.own f p hmem, h.genuine f p hmem⟩
  · rw [hsize]
    exact hsuffix.2.1
  · rw [hsize]
    exact h.balance

end Offside.Engine
