import Offside.Engine.Basic

/-!
# The cache

A cache is sound if it lists each of its fingerprints once and holds every program under its own. Storing
keeps it so: first the oldest programs are dropped, each from both of its lists (`Shrinks`), then the new one is
added to both. What a compilation does to the engine once it has looked its fingerprint up is said by
`Concludes`.
-/

namespace Offside

namespace Cache

/-- How many compilations have been counted. -/
def Stats.ended (s : Stats) : Nat := s.hits + s.misses + s.failures

/-- The fingerprints that programs are held under. -/
def keys (c : Cache) : List Fingerprint := c.programs.map Prod.fst

/-- The order lists each key once, and every program is held under its own fingerprint. -/
structure Sound (c : Cache) : Prop where
  nodup : c.order.Nodup
  keys : c.keys.Perm c.order
  own : ∀ f p, (f, p) ∈ c.programs → p.fingerprint = f

/-- A program with the fingerprint would be taken in. -/
def Accepts (c : Cache) (f : Fingerprint) : Prop := c.capacity ≠ 0 ∧ c.lookup f = none

instance (c : Cache) (f : Fingerprint) : Decidable (c.Accepts f) := inferInstanceAs (Decidable (_ ∧ _))

section
variable {c c' : Cache} {f : Fingerprint} {p : Compiled}

theorem Sound.size_eq (h : c.Sound) : c.size = c.order.length := by
  simpa [size, Cache.keys] using h.keys.length_eq

theorem mem_of_lookup (h : c.lookup f = some p) : (f, p) ∈ c.programs := by
  obtain ⟨before, after, hprograms, -⟩ := List.lookup_eq_some_iff.1 h
  simp [hprograms]

theorem lookup_eq_none_iff : c.lookup f = none ↔ f ∉ c.keys := by
  simp only [lookup, keys, List.lookup_eq_none_iff, List.mem_map, bne_iff_ne]
  grind

/-! ## Counting -/

/-- The caches differ by so many compilations counted. -/
structure Counts (n : Nat) (c c' : Cache) : Prop where
  capacity : c'.capacity = c.capacity
  programs : c'.programs = c.programs
  order : c'.order = c.order
  evictions : c'.stats.evictions = c.stats.evictions
  ended : c'.stats.ended = c.stats.ended + n

theorem counts_refl (c : Cache) : Counts 0 c c := ⟨rfl, rfl, rfl, rfl, rfl⟩

theorem counts_hit (c : Cache) : Counts 1 c c.hit := by
  refine ⟨rfl, rfl, rfl, rfl, ?_⟩
  simp only [hit, Stats.ended]
  omega

theorem counts_miss (c : Cache) : Counts 1 c c.miss := by
  refine ⟨rfl, rfl, rfl, rfl, ?_⟩
  simp only [miss, Stats.ended]
  omega

theorem counts_fail (c : Cache) : Counts 1 c c.fail := ⟨rfl, rfl, rfl, rfl, rfl⟩

theorem Counts.sound {n : Nat} (h : Counts n c c') (hs : c.Sound) : c'.Sound := by
  refine ⟨?_, ?_, ?_⟩
  · rw [h.order]
    exact hs.nodup
  · rw [Cache.keys, h.order, h.programs]
    exact hs.keys
  · rw [h.programs]
    exact hs.own

/-! ## Dropping programs -/

/-- What dropping some of the oldest programs does: each is dropped from both lists and counted. -/
structure Shrinks (c c' : Cache) : Prop where
  capacity : c'.capacity = c.capacity
  programs : c'.programs ⊆ c.programs
  ended : c'.stats.ended = c.stats.ended
  evictions : c'.order.length + c'.stats.evictions = c.order.length + c.stats.evictions
  sound : c.Sound → c'.Sound

theorem Shrinks.refl (c : Cache) : Shrinks c c := ⟨rfl, fun _ h => h, rfl, rfl, id⟩

theorem Shrinks.trans {c'' : Cache} (h : Shrinks c c') (h' : Shrinks c' c'') : Shrinks c c'' :=
  ⟨h'.capacity.trans h.capacity, fun _ hx => h.programs (h'.programs hx), h'.ended.trans h.ended,
    h'.evictions.trans h.evictions, fun hs => h'.sound (h.sound hs)⟩

theorem Sound.withoutOldest {order : List Fingerprint} (h : c.Sound) (ho : c.order = f :: order) :
    (c.withoutOldest f order).Sound := by
  have hnodup : f ∉ order ∧ order.Nodup := List.nodup_cons.1 (ho ▸ h.nodup)
  refine ⟨hnodup.2, ?_, fun g q hq => h.own g q (List.mem_filter.1 hq).1⟩
  have hkeys : (c.withoutOldest f order).keys = c.keys.filter (· ≠ f) := by
    simp only [Cache.keys, Cache.withoutOldest, List.filter_map, Function.comp_def]
  have horder : c.order.filter (· ≠ f) = order := by
    have hothers : ∀ g ∈ order, g ≠ f := fun g hg hgf => hnodup.1 (hgf ▸ hg)
    simpa [ho] using hothers
  have hperm := h.keys.filter (· ≠ f)
  rwa [horder, ← hkeys] at hperm

theorem shrinks_withoutOldest {order : List Fingerprint} (ho : c.order = f :: order) :
    Shrinks c (c.withoutOldest f order) := by
  refine ⟨rfl, fun _ hx => (List.mem_filter.1 hx).1, rfl, ?_, fun h => h.withoutOldest ho⟩
  simp only [withoutOldest, ho, List.length_cons]
  omega

theorem shrinks_evict (n : Nat) (c : Cache) : Shrinks c (evict n c) ∧ (evict n c).order = c.order.drop n := by
  induction n generalizing c with
  | zero => exact ⟨.refl c, rfl⟩
  | succ n ih =>
    cases ho : c.order with
    | nil => simp [evict, ho, Shrinks.refl]
    | cons f order =>
      have he : evict (n + 1) c = evict n (c.withoutOldest f order) := by
        rw [evict, ho]
      obtain ⟨hshrinks, horder⟩ := ih (c.withoutOldest f order)
      rw [he]
      exact ⟨(shrinks_withoutOldest ho).trans hshrinks, horder⟩

/-! ## Storing a program -/

theorem not_accepts_iff : ¬ c.Accepts f ↔ c.miss.capacity = 0 ∨ (c.miss.lookup f).isSome = true := by
  change _ ↔ c.capacity = 0 ∨ (c.lookup f).isSome = true
  cases h : c.lookup f <;> simp [Accepts, h]

theorem store_of_not_accepts (h : ¬ c.Accepts p.fingerprint) : c.store p = c.miss := by
  simp only [store, if_pos (not_accepts_iff.1 h)]

/-- A program that is taken in comes last, behind as many of the others as leave room for it. -/
theorem store_of_accepts (h : c.Accepts p.fingerprint) :
    ∃ room, Shrinks c.miss room ∧ room.order = c.order.drop (c.order.length + 1 - c.capacity) ∧
      c.store p = room.add p := by
  have hnew := fun hkept => not_accepts_iff.2 hkept h
  refine ⟨c.miss.makeRoom, (shrinks_evict _ _).1, (shrinks_evict _ _).2, ?_⟩
  simp only [store, if_neg hnew]

theorem Sound.add (h : c.Sound) (hf : p.fingerprint ∉ c.order) : (c.add p).Sound := by
  refine ⟨?_, ?_, ?_⟩
  · rw [Cache.add, List.nodup_append]
    refine ⟨h.nodup, by simp, fun f hmem g hg hfg => ?_⟩
    rw [hfg, List.mem_singleton.1 hg] at hmem
    exact hf hmem
  · exact (h.keys.cons p.fingerprint).trans (List.perm_append_singleton _ _).symm
  · intro f q hq
    rcases List.mem_cons.1 hq with heq | hq
    · cases heq
      rfl
    · exact h.own f q hq

theorem Sound.store (h : c.Sound) (p : Compiled) : (c.store p).Sound := by
  by_cases ha : c.Accepts p.fingerprint
  · obtain ⟨room, hroom, horder, hstore⟩ := store_of_accepts ha
    rw [hstore]
    refine (hroom.sound ((counts_miss c).sound h)).add ?_
    rw [horder]
    intro hmem
    exact lookup_eq_none_iff.1 ha.2 (h.keys.mem_iff.2 (List.mem_of_mem_drop hmem))
  · rw [store_of_not_accepts ha]
    exact (counts_miss c).sound h

/-- Every program in the cache was there before, or is the one that has been stored. -/
theorem mem_store {x : Fingerprint × Compiled} (hx : x ∈ (c.store p).programs) :
    x ∈ c.programs ∨ x = (p.fingerprint, p) := by
  by_cases ha : c.Accepts p.fingerprint
  · obtain ⟨room, hroom, -, hstore⟩ := store_of_accepts ha
    rw [hstore] at hx
    rcases List.mem_cons.1 hx with hx | hx
    · exact .inr hx
    · exact .inl (hroom.programs hx)
  · rw [store_of_not_accepts ha] at hx
    exact .inl hx

end

end Cache

namespace Engine

/-- A new engine has stored and counted nothing. -/
theorem cache_ofOptions (tabWidth : Int) (capacity : Option Int) (verbosity : Compile.Verbosity) :
    ∃ n, (ofOptions tabWidth capacity verbosity).cache = { capacity := n } := by
  simp only [ofOptions]
  split
  · split <;> exact ⟨_, rfl⟩
  · exact ⟨_, rfl⟩

/-! ## What a compilation does to the engine -/

/-- What the end of a compilation gives, by what its look-up found. -/
inductive Concludes (e : Engine) (source : Text) (rules : List Rule) :
    Option Compiled → Except Halt Compiled × Engine → Prop
  | hit (p : Compiled) : Concludes e source rules (some p) (.ok p, { e with cache := e.cache.hit })
  | crash (h : Offside.compile (e.options rules) source = .error .crash) :
      Concludes e source rules none (.error .crash, e)
  | fail {halt : Halt} (h : Offside.compile (e.options rules) source = .error halt) (hne : halt ≠ .crash) :
      Concludes e source rules none (.error halt, { e with cache := e.cache.fail })
  | store {out : Compile.Output} (h : Offside.compile (e.options rules) source = .ok out) :
      Concludes e source rules none
        (.ok (e.compiled source rules out), { e with cache := e.cache.store (e.compiled source rules out) })

theorem concludes (e : Engine) (source : Text) (rules : List Rule) (found : Option Compiled) :
    Concludes e source rules found (e.conclude source rules found) := by
  cases found with
  | some p => exact .hit p
  | none =>
    simp only [conclude]
    split
    · next h => exact .crash h
    · next halt hne h => exact .fail h hne
    · next out h => exact .store h

end Engine

end Offside
