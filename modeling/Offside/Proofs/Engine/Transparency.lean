import Offside.Proofs.Engine.Cache
import Offside.Proofs.Fingerprint.Request

/-!
# Compiling as if there were no cache

An engine may answer a request with a program that it compiled for another one. The two then have one
fingerprint, and if the hash tells apart what it is given, one encoding; so they name the same source, and their
rules have the same effect on a compilation (`compile_alike`). Main statement: in every run of an engine each
answer is the one that compiling from scratch would give (`performAll_eq_fromScratch`).
-/

namespace Offside

/-- What a compiled program is whoever asked for it first: all but the rules that it was compiled under and the
number of its compilation. -/
structure Artifact where
  source : Text
  fingerprint : Fingerprint
  program : Program
deriving Repr

/-- The part of a compiled program that every request for it has in common. -/
def Compiled.artifact (p : Compiled) : Artifact :=
  { source := p.source, fingerprint := p.fingerprint, program := p.program }

namespace Engine

/-! ## Operations -/

/-- What an engine can be asked. -/
inductive Operation where
  | compile (source : Text) (rules : List Rule)
  | render (source : Text) (rules : List Rule)
  | evaluate (source : Text) (rules : List Rule)
  | fingerprint (source : Text) (rules : List Rule)
  | reset
deriving Repr

/-- What it answers. -/
inductive Answer where
  | compiled (result : Except Halt Artifact)
  | rendered (result : Except Halt Text)
  | evaluated (result : Except Halt (List Value))
  | fingerprint (f : Fingerprint)
  | reset

/-- The answer to an operation, and the engine after it. -/
def perform (e : Engine) : Operation → Answer × Engine
  | .compile source rules =>
    let (result, e') := e.compile source rules
    (.compiled (result.map Compiled.artifact), e')
  | .render source rules =>
    let (result, e') := e.render source rules
    (.rendered result, e')
  | .evaluate source rules =>
    let (result, e') := e.evaluate source rules
    (.evaluated result, e')
  | .fingerprint source rules => (.fingerprint (e.fingerprint source rules), e)
  | .reset => (.reset, e.reset)

/-- The answers to operations one after the other. -/
def performAll (e : Engine) : List Operation → List Answer
  | [] => []
  | op :: ops => (e.perform op).1 :: performAll (e.perform op).2 ops

/-- The source and the rules that an operation is about. -/
def Operation.request? : Operation → Option (Text × List Rule)
  | .compile source rules | .render source rules | .evaluate source rules | .fingerprint source rules =>
    some (source, rules)
  | .reset => none

/-- What operations are about. -/
def requests (ops : List Operation) : List (Text × List Rule) := ops.filterMap Operation.request?

/-! ## Without a cache -/

/-- A source compiled from scratch. -/
def fromScratch (tabWidth : Int) (source : Text) (rules : List Rule) : Except Halt Artifact :=
  (Offside.compile { rules, tabWidth := Scanner.effectiveTabWidth (some tabWidth) } source).map fun out =>
    { source, fingerprint := Fingerprint.ofRequest source tabWidth rules, program := out.program }

/-- The answer to an operation if everything is compiled from scratch. -/
def answerFromScratch (tabWidth : Int) : Operation → Answer
  | .compile source rules => .compiled (fromScratch tabWidth source rules)
  | .render source rules => .rendered (fromScratch tabWidth source rules >>= fun a => rendering a.program)
  | .evaluate source rules => .evaluated (fromScratch tabWidth source rules >>= fun a => a.program.evaluate)
  | .fingerprint source rules => .fingerprint (Fingerprint.ofRequest source tabWidth rules)
  | .reset => .reset

/-! ## Requests with one fingerprint -/

/-- The requests can be encoded, and the hash does not collide on their encodings. -/
structure Distinguished (tabWidth : Int) (requested : List (Text × List Rule)) : Prop where
  addressable : ∀ q ∈ requested, CompilationUnit.Addressable q.1 tabWidth q.2
  hash : ∀ q ∈ requested, ∀ q' ∈ requested,
    let encoding := (CompilationUnit.ofRequest q.1 tabWidth q.2).encode
    let encoding' := (CompilationUnit.ofRequest q'.1 tabWidth q'.2).encode
    Blake2b.digest 32 encoding = Blake2b.digest 32 encoding' → encoding = encoding'

section
variable {w : Int} {requested : List (Text × List Rule)} {s s' : Text} {r r' : List Rule}

/-- Rules of the same effect give the same from scratch. -/
theorem fromScratch_alike (h : RuleSet.Alike r r')
    (hf : Fingerprint.ofRequest s w r = Fingerprint.ofRequest s w r') :
    fromScratch w s r = fromScratch w s r' := by
  have hcompile := compile_alike h { tabWidth := Scanner.effectiveTabWidth (some w) } s
  simp only [fromScratch, hf]
  rw [hcompile]

/-- So do requests with one fingerprint. -/
theorem Distinguished.fromScratch_eq (h : Distinguished w requested) (hq : (s, r) ∈ requested)
    (hq' : (s', r') ∈ requested) (hf : Fingerprint.ofRequest s w r = Fingerprint.ofRequest s' w r') :
    fromScratch w s r = fromScratch w s' r' := by
  have hdigest := congrArg Fingerprint.bytes hf
  have hencoding := h.hash _ hq _ hq' hdigest
  obtain ⟨hsource, -, hrules⟩ :=
    (CompilationUnit.encode_ofRequest_iff (h.addressable _ hq) (h.addressable _ hq')).1 hencoding
  subst hsource
  exact fromScratch_alike hrules hf

end

/-! ## What the cache holds -/

/-- The program is what its own request, one of those given, comes to from scratch. -/
structure Genuine (w : Int) (requested : List (Text × List Rule)) (p : Compiled) : Prop where
  requested : (p.source, p.rules) ∈ requested
  fingerprint : p.fingerprint = Fingerprint.ofRequest p.source w p.rules
  program : fromScratch w p.source p.rules = .ok p.artifact

/-- Every program in the cache is genuine and held under its own fingerprint. -/
structure Faithful (w : Int) (requested : List (Text × List Rule)) (e : Engine) : Prop where
  tabWidth : e.tabWidth = w
  own : ∀ f p, (f, p) ∈ e.cache.programs → p.fingerprint = f
  genuine : ∀ f p, (f, p) ∈ e.cache.programs → Genuine w requested p

section
variable {w : Int} {requested : List (Text × List Rule)} {e : Engine}

/-- A cache with no new programs. -/
theorem Faithful.shrink (h : Faithful w requested e) {c : Cache} (hc : c.programs ⊆ e.cache.programs) :
    Faithful w requested { e with cache := c } :=
  ⟨h.tabWidth, fun f p hp => h.own f p (hc hp), fun f p hp => h.genuine f p (hc hp)⟩

/-- A cache with one. -/
theorem Faithful.store (h : Faithful w requested e) {p : Compiled} (hp : Genuine w requested p) :
    Faithful w requested { e with cache := e.cache.store p } := by
  refine ⟨h.tabWidth, fun f q hmem => ?_, fun f q hmem => ?_⟩ <;> rcases Cache.mem_store hmem with hmem | heq
  · exact h.own f q hmem
  · cases heq
    rfl
  · exact h.genuine f q hmem
  · cases heq
    exact hp

/-- A compilation gives what it gives from scratch, and keeps the cache faithful. -/
theorem Faithful.compile (h : Faithful w requested e) (hd : Distinguished w requested) {s : Text} {r : List Rule}
    (hq : (s, r) ∈ requested) :
    (e.compile s r).1.map Compiled.artifact = fromScratch w s r ∧ Faithful w requested (e.compile s r).2 := by
  have hf : e.fingerprint s r = Fingerprint.ofRequest s w r := by rw [fingerprint, h.tabWidth]
  have hoptions : e.options r = { rules := r, tabWidth := Scanner.effectiveTabWidth (some w) } := by
    rw [options, h.tabWidth]
  have hc := concludes e s r (e.cache.lookup (e.fingerprint s r))
  rw [Engine.compile]
  generalize hfound : e.cache.lookup (e.fingerprint s r) = found at hc ⊢
  generalize e.conclude s r found = result at hc ⊢
  cases hc with
  | hit p =>
    have hmem := Cache.mem_of_lookup hfound
    have hp := h.genuine _ p hmem
    -- The program may have been compiled under other rules; its fingerprint is that of this request.
    have hsame : Fingerprint.ofRequest s w r = Fingerprint.ofRequest p.source w p.rules := by
      rw [← hf, ← h.own _ p hmem, hp.fingerprint]
    have hscratch := hd.fromScratch_eq hq hp.requested hsame
    exact ⟨(hscratch.trans hp.program).symm, h.shrink fun _ hx => hx⟩
  | crash hcompile =>
    rw [hoptions] at hcompile
    refine ⟨?_, h⟩
    simp only [fromScratch, hcompile, Except.map]
  | fail hcompile hne =>
    rw [hoptions] at hcompile
    refine ⟨?_, h.shrink fun _ hx => hx⟩
    simp only [fromScratch, hcompile, Except.map]
  | @store out hcompile =>
    rw [hoptions] at hcompile
    have hscratch : fromScratch w s r = .ok (e.compiled s r out).artifact := by
      simp only [fromScratch, hcompile, Except.map, compiled, Compiled.artifact, hf]
    exact ⟨hscratch.symm, h.store ⟨hq, hf, hscratch⟩⟩

theorem Faithful.render (h : Faithful w requested e) (hd : Distinguished w requested) {s : Text} {r : List Rule}
    (hq : (s, r) ∈ requested) :
    (e.render s r).1 = (fromScratch w s r >>= fun a => rendering a.program) ∧
      Faithful w requested (e.render s r).2 := by
  obtain ⟨hresult, hkept⟩ := h.compile hd hq
  rw [← hresult, Engine.render]
  generalize e.compile s r = after at hkept ⊢
  obtain ⟨result, e'⟩ := after
  cases result with
  | error halt => exact ⟨rfl, hkept⟩
  | ok p => exact ⟨rfl, hkept⟩

theorem Faithful.evaluate (h : Faithful w requested e) (hd : Distinguished w requested) {s : Text} {r : List Rule}
    (hq : (s, r) ∈ requested) :
    (e.evaluate s r).1 = (fromScratch w s r >>= fun a => a.program.evaluate) ∧
      Faithful w requested (e.evaluate s r).2 := by
  obtain ⟨hresult, hkept⟩ := h.compile hd hq
  rw [← hresult, Engine.evaluate]
  generalize e.compile s r = after at hkept ⊢
  obtain ⟨result, e'⟩ := after
  cases result with
  | error halt => exact ⟨rfl, hkept⟩
  | ok p => exact ⟨rfl, hkept⟩

/-- One operation. -/
theorem Faithful.perform (h : Faithful w requested e) (hd : Distinguished w requested) {op : Operation}
    (hq : ∀ q, op.request? = some q → q ∈ requested) :
    (e.perform op).1 = answerFromScratch w op ∧ Faithful w requested (e.perform op).2 := by
  cases op with
  | compile s r =>
    obtain ⟨hresult, hkept⟩ := h.compile hd (hq _ rfl)
    exact ⟨congrArg Answer.compiled hresult, hkept⟩
  | render s r =>
    obtain ⟨hresult, hkept⟩ := h.render hd (hq _ rfl)
    exact ⟨congrArg Answer.rendered hresult, hkept⟩
  | evaluate s r =>
    obtain ⟨hresult, hkept⟩ := h.evaluate hd (hq _ rfl)
    exact ⟨congrArg Answer.evaluated hresult, hkept⟩
  | fingerprint s r =>
    refine ⟨?_, h⟩
    rw [Engine.perform, Engine.fingerprint, h.tabWidth]
    rfl
  | reset => exact ⟨rfl, h.shrink (List.nil_subset _)⟩

/-- A run of operations. -/
theorem Faithful.performAll (h : Faithful w requested e) (hd : Distinguished w requested) {ops : List Operation}
    (hops : ∀ op ∈ ops, ∀ q, op.request? = some q → q ∈ requested) :
    e.performAll ops = ops.map (answerFromScratch w) := by
  induction ops generalizing e with
  | nil => rfl
  | cons op ops ih =>
    obtain ⟨hanswer, hkept⟩ := h.perform hd (hops op List.mem_cons_self)
    have hrest := ih hkept fun op' hop' => hops op' (List.mem_cons_of_mem op hop')
    rw [Engine.performAll, List.map_cons, hanswer, hrest]

end

/-- An engine of any width of tabs and any capacity answers every operation of a run as if it compiled
everything from scratch, given that the hash does not collide on the encodings of what the run is about. -/
theorem performAll_eq_fromScratch (tabWidth : Int) (capacity : Option Int) (verbosity : Compile.Verbosity)
    (ops : List Operation) (h : Distinguished tabWidth (requests ops)) :
    (ofOptions tabWidth capacity verbosity).performAll ops = ops.map (answerFromScratch tabWidth) := by
  obtain ⟨n, hcache⟩ := cache_ofOptions tabWidth capacity verbosity
  have hnew : Faithful tabWidth (requests ops) (ofOptions tabWidth capacity verbosity) := by
    refine ⟨rfl, ?_, ?_⟩ <;> simp [hcache]
  refine hnew.performAll h fun op hop q hq => ?_
  exact List.mem_filterMap.2 ⟨op, hop, hq⟩

/-- Two sources, one of which is asked for again under rules in another order, and once more after a reset. -/
theorem performAll_eq_fromScratch_reordered :
    let r : List Rule := [.disable .ifStatement, .blacklist ["a"]]
    let r' : List Rule := [.blacklist ["a", "a"], .disable .ifStatement]
    let ops : List Operation :=
      [.compile "x = 1" r, .render "x = 1" r', .evaluate "2" [], .reset, .fingerprint "x = 1" r]
    Distinguished 0 (requests ops) ∧
      (ofOptions 0 (some 1) .failures).performAll ops = ops.map (answerFromScratch 0) := by
  intro r r' ops
  have h : Distinguished 0 (requests ops) := by
    let encoding (q : Text × List Rule) : Text := (CompilationUnit.ofRequest q.1 0 q.2).encode
    have hencoding : ∀ q ∈ requests ops, encoding q = encoding ("x = 1", r) ∨ encoding q = encoding ("2", []) := by
      decide +kernel
    have hne : Blake2b.digest 32 (encoding ("x = 1", r)) ≠ Blake2b.digest 32 (encoding ("2", [])) := by
      decide +kernel
    refine ⟨by decide +kernel, fun q hq q' hq' hdigest => ?_⟩
    change Blake2b.digest 32 (encoding q) = Blake2b.digest 32 (encoding q') at hdigest
    change encoding q = encoding q'
    rcases hencoding q hq with h | h <;> rcases hencoding q' hq' with h' | h' <;> rw [h, h'] at hdigest ⊢
    · exact absurd hdigest hne
    · exact absurd hdigest.symm hne
  exact ⟨h, performAll_eq_fromScratch 0 (some 1) .failures ops h⟩

end Engine

end Offside
