import Offside.Fingerprint.Basic
import Offside.Proofs.Fingerprint.Encoding
import Offside.Proofs.RuleEffect
import Offside.Proofs.Text

/-!
# The canonical form of requests

A request for a compilation is brought into a form in which neither the order of the rules nor their
repetition shows, and the form is encoded. Main statement: two requests have one encoding just when they ask
for the same, that is, for one source at one width of tabs under rules that answer every question alike
(`encode_eq_iff`).
-/

namespace Offside

/-! ## The names of policies -/

namespace Policy

theorem name_other_inj {k l : Int} (h : (disable (.other k)).name = (disable (.other l)).name) : k = l := by
  simp only [name, List.append_assoc, List.append_cancel_left_eq, List.append_cancel_right_eq] at h
  exact Text.ofInt_inj h

theorem name_ne_other {c : Construct} (hc : ∀ k, c ≠ .other k) (k : Int) :
    (disable c).name ≠ (disable (.other k)).name := by
  intro h
  have hother : (disable (.other k)).name.head? = some 80 := rfl
  have hhead := congrArg List.head? h
  rw [hother] at hhead
  cases c with
  | other l => exact hc l rfl
  | ifStatement | forStatement | whileStatement | functionDefinition | print => exact absurd hhead (by decide)

/-- No two policies that turn something off have one name. -/
theorem name_disable_inj {c d : Construct} (h : (disable c).name = (disable d).name) : c = d := by
  cases c with
  | other k =>
    cases d with
    | other l => rw [name_other_inj h]
    | ifStatement | forStatement | whileStatement | functionDefinition | print =>
      exact absurd h.symm (name_ne_other (by simp) k)
  | ifStatement | forStatement | whileStatement | functionDefinition | print =>
    cases d with
    | other l => exact absurd h (name_ne_other (by simp) l)
    | ifStatement | forStatement | whileStatement | functionDefinition | print =>
      revert h
      decide

end Policy

/-! ## The normal form of rules -/

namespace CompilationUnit

open RuleSet

theorem mem_disabledNames {rules : List Rule} {t : Text} :
    t ∈ rules.filterMap disabledName? ↔ ∃ c, RuleSet.disabled rules c = true ∧ (Policy.disable c).name = t := by
  rw [List.mem_filterMap]
  constructor
  · rintro ⟨r, hr, hname⟩
    cases r with
    | disable c => exact ⟨c, disabled_iff.2 hr, Option.some.inj hname⟩
    | blacklist names => cases hname
  · rintro ⟨c, hc, rfl⟩
    exact ⟨.disable c, disabled_iff.1 hc, rfl⟩

theorem name_mem_disabledNames {rules : List Rule} {c : Construct} :
    (Policy.disable c).name ∈ rules.filterMap disabledName? ↔ RuleSet.disabled rules c = true := by
  rw [mem_disabledNames]
  constructor
  · rintro ⟨d, hd, hname⟩
    exact Policy.name_disable_inj hname ▸ hd
  · intro hc
    exact ⟨c, hc, rfl⟩

/-- The normal forms of two lists of rules agree just when the rules answer alike. -/
theorem normal_rules_iff {r₁ r₂ : List Rule} :
    normal (r₁.filterMap disabledName?) = normal (r₂.filterMap disabledName?) ∧
        normal (r₁.flatMap Rule.names) = normal (r₂.flatMap Rule.names) ↔ Alike r₁ r₂ := by
  simp only [normal, Text.sorted_distinct_eq_iff]
  constructor
  · rintro ⟨hdisabled, hnames⟩
    constructor
    · intro c
      rw [Bool.eq_iff_iff, ← name_mem_disabledNames, ← name_mem_disabledNames]
      exact hdisabled _
    · intro n
      rw [Bool.eq_iff_iff, blacklisted_iff, blacklisted_iff]
      exact hnames n
  · intro h
    constructor
    · intro t
      simp only [mem_disabledNames, h.disabled]
    · intro n
      rw [← blacklisted_iff, ← blacklisted_iff, h.blacklisted]

/-- Two requests have one canonical form just when they ask for the same. -/
theorem ofRequest_eq_iff {s₁ s₂ : Text} {t₁ t₂ : Int} {r₁ r₂ : List Rule} :
    ofRequest s₁ t₁ r₁ = ofRequest s₂ t₂ r₂ ↔
      s₁ = s₂ ∧ Scanner.effectiveTabWidth (some t₁) = Scanner.effectiveTabWidth (some t₂) ∧ Alike r₁ r₂ := by
  rw [← normal_rules_iff]
  simp [ofRequest]

/-! ## The encoding -/

/-- Every number, every length of a text and every length of a list is below `2 ^ 64`. -/
structure Fits (u : CompilationUnit) : Prop where
  version : Cbor.FitsInt u.version
  source : Cbor.FitsText u.source
  tabWidth : Cbor.FitsInt u.tabWidth
  disabled : Cbor.FitsAll Cbor.FitsText u.disabled
  names : Cbor.FitsAll Cbor.FitsText u.names

/-- Units are told apart by their encodings. -/
theorem encode_inj {u v : CompilationUnit} (hu : u.Fits) (hv : v.Fits) (h : u.encode = v.encode) : u = v := by
  have htexts := Cbor.delimited_text.array
  simp only [encode, Cbor.map, List.length_cons, List.length_nil, List.flatMap_cons, List.flatMap_nil,
    List.append_assoc, List.append_cancel_left_eq] at h
  obtain ⟨hnames, h⟩ := htexts hu.names hv.names h
  obtain ⟨hsource, h⟩ := Cbor.delimited_text hu.source hv.source (List.append_cancel_left h)
  obtain ⟨hversion, h⟩ := Cbor.delimited_int hu.version hv.version (List.append_cancel_left h)
  obtain ⟨hdisabled, h⟩ := htexts hu.disabled hv.disabled (List.append_cancel_left h)
  obtain ⟨htabWidth, -⟩ := Cbor.delimited_int hu.tabWidth hv.tabWidth (List.append_cancel_left h)
  cases u
  cases v
  simp only [CompilationUnit.mk.injEq]
  exact ⟨Int.ofNat.inj hversion, hsource, htabWidth, hdisabled, hnames⟩

/-- The unit as a data item: a map of its five fields. -/
def item (u : CompilationUnit) : Cbor.Item :=
  .map
    [("Version", .int u.version), ("Source", .text u.source), ("TabWidth", .int u.tabWidth),
      ("Disabled", .array (u.disabled.map .text)), ("Names", .array (u.names.map .text))]

/-- The keys of an encoded unit, in their order. -/
def keys : List Text := ["Names", "Source", "Version", "Disabled", "TabWidth"]

/-- The encoding is the canonical form of the unit. -/
theorem canonical_encode {u : CompilationUnit} (hu : u.Fits) : Cbor.Canonical u.item u.encode := by
  have hkeys : List.Forall₂ Cbor.CanonicalText keys (keys.map Cbor.text) := by
    rw [List.forall₂_map_right_iff, List.forall₂_same]
    intro key hkey
    have hshort : ∀ key ∈ keys, key.length < 2 ^ 64 := by decide
    exact Cbor.canonicalText (hshort key hkey)
  have hsorted : keys.Pairwise Cbor.keyBefore := by
    unfold Cbor.keyBefore
    decide
  have hitems : List.Forall₂ Cbor.Canonical
      [.array (u.names.map .text), .text u.source, .int u.version, .array (u.disabled.map .text), .int u.tabWidth]
      [Cbor.array (u.names.map Cbor.text), Cbor.text u.source, Cbor.int u.version,
        Cbor.array (u.disabled.map Cbor.text), Cbor.int u.tabWidth] :=
    .cons (Cbor.canonical_texts hu.names) <| .cons (.text (Cbor.canonicalText hu.source)) <|
      .cons (Cbor.canonical_int hu.version) <| .cons (Cbor.canonical_texts hu.disabled) <|
      .cons (Cbor.canonical_int hu.tabWidth) .nil
  have hperm : ∀ a b c d e : Text × Cbor.Item, [a, b, c, d, e].Perm [c, b, e, d, a] := by
    intro a b c d e
    classical
    simp only [List.perm_iff_count, List.count_cons, List.count_nil]
    omega
  refine Cbor.Canonical.map ?_ ?_ hkeys hsorted hitems
  · exact Cbor.shortest_head 5 (show 5 < 2 ^ 64 by decide)
  · exact hperm ..

/-! ## The encoding of requests -/

/-- Every length and number of the request is below `2 ^ 64`. -/
structure Addressable (source : Text) (tabWidth : Int) (rules : List Rule) : Prop where
  source : Cbor.FitsText source
  tabWidth : tabWidth < 2 ^ 64
  disabled : Cbor.FitsAll Cbor.FitsText (rules.filterMap disabledName?)
  names : Cbor.FitsAll Cbor.FitsText (rules.flatMap Rule.names)

instance (source : Text) (tabWidth : Int) (rules : List Rule) : Decidable (Addressable source tabWidth rules) :=
  decidable_of_iff (Cbor.FitsText source ∧ tabWidth < 2 ^ 64 ∧
      Cbor.FitsAll Cbor.FitsText (rules.filterMap disabledName?) ∧
      Cbor.FitsAll Cbor.FitsText (rules.flatMap Rule.names))
    ⟨fun ⟨h₁, h₂, h₃, h₄⟩ => ⟨h₁, h₂, h₃, h₄⟩, fun ⟨h₁, h₂, h₃, h₄⟩ => ⟨h₁, h₂, h₃, h₄⟩⟩

theorem fitsAll_normal {fits : Text → Prop} {ts : List Text} (h : Cbor.FitsAll fits ts) :
    Cbor.FitsAll fits (normal ts) := by
  have hlength : (normal ts).length ≤ ts.length := by
    simpa [normal, Text.sorted] using Text.length_distinct_le ts
  refine ⟨Nat.lt_of_le_of_lt hlength h.1, fun t ht => h.2 t ?_⟩
  simpa [normal, Text.sorted] using ht

theorem Addressable.fits {source : Text} {tabWidth : Int} {rules : List Rule}
    (h : Addressable source tabWidth rules) : (ofRequest source tabWidth rules).Fits := by
  have hversion : Cbor.FitsInt 1 := by decide
  refine ⟨hversion, h.source, ?_, fitsAll_normal h.disabled, fitsAll_normal h.names⟩
  have hwidth := h.tabWidth
  change Cbor.FitsInt (if 0 < tabWidth then tabWidth else 4)
  split
  · exact ⟨by omega, hwidth⟩
  · decide

/-- Requests are told apart by their encodings, as far as they ask for something else. -/
theorem encode_ofRequest_iff {s₁ s₂ : Text} {t₁ t₂ : Int} {r₁ r₂ : List Rule} (h₁ : Addressable s₁ t₁ r₁)
    (h₂ : Addressable s₂ t₂ r₂) :
    (ofRequest s₁ t₁ r₁).encode = (ofRequest s₂ t₂ r₂).encode ↔
      s₁ = s₂ ∧ Scanner.effectiveTabWidth (some t₁) = Scanner.effectiveTabWidth (some t₂) ∧ Alike r₁ r₂ := by
  rw [← ofRequest_eq_iff]
  constructor
  · intro h
    exact encode_inj h₁.fits h₂.fits h
  · intro h
    rw [h]

/-- The encoding of a request is canonical CBOR of the five fields, and it is a complete and unambiguous key:
two requests have one encoding just when their sources are equal, their widths of tabs are, one that is not
positive being 4, and their rules turn off and forbid the same. -/
theorem encode_eq_iff {s₁ s₂ : Text} {t₁ t₂ : Int} {r₁ r₂ : List Rule} (h₁ : Addressable s₁ t₁ r₁)
    (h₂ : Addressable s₂ t₂ r₂) :
    Cbor.Canonical (ofRequest s₁ t₁ r₁).item (ofRequest s₁ t₁ r₁).encode ∧
      ((ofRequest s₁ t₁ r₁).encode = (ofRequest s₂ t₂ r₂).encode ↔
        s₁ = s₂ ∧ (if 0 < t₁ then t₁ else 4) = (if 0 < t₂ then t₂ else 4) ∧
          (∀ p, turnsOff r₁ p = turnsOff r₂ p) ∧ ∀ n, RuleSet.blacklisted r₁ n = RuleSet.blacklisted r₂ n) := by
  refine ⟨canonical_encode h₁.fits, ?_⟩
  rw [encode_ofRequest_iff h₁ h₂, turnsOff_alike_iff]
  constructor
  · rintro ⟨hsource, hwidth, hrules⟩
    exact ⟨hsource, hwidth, hrules.disabled, hrules.blacklisted⟩
  · rintro ⟨hsource, hwidth, hdisabled, hblacklisted⟩
    exact ⟨hsource, hwidth, hdisabled, hblacklisted⟩

/-- Rules in another order and with a name repeated, and a width that stands for the usual one. -/
theorem encode_eq_iff_reordered :
    let r₁ : List Rule := [.disable .ifStatement, .blacklist ["b", "a"]]
    let r₂ : List Rule := [.blacklist ["a"], .blacklist ["b", "a"], .disable .ifStatement]
    Addressable "x" 0 r₁ ∧ Addressable "x" 4 r₂ ∧ (ofRequest "x" 0 r₁).encode = (ofRequest "x" 4 r₂).encode := by
  intro r₁ r₂
  have h₁ : Addressable "x" 0 r₁ := by decide +kernel
  have h₂ : Addressable "x" 4 r₂ := by decide +kernel
  refine ⟨h₁, h₂, (encode_eq_iff h₁ h₂).2.2 ⟨rfl, rfl, ?_, ?_⟩⟩
  · rw [turnsOff_alike_iff]
    intro c
    cases c <;> rfl
  · intro n
    grind [RuleSet.blacklisted, Rule.names]

end CompilationUnit

end Offside
