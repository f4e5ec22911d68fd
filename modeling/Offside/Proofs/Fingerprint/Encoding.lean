import Mathlib.Algebra.Group.Int.Defs
import Mathlib.Algebra.Group.Nat.Defs
import Mathlib.Data.List.Forall2
import Offside.Fingerprint.Cbor

/-!
# Canonical CBOR

The format allows several heads for one argument, and any order for the entries of a map. Its canonical form
takes the shortest head and orders the keys (`Canonical`). Every item tells where it ends, so that items
written one behind the other can be told apart (`Delimited`): a head by its first byte, and a text or an array
by its head.
-/

namespace Offside.Cbor

/-! ## The bytes of a number -/

@[simp] theorem length_bigEndian (n x : Nat) : (bigEndian n x).length = n := by
  induction n generalizing x with
  | zero => rfl
  | succ n ih => simp [bigEndian, ih]

/-- Numbers below `256 ^ n` are told apart by `n` bytes. -/
theorem bigEndian_inj {n x y : Nat} (hx : x < 256 ^ n) (hy : y < 256 ^ n) (h : bigEndian n x = bigEndian n y) :
    x = y := by
  induction n generalizing x y with
  | zero => omega
  | succ n ih =>
    obtain ⟨hhigh, hlow⟩ := List.append_inj h (by simp)
    rw [Nat.pow_succ] at hx hy
    have hdiv : x / 256 = y / 256 := ih (by omega) (by omega) hhigh
    have hmod : x % 256 = y % 256 := by
      have hbyte := congrArg UInt8.toNat (List.singleton_inj.1 hlow)
      simp only [UInt8.toNat_ofNat'] at hbyte
      omega
    omega

/-! ## Heads -/

theorem initial_inj {m m' : UInt8} {low low' : Nat} (hm : m < 8) (hm' : m' < 8) (hl : low < 32) (hl' : low' < 32)
    (h : initial m low = initial m' low') : m = m' ∧ low = low' := by
  have hbyte : ∀ {k : UInt8} {l : Nat}, k < 8 → l < 32 → (initial k l).toNat = 32 * k.toNat + l := by
    intro k l hk hl
    have hk : k.toNat < 8 := hk
    simp only [initial, UInt8.toNat_add, UInt8.toNat_mul, UInt8.toNat_ofNat', UInt8.reduceToNat]
    omega
  have h := congrArg UInt8.toNat h
  rw [hbyte hm hl, hbyte hm' hl'] at h
  exact ⟨UInt8.toNat_inj.1 (by omega), by omega⟩

/-- The heads that the format allows for an argument: a small one in the first byte, or any one in as many
of 1, 2, 4 or 8 bytes as hold it. -/
inductive Head (major : UInt8) (argument : Nat) : Text → Prop
  | immediate (h : argument < 24) : Head major argument [initial major argument]
  | bytes {k : Nat} (hk : k < 4) (h : argument < 256 ^ 2 ^ k) :
      Head major argument (initial major (24 + k) :: bigEndian (2 ^ k) argument)

/-- A head is told apart from every other one by its own bytes. -/
theorem Head.append_inj {m m' : UInt8} {a a' : Nat} {t t' x y : Text} (ht : Head m a t) (ht' : Head m' a' t')
    (hm : m < 8) (hm' : m' < 8) (h : t ++ x = t' ++ y) : m = m' ∧ a = a' ∧ x = y := by
  cases ht with
  | immediate ha =>
    cases ht' with
    | immediate ha' =>
      obtain ⟨hfirst, hrest⟩ := List.cons.inj h
      obtain ⟨rfl, rfl⟩ := initial_inj hm hm' (by omega) (by omega) hfirst
      exact ⟨rfl, rfl, hrest⟩
    | bytes hk' _ =>
      have hlow := (initial_inj hm hm' (by omega) (by omega) (List.cons.inj h).1).2
      omega
  | bytes hk ha =>
    cases ht' with
    | immediate ha' =>
      have hlow := (initial_inj hm hm' (by omega) (by omega) (List.cons.inj h).1).2
      omega
    | bytes hk' ha' =>
      obtain ⟨hfirst, hrest⟩ := List.cons.inj h
      obtain ⟨rfl, hlow⟩ := initial_inj hm hm' (by omega) (by omega) hfirst
      obtain rfl : _ = _ := Nat.add_left_cancel hlow
      obtain ⟨hbytes, hrest⟩ := List.append_inj hrest (by simp)
      exact ⟨rfl, bigEndian_inj ha ha' hbytes, hrest⟩

/-- The shortest of the heads that the format allows. -/
def ShortestHead (major : UInt8) (argument : Nat) (t : Text) : Prop :=
  Head major argument t ∧ ∀ t', Head major argument t' → t.length ≤ t'.length

theorem Head.length_pos {m : UInt8} {a : Nat} {t : Text} (h : Head m a t) : 0 < t.length := by
  cases h <;> simp

/-- A head with the argument in `2 ^ k` bytes is the shortest if half as many do not hold it. -/
theorem shortest_bytes {m : UInt8} {a k : Nat} (hk : k < 4) (ha : a < 256 ^ 2 ^ k) (hmin : 24 ≤ a)
    (hhalf : 0 < k → 256 ^ 2 ^ (k - 1) ≤ a) : ShortestHead m a (initial m (24 + k) :: bigEndian (2 ^ k) a) := by
  refine ⟨.bytes hk ha, fun t' ht' => ?_⟩
  cases ht' with
  | immediate h => omega
  | @bytes j _ hj =>
    have hle : k ≤ j := by
      refine Nat.le_of_not_lt fun hlt => ?_
      have hexp : 2 ^ j ≤ 2 ^ (k - 1) := Nat.pow_le_pow_right (by omega) (by omega)
      have hpow : 256 ^ 2 ^ j ≤ 256 ^ 2 ^ (k - 1) := Nat.pow_le_pow_right (by omega) hexp
      have := hhalf (by omega)
      omega
    simpa using Nat.pow_le_pow_right (by omega) hle

/-- The head of an argument below `2 ^ 64` is the shortest one. -/
theorem shortest_head (m : UInt8) {a : Nat} (ha : a < 2 ^ 64) : ShortestHead m a (head m a) := by
  unfold head
  split
  · next h => exact ⟨.immediate h, fun t' ht' => ht'.length_pos⟩
  · next h₀ =>
    split
    · next h => exact shortest_bytes (k := 0) (by omega) h (by omega) (by omega)
    · next h₁ =>
      split
      · next h => exact shortest_bytes (k := 1) (by omega) h (by omega) fun _ => by simpa using h₁
      · next h₂ =>
        split
        · next h => exact shortest_bytes (k := 2) (by omega) h (by omega) fun _ => by simpa using h₂
        · next h₃ => exact shortest_bytes (k := 3) (by omega) ha (by omega) fun _ => by simpa using h₃

theorem head_append_inj {m m' : UInt8} {a a' : Nat} {x y : Text} (hm : m < 8) (hm' : m' < 8) (ha : a < 2 ^ 64)
    (ha' : a' < 2 ^ 64) (h : head m a ++ x = head m' a' ++ y) : m = m' ∧ a = a' ∧ x = y :=
  (shortest_head m ha).1.append_inj (shortest_head m' ha').1 hm hm' h

/-! ## Items one behind the other -/

/-- Values that fit are told apart by what is written for them, whatever stands behind it. -/
def Delimited {α : Type} (fits : α → Prop) (write : α → Text) : Prop :=
  ∀ ⦃a b : α⦄ ⦃x y : Text⦄, fits a → fits b → write a ++ x = write b ++ y → a = b ∧ x = y

/-- Lists whose length and members fit. -/
def FitsAll {α : Type} (fits : α → Prop) (as : List α) : Prop := as.length < 2 ^ 64 ∧ ∀ a ∈ as, fits a

/-- A text that is not too long for a head. -/
def FitsText (t : Text) : Prop := t.length < 2 ^ 64

/-- An integer that is not too large for a head. -/
def FitsInt (n : Int) : Prop := -2 ^ 64 ≤ n ∧ n < 2 ^ 64

instance (t : Text) : Decidable (FitsText t) := inferInstanceAs (Decidable (_ < _))

instance (n : Int) : Decidable (FitsInt n) := inferInstanceAs (Decidable (_ ∧ _))

instance {α : Type} {fits : α → Prop} [DecidablePred fits] (as : List α) : Decidable (FitsAll fits as) :=
  inferInstanceAs (Decidable (_ ∧ _))

theorem FitsInt.int_eq {n : Int} (hn : FitsInt n) :
    ∃ (m : UInt8) (a : Nat), int n = head m a ∧ a < 2 ^ 64 ∧ (m = 0 ∧ n = a ∨ m = 1 ∧ n = -1 - a) := by
  obtain ⟨hlow, hhigh⟩ := hn
  cases n with
  | ofNat a =>
    rw [Int.ofNat_eq_natCast] at hhigh
    exact ⟨0, a, rfl, by omega, .inl ⟨rfl, rfl⟩⟩
  | negSucc a => exact ⟨1, a, rfl, by omega, .inr ⟨rfl, by omega⟩⟩

theorem delimited_int : Delimited FitsInt int := by
  intro n n' x y hn hn' h
  obtain ⟨m, a, he, ha, hvalue⟩ := hn.int_eq
  obtain ⟨m', a', he', ha', hvalue'⟩ := hn'.int_eq
  have hm : ∀ {k : UInt8} {z w : Int}, k = 0 ∧ z = w ∨ k = 1 ∧ z = -1 - w → k < 8 := by
    rintro k z w (⟨rfl, -⟩ | ⟨rfl, -⟩) <;> decide
  rw [he, he'] at h
  obtain ⟨rfl, rfl, hrest⟩ := head_append_inj (hm hvalue) (hm hvalue') ha ha' h
  refine ⟨?_, hrest⟩
  rcases hvalue with ⟨rfl, rfl⟩ | ⟨rfl, rfl⟩ <;> simp_all

theorem delimited_text : Delimited FitsText text := by
  intro t t' x y ht ht' h
  simp only [text, List.append_assoc] at h
  obtain ⟨-, hlength, hrest⟩ := head_append_inj (by decide) (by decide) ht ht' h
  exact List.append_inj hrest hlength

/-- As many items as are known to come are told apart one by one. -/
theorem Delimited.flatten {α : Type} {fits : α → Prop} {write : α → Text} (hd : Delimited fits write)
    {as bs : List α} {x y : Text} (hlength : as.length = bs.length) (ha : ∀ a ∈ as, fits a) (hb : ∀ b ∈ bs, fits b)
    (h : (as.map write).flatten ++ x = (bs.map write).flatten ++ y) : as = bs ∧ x = y := by
  induction as generalizing bs with
  | nil =>
    cases bs with
    | nil => exact ⟨rfl, h⟩
    | cons b bs => cases hlength
  | cons a as ih =>
    cases bs with
    | nil => cases hlength
    | cons b bs =>
      simp only [List.map_cons, List.flatten_cons, List.append_assoc] at h
      obtain ⟨hfirst, hmore⟩ := hd (ha a (by simp)) (hb b (by simp)) h
      obtain ⟨hothers, hrest⟩ := ih (Nat.succ.inj hlength) (fun a h => ha a (by simp [h]))
        (fun b h => hb b (by simp [h])) hmore
      exact ⟨by rw [hfirst, hothers], hrest⟩

theorem Delimited.array {α : Type} {fits : α → Prop} {write : α → Text} (hd : Delimited fits write) :
    Delimited (FitsAll fits) fun as => array (as.map write) := by
  intro as bs x y ha hb h
  simp only [Cbor.array, List.length_map, List.append_assoc] at h
  obtain ⟨-, hlength, hrest⟩ := head_append_inj (by decide) (by decide) ha.1 hb.1 h
  exact hd.flatten hlength ha.2 hb.2 hrest

/-! ## The canonical form -/

/-- A data item. -/
inductive Item where
  | int (n : Int)
  | text (t : Text)
  | array (items : List Item)
  /-- A map from keys to items. The order of its entries has no meaning. -/
  | map (entries : List (Text × Item))

/-- The order of keys: a shorter one comes first, and of two of one length the lesser one. -/
def keyBefore (a b : Text) : Prop := a.length < b.length ∨ a.length = b.length ∧ a < b

/-- The canonical form of a text. -/
def CanonicalText (t written : Text) : Prop := ∃ h, ShortestHead 3 t.length h ∧ written = h ++ t

/-- The canonical form of an item: every head is the shortest one, and a map has its keys in order. -/
inductive Canonical : Item → Text → Prop
  | natural {n : Nat} {h : Text} (hh : ShortestHead 0 n h) : Canonical (.int n) h
  | negative {n : Nat} {h : Text} (hh : ShortestHead 1 n h) : Canonical (.int (-1 - n)) h
  | text {t written : Text} (ht : CanonicalText t written) : Canonical (.text t) written
  | array {items : List Item} {written : List Text} {h : Text} (hh : ShortestHead 4 items.length h)
      (hitems : List.Forall₂ Canonical items written) : Canonical (.array items) (h ++ written.flatten)
  | map {entries : List (Text × Item)} {keys : List Text} {items : List Item} {keysWritten itemsWritten : List Text}
      {h : Text} (hh : ShortestHead 5 entries.length h) (hperm : (keys.zip items).Perm entries)
      (hkeys : List.Forall₂ CanonicalText keys keysWritten) (hsorted : keys.Pairwise keyBefore)
      (hitems : List.Forall₂ Canonical items itemsWritten) :
      Canonical (.map entries) (h ++ (List.zipWith (· ++ ·) keysWritten itemsWritten).flatten)

theorem canonicalText {t : Text} (ht : FitsText t) : CanonicalText t (text t) := ⟨_, shortest_head 3 ht, rfl⟩

theorem canonical_int {n : Int} (hn : FitsInt n) : Canonical (.int n) (int n) := by
  obtain ⟨m, a, he, ha, ⟨rfl, rfl⟩ | ⟨rfl, rfl⟩⟩ := hn.int_eq
  · exact he ▸ .natural (shortest_head 0 ha)
  · exact he ▸ .negative (shortest_head 1 ha)

theorem canonical_texts {ts : List Text} (ht : FitsAll FitsText ts) :
    Canonical (.array (ts.map .text)) (array (ts.map text)) := by
  have hlength : (ts.map text).length = (ts.map Item.text).length := by simp
  rw [array, hlength]
  refine .array (shortest_head 4 (by simpa using ht.1)) ?_
  rw [List.forall₂_map_left_iff, List.forall₂_map_right_iff, List.forall₂_same]
  exact fun t h => .text (canonicalText (ht.2 t h))

end Offside.Cbor
