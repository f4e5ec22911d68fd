import Offside.Text.Basic

/-!
# Texts

The digits of a number give the number back, so that numbers are told apart by their texts. The order of
texts is the lexicographic one, and a list of texts can be brought into it with each text once. The pieces of a
text between occurrences of a byte are told apart by how many of these stand in front of them.
-/

namespace Offside.Text

/-! ## Numbers in decimal digits -/

theorem toNat_of_isDigit {c : Char} (h : c.isDigit = true) : 48 ≤ c.toNat ∧ c.toNat ≤ 57 := by
  simp only [Char.isDigit, Bool.and_eq_true, decide_eq_true_eq] at h
  exact ⟨h.1, h.2⟩

theorem toNat_toUInt8 {c : Char} (h : c.isDigit = true) : c.toUInt8.toNat = c.toNat := by
  have hc := toNat_of_isDigit h
  change c.val.toUInt8.toNat = c.toNat
  rw [UInt32.toNat_toUInt8]
  exact Nat.mod_eq_of_lt (Nat.lt_of_le_of_lt hc.2 (by decide))

theorem isDigit_ofNat {n : Nat} {b : UInt8} (hb : b ∈ ofNat n) : isDigit b = true := by
  obtain ⟨c, hc, rfl⟩ := List.mem_map.1 hb
  have hc := Nat.isDigit_of_mem_toDigits (by omega) (by omega) hc
  have hrange := toNat_of_isDigit hc
  have hbyte := toNat_toUInt8 hc
  simp only [isDigit, Bool.and_eq_true, decide_eq_true_eq, UInt8.le_iff_toNat_le, UInt8.reduceToNat]
  omega

/-- The digits of a number have its value. -/
theorem digitsValue_ofNat (n : Nat) : digitsValue (ofNat n) = n := by
  have hfold : ∀ (cs : List Char) (k : Nat), (∀ c ∈ cs, c.isDigit = true) →
      (cs.map Char.toUInt8).foldl (fun n b => 10 * n + (b.toNat - 48)) k = Nat.ofDigitChars 10 cs k := by
    intro cs
    induction cs with
    | nil => simp
    | cons c cs ih =>
      intro k hcs
      rw [List.map_cons, List.foldl_cons, Nat.ofDigitChars_cons, ih _ fun c hc => hcs c (by simp [hc]),
        toNat_toUInt8 (hcs c (by simp))]
      rfl
  rw [digitsValue, ofNat, hfold _ _ fun c hc => Nat.isDigit_of_mem_toDigits (by omega) (by omega) hc,
    Nat.ofDigitChars_ten_toDigits]

theorem ofNat_inj {m n : Nat} (h : ofNat m = ofNat n) : m = n := by
  rw [← digitsValue_ofNat m, h, digitsValue_ofNat]

/-- Numbers are told apart by their texts: only that of a negative one begins with a sign. -/
theorem ofInt_inj {m n : Int} (h : ofInt m = ofInt n) : m = n := by
  have hsign : ∀ {k : Nat} {t : Text}, ofNat k ≠ 45 :: t := by
    intro k t hk
    exact absurd (isDigit_ofNat (b := 45) (hk ▸ List.mem_cons_self)) (by decide)
  cases m with
  | ofNat k =>
    cases n with
    | ofNat l => rw [ofNat_inj h]
    | negSucc l => exact absurd h hsign
  | negSucc k =>
    cases n with
    | ofNat l => exact absurd h.symm hsign
    | negSucc l =>
      have hdigits := ofNat_inj (List.cons.inj h).2
      rw [Nat.succ.inj hdigits]

/-! ## Texts in order, each once -/

theorem le_iff {s t : Text} : le s t = true ↔ s ≤ t := by
  induction s generalizing t with
  | nil => simp [le]
  | cons a s ih =>
    cases t with
    | nil => simp [le]
    | cons b t => simp [le, List.cons_le_cons_iff, ih]

theorem pairwise_sorted (ts : List Text) : (sorted ts).Pairwise (· ≤ ·) := by
  have htrans : ∀ a b c : Text, le a b = true → le b c = true → le a c = true := by
    intro a b c hab hbc
    exact le_iff.2 (List.le_trans (le_iff.1 hab) (le_iff.1 hbc))
  have htotal : ∀ a b : Text, (le a b || le b a) = true := by
    intro a b
    rcases List.le_total a b with h | h
    · simp [le_iff.2 h]
    · simp [le_iff.2 h]
  exact (List.pairwise_mergeSort htrans htotal ts).imp le_iff.1

@[simp] theorem mem_distinct {t : Text} {ts : List Text} : t ∈ distinct ts ↔ t ∈ ts := by
  induction ts with
  | nil => rfl
  | cons u ts ih =>
    by_cases h : t = u
    · simp [distinct, h]
    · simp [distinct, h, ih]

theorem nodup_distinct (ts : List Text) : (distinct ts).Nodup := by
  induction ts with
  | nil => exact .nil
  | cons t ts ih =>
    rw [distinct, List.nodup_cons]
    exact ⟨by simp, ih.filter _⟩

theorem length_distinct_le (ts : List Text) : (distinct ts).length ≤ ts.length := by
  induction ts with
  | nil => simp [distinct]
  | cons t ts ih =>
    have hfilter := List.length_filter_le (· ≠ t) (distinct ts)
    simp only [distinct, List.length_cons]
    omega

/-- Lists with the same members become one list when each text is taken once and in order. -/
theorem sorted_distinct_eq_iff {ts us : List Text} :
    sorted (distinct ts) = sorted (distinct us) ↔ ∀ t, t ∈ ts ↔ t ∈ us := by
  have hmem : ∀ (t : Text) (ts : List Text), t ∈ sorted (distinct ts) ↔ t ∈ ts := by simp [sorted]
  have hnodup : ∀ ts : List Text, (sorted (distinct ts)).Nodup := by
    intro ts
    exact (List.mergeSort_perm _ _).nodup_iff.2 (nodup_distinct ts)
  constructor
  · intro h t
    rw [← hmem t ts, h, hmem]
  · intro h
    have hperm : (sorted (distinct ts)).Perm (sorted (distinct us)) := by
      rw [List.perm_ext_iff_of_nodup (hnodup ts) (hnodup us)]
      intro t
      rw [hmem, hmem, h]
    exact hperm.eq_of_pairwise (fun _ _ _ _ => List.le_antisymm) (pairwise_sorted _) (pairwise_sorted _)

/-! ## Pieces between occurrences of a byte -/

section
variable {b : UInt8} {s piece : Text} {k : Nat}

theorem split_eq (b : UInt8) (s : Text) : split b s = s.splitOnP (· == b) := by
  induction s with
  | nil => rfl
  | cons c s ih =>
    rw [List.splitOnP_cons_eq_if_modifyHead, split, ih]
    by_cases hc : c = b
    · simp [hc]
    · cases hs : s.splitOnP (· == b) with
      | nil => exact absurd hs (List.splitOnP_ne_nil _ _)
      | cons p ps => simp [hc]

/-- `piece` stands between `u` and `v`. It is bounded by the byte, and `k` occurrences are in front of it. -/
structure IsPiece (b : UInt8) (s : Text) (k : Nat) (u piece v : Text) : Prop where
  parts : s = u ++ (piece ++ v)
  number : u.count b = k
  starts : ∀ c ∈ u.getLast?, c = b
  inside : b ∉ piece
  ends : ∀ c ∈ v.head?, c = b

theorem split_of_not_mem (h : b ∉ s) : split b s = [s] := by
  rw [split_eq]
  refine List.splitOnP_eq_singleton fun c hc => ?_
  simpa using ne_of_mem_of_not_mem hc h

theorem split_first (h : b ∉ piece) (s : Text) : split b (piece ++ b :: s) = piece :: split b s := by
  rw [split_eq, split_eq]
  refine List.splitOnP_append_cons_of_forall_mem (fun c hc => ?_) b (by simp) s
  simpa using ne_of_mem_of_not_mem hc h

theorem count_first (h : b ∉ piece) (s : Text) : (piece ++ b :: s).count b = s.count b + 1 := by
  rw [List.count_append, List.count_eq_zero_of_not_mem h, List.count_cons_self, Nat.zero_add]

/-- A text with the byte in it ends with it just when what stands behind it does, or is empty. -/
theorem getLast?_first (u s : Text) : (∀ c ∈ (u ++ b :: s).getLast?, c = b) ↔ ∀ c ∈ s.getLast?, c = b := by
  cases s with
  | nil => simp
  | cons c s => simp

/-- The pieces of a text are numbered by the occurrences of the byte in front of them. -/
theorem getElem?_split : (split b s)[k]? = some piece ↔ ∃ u v, IsPiece b s k u piece v := by
  induction k generalizing s with
  | zero =>
    constructor
    · intro h
      by_cases hb : b ∈ s
      · obtain ⟨x, y, rfl, hx⟩ := List.eq_append_cons_of_mem hb
        rw [split_first hx] at h
        cases h
        exact ⟨[], b :: y, rfl, rfl, by simp, hx, by simp⟩
      · rw [split_of_not_mem hb] at h
        cases h
        exact ⟨[], [], by simp, rfl, by simp, hb, by simp⟩
    · rintro ⟨u, v, rfl, hcount, hstarts, hinside, hends⟩
      have hu : u = [] := by
        rcases List.eq_nil_or_concat u with rfl | ⟨u, c, rfl⟩
        · rfl
        · obtain rfl : c = b := hstarts c (by simp)
          simp at hcount
      subst hu
      cases v with
      | nil => simp [split_of_not_mem hinside]
      | cons c v =>
        obtain rfl : c = b := hends c rfl
        simp [split_first hinside]
  | succ k ih =>
    constructor
    · intro h
      by_cases hb : b ∈ s
      · obtain ⟨x, y, rfl, hx⟩ := List.eq_append_cons_of_mem hb
        rw [split_first hx, List.getElem?_cons_succ] at h
        obtain ⟨u, v, rfl, hcount, hstarts, hinside, hends⟩ := ih.1 h
        exact ⟨x ++ b :: u, v, by simp, by rw [count_first hx, hcount], (getLast?_first x u).2 hstarts, hinside, hends⟩
      · simp [split_of_not_mem hb] at h
    · rintro ⟨u, v, rfl, hcount, hstarts, hinside, hends⟩
      obtain ⟨x, y, rfl, hx⟩ := List.eq_append_cons_of_mem (List.count_pos_iff.1 (by omega : 0 < u.count b))
      rw [List.append_assoc, List.cons_append, split_first hx, List.getElem?_cons_succ]
      rw [count_first hx] at hcount
      exact ih.2 ⟨y, v, rfl, Nat.succ.inj hcount, (getLast?_first x y).1 hstarts, hinside, hends⟩

/-- What is taken satisfies the condition, and the first byte behind it does not. -/
theorem takeWhile_spec (p : UInt8 → Bool) (s : Text) :
    (∀ c ∈ s.takeWhile p, p c = true) ∧ ∀ c ∈ (s.dropWhile p).head?, p c = false := by
  refine ⟨fun c hc => List.all_eq_true.1 List.all_takeWhile c hc, fun c hc => ?_⟩
  have hhead := List.head?_dropWhile_not p s
  rw [hc] at hhead
  exact hhead

/-- What is dropped from the end satisfies the condition, and the last byte that is left does not. -/
theorem dropEndWhile_spec (p : UInt8 → Bool) (s : Text) : ∃ t, s = dropEndWhile p s ++ t ∧ (∀ c ∈ t, p c = true) ∧
    ∀ c ∈ (dropEndWhile p s).getLast?, p c = false := by
  obtain ⟨htaken, hleft⟩ := takeWhile_spec p s.reverse
  refine ⟨(s.reverse.takeWhile p).reverse, ?_, fun c hc => htaken c (List.mem_reverse.1 hc), ?_⟩
  · rw [dropEndWhile, ← List.reverse_append, List.takeWhile_append_dropWhile, List.reverse_reverse]
  · rw [dropEndWhile, List.getLast?_reverse]
    exact hleft

/-- The texts before the first occurrence of a byte are told apart by what they begin. -/
theorem eq_of_append_cons {t u v : Text} (hs : b ∉ s) (ht : b ∉ t) (h : s ++ b :: u = t ++ b :: v) : s = t := by
  have hsplit := congrArg (split b) h
  rw [split_first hs, split_first ht] at hsplit
  exact (List.cons.inj hsplit).1

end

end Offside.Text
