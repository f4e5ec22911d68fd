import Mathlib.Data.List.Basic
import Offside.Proofs.Resolution
import Offside.Proofs.Parser.Reader
import Offside.Proofs.Text

/-!
# The symbol table

In memory a scope is a map from names to references, and beside it a list of the names in the order of their first
declaration (`Register`). The two are written one after the other. A frame shows both as one list, and declaring
names does to the frame what it does to them (`Frame.register_of_push_ok`). A symbol table is grown from one region by
adding regions and declaring names (`Grown`). Main statement: what the regions of such a table hold, list and show,
whatever the calls were (`grown_scopes`).
-/

namespace Offside

/-! ## Texts that are taken once -/

namespace Text

theorem distinct_append (ts us : List Text) :
    distinct (ts ++ us) = distinct ts ++ (distinct us).filter (· ∉ ts) := by
  induction ts with
  | nil => exact (List.filter_eq_self.2 fun _ _ => by simp).symm
  | cons t ts ih =>
    have hnew : ∀ u : Text, (decide (u ≠ t) && decide (u ∉ ts)) = decide (u ∉ t :: ts) := by simp
    simp only [List.cons_append, distinct, ih, List.filter_append, List.filter_filter, hnew]

theorem distinct_of_nodup {ts : List Text} (h : ts.Nodup) : distinct ts = ts := by
  induction ts with
  | nil => rfl
  | cons t ts ih =>
    obtain ⟨ht, hts⟩ := List.nodup_cons.1 h
    rw [distinct, ih hts, List.filter_eq_self.2]
    intro u hu
    simp only [ne_eq, decide_not, Bool.not_eq_eq_eq_not, Bool.not_true, decide_eq_false_iff_not]
    rintro rfl
    exact ht hu

/-- One more text is taken unless it has been taken already. -/
theorem distinct_concat (ts : List Text) (t : Text) :
    distinct (ts ++ [t]) = if t ∈ ts then distinct ts else distinct ts ++ [t] := by
  rw [distinct_append]
  by_cases h : t ∈ ts <;> simp [distinct, h]

end Text

/-! ## A scope in memory -/

/-- A scope in memory: the reference of each name that it holds, and the names in the order in which they were
declared first. -/
structure Register where
  refs : Text → Option Reference
  order : List Text

namespace Register

/-- Enters a reference in the map, and its name in the list unless the map holds it already. -/
def enter (m : Register) (r : Reference) : Register :=
  { refs := fun x => if x = r.name then some r else m.refs x
    order := if (m.refs r.name).isSome then m.order else m.order ++ [r.name] }

/-- Fails on the first name that a rule forbids. -/
def check (rules : RuleSet) : List Reference → EStateM Diagnostic Register Unit
  | [] => pure ()
  | r :: refs => if rules.blacklisted r.name then throw (Frame.blacklisted r.name) else check rules refs

/-- Enters references one after the other. -/
def enterAll : List Reference → EStateM Diagnostic Register Unit
  | [] => pure ()
  | r :: refs => do
    modify (·.enter r)
    enterAll refs

/-- Declares references: all their names are checked before the first is entered. -/
def push (rules : RuleSet) (refs : List Reference) : EStateM Diagnostic Register Unit := do
  check rules refs
  enterAll refs

/-- What is left of the scope behind a push, whether or not the push fails. -/
def pushed (rules : RuleSet) (m : Register) (refs : List Reference) : Register :=
  match push rules refs m with
  | .ok _ m' => m'
  | .error _ m' => m'

/-- The references in the order of the list. -/
def locals (m : Register) : List Reference := m.order.filterMap m.refs

/-- The last of the references that have the name. -/
def latest (refs : List Reference) (x : Text) : Option Reference := refs.reverse.find? (·.name == x)

/-- The register holds the references, declared one after the other: each name is listed where it was declared
first, and stands for the reference that was declared last. -/
structure Records (m : Register) (refs : List Reference) : Prop where
  order : m.order = Text.distinct (refs.map (·.name))
  refs : ∀ x, m.refs x = latest refs x

section
variable {m : Register} {refs : List Reference}

theorem isSome_latest {x : Text} : (latest refs x).isSome = true ↔ x ∈ refs.map (·.name) := by
  simp [latest]

theorem Records.isSome (h : m.Records refs) {x : Text} : (m.refs x).isSome = true ↔ x ∈ refs.map (·.name) := by
  rw [h.refs, isSome_latest]

theorem Records.mem_order (h : m.Records refs) {x : Text} : x ∈ m.order ↔ (m.refs x).isSome = true := by
  rw [h.order, Text.mem_distinct, h.isSome]

theorem Records.nodup (h : m.Records refs) : m.order.Nodup := h.order ▸ Text.nodup_distinct _

theorem Records.locals (h : m.Records refs) : m.locals.map some = m.order.map (latest refs) := by
  rw [Register.locals, List.map_filterMap_some_eq_filter_map_isSome, funext h.refs, List.filter_eq_self]
  intro r hr
  obtain ⟨x, hx, rfl⟩ := List.mem_map.1 hr
  rw [← h.refs]
  exact h.mem_order.1 hx

theorem Records.enter (h : m.Records refs) (r : Reference) : (m.enter r).Records (refs ++ [r]) := by
  constructor
  · simp only [Register.enter, h.isSome, h.order, List.map_append, List.map_cons, List.map_nil, Text.distinct_concat]
  · intro x
    by_cases hx : x = r.name
    · simp [Register.enter, latest, hx]
    · have hne : (r.name == x) = false := by simpa using fun h => hx h.symm
      simp [Register.enter, latest, hx, hne, h.refs]

/-- Entering references one after the other. -/
theorem Records.enterAll {rs : List Reference} (h : m.Records rs) (refs : List Reference) :
    (refs.foldl Register.enter m).Records (rs ++ refs) := by
  induction refs generalizing m rs with
  | nil => simpa using h
  | cons r refs ih => simpa using ih (h.enter r)

end

/-! ## What a push does -/

section
variable {rules : RuleSet} {m : Register} {refs : List Reference}

theorem check_of_permitted (h : ∀ r ∈ refs, rules.blacklisted r.name = false) : check rules refs m = .ok () m := by
  induction refs with
  | nil => rfl
  | cons r refs ih =>
    obtain ⟨hr, hrefs⟩ := List.forall_mem_cons.1 h
    rw [check, hr]
    exact ih hrefs

/-- A name that a rule forbids is found before anything is entered. -/
theorem check_of_forbidden {r : Reference} (h : (refs.find? fun r => rules.blacklisted r.name) = some r) :
    check rules refs m = .error (Frame.blacklisted r.name) m := by
  induction refs with
  | nil => cases h
  | cons r' refs ih =>
    rw [check]
    cases hr : rules.blacklisted r'.name with
    | true =>
      simp only [List.find?_cons, hr, Option.some.injEq] at h
      rw [h]
      rfl
    | false =>
      simp only [List.find?_cons, hr] at h
      exact ih h

theorem enterAll_eq (m : Register) (refs : List Reference) : enterAll refs m = .ok () (refs.foldl enter m) := by
  induction refs generalizing m with
  | nil => rfl
  | cons r refs ih => exact ih (m.enter r)

end

end Register

namespace Frame

/-- The frame as a scope in memory. -/
def register (f : Frame) : Register := ⟨f.find, f.names⟩

/-- Only a reference of the name is replaced. -/
theorem find_replace (f : Frame) (r : Reference) (x : Text) :
    find (f.map fun old => if old.name == r.name then r else old) x =
      if x = r.name then (f.find x).map fun _ => r else f.find x := by
  induction f with
  | nil => simp [find]
  | cons old f ih =>
    by_cases hold : old.name = r.name
    · by_cases hx : x = r.name
      · simp [find, hold, hx]
      · have hne : (r.name == x) = false := by simpa using fun h => hx h.symm
        simpa [find, hold, hx, hne] using ih
    · by_cases hx : old.name = x
      · have hne : x ≠ r.name := hx ▸ hold
        simp [find, hx, hne]
      · simpa [find, hold, hx] using ih

theorem find_insert (f : Frame) (r : Reference) (x : Text) :
    (f.insert r).find x = if x = r.name then some r else f.find x := by
  unfold insert
  split
  · next hholds =>
    rw [find_replace]
    split
    · next hx =>
      obtain ⟨old, hold⟩ := Option.isSome_iff_exists.1 hholds
      rw [hx, hold, Option.map_some]
    · rfl
  · next hholds =>
    have hnone : f.find r.name = none := by simpa [holds] using hholds
    unfold find at hnone ⊢
    rw [List.find?_append]
    split
    · next hx =>
      rw [hx, hnone]
      simp
    · next hx =>
      have hne : (r.name == x) = false := by simpa using fun h => hx h.symm
      simp [hne]

theorem names_insert (f : Frame) (r : Reference) :
    (f.insert r).names = if f.holds r.name then f.names else f.names ++ [r.name] := by
  unfold insert
  split
  · rw [names, names, List.map_map]
    refine List.map_congr_left fun old _ => ?_
    by_cases hname : old.name = r.name <;> simp [hname]
  · simp [names]

theorem register_insert (f : Frame) (r : Reference) : (f.insert r).register = f.register.enter r := by
  rw [register, funext (find_insert f r), names_insert]
  rfl

theorem register_foldl_insert (f : Frame) (refs : List Reference) :
    (refs.foldl insert f).register = refs.foldl Register.enter f.register := by
  induction refs generalizing f with
  | nil => rfl
  | cons r refs ih => rw [List.foldl_cons, List.foldl_cons, ih, register_insert]

section
variable {rules : RuleSet} {f g : Frame} {refs : List Reference} {d : Diagnostic}

theorem push_ok :
    f.push rules refs = .ok g ↔ (∀ r ∈ refs, rules.blacklisted r.name = false) ∧ g = refs.foldl insert f := by
  unfold push
  cases h : refs.find? fun r => rules.blacklisted r.name with
  | none =>
    have hnone : ∀ r ∈ refs, rules.blacklisted r.name = false := by simpa using List.find?_eq_none.1 h
    simp only [Except.ok.injEq, eq_comm (b := g), and_iff_right hnone]
  | some r =>
    have hr := List.find?_some h
    simp only [reduceCtorEq, false_iff, not_and]
    intro hall
    simp [hall r (List.mem_of_find?_eq_some h)] at hr

theorem push_error :
    (∃ d, f.push rules refs = .error d) ↔ ∃ r ∈ refs, rules.blacklisted r.name = true := by
  cases h : f.push rules refs with
  | ok g =>
    have hall := (push_ok.1 h).1
    simp only [reduceCtorEq, exists_false, false_iff]
    rintro ⟨r, hr, hforbidden⟩
    simp [hall r hr] at hforbidden
  | error d =>
    simp only [Except.error.injEq, exists_eq', true_iff]
    refine Classical.byContradiction fun hnone => ?_
    have hall : ∀ r ∈ refs, rules.blacklisted r.name = false := by simpa using hnone
    rw [push_ok.2 ⟨hall, rfl⟩] at h
    cases h

/-- Declaring names in memory gives what declaring them in the frame gives. -/
theorem register_of_push_ok (h : f.push rules refs = .ok g) :
    Register.push rules refs f.register = .ok () g.register := by
  obtain ⟨hall, rfl⟩ := push_ok.1 h
  unfold Register.push
  rw [bind_of_ok (Register.check_of_permitted hall), Register.enterAll_eq, register_foldl_insert]

/-- A failed declaration leaves the scope in memory as it was. -/
theorem register_of_push_error (h : f.push rules refs = .error d) :
    Register.push rules refs f.register = .error d f.register := by
  unfold push at h
  cases hfind : refs.find? fun r => rules.blacklisted r.name with
  | none =>
    rw [hfind] at h
    cases h
  | some r =>
    rw [hfind] at h
    cases h
    unfold Register.push
    exact bind_error.2 (.inl (Register.check_of_forbidden hfind))

end

/-- A frame that has each name once shows its references in the order of its names. -/
theorem locals_register {f : Frame} (h : f.names.Nodup) : f.register.locals = f := by
  induction f with
  | nil => rfl
  | cons r f ih =>
    obtain ⟨hr, hf⟩ := List.nodup_cons.1 h
    have hfirst : find (r :: f) r.name = some r := by simp [find]
    have hrest : (names f).filterMap (find (r :: f)) = (names f).filterMap (find f) := by
      refine List.filterMap_congr fun x hx => ?_
      have hne : (r.name == x) = false := by
        rw [beq_eq_false_iff_ne]
        rintro rfl
        exact hr hx
      simp [find, hne]
    change (r.name :: names f).filterMap (find (r :: f)) = r :: f
    rw [List.filterMap_cons, hfirst, hrest]
    exact congrArg (r :: ·) (ih hf)

end Frame

/-! ## What a place sees -/

namespace Chain

/-- How many scopes are nearer than the nearest one that holds the name. -/
def distance (c : Chain) (x : Text) : Nat := c.findIdx (·.holds x)

theorem mem_names {c : Chain} {x : Text} : x ∈ c.names ↔ c.sees x = true := by
  induction c with
  | nil => simp [names]
  | cons f c ih =>
    rw [sees_cons, ← ih]
    simp [names]

/-- First the names of the scope itself, then those around it that it does not hold. -/
theorem names_cons {f : Frame} {c : Chain} (h : f.names.Nodup) :
    names (f :: c) = f.names ++ c.names.filter (· ∉ f.names) := by
  rw [names, List.flatMap_cons, Text.distinct_append, Text.distinct_of_nodup h]
  rfl

theorem names_nearest {c : Chain} (h : ∀ f ∈ c, f.names.Nodup) :
    c.names.Pairwise fun x y => c.distance x ≤ c.distance y := by
  induction c with
  | nil => exact .nil
  | cons f c ih =>
    obtain ⟨hf, hc⟩ := List.forall_mem_cons.1 h
    have hown : ∀ x ∈ f.names, distance (f :: c) x = 0 := by
      intro x hx
      simp [distance, List.findIdx_cons, Frame.holds_iff_names.2 hx]
    have hother : ∀ x ∉ f.names, distance (f :: c) x = distance c x + 1 := by
      intro x hx
      have hholds : f.holds x = false := Bool.eq_false_iff.2 (mt Frame.holds_iff_names.1 hx)
      simp [distance, List.findIdx_cons, hholds]
    rw [names_cons hf, List.pairwise_append]
    refine ⟨?_, ?_, ?_⟩
    · refine List.Pairwise.imp_of_mem (R := fun _ _ => True) ?_ (List.pairwise_of_forall fun _ _ => trivial)
      intro x y hx _ _
      rw [hown x hx]
      exact Nat.zero_le _
    · refine ((ih hc).filter _).imp_of_mem ?_
      intro x y hx hy hxy
      rw [hother x (by simpa using (List.mem_filter.1 hx).2), hother y (by simpa using (List.mem_filter.1 hy).2)]
      exact Nat.succ_le_succ hxy
    · intro x hx y _
      rw [hown x hx]
      exact Nat.zero_le _

theorem lookup_iff {c : Chain} {x : Text} {r : Reference} :
    c.lookup x = some r ↔
      ∃ near f far, c = near ++ f :: far ∧ f.find x = some r ∧ ∀ g ∈ near, g.holds x = false := by
  simp [lookup, Frame.holds, List.findSome?_eq_some_iff]

end Chain

/-! ## Symbol tables -/

namespace SymbolTable

/-- What is asked of a symbol table. -/
inductive Call where
  /-- A region inside the region `i`. -/
  | child (i : Nat)
  /-- References in the region `i`. -/
  | push (i : Nat) (refs : List Reference)
deriving Repr, DecidableEq

/-- The region that is asked. -/
def Call.region : Call → Nat
  | .child i | .push i _ => i

/-- The symbol table behind a call. One that fails changes nothing. -/
def perform (t : SymbolTable) : Call → SymbolTable
  | .child i => t.child i
  | .push i refs =>
    match t.push i refs with
    | .ok t' => t'
    | .error _ => t

/-- The symbol tables that calls on regions of theirs lead to from the outermost region alone. -/
inductive Grown (rules : Option RuleSet) : List Call → SymbolTable → Prop
  | root : Grown rules [] { rules }
  | call {calls : List Call} {t : SymbolTable} (h : Grown rules calls t) {c : Call}
      (hc : c.region < t.regions.length) : Grown rules (calls ++ [c]) (t.perform c)

/-- The references that a call declares in the region `i`. One with a forbidden name declares none. -/
def Call.declares (rules : RuleSet) (i : Nat) : Call → List Reference
  | .child _ => []
  | .push j refs => if j = i ∧ ∀ r ∈ refs, rules.blacklisted r.name = false then refs else []

/-- The references that calls declare in the region `i`, in order. -/
def declared (rules : RuleSet) (i : Nat) (calls : List Call) : List Reference := calls.flatMap (·.declares rules i)

/-- The scope in memory of the region `i` behind calls. It is empty before the first. -/
def memory (rules : RuleSet) (i : Nat) (calls : List Call) : Register :=
  calls.foldl (fun m c => match c with
    | .child _ => m
    | .push j refs => if j = i then m.pushed rules refs else m) ⟨fun _ => none, []⟩

/-- The regions inside which calls have added regions, in order: the first is around region 1. -/
def parents (calls : List Call) : List Nat :=
  calls.filterMap fun
    | .child i => some i
    | .push _ _ => none

section
variable {rules : RuleSet} {calls : List Call} {c : Call}

theorem declared_concat (rules : RuleSet) (i : Nat) (calls : List Call) (c : Call) :
    declared rules i (calls ++ [c]) = declared rules i calls ++ c.declares rules i := by
  simp [declared]

theorem memory_child (rules : RuleSet) (i j : Nat) (calls : List Call) :
    memory rules i (calls ++ [.child j]) = memory rules i calls := by
  simp [memory]

theorem memory_push (rules : RuleSet) (i j : Nat) (refs : List Reference) (calls : List Call) :
    memory rules i (calls ++ [.push j refs]) =
      if j = i then (memory rules i calls).pushed rules refs else memory rules i calls := by
  simp [memory]

theorem permitted_of_declared {i : Nat} {r : Reference} (h : r ∈ declared rules i calls) :
    rules.blacklisted r.name = false := by
  obtain ⟨c, -, hr⟩ := List.mem_flatMap.1 h
  cases c with
  | child => cases hr
  | push j refs =>
    rw [Call.declares] at hr
    split at hr
    · next hpermitted => exact hpermitted.2 r hr
    · cases hr

end

/-- The symbol table with another frame in region `i`. -/
def withFrame (t : SymbolTable) (i : Nat) (g : Frame) : SymbolTable :=
  { t with regions := t.regions.modify i fun r => { r with frame := g } }

section
variable {t t' : SymbolTable} {i j : Nat} {refs : List Reference}

theorem region_child (t : SymbolTable) (i j : Nat) :
    (t.child i).region j = if j = t.regions.length then { around := i :: (t.region i).around } else t.region j := by
  simp only [region, child, List.getD_eq_getElem?_getD, List.getElem?_append]
  split
  · next hj => rw [if_neg (Nat.ne_of_lt hj)]
  · next hj =>
    split
    · next heq => simp [heq]
    · next hne =>
      have hout : t.regions.length ≤ j := Nat.le_of_not_lt hj
      rw [List.getElem?_eq_none hout, List.getElem?_eq_none]
      simp only [List.length_cons, List.length_nil]
      omega

theorem push_ok :
    t.push i refs = .ok t' ↔ ∃ g, (t.region i).frame.push (t.rules.getD []) refs = .ok g ∧
      t' = t.withFrame i g := by
  unfold push
  cases (t.region i).frame.push (t.rules.getD []) refs with
  | ok g => simp [eq_comm, withFrame]
  | error d => simp

theorem push_error {d : Diagnostic} :
    t.push i refs = .error d ↔ (t.region i).frame.push (t.rules.getD []) refs = .error d := by
  unfold push
  cases (t.region i).frame.push (t.rules.getD []) refs <;> simp

theorem region_withFrame {g : Frame} (hi : i < t.regions.length) :
    (t.withFrame i g).region j = if j = i then { t.region i with frame := g } else t.region j := by
  simp only [region, withFrame, List.getD_eq_getElem?_getD, List.getElem?_modify]
  by_cases hj : j = i
  · subst hj
    simp [hi]
  · simp [hj, Ne.symm hj]

theorem around_withFrame {g : Frame} (hi : i < t.regions.length) :
    ((t.withFrame i g).region j).around = (t.region j).around := by
  rw [region_withFrame hi]
  split
  · next hj => rw [hj]
  · rfl

end

/-! ## What calls keep -/

/-- How the regions of a symbol table lie inside one another behind calls, and what they hold. -/
structure Kept (rules : Option RuleSet) (calls : List Call) (t : SymbolTable) : Prop where
  size : t.regions.length = (parents calls).length + 1
  outermost : (t.region 0).around = []
  around : ∀ {k p : Nat}, (parents calls)[k]? = some p →
    p ≤ k ∧ (t.region (k + 1)).around = p :: (t.region p).around
  records : ∀ i, (t.region i).frame.register.Records (declared (rules.getD []) i calls)
  memory : ∀ i, memory (rules.getD []) i calls = (t.region i).frame.register
  same : t.rules = rules

theorem region_root (rules : Option RuleSet) (i : Nat) : region { rules } i = {} := by
  cases i <;> rfl

theorem kept_root (rules : Option RuleSet) : Kept rules [] { rules } where
  same := rfl
  size := rfl
  outermost := rfl
  around := by simp [parents]
  records i := by
    rw [region_root]
    exact ⟨rfl, fun _ => rfl⟩
  memory i := by
    rw [region_root]
    rfl

section
variable {rules : Option RuleSet} {calls : List Call} {t : SymbolTable} {i : Nat}

theorem Kept.child (h : Kept rules calls t) (hi : i < t.regions.length) :
    Kept rules (calls ++ [.child i]) (t.child i) := by
  have hparents : parents (calls ++ [.child i]) = parents calls ++ [i] := by simp [parents]
  have hsize := h.size
  -- the new region is as empty as the one that was not there
  have hframe (j : Nat) : ((t.child i).region j).frame = (t.region j).frame := by
    rw [region_child]
    split
    · next hj => simp [region, List.getD_eq_getElem?_getD, hj]
    · rfl
  refine ⟨?_, ?_, ?_, fun j => ?_, fun j => ?_, h.same⟩
  · simp [hparents, SymbolTable.child, hsize]
  · rw [region_child, if_neg (by omega)]
    exact h.outermost
  · intro k p hp
    rw [hparents, List.getElem?_append] at hp
    split at hp
    · next hk =>
      obtain ⟨hle, haround⟩ := h.around hp
      rw [region_child, region_child, if_neg (by omega), if_neg (by omega)]
      exact ⟨hle, haround⟩
    · next hk =>
      obtain ⟨hlast, rfl⟩ : k - (parents calls).length = 0 ∧ i = p := by simpa [List.getElem?_singleton] using hp
      rw [region_child, region_child, if_pos (by omega), if_neg (Nat.ne_of_lt hi)]
      exact ⟨by omega, rfl⟩
  · rw [hframe, declared_concat, Call.declares, List.append_nil]
    exact h.records j
  · rw [hframe, memory_child]
    exact h.memory j

theorem parents_push (calls : List Call) (i : Nat) (refs : List Reference) :
    parents (calls ++ [.push i refs]) = parents calls := by
  simp [parents]

/-- Names that are declared stand in their region, and the others are as they were. -/
theorem Kept.pushed (h : Kept rules calls t) (hi : i < t.regions.length) {refs : List Reference} {t' : SymbolTable}
    (hp : t.push i refs = .ok t') : Kept rules (calls ++ [.push i refs]) t' := by
  obtain ⟨g, hg, rfl⟩ := push_ok.1 hp
  obtain ⟨hpermitted, rfl⟩ := Frame.push_ok.1 hg
  rw [h.same] at hg hpermitted
  refine ⟨?_, ?_, ?_, fun j => ?_, fun j => ?_, h.same⟩
  · simpa [parents_push, withFrame] using h.size
  · rw [around_withFrame hi]
    exact h.outermost
  · intro k p hk
    rw [around_withFrame hi, around_withFrame hi]
    exact h.around (parents_push calls i refs ▸ hk)
  · rw [region_withFrame hi, declared_concat, Call.declares]
    by_cases hj : j = i
    · subst hj
      rw [if_pos rfl, if_pos ⟨rfl, hpermitted⟩]
      change (refs.foldl Frame.insert (t.region j).frame).register.Records _
      rw [Frame.register_foldl_insert]
      exact (h.records j).enterAll refs
    · rw [if_neg hj, if_neg fun h => hj h.1.symm, List.append_nil]
      exact h.records j
  · rw [region_withFrame hi, memory_push]
    by_cases hj : i = j
    · subst hj
      rw [if_pos rfl, if_pos rfl, h.memory]
      simp only [Register.pushed, Frame.register_of_push_ok hg]
    · rw [if_neg hj, if_neg (Ne.symm hj)]
      exact h.memory j

/-- A declaration that fails has not happened. -/
theorem Kept.refused (h : Kept rules calls t) {refs : List Reference} {d : Diagnostic}
    (hp : t.push i refs = .error d) : Kept rules (calls ++ [.push i refs]) t := by
  have hframe := push_error.1 hp
  rw [h.same] at hframe
  obtain ⟨r, hr, hforbidden⟩ := Frame.push_error.1 ⟨d, hframe⟩
  have hparents := parents_push calls i refs
  refine ⟨hparents ▸ h.size, h.outermost, fun hk => h.around (hparents ▸ hk), fun j => ?_, fun j => ?_, h.same⟩
  · rw [declared_concat, Call.declares, if_neg fun h => by simp [h.2 r hr] at hforbidden, List.append_nil]
    exact h.records j
  · rw [memory_push]
    split
    · next hj =>
      subst hj
      rw [h.memory]
      simp only [Register.pushed, Frame.register_of_push_error hframe]
    · exact h.memory j

theorem Kept.push (h : Kept rules calls t) (hi : i < t.regions.length) (refs : List Reference) :
    Kept rules (calls ++ [.push i refs]) (t.perform (.push i refs)) := by
  cases hp : t.push i refs with
  | ok t' =>
    have hperform : t.perform (.push i refs) = t' := by simp only [perform, hp]
    rw [hperform]
    exact h.pushed hi hp
  | error d =>
    have hperform : t.perform (.push i refs) = t := by simp only [perform, hp]
    rw [hperform]
    exact h.refused hp

theorem Grown.kept (h : Grown rules calls t) : Kept rules calls t := by
  induction h with
  | root => exact kept_root rules
  | @call calls t _ c hc ih =>
    cases c with
    | child i => exact ih.child hc
    | push i refs => exact ih.push hc refs

theorem Kept.nodup (h : Kept rules calls t) (i : Nat) : (t.region i).frame.names.Nodup := (h.records i).nodup

/-- What a place in a region sees beyond the region is what its parent sees. -/
theorem Kept.chain {k p : Nat} (h : Kept rules calls t) (hp : (parents calls)[k]? = some p) :
    t.chain (k + 1) = (t.region (k + 1)).frame :: t.chain p := by
  rw [SymbolTable.chain, (h.around hp).2]
  rfl

theorem Kept.forbidden {x : Text} (h : Kept rules calls t) (hx : (rules.getD []).blacklisted x = true) (i : Nat) :
    (t.region i).frame.register.refs x = none := by
  refine Option.not_isSome_iff_eq_none.1 fun hholds => ?_
  obtain ⟨r, hr, rfl⟩ := List.mem_map.1 ((h.records i).isSome.1 hholds)
  simp [permitted_of_declared hr] at hx

theorem Kept.push_fails (h : Kept rules calls t) (refs : List Reference) :
    (∃ r ∈ refs, (rules.getD []).blacklisted r.name = true) ↔ ∃ d, t.push i refs = .error d := by
  rw [← h.same, ← Frame.push_error (f := (t.region i).frame)]
  simp only [push_error]

end

/-- Whatever regions are added to a symbol table and whatever names are declared in them, each region keeps its
list of names and its map together, and what it shows is right. Its list has each name of its map once, where it
was declared first, and its references in that order are those that were declared last. Its place sees the names of
the region and of the regions around it, each once and the nearest first, and looks a name up in the nearest scope
that holds it. No region holds a forbidden name: declaring one fails, and then every region is as it was, in memory
as well. -/
theorem grown_scopes {rules : Option RuleSet} {calls : List Call} {t : SymbolTable} (h : Grown rules calls t) :
    (t.regions.length = (parents calls).length + 1 ∧ t.chain 0 = [(t.region 0).frame] ∧
      ∀ k p, (parents calls)[k]? = some p → p ≤ k ∧ t.chain (k + 1) = (t.region (k + 1)).frame :: t.chain p) ∧
    ∀ i < t.regions.length,
      let frame := (t.region i).frame
      let scope := memory (rules.getD []) i calls
      let refs := declared (rules.getD []) i calls
      let visible := t.chain i
      (scope.refs = frame.find ∧ scope.order = frame.names ∧ scope.locals = frame) ∧
      (scope.order.Nodup ∧ (∀ x, x ∈ scope.order ↔ (scope.refs x).isSome = true) ∧
        scope.order = Text.distinct (refs.map (·.name)) ∧
        scope.locals.map some = scope.order.map (Register.latest refs)) ∧
      (visible.names.Nodup ∧ (∀ x, x ∈ visible.names ↔ visible.sees x = true) ∧
        visible.names.Pairwise fun x y => visible.distance x ≤ visible.distance y) ∧
      (∀ x r, visible.lookup x = some r ↔
        ∃ near f far, visible = near ++ f :: far ∧ f.find x = some r ∧ ∀ g ∈ near, g.holds x = false) ∧
      (∀ x, (rules.getD []).blacklisted x = true → scope.refs x = none) ∧
      ∀ new, ((∃ r ∈ new, (rules.getD []).blacklisted r.name = true) ↔ ∃ d, t.push i new = .error d) ∧
        ∀ d, t.push i new = .error d →
          t.perform (.push i new) = t ∧ Register.push (rules.getD []) new scope = .error d scope := by
  have hkept := h.kept
  refine ⟨⟨hkept.size, ?_, fun k p hp => ⟨(hkept.around hp).1, hkept.chain hp⟩⟩, fun i _ => ?_⟩
  · rw [chain, hkept.outermost]
    rfl
  · dsimp only
    rw [hkept.memory]
    have hrecords := hkept.records i
    have hframes : ∀ f ∈ t.chain i, f.names.Nodup := by
      intro f hf
      obtain ⟨j, -, rfl⟩ := List.mem_map.1 hf
      exact hkept.nodup j
    refine ⟨⟨rfl, rfl, Frame.locals_register (hkept.nodup i)⟩,
      ⟨hrecords.nodup, fun x => hrecords.mem_order, hrecords.order, hrecords.locals⟩,
      ⟨Text.nodup_distinct _, fun x => Chain.mem_names, Chain.names_nearest hframes⟩, fun x r => Chain.lookup_iff,
      fun x hx => hkept.forbidden hx i, fun new => ⟨hkept.push_fails new, ?_⟩⟩
    intro d hd
    refine ⟨by simp only [perform, hd], ?_⟩
    rw [← hkept.same]
    exact Frame.register_of_push_error (push_error.1 hd)

/-- A name that shadows another one, one that is declared again, and one that is forbidden. -/
theorem grown_scopes_shadowed :
    let rules : Option RuleSet := some [.blacklist ["tmp"]]
    let calls : List Call :=
      [.push 0 [{ name := "x" }, { name := "f", kind := .function }], .child 0,
        .push 1 [{ name := "y" }, { name := "x" }], .push 1 [{ name := "z" }, { name := "tmp" }],
        .push 1 [{ name := "y", declared := true }]]
    let t := calls.foldl perform { rules }
    Grown rules calls t ∧ (t.chain 1).names = ["y", "x", "f"] ∧
      (t.region 1).frame = [{ name := "y", declared := true }, { name := "x" }] ∧
      t.chain 1 = (t.region 1).frame :: t.chain 0 ∧
      (memory (rules.getD []) 1 calls).locals = (t.region 1).frame := by
  intro rules calls t
  have h : Grown rules calls t :=
    .call (.call (.call (.call (.call .root (by decide)) (by decide)) (by decide +kernel)) (by decide +kernel))
      (by decide +kernel)
  refine ⟨h, by decide +kernel, by decide +kernel, ((grown_scopes h).1.2.2 0 0 rfl).2, ?_⟩
  exact ((grown_scopes h).2 1 (by decide +kernel)).1.2.2

end SymbolTable

end Offside
