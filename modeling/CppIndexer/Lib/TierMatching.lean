/-
# Matching in tiers

Two lists are matched by keys, tier after tier. A tier goes through the left positions in order and
pairs each one that is still free with the first free right position of the same key; it may be
restricted to keys that occur once on each side.

The pairs are a partial bijection between positions. A list matched with itself pairs every
position with itself that some tier can see at all.
-/

import Mathlib.Data.List.Basic
import Mathlib.Data.List.Nodup

namespace TierMatching

open List

variable {τ κ : Type}

/-- Two paired positions. -/
structure Pair (τ : Type) where
  left : ℕ
  right : ℕ
  tier : τ

/-- One tier: the keys of both sides, where a position without a key is passed over. -/
structure Tier (τ κ : Type) where
  tier : τ
  left : List (Option κ)
  right : List (Option κ)
  unique : Bool := false

variable [DecidableEq κ]

/-- The key of a left position, if the tier pairs it. -/
def Tier.keyAt (t : Tier τ κ) (i : ℕ) : Option κ :=
  t.left[i]?.join.filter fun key =>
    !t.unique || (t.left.count (some key) == 1 && t.right.count (some key) == 1)

/-- The first free right position with a key. -/
def firstFree (t : Tier τ κ) (pairs : List (Pair τ)) (key : κ) : Option ℕ :=
  (List.range t.right.length).find? fun j =>
    pairs.all (fun pair => pair.right ≠ j) && t.right[j]? = some (some key)

/-- One left position. -/
def pairOne (t : Tier τ κ) (pairs : List (Pair τ)) (i : ℕ) : List (Pair τ) :=
  if pairs.any fun pair => pair.left = i then pairs
  else match (t.keyAt i).bind (firstFree t pairs) with
    | some j => pairs ++ [⟨i, j, t.tier⟩]
    | none => pairs

def runTier (t : Tier τ κ) (pairs : List (Pair τ)) : List (Pair τ) :=
  (List.range t.left.length).foldl (pairOne t) pairs

def runTiers (tiers : List (Tier τ κ)) (pairs : List (Pair τ)) : List (Pair τ) :=
  tiers.foldl (fun pairs t => runTier t pairs) pairs

def Taken (pairs : List (Pair τ)) (i : ℕ) : Prop := ∃ pair ∈ pairs, pair.left = i

variable {keys : List (Option κ)} {pairs : List (Pair τ)} {tiers : List (Tier τ κ)} {used : List ℕ}
  {t : Tier τ κ} {key : κ} {i n j count : ℕ}

theorem firstFree_spec (h : firstFree t pairs key = some j) :
    (∀ pair ∈ pairs, pair.right ≠ j) ∧ t.right[j]? = some (some key) ∧
      ∀ k < j, (∀ pair ∈ pairs, pair.right ≠ k) → t.right[k]? ≠ some (some key) := by
  have hfound := find?_some h
  rw [Bool.and_eq_true, all_eq_true, decide_eq_true_eq] at hfound
  refine ⟨fun pair hpair => by simpa using hfound.1 pair hpair, hfound.2, ?_⟩
  intro k hk hfree hkey
  have hfirst := (find?_range_eq_some.mp h).2.2 k hk
  simp only [Bool.not_eq_true', Bool.and_eq_false_iff, all_eq_false, decide_eq_false_iff_not] at hfirst
  rcases hfirst with ⟨pair, hpair, hright⟩ | hne
  · exact hright (by simpa using hfree pair hpair)
  · exact hne hkey

theorem firstFree_isSome (hfree : ∀ pair ∈ pairs, pair.right ≠ j) (hkey : t.right[j]? = some (some key)) :
    ∃ k, firstFree t pairs key = some k := by
  rw [← Option.isSome_iff_exists, firstFree, find?_isSome]
  refine ⟨j, mem_range.mpr (List.getElem?_eq_some_iff.mp hkey).1, ?_⟩
  rw [Bool.and_eq_true, all_eq_true, decide_eq_true_eq]
  exact ⟨fun pair hpair => by simpa using hfree pair hpair, hkey⟩

theorem pairOne_cases (t : Tier τ κ) (pairs : List (Pair τ)) (i : ℕ) :
    (pairOne t pairs i = pairs ∧ (Taken pairs i ∨ (t.keyAt i).bind (firstFree t pairs) = none)) ∨
    ∃ key j, pairOne t pairs i = pairs ++ [⟨i, j, t.tier⟩] ∧ ¬ Taken pairs i ∧
      t.keyAt i = some key ∧ firstFree t pairs key = some j := by
  unfold pairOne
  by_cases htaken : (pairs.any fun pair => pair.left = i) = true
  · refine Or.inl ⟨if_pos htaken, Or.inl ?_⟩
    obtain ⟨pair, hpair, hleft⟩ := any_eq_true.mp htaken
    exact ⟨pair, hpair, by simpa using hleft⟩
  · rw [if_neg htaken]
    cases hfree : (t.keyAt i).bind (firstFree t pairs) with
    | none => exact Or.inl ⟨rfl, Or.inr rfl⟩
    | some j =>
      obtain ⟨key, hkey, hfirst⟩ := Option.bind_eq_some_iff.mp hfree
      refine Or.inr ⟨key, j, rfl, ?_, hkey, hfirst⟩
      rintro ⟨pair, hpair, hleft⟩
      exact htaken (any_eq_true.mpr ⟨pair, hpair, by simpa using hleft⟩)

/-! ## A partial bijection -/

/-- Each position is paired at most once. -/
structure Matched (count count' : ℕ) (pairs : List (Pair τ)) : Prop where
  nodupLeft : (pairs.map Pair.left).Nodup
  nodupRight : (pairs.map Pair.right).Nodup
  left : ∀ pair ∈ pairs, pair.left < count
  right : ∀ pair ∈ pairs, pair.right < count'

theorem matched_nil (count count' : ℕ) : Matched count count' ([] : List (Pair τ)) where
  nodupLeft := nodup_nil
  nodupRight := nodup_nil
  left := by simp
  right := by simp

theorem Matched.pairOne (h : Matched t.left.length t.right.length pairs) (hi : i < t.left.length) :
    Matched t.left.length t.right.length (pairOne t pairs i) := by
  obtain ⟨hsame, _⟩ | ⟨_, _, hnew, hfree, _, hfirst⟩ := pairOne_cases t pairs i
  · rwa [hsame]
  · obtain ⟨hright, hkey, _⟩ := firstFree_spec hfirst
    rw [hnew]
    refine ⟨?_, ?_, ?_, ?_⟩
    · rw [map_append, nodup_append]
      refine ⟨h.nodupLeft, nodup_singleton _, ?_⟩
      rintro k hk _ hlast rfl
      obtain ⟨pair, hpair, rfl⟩ := mem_map.mp hk
      exact hfree ⟨pair, hpair, by simpa using hlast⟩
    · rw [map_append, nodup_append]
      refine ⟨h.nodupRight, nodup_singleton _, ?_⟩
      rintro k hk _ hlast rfl
      obtain ⟨pair, hpair, rfl⟩ := mem_map.mp hk
      exact hright pair hpair (by simpa using hlast)
    · intro pair hpair
      rcases mem_append.mp hpair with hpair | hpair
      · exact h.left pair hpair
      · rw [mem_singleton.mp hpair]
        exact hi
    · intro pair hpair
      rcases mem_append.mp hpair with hpair | hpair
      · exact h.right pair hpair
      · rw [mem_singleton.mp hpair]
        exact (List.getElem?_eq_some_iff.mp hkey).1

theorem Matched.runTier (h : Matched t.left.length t.right.length pairs) :
    Matched t.left.length t.right.length (runTier t pairs) := by
  have hfold : ∀ positions : List ℕ, (∀ i ∈ positions, i < t.left.length) → ∀ pairs,
      Matched t.left.length t.right.length pairs →
        Matched t.left.length t.right.length (positions.foldl (TierMatching.pairOne t) pairs) := by
    intro positions
    induction positions with
    | nil => exact fun _ _ h => h
    | cons i _ ih =>
      intro hpositions _ h
      exact ih (fun k hk => hpositions k (mem_cons_of_mem _ hk)) _
        (h.pairOne (hpositions i mem_cons_self))
  exact hfold _ (fun i hi => mem_range.mp hi) pairs h

theorem Matched.runTiers {count' : ℕ}
    (htiers : ∀ t ∈ tiers, t.left.length = count ∧ t.right.length = count')
    (h : Matched count count' pairs) : Matched count count' (runTiers tiers pairs) := by
  induction tiers generalizing pairs with
  | nil => exact h
  | cons t _ ih =>
    obtain ⟨rfl, rfl⟩ := htiers t mem_cons_self
    exact ih (fun t ht => htiers t (mem_cons_of_mem _ ht)) h.runTier

/-! ## A list and itself -/

/-- Every pair is one of a position with itself. -/
def Diagonal (pairs : List (Pair τ)) : Prop := ∀ pair ∈ pairs, pair.right = pair.left

theorem Diagonal.free_iff (h : Diagonal pairs) : (∀ pair ∈ pairs, pair.right ≠ i) ↔ ¬ Taken pairs i := by
  constructor
  · rintro hfree ⟨pair, hpair, hleft⟩
    exact hfree pair hpair ((h pair hpair).trans hleft)
  · intro hfree pair hpair hright
    exact hfree ⟨pair, hpair, (h pair hpair).symm.trans hright⟩

theorem taken_append {more : List (Pair τ)} :
    Taken (pairs ++ more) i ↔ Taken pairs i ∨ Taken more i := by
  unfold Taken
  simp [or_and_right, exists_or]

/-- The tiers of a list and itself. -/
def Tier.Self (t : Tier τ κ) : Prop := t.right = t.left

theorem keyAt_eq_some (h : t.keyAt i = some key) : t.left[i]? = some (some key) := by
  have hjoin := (Option.filter_eq_some_iff.mp h).1
  exact Option.join_eq_some_iff.mp hjoin

theorem keyAt_of_same (h : t.keyAt i = some key)
    (hj : t.left[j]? = some (some key)) : t.keyAt j = some key := by
  have hfilter := (Option.filter_eq_some_iff.mp h).2
  refine Option.filter_eq_some_iff.mpr ⟨?_, hfilter⟩
  rw [hj]
  rfl

/-- A tier up to some position: pairs are diagonal, and it has paired all it can see. -/
structure SelfUpTo (t : Tier τ κ) (before pairs : List (Pair τ)) (count : ℕ) : Prop where
  diagonal : Diagonal pairs
  taken : ∀ i, Taken pairs i ↔ Taken before i ∨ i < count ∧ (t.keyAt i).isSome = true

theorem SelfUpTo.pairOne (hself : t.Self) {before : List (Pair τ)}
    (h : SelfUpTo t before pairs count) : SelfUpTo t before (pairOne t pairs count) (count + 1) := by
  have hlast : ∀ i, i < count + 1 ∧ (t.keyAt i).isSome = true ↔
      (i < count ∧ (t.keyAt i).isSome = true) ∨ (i = count ∧ (t.keyAt i).isSome = true) := by
    intro _
    rw [← or_and_right]
    exact and_congr_left' (by omega)
  obtain ⟨hsame, hwhy⟩ | ⟨key, j, hnew, hfree, hkey, hfirst⟩ := pairOne_cases t pairs count
  · rw [hsame]
    refine ⟨h.diagonal, fun i => ?_⟩
    rw [h.taken, hlast, ← or_assoc]
    refine (or_iff_left_of_imp ?_).symm
    rintro ⟨rfl, hsome⟩
    rcases hwhy with htaken | hnone
    · exact (h.taken i).mp htaken
    · -- A position with a key would find itself.
      by_contra hopen
      obtain ⟨_, hkey⟩ := Option.isSome_iff_exists.mp hsome
      rw [hkey, Option.bind_some] at hnone
      have hfree := h.diagonal.free_iff.mpr (fun htaken => hopen ((h.taken i).mp htaken))
      obtain ⟨_, hk⟩ := firstFree_isSome hfree (by rw [hself]; exact keyAt_eq_some hkey)
      rw [hk] at hnone
      cases hnone
  · obtain ⟨hright, hj, hleast⟩ := firstFree_spec hfirst
    rw [hself] at hj hleast
    have hji : j = count := by
      rcases Nat.lt_trichotomy j count with hlt | heq | hgt
      · have htaken : Taken pairs j := by
          rw [h.taken]
          exact Or.inr ⟨hlt, by rw [keyAt_of_same hkey hj]; rfl⟩
        exact absurd htaken (h.diagonal.free_iff.mp hright)
      · exact heq
      · exact absurd (keyAt_eq_some hkey) (hleast count hgt (h.diagonal.free_iff.mpr hfree))
    subst hji
    rw [hnew]
    refine ⟨?_, fun i => ?_⟩
    · intro pair hpair
      rcases mem_append.mp hpair with hpair | hpair
      · exact h.diagonal pair hpair
      · rw [mem_singleton.mp hpair]
    · rw [taken_append, h.taken, hlast, ← or_assoc]
      refine or_congr_right ?_
      constructor
      · rintro ⟨_, hpair, rfl⟩
        rw [mem_singleton.mp hpair]
        exact ⟨rfl, by rw [hkey]; rfl⟩
      · rintro ⟨rfl, _⟩
        exact ⟨_, mem_singleton_self _, rfl⟩

theorem selfUpTo_runTier (hself : t.Self)
    (h : Diagonal pairs) : SelfUpTo t pairs (runTier t pairs) t.left.length := by
  unfold runTier
  induction t.left.length with
  | zero => exact ⟨h, by simp⟩
  | succ _ ih =>
    rw [range_succ, foldl_append]
    exact ih.pairOne hself

/-- A list matched with itself: positions are paired with themselves, and those are paired that some
tier can see. -/
theorem runTiers_self (hself : ∀ t ∈ tiers, t.Self) (h : Diagonal pairs) :
    Diagonal (runTiers tiers pairs) ∧ ∀ i, Taken (runTiers tiers pairs) i ↔
      Taken pairs i ∨ ∃ t ∈ tiers, (t.keyAt i).isSome = true := by
  induction tiers generalizing pairs with
  | nil => exact ⟨h, by simp [runTiers]⟩
  | cons t rest ih =>
    have ht := selfUpTo_runTier (hself t mem_cons_self) h
    obtain ⟨hdiagonal, htaken⟩ := ih (fun t ht => hself t (mem_cons_of_mem _ ht)) ht.diagonal
    refine ⟨hdiagonal, fun i => ?_⟩
    show Taken (runTiers rest (runTier t pairs)) i ↔ _
    rw [htaken, ht.taken, exists_mem_cons_iff, or_assoc]
    refine or_congr_right (or_congr_left (and_iff_right_of_imp ?_))
    intro hsome
    obtain ⟨_, hkey⟩ := Option.isSome_iff_exists.mp hsome
    exact (List.getElem?_eq_some_iff.mp (keyAt_eq_some hkey)).1

/-! ## The sides exchanged -/

/-- The positions below `n` with a key that are not used yet. -/
def free (keys : List (Option κ)) (used : List ℕ) (key : κ) (n : ℕ) : List ℕ :=
  (List.range n).filter fun i => i ∉ used ∧ keys[i]? = some (some key)

theorem free_succ (keys : List (Option κ)) (used : List ℕ) (key : κ) (n : ℕ) :
    free keys used key (n + 1) = free keys used key n ++
      if n ∉ used ∧ keys[n]? = some (some key) then [n] else [] := by
  unfold free
  rw [range_succ, filter_append, filter_cons, filter_nil]
  simp

theorem getElem?_free_succ {r : ℕ} :
    (free keys used key (n + 1))[r]? = some i ↔ (free keys used key n)[r]? = some i ∨
      r = (free keys used key n).length ∧ i = n ∧ n ∉ used ∧ keys[n]? = some (some key) := by
  rw [free_succ, getElem?_append]
  grind

theorem nodup_free (keys : List (Option κ)) (used : List ℕ) (key : κ) (n : ℕ) :
    (free keys used key n).Nodup := nodup_range.filter _

theorem mem_free : i ∈ free keys used key n ↔ i < n ∧ i ∉ used ∧ keys[i]? = some (some key) := by
  simp [free]

def Tier.Takes (t : Tier τ κ) (key : κ) : Prop :=
  (!t.unique || (t.left.count (some key) == 1 && t.right.count (some key) == 1)) = true

theorem keyAt_eq_some_iff : t.keyAt i = some key ↔ t.left[i]? = some (some key) ∧ t.Takes key := by
  unfold Tier.keyAt Tier.Takes
  rw [Option.filter_eq_some_iff, Option.join_eq_some_iff]

/-- What a tier adds to some pairs, up to a left position: the free positions of each key it takes
are zipped. -/
def Zips (t : Tier τ κ) (pairs : List (Pair τ)) (n : ℕ) (pair : Pair τ) : Prop :=
  pair.tier = t.tier ∧ ∃ (key : κ) (r : ℕ), t.Takes key ∧
    (free t.left (pairs.map Pair.left) key n)[r]? = some pair.left ∧
    (free t.right (pairs.map Pair.right) key t.right.length)[r]? = some pair.right

/-- A tier up to some position has added what it zips. -/
def ZipsUpTo (t : Tier τ κ) (pairs result : List (Pair τ)) (n : ℕ) : Prop :=
  ∀ pair, pair ∈ result ↔ pair ∈ pairs ∨ Zips t pairs n pair

section Zips

variable {t : Tier τ κ} {pairs result : List (Pair τ)} {n : ℕ} {pair : Pair τ}

theorem Zips.left_lt (h : Zips t pairs n pair) : pair.left < n := by
  obtain ⟨_, _, _, _, hleft, _⟩ := h
  exact (mem_free.mp (mem_of_getElem? hleft)).1

theorem firstFree_eq (h : ZipsUpTo t pairs result n) {key : κ} (hkey : t.Takes key) :
    firstFree t result key = (free t.right (pairs.map Pair.right) key t.right.length)[
      (free t.left (pairs.map Pair.left) key n).length]? := by
  set lefts := free t.left (pairs.map Pair.left) key n with hlefts
  set rights := free t.right (pairs.map Pair.right) key t.right.length with hrights
  have hnodup : rights.Nodup := nodup_free ..
  have hused : ∀ r j, rights[r]? = some j →
      ((∀ pair ∈ result, pair.right ≠ j) ↔ lefts.length ≤ r) := by
    intro r j hj
    obtain ⟨_, hunused, hjkey⟩ := mem_free.mp (mem_of_getElem? hj)
    constructor
    · intro hfree
      by_contra hlong
      rw [Nat.not_le] at hlong
      exact hfree ⟨lefts[r], j, t.tier⟩ ((h _).mpr (Or.inr ⟨rfl, key, r, hkey,
        getElem?_eq_getElem hlong, hj⟩)) rfl
    · rintro hlong pair hpair rfl
      rcases (h pair).mp hpair with hpair | ⟨_, key', r', _, hleft, hright⟩
      · exact hunused (mem_map_of_mem hpair)
      · -- A position has one key and one place among those of its key.
        obtain ⟨_, _, hjkey'⟩ := mem_free.mp (mem_of_getElem? hright)
        obtain rfl : key = key' := by simpa [hjkey] using hjkey'
        obtain rfl : r = r' := (getElem?_inj (List.getElem?_eq_some_iff.mp hj).1 hnodup).mp
          (hj.trans hright.symm)
        exact absurd (List.getElem?_eq_some_iff.mp hleft).1 (Nat.not_lt.mpr hlong)
  have hfilter : (List.range t.right.length).filter (fun j =>
      result.all (fun pair => pair.right ≠ j) && t.right[j]? = some (some key)) =
      rights.drop lefts.length := by
    have hboth : (List.range t.right.length).filter (fun j =>
        result.all (fun pair => pair.right ≠ j) && t.right[j]? = some (some key)) =
        rights.filter fun j => result.all fun pair => pair.right ≠ j := by
      rw [hrights, free, filter_filter]
      refine filter_congr fun j _ => ?_
      have hmore : (∀ pair ∈ result, pair.right ≠ j) → j ∉ pairs.map Pair.right := by
        intro hfree hmem
        obtain ⟨pair, hpair, hright⟩ := mem_map.mp hmem
        exact hfree pair ((h pair).mpr (Or.inl hpair)) hright
      grind
    have htaken : (rights.take lefts.length).filter
        (fun j => result.all fun pair => pair.right ≠ j) = [] := by
      refine filter_eq_nil_iff.mpr fun j hj hfree => ?_
      obtain ⟨r, hr⟩ := getElem?_of_mem hj
      grind
    have hopen : (rights.drop lefts.length).filter
        (fun j => result.all fun pair => pair.right ≠ j) = rights.drop lefts.length := by
      refine filter_eq_self.mpr fun j hj => ?_
      obtain ⟨_, hr⟩ := getElem?_of_mem hj
      rw [getElem?_drop] at hr
      simpa using (hused _ j hr).mpr (Nat.le_add_right _ _)
    calc _ = _ := hboth
      _ = ((rights.take lefts.length) ++ rights.drop lefts.length).filter
          (fun j => result.all fun pair => pair.right ≠ j) := by rw [take_append_drop]
      _ = rights.drop lefts.length := by rw [filter_append, htaken, hopen, nil_append]
  rw [firstFree, ← head?_filter, hfilter, head?_drop]

theorem zips_succ : Zips t pairs (n + 1) pair ↔ Zips t pairs n pair ∨
    pair.tier = t.tier ∧ ∃ key, n ∉ pairs.map Pair.left ∧ t.keyAt n = some key ∧ pair.left = n ∧
      (free t.right (pairs.map Pair.right) key t.right.length)[
        (free t.left (pairs.map Pair.left) key n).length]? = some pair.right := by
  unfold Zips
  simp only [getElem?_free_succ, keyAt_eq_some_iff]
  grind

theorem ZipsUpTo.pairOne (h : ZipsUpTo t pairs result n) :
    ZipsUpTo t pairs (pairOne t result n) (n + 1) := by
  have hused : Taken result n ↔ n ∈ pairs.map Pair.left := by
    constructor
    · rintro ⟨pair, hpair, rfl⟩
      rcases (h pair).mp hpair with hpair | hzips
      · exact mem_map_of_mem hpair
      · exact absurd hzips.left_lt (Nat.lt_irrefl _)
    · intro hmem
      obtain ⟨pair, hpair, hleft⟩ := mem_map.mp hmem
      exact ⟨pair, (h pair).mpr (Or.inl hpair), hleft⟩
  intro pair
  rw [zips_succ, ← or_assoc, ← h pair]
  rcases pairOne_cases t result n with ⟨hsame, hwhy⟩ | ⟨key, _, hnew, hfree, hkey, hfirst⟩
  · rw [hsame]
    refine (or_iff_left ?_).symm
    rintro ⟨_, _, hunused, hkey, _, hright⟩
    rcases hwhy with htaken | hnone
    · exact hunused (hused.mp htaken)
    · rw [hkey, Option.bind_some, firstFree_eq h (keyAt_eq_some_iff.mp hkey).2, hright] at hnone
      cases hnone
  · rw [firstFree_eq h (keyAt_eq_some_iff.mp hkey).2] at hfirst
    rw [hnew, mem_append, mem_singleton]
    refine or_congr_right ?_
    constructor
    · rintro rfl
      exact ⟨rfl, key, fun hmem => hfree (hused.mpr hmem), hkey, rfl, hfirst⟩
    · rintro ⟨_, key', _, hkey', _⟩
      obtain rfl : key = key' := Option.some.inj (hkey.symm.trans hkey')
      cases pair
      simp_all

theorem mem_runTier (t : Tier τ κ) (pairs : List (Pair τ)) :
    ZipsUpTo t pairs (runTier t pairs) t.left.length := by
  unfold runTier
  induction t.left.length with
  | zero =>
    intro _
    exact (or_iff_left fun hzips => absurd hzips.left_lt (Nat.not_lt_zero _)).symm
  | succ _ ih =>
    rw [range_succ, foldl_append]
    exact ih.pairOne

end Zips

/-- A pair seen from the other side. -/
def Pair.swap (pair : Pair τ) : Pair τ := ⟨pair.right, pair.left, pair.tier⟩

/-- A tier over the sides exchanged. -/
def Tier.swap (t : Tier τ κ) : Tier τ κ := { t with left := t.right, right := t.left }

/-- The same pairs with their sides exchanged, in any order. -/
def Exchanged (pairs pairs' : List (Pair τ)) : Prop := ∀ pair, pair.swap ∈ pairs' ↔ pair ∈ pairs

variable {pairs' pairs : List (Pair τ)}

theorem Exchanged.mem_map (h : Exchanged pairs pairs') (i : ℕ) :
    (i ∈ pairs'.map Pair.left ↔ i ∈ pairs.map Pair.right) ∧
      (i ∈ pairs'.map Pair.right ↔ i ∈ pairs.map Pair.left) := by
  simp only [List.mem_map]
  have hback : ∀ pair, pair ∈ pairs' ↔ pair.swap ∈ pairs := fun pair => h pair.swap
  constructor
  all_goals
    exact ⟨fun ⟨pair, hpair, hi⟩ => ⟨pair.swap, (hback pair).mp hpair, hi⟩,
      fun ⟨pair, hpair, hi⟩ => ⟨pair.swap, (h pair).mpr hpair, hi⟩⟩

theorem free_congr {keys : List (Option κ)} {used used' : List ℕ} (h : ∀ i, i ∈ used' ↔ i ∈ used)
    (key : κ) (n : ℕ) : free keys used' key n = free keys used key n := by
  unfold free
  simp [h]

theorem Exchanged.runTier (h : Exchanged pairs pairs')
    (t : Tier τ κ) : Exchanged (runTier t pairs) (runTier t.swap pairs') := by
  intro pair
  rw [mem_runTier t pairs pair, mem_runTier t.swap pairs' pair.swap, h pair]
  refine or_congr_right (and_congr_right fun _ => exists_congr fun key => exists_congr fun r => ?_)
  have htakes : t.swap.Takes key ↔ t.Takes key := by
    show (!t.unique || (t.right.count _ == 1 && t.left.count _ == 1)) = true ↔ _
    rw [Bool.and_comm]
    rfl
  rw [free_congr (fun i => (h.mem_map i).1), free_congr (fun i => (h.mem_map i).2), htakes,
    and_comm (a := (free _ _ _ _)[r]? = _)]
  rfl

theorem Exchanged.runTiers (h : Exchanged pairs pairs') (tiers : List (Tier τ κ)) :
    Exchanged (runTiers tiers pairs) (runTiers (tiers.map Tier.swap) pairs') := by
  induction tiers generalizing pairs pairs' with
  | nil => exact h
  | cons t _ ih => exact ih (h.runTier t)

theorem Exchanged.perm {count count' : ℕ}
    (h : Exchanged pairs pairs') (hm : Matched count count' pairs)
    (hm' : Matched count' count pairs') : pairs'.Perm (pairs.map Pair.swap) := by
  have hinj : Function.Injective (@Pair.swap τ) :=
    Function.Involutive.injective fun _ => rfl
  refine (List.perm_ext_iff_of_nodup hm'.nodupLeft.of_map (hm.nodupLeft.of_map.map hinj)).mpr ?_
  intro pair
  rw [List.mem_map]
  exact ⟨fun hpair => ⟨pair.swap, (h pair.swap).mp hpair, rfl⟩,
    fun ⟨other, hother, hpair⟩ => hpair ▸ (h other).mpr hother⟩

end TierMatching
