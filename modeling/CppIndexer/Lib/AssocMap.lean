/-
# Finite maps as association lists

Entries carry pairwise distinct keys as a field, so a lookup never depends on
which of two entries comes first. Only the operations an ordered map offers to a
caller that does not observe its iteration order are provided: lookup, insert or
assign, erasure of every entry that satisfies a test, a change of every value,
the number of keys that satisfy a test, and the least key whose value does.
-/

import Mathlib.Data.List.MinMax
import Mathlib.Data.List.Nodup
import Mathlib.Data.List.Pairwise

universe u v

/-- A finite map from `κ` to `ν` with pairwise distinct keys. -/
structure AssocMap (κ : Type u) (ν : Type v) where
  entries : List (κ × ν)
  nodup : (entries.map Prod.fst).Nodup
  deriving DecidableEq

namespace AssocMap

open List

variable {κ : Type u} {ν : Type v}

def empty : AssocMap κ ν := ⟨[], nodup_nil⟩

theorem nodup_filter {entries : List (κ × ν)} (h : (entries.map Prod.fst).Nodup)
    (p : κ × ν → Bool) : ((entries.filter p).map Prod.fst).Nodup :=
  h.sublist ((filter_sublist (p := p)).map Prod.fst)

variable (m : AssocMap κ ν)

/-- Erase every entry that satisfies the test. -/
def eraseWhere (p : κ → ν → Bool) : AssocMap κ ν :=
  ⟨m.entries.filter fun entry => !p entry.1 entry.2, nodup_filter m.nodup _⟩

attribute [local simp] Function.comp_def

variable (f : κ → ν → ν)

/-- Change every value where it stands. -/
def mapValues : AssocMap κ ν where
  entries := m.entries.map fun entry => (entry.1, f entry.1 entry.2)
  nodup := by
    simpa [map_map] using m.nodup

/-- A map with other values under the same keys. -/
def map {μ : Type*} (m : AssocMap κ ν) (f : ν → μ) : AssocMap κ μ where
  entries := m.entries.map fun entry => (entry.1, f entry.2)
  nodup := by simpa [map_map] using m.nodup

/-- How many keys satisfy the test. -/
def countKeys (p : κ → Bool) : ℕ :=
  (m.entries.filter fun entry => p entry.1).length

attribute [local simp] mapValues

@[simp]
theorem keys_mapValues : (m.mapValues f).entries.map Prod.fst = m.entries.map Prod.fst := by
  simp

theorem mapValues_mapValues (f g : κ → ν → ν) :
    (m.mapValues f).mapValues g = m.mapValues fun k v => g k (f k v) := by
  simp

@[simp]
theorem countKeys_mapValues (p : κ → Bool) : (m.mapValues f).countKeys p = m.countKeys p := by
  simp [countKeys, filter_map]

theorem countKeys_eraseWhere {m : AssocMap κ ν} {q : κ → ν → Bool} {p : κ → Bool}
    (hspared : ∀ k v, (k, v) ∈ m.entries → p k = true → q k v = false) :
    (m.eraseWhere q).countKeys p = m.countKeys p := by
  simp only [countKeys, eraseWhere, filter_filter]
  congr 1
  apply filter_congr
  intro entry hentry
  cases hp : p entry.1 with
  | false => simp
  | true => simp [hspared entry.1 entry.2 hentry hp]

variable [DecidableEq κ]

/-- The value stored under a key. -/
def find? (m : AssocMap κ ν) (k : κ) : Option ν :=
  (m.entries.find? fun entry => entry.1 = k).map Prod.snd

/-- Insert a value, replacing the one already stored under the key. -/
def insertOrAssign (m : AssocMap κ ν) (k : κ) (v : ν) : AssocMap κ ν where
  entries := (k, v) :: m.entries.filter fun entry => entry.1 ≠ k
  nodup := by
    rw [map_cons, nodup_cons]
    refine ⟨?_, nodup_filter m.nodup _⟩
    simp

@[simp]
theorem find?_empty (k : κ) : (empty : AssocMap κ ν).find? k = none := rfl

theorem find?_eq_some_iff (m : AssocMap κ ν) (k : κ) (v : ν) :
    m.find? k = some v ↔ (k, v) ∈ m.entries := by
  obtain ⟨entries, hnodup⟩ := m
  simp only [find?]
  induction entries with
  | nil => simp
  | cons entry _ ih =>
    rw [map_cons, nodup_cons] at hnodup
    rw [find?_cons]
    by_cases hkey : entry.1 = k
    · simp only [hkey, decide_true, Option.map_some, Option.some.injEq, mem_cons]
      constructor
      · intro hv
        exact Or.inl (Prod.ext hkey.symm hv.symm)
      · rintro (heq | hmem)
        · rw [← heq]
        · exact absurd (mem_map_of_mem (f := Prod.fst) hmem) (hkey ▸ hnodup.1)
    · simp only [hkey, decide_false, mem_cons]
      rw [ih hnodup.2]
      constructor
      · exact Or.inr
      · rintro (heq | hmem)
        · exact absurd (congrArg Prod.fst heq).symm hkey
        · exact hmem

@[simp]
theorem find?_insertOrAssign (m : AssocMap κ ν) (k k' : κ) (v : ν) :
    (m.insertOrAssign k v).find? k' = if k' = k then some v else m.find? k' := by
  by_cases hkey : k' = k
  · rw [if_pos hkey, find?_eq_some_iff]
    simp [insertOrAssign, hkey]
  · rw [if_neg hkey]
    apply Option.ext
    intro _
    rw [find?_eq_some_iff, find?_eq_some_iff]
    simp [insertOrAssign, hkey]

@[simp]
theorem find?_eraseWhere (m : AssocMap κ ν) (p : κ → ν → Bool) (k : κ) :
    (m.eraseWhere p).find? k = (m.find? k).filter fun v => !p k v := by
  apply Option.ext
  intro _
  rw [find?_eq_some_iff, Option.filter_eq_some_iff, find?_eq_some_iff]
  simp [eraseWhere]

@[simp]
theorem find?_mapValues (m : AssocMap κ ν) (f : κ → ν → ν) (k : κ) :
    (m.mapValues f).find? k = (m.find? k).map (f k) := by
  apply Option.ext
  intro _
  rw [find?_eq_some_iff, Option.map_eq_some_iff]
  simp only [find?_eq_some_iff, mapValues, mem_map, Prod.mk.injEq]
  constructor
  · rintro ⟨entry, hentry, rfl, rfl⟩
    exact ⟨entry.2, hentry, rfl⟩
  · rintro ⟨v', hv', rfl⟩
    exact ⟨(k, v'), hv', rfl, rfl⟩

variable {m : AssocMap ℕ ν} {μ : Type*} {f : κ → ν → ν} {v : ν} {p : ν → Bool} {k : ℕ}

@[simp]
theorem find?_map (m : AssocMap κ ν) (f : ν → μ) (k : κ) : (m.map f).find? k = (m.find? k).map f := by
  simp [find?, map]

theorem mapValues_insertOrAssign (m : AssocMap κ ν) (f : κ → ν → ν) (k : κ) (v : ν) :
    (m.insertOrAssign k v).mapValues f = (m.mapValues f).insertOrAssign k (f k v) := by
  simp [insertOrAssign, filter_map]

theorem mapValues_congr {m : AssocMap κ ν} {g : κ → ν → ν}
    (h : ∀ k v, m.find? k = some v → f k v = g k v) : m.mapValues f = m.mapValues g := by
  simp only [mapValues, mk.injEq]
  apply map_congr_left
  intro entry hentry
  exact Prod.ext rfl (h entry.1 entry.2 ((find?_eq_some_iff _ _ _).mpr hentry))

theorem mapValues_eq_self {m : AssocMap κ ν}
    (h : ∀ k v, m.find? k = some v → f k v = v) : m.mapValues f = m := by
  rw [mapValues_congr h]
  simp

theorem countKeys_insertOrAssign {m : AssocMap κ ν} {k : κ} {p : κ → Bool}
    (hk : p k = false) : (m.insertOrAssign k v).countKeys p = m.countKeys p := by
  simp only [countKeys, insertOrAssign, filter_cons, hk, Bool.false_eq_true, if_false, filter_filter]
  congr 1
  apply filter_congr
  intro entry _
  cases hp : p entry.1 with
  | false => simp
  | true =>
    have hne : entry.1 ≠ k := by
      rintro rfl
      exact absurd hp (by simp [hk])
    simp [hne]

/-! ## The least key -/

/-- The least key whose value satisfies the test. -/
def minKey? (m : AssocMap ℕ ν) (p : ν → Bool) : Option ℕ :=
  ((m.entries.filter fun entry => p entry.2).map Prod.fst).min?

theorem find?_of_minKey? (h : m.minKey? p = some k) : ∃ v, m.find? k = some v ∧ p v = true := by
  have hmem := (min?_eq_some_iff.mp h).1
  obtain ⟨entry, hentry, rfl⟩ := mem_map.mp hmem
  rw [mem_filter] at hentry
  exact ⟨entry.2, (find?_eq_some_iff _ _ _).mpr hentry.1, hentry.2⟩

theorem minKey?_le {k' : ℕ}
    (h : m.minKey? p = some k) (hfound : m.find? k' = some v) (hp : p v = true) : k ≤ k' := by
  apply (min?_eq_some_iff.mp h).2
  apply mem_map_of_mem (f := Prod.fst) (a := (k', v))
  exact mem_filter.mpr ⟨(find?_eq_some_iff _ _ _).mp hfound, hp⟩

theorem minKey?_eq_none_iff : m.minKey? p = none ↔ ∀ k v, m.find? k = some v → p v = false := by
  rw [minKey?, min?_eq_none_iff, map_eq_nil_iff, filter_eq_nil_iff]
  constructor
  · intro h k v hfound
    simpa using h (k, v) ((find?_eq_some_iff _ _ _).mp hfound)
  · intro h entry hentry
    simp [h entry.1 entry.2 ((find?_eq_some_iff _ _ _).mpr hentry)]

theorem minKey?_congr {m' : AssocMap ℕ μ} {q : μ → Bool}
    (h : ∀ k, (∃ v, m.find? k = some v ∧ p v = true) ↔ ∃ v, m'.find? k = some v ∧ q v = true) :
    m.minKey? p = m'.minKey? q := by
  cases hleft : m.minKey? p with
  | none =>
    symm
    rw [minKey?_eq_none_iff] at hleft ⊢
    intro k v hfound
    cases hq : q v with
    | false => rfl
    | true =>
      obtain ⟨w, hw, hp⟩ := (h k).mpr ⟨v, hfound, hq⟩
      rw [hleft k w hw] at hp
      cases hp
  | some k =>
    obtain ⟨v', hfound', hq⟩ := (h k).mp (find?_of_minKey? hleft)
    cases hright : m'.minKey? q with
    | none =>
      rw [minKey?_eq_none_iff] at hright
      rw [hright k v' hfound'] at hq
      cases hq
    | some k' =>
      obtain ⟨v, hfound, hp⟩ := (h k').mpr (find?_of_minKey? hright)
      have hle := minKey?_le hleft hfound hp
      have hge := minKey?_le hright hfound' hq
      rw [le_antisymm hle hge]

theorem minKey?_mapValues {f : ℕ → ν → ν} {q : ν → Bool}
    (h : ∀ k v, p (f k v) = q v) : (m.mapValues f).minKey? p = m.minKey? q := by
  simp [minKey?, filter_map, h]

end AssocMap
