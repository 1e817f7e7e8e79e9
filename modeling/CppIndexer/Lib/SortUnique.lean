/-
# Sorted lists without repetition

`sort` followed by `unique` on a list of a linear order, and the set operations on the
results. A list that is strictly increasing already is left as it is.
-/

import Mathlib.Data.List.Dedup
import Mathlib.Data.List.Sort
import Mathlib.Order.Defs.LinearOrder

namespace SortUnique

open List

variable {α : Type*} [LinearOrder α]

/-- Sort a list and remove repetitions. -/
def sortUnique (xs : List α) : List α := (xs.mergeSort fun a b => a ≤ b).dedup

variable {xs : List α}

theorem mem_sortUnique {a : α} : a ∈ sortUnique xs ↔ a ∈ xs := by
  simp [sortUnique]

theorem nodup_sortUnique (xs : List α) : (sortUnique xs).Nodup := nodup_dedup _

theorem pairwise_sortUnique (xs : List α) : (sortUnique xs).Pairwise (· < ·) := by
  have hsorted : (sortUnique xs).Pairwise (· ≤ ·) := by
    have h : (xs.mergeSort fun a b => a ≤ b).Pairwise fun a b => decide (a ≤ b) = true :=
      pairwise_mergeSort
        (fun a b c hab hbc => by simpa using le_trans (by simpa using hab) (by simpa using hbc))
        (fun a b => by simpa using le_total a b) xs
    exact (h.imp fun hab => by simpa using hab).sublist (dedup_sublist _)
  exact hsorted.imp₂ (fun a b hle hne => lt_of_le_of_ne hle hne) (nodup_sortUnique xs)

theorem sortUnique_of_pairwise (h : xs.Pairwise (· < ·)) : sortUnique xs = xs := by
  rw [sortUnique, mergeSort_of_pairwise (h.imp fun hab => decide_eq_true hab.le)]
  exact List.Nodup.dedup (h.imp ne_of_lt)

theorem length_sortUnique_le (xs : List α) : (sortUnique xs).length ≤ xs.length := by
  have hsub := (dedup_sublist (xs.mergeSort fun a b => a ≤ b)).length_le
  rwa [length_mergeSort] at hsub

theorem length_sortUnique (h : xs.Nodup) : (sortUnique xs).length = xs.length := by
  have hperm := mergeSort_perm xs fun a b => decide (a ≤ b)
  rw [sortUnique, List.Nodup.dedup (hperm.nodup_iff.mpr h), hperm.length_eq]

/-! ## By a key -/

section

variable {β : Type*} (key : β → α)

/-- Sort by a key; what has the same key stays in its order. -/
def sortBy (xs : List β) : List β := xs.mergeSort fun a b => key a ≤ key b

/-- What comes behind the last one kept, without repeated keys. -/
def uniqueAfter : β → List β → List β
  | _, [] => []
  | last, b :: rest =>
    if key last = key b then uniqueAfter last rest else b :: uniqueAfter b rest

/-- The first of each run of equal keys. -/
def uniqueBy : List β → List β
  | [] => []
  | a :: rest => a :: uniqueAfter key a rest

/-- `sort` followed by `unique`, by a key. -/
def sortUniqueBy (xs : List β) : List β := uniqueBy key (sortBy key xs)

variable {key} {xs : List β} {b last : β}

theorem mem_sortBy : b ∈ sortBy key xs ↔ b ∈ xs := mem_mergeSort

theorem perm_sortBy (xs : List β) : (sortBy key xs).Perm xs := mergeSort_perm xs _

theorem pairwise_sortBy (xs : List β) : (sortBy key xs).Pairwise fun a b => key a ≤ key b := by
  have h : (sortBy key xs).Pairwise fun a b => decide (key a ≤ key b) = true :=
    pairwise_mergeSort
      (fun a b c hab hbc => by simpa using le_trans (by simpa using hab) (by simpa using hbc))
      (fun a b => by simpa using le_total (key a) (key b)) xs
  exact h.imp fun hab => by simpa using hab

theorem pairwise_lt_sortBy (h : (xs.map key).Nodup) :
    (sortBy key xs).Pairwise fun a b => key a < key b := by
  have hnodup : ((sortBy key xs).map key).Nodup := ((perm_sortBy xs).map key).nodup_iff.mpr h
  exact (pairwise_sortBy xs).imp₂ (fun a b hle hne => lt_of_le_of_ne hle hne)
    (pairwise_map.mp hnodup)

theorem mem_of_mem_uniqueAfter (h : b ∈ uniqueAfter key last xs) : b ∈ xs := by
  induction xs generalizing last with
  | nil => cases h
  | cons _ _ ih =>
    rw [uniqueAfter] at h
    split at h
    · exact mem_cons_of_mem _ (ih h)
    · cases mem_cons.mp h with
      | inl hfirst =>
        rw [hfirst]
        exact mem_cons_self
      | inr hrest => exact mem_cons_of_mem _ (ih hrest)

theorem mem_of_mem_uniqueBy (h : b ∈ uniqueBy key xs) : b ∈ xs := by
  cases xs with
  | nil => cases h
  | cons =>
    cases mem_cons.mp h with
    | inl hfirst =>
      rw [hfirst]
      exact mem_cons_self
    | inr hrest => exact mem_cons_of_mem _ (mem_of_mem_uniqueAfter hrest)

theorem mem_of_mem_sortUniqueBy (h : b ∈ sortUniqueBy key xs) : b ∈ xs :=
  mem_sortBy.mp (mem_of_mem_uniqueBy h)

theorem pairwise_uniqueAfter (h : (last :: xs).Pairwise fun a b => key a ≤ key b) :
    (last :: uniqueAfter key last xs).Pairwise fun a b => key a < key b := by
  induction xs generalizing last with
  | nil => exact pairwise_singleton _ _
  | cons a _ ih =>
    rw [pairwise_cons] at h
    have hrest := (pairwise_cons.mp h.2).1
    rw [uniqueAfter]
    by_cases hkey : key last = key a
    · rw [if_pos hkey]
      apply ih
      apply pairwise_cons.mpr
      refine ⟨?_, (pairwise_cons.mp h.2).2⟩
      intro b hb
      exact hkey ▸ hrest b hb
    · rw [if_neg hkey]
      have hlt : key last < key a := lt_of_le_of_ne (h.1 a mem_cons_self) hkey
      apply pairwise_cons.mpr
      refine ⟨?_, ih h.2⟩
      intro b hb
      cases mem_cons.mp hb with
      | inl hfirst => exact hfirst ▸ hlt
      | inr hlater => exact lt_of_lt_of_le hlt (hrest b (mem_of_mem_uniqueAfter hlater))

theorem pairwise_sortUniqueBy (xs : List β) :
    (sortUniqueBy key xs).Pairwise fun a b => key a < key b := by
  have hsorted : (sortBy key xs).Pairwise fun a b => key a ≤ key b := pairwise_sortBy xs
  rw [sortUniqueBy]
  generalize sortBy key xs = sorted at hsorted
  cases sorted with
  | nil => exact List.Pairwise.nil
  | cons => exact pairwise_uniqueAfter hsorted

end

/-- The set operations of sorted lists. -/
inductive SetOp
  | union
  | intersect
  | except
  deriving DecidableEq

/-- `set_union`, `set_intersection` and `set_difference`. -/
def SetOp.apply (op : SetOp) (left right : List α) : List α :=
  match op with
  | .union => sortUnique (left ++ right)
  | .intersect => left.filter (· ∈ right)
  | .except => left.filter (· ∉ right)

end SortUnique
