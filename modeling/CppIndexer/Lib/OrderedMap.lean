/-
# Ordered sets and maps built from a list

A set that iterates in order, as the list of its members, and a map that
iterates in the order of its keys, as the list of its entries.  A map is built
in two ways: by assignments, of which the last to a key wins, or by appending
each element of a list to the entry of its key.  Members are put in their place
one at a time, so that a set of constants evaluates by recursion on the list.
-/

import Mathlib.Data.List.Nodup
import Mathlib.Data.List.Sort
import Mathlib.Order.Basic

namespace OrderedMap

open List

variable {α κ ν : Type*} [LinearOrder κ]

/-! ## Sets -/

/-- Put a member in its place, unless it is there. -/
def insertKey (k : κ) : List κ → List κ
  | [] => [k]
  | x :: xs =>
    if k < x then k :: x :: xs
    else if k = x then x :: xs
    else x :: insertKey k xs

def orderedSet (xs : List κ) : List κ := xs.foldr insertKey []

variable {xs : List κ} {k a : κ}

theorem mem_insertKey : a ∈ insertKey k xs ↔ a = k ∨ a ∈ xs := by
  induction xs with
  | nil => simp [insertKey]
  | cons x rest ih =>
    simp only [insertKey]
    split
    · simp
    · split
      · rename_i _ heq
        simp [heq]
      · simp only [mem_cons, ih]
        exact or_left_comm

theorem mem_orderedSet : a ∈ orderedSet xs ↔ a ∈ xs := by
  induction xs with
  | nil => simp [orderedSet]
  | cons _ _ ih =>
    rw [orderedSet, foldr_cons, mem_insertKey, mem_cons]
    exact or_congr_right ih

theorem pairwise_insertKey (h : xs.Pairwise (· < ·)) : (insertKey k xs).Pairwise (· < ·) := by
  induction xs with
  | nil => simp [insertKey]
  | cons x rest ih =>
    rw [pairwise_cons] at h
    simp only [insertKey]
    split
    · rename_i hlt
      refine List.Pairwise.cons ?_ (pairwise_cons.mpr h)
      intro y hy
      rcases mem_cons.mp hy with rfl | hrest
      · exact hlt
      · exact hlt.trans (h.1 y hrest)
    · split
      · exact pairwise_cons.mpr h
      · rename_i hle hne
        refine List.Pairwise.cons ?_ (ih h.2)
        intro y hy
        rcases mem_insertKey.mp hy with rfl | hrest
        · exact lt_of_le_of_ne (not_lt.mp hle) fun heq => hne heq.symm
        · exact h.1 y hrest

theorem pairwise_orderedSet (xs : List κ) : (orderedSet xs).Pairwise (· < ·) := by
  induction xs with
  | nil => exact List.Pairwise.nil
  | cons _ _ ih => exact pairwise_insertKey ih

theorem nodup_orderedSet (xs : List κ) : (orderedSet xs).Nodup :=
  (pairwise_orderedSet xs).imp ne_of_lt

theorem eq_of_pairwise_of_mem {ys : List κ} (hxs : xs.Pairwise (· < ·))
    (hys : ys.Pairwise (· < ·)) (hmem : ∀ a, a ∈ xs ↔ a ∈ ys) : xs = ys := by
  have hperm : xs.Perm ys :=
    (perm_ext_iff_of_nodup (hxs.imp ne_of_lt) (hys.imp ne_of_lt)).mpr hmem
  exact hperm.eq_of_pairwise (fun a b _ _ hab hba => absurd hba (lt_asymm hab)) hxs hys

theorem orderedSet_eq_iff {ys : List κ} : orderedSet xs = orderedSet ys ↔ ∀ a, a ∈ xs ↔ a ∈ ys := by
  constructor
  · intro h _
    rw [← mem_orderedSet, h, mem_orderedSet]
  · intro h
    apply eq_of_pairwise_of_mem (pairwise_orderedSet _) (pairwise_orderedSet _)
    intro _
    rw [mem_orderedSet, mem_orderedSet, h]

/-! ## Maps -/

/-- The value under a key. -/
def find? (entries : List (κ × ν)) (k : κ) : Option ν :=
  (entries.find? fun entry => entry.1 = k).map Prod.snd

/-- `m[k] = v` for each pair in turn. -/
def assignAll (pairs : List (κ × ν)) : List (κ × ν) :=
  (orderedSet (pairs.map Prod.fst)).filterMap fun k =>
    (find? pairs.reverse k).map fun v => (k, v)

/-- `m[key x].push_back(x)` for each element in turn. -/
def group (key : α → κ) (xs : List α) : List (κ × List α) :=
  (orderedSet (xs.map key)).map fun k => (k, xs.filter fun x => key x = k)

theorem find?_cons (k' : κ) (v : ν) (rest : List (κ × ν)) (k : κ) :
    find? ((k', v) :: rest) k = if k' = k then some v else find? rest k := by
  by_cases h : k' = k <;> simp [find?, h]

theorem mem_of_find?_eq_some {entries : List (κ × ν)} {v : ν}
    (h : find? entries k = some v) : (k, v) ∈ entries := by
  obtain ⟨entry, hfound, rfl⟩ := Option.map_eq_some_iff.mp h
  have hkey : entry.1 = k := by simpa using find?_some hfound
  subst hkey
  exact List.mem_of_find?_eq_some hfound

theorem map_fst_group (key : α → κ) (xs : List α) :
    (group key xs).map Prod.fst = orderedSet (xs.map key) := by
  simp [group, Function.comp_def]

end OrderedMap
