/-
# Maps in the order of their keys

`std::map`: entries with strictly increasing keys.  Insertion puts an entry in
its place, and a map is determined by what it finds.
-/

import Mathlib.Order.Lattice
import Mathlib.Data.List.Perm.Basic
import Mathlib.Data.List.Pairwise

/-- A map whose entries stand in the order of their keys. -/
structure SortedMap (κ : Type*) (ν : Type*) [LinearOrder κ] where
  entries : List (κ × ν)
  sorted : entries.Pairwise fun a b => a.1 < b.1

namespace SortedMap

open List

variable {κ ν : Type*} [LinearOrder κ]

def empty : SortedMap κ ν := ⟨[], List.Pairwise.nil⟩

/-- The value of a key among entries. -/
def findIn (entries : List (κ × ν)) (k : κ) : Option ν :=
  (entries.find? fun entry => entry.1 = k).map Prod.snd

variable (m : SortedMap κ ν)

/-- `find`. -/
def find? (k : κ) : Option ν := findIn m.entries k

/-- An entry put in its place. -/
def insertIn (k : κ) (v : ν) : List (κ × ν) → List (κ × ν)
  | [] => [(k, v)]
  | (k', v') :: rest =>
    if k < k' then (k, v) :: (k', v') :: rest
    else if k' < k then (k', v') :: insertIn k v rest
    else (k, v) :: rest

theorem findIn_cons (k' : κ) (v : ν) (rest : List (κ × ν)) (k : κ) :
    findIn ((k', v) :: rest) k = if k' = k then some v else findIn rest k := by
  by_cases h : k' = k <;> simp [findIn, h]

variable {entries : List (κ × ν)} {k : κ} {v : ν}

theorem mem_insertIn {entry : κ × ν}
    (h : entry ∈ insertIn k v entries) : entry = (k, v) ∨ entry ∈ entries := by
  induction entries with
  | nil => exact .inl (mem_singleton.mp h)
  | cons _ _ ih =>
    rw [insertIn] at h
    split at h
    · exact mem_cons.mp h
    · split at h
      · cases mem_cons.mp h with
        | inl hfirst => exact .inr (by simp [hfirst])
        | inr hrest =>
          cases ih hrest with
          | inl hnew => exact .inl hnew
          | inr hold => exact .inr (mem_cons_of_mem _ hold)
      · cases mem_cons.mp h with
        | inl hnew => exact .inl hnew
        | inr hold => exact .inr (mem_cons_of_mem _ hold)

theorem sorted_insertIn (k : κ) (v : ν) (h : entries.Pairwise fun a b => a.1 < b.1) :
    (insertIn k v entries).Pairwise fun a b => a.1 < b.1 := by
  induction entries with
  | nil => exact pairwise_singleton _ _
  | cons first rest ih =>
    rw [pairwise_cons] at h
    rw [insertIn]
    split
    · rename_i hlt
      apply List.Pairwise.cons
      · intro entry hentry
        cases mem_cons.mp hentry with
        | inl hfirst =>
          rw [hfirst]
          exact hlt
        | inr hrest => exact hlt.trans (h.1 entry hrest)
      · exact pairwise_cons.mpr h
    · split
      · rename_i hlt
        apply List.Pairwise.cons _ (ih h.2)
        intro entry hentry
        cases mem_insertIn hentry with
        | inl hnew =>
          rw [hnew]
          exact hlt
        | inr hold => exact h.1 entry hold
      · rename_i hle hge
        have heq : k = first.1 := le_antisymm (not_lt.mp hge) (not_lt.mp hle)
        apply List.Pairwise.cons _ h.2
        intro entry hentry
        rw [heq]
        exact h.1 entry hentry

/-- `insert_or_assign`. -/
def insertOrAssign (k : κ) (v : ν) : SortedMap κ ν :=
  ⟨insertIn k v m.entries, sorted_insertIn k v m.sorted⟩

/-- `emplace`: an entry that is there already stays. -/
def emplace (k : κ) (v : ν) : SortedMap κ ν :=
  if (m.find? k).isSome then m else m.insertOrAssign k v

/-- Every entry that satisfies the test erased. -/
def eraseWhere (p : κ → ν → Bool) : SortedMap κ ν :=
  ⟨m.entries.filter fun entry => !p entry.1 entry.2, m.sorted.filter _⟩

@[simp]
theorem find?_empty (k : κ) : (empty : SortedMap κ ν).find? k = none := rfl

theorem findIn_insertIn (k k' : κ) (v : ν) (entries : List (κ × ν)) :
    findIn (insertIn k v entries) k' = if k' = k then some v else findIn entries k' := by
  induction entries with
  | nil =>
    rw [insertIn, findIn_cons]
    simp [eq_comm]
  | cons first rest ih =>
    have hfirst := findIn_cons first.1 first.2 rest k'
    rw [insertIn]
    split
    · rw [findIn_cons]
      simp [eq_comm]
    · split
      · rename_i hlt
        rw [findIn_cons, ih, hfirst]
        by_cases hk : first.1 = k'
        · have hne : k' ≠ k := by
            rw [← hk]
            exact hlt.ne
          rw [if_pos hk, if_neg hne, if_pos hk]
        · rw [if_neg hk, if_neg hk]
      · rename_i hle hge
        have heq : k = first.1 := le_antisymm (not_lt.mp hge) (not_lt.mp hle)
        rw [findIn_cons, hfirst, ← heq]
        by_cases hk : k' = k
        · rw [if_pos hk, if_pos hk.symm]
        · rw [if_neg hk, if_neg (Ne.symm hk), if_neg (Ne.symm hk)]

@[simp]
theorem find?_insertOrAssign (k k' : κ) (v : ν) :
    (m.insertOrAssign k v).find? k' = if k' = k then some v else m.find? k' :=
  findIn_insertIn k k' v m.entries

theorem findIn_eq_some_iff (h : entries.Pairwise fun a b => a.1 < b.1)
    : findIn entries k = some v ↔ (k, v) ∈ entries := by
  induction entries with
  | nil => simp [findIn]
  | cons first rest ih =>
    rw [pairwise_cons] at h
    have hfirst := findIn_cons first.1 first.2 rest k
    rw [hfirst, mem_cons]
    by_cases hk : first.1 = k
    · rw [if_pos hk, Option.some.injEq]
      constructor
      · intro hv
        exact .inl (Prod.ext hk.symm hv.symm)
      · rintro (heq | hrest)
        · rw [← heq]
        · exact absurd hk (h.1 _ hrest).ne
    · rw [if_neg hk, ih h.2]
      constructor
      · exact .inr
      · rintro (heq | hrest)
        · exact absurd (by rw [← heq]) hk
        · exact hrest

theorem find?_eq_some_iff (m : SortedMap κ ν) :
    m.find? k = some v ↔ (k, v) ∈ m.entries := findIn_eq_some_iff m.sorted

theorem insertIn_of_lt
    (h : ∀ entry ∈ entries, entry.1 < k) : insertIn k v entries = entries ++ [(k, v)] := by
  induction entries with
  | nil => rfl
  | cons first _ ih =>
    have hfirst := h first mem_cons_self
    rw [insertIn, if_neg hfirst.not_gt, if_pos hfirst,
      ih fun entry hentry => h entry (mem_cons_of_mem _ hentry), cons_append]

theorem entries_insertOrAssign_of_lt (m : SortedMap κ ν) (v : ν) (h : ∀ entry ∈ m.entries, entry.1 < k) :
    (m.insertOrAssign k v).entries = m.entries ++ [(k, v)] := insertIn_of_lt h

/-- Entries inserted one after the other. -/
def insertAll (entries : List (κ × ν)) : SortedMap κ ν :=
  entries.foldl (fun m entry => m.insertOrAssign entry.1 entry.2) m

theorem find?_insertAll (m : SortedMap κ ν) (h : (entries.map Prod.fst).Nodup) (k : κ) :
    (m.insertAll entries).find? k = (findIn entries k).or (m.find? k) := by
  induction entries generalizing m with
  | nil => rfl
  | cons first rest ih =>
    rw [map_cons, nodup_cons] at h
    have hfirst := findIn_cons first.1 first.2 rest k
    have hih := ih (m.insertOrAssign first.1 first.2) h.2
    rw [insertAll] at hih ⊢
    rw [foldl_cons, hih, hfirst, find?_insertOrAssign]
    by_cases hk : first.1 = k
    · have hnone : findIn rest k = none := by
        rw [findIn, find?_eq_none.mpr]
        · rfl
        · intro entry hentry
          have hne : entry.1 ≠ k := by
            intro heq
            exact h.1 (by rw [hk, ← heq]; exact mem_map_of_mem hentry)
          simpa using hne
      rw [if_pos hk, hnone, if_pos hk.symm]
      rfl
    · rw [if_neg hk, if_neg (Ne.symm hk)]

end SortedMap
