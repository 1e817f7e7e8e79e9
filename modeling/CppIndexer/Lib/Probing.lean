/-
# Probing for a free name

Every key has a sequence of candidates; it takes the first one that nobody
holds.  The search is bounded by a number of attempts.  It fails only where all
of them are taken, so a stretch of attempts with more different candidates than
there are holders is enough for it to succeed.
-/

import Mathlib.Data.List.Nodup
import Mathlib.Data.List.Perm.Subperm

namespace Probing

variable {α : Type*}

/-- The candidate of the first free attempt, of `fuel` attempts from `attempt`
on. -/
def firstFree (taken : α → Bool) (candidate : ℕ → α) : (fuel attempt : ℕ) → Option α
  | 0, _ => none
  | fuel + 1, attempt =>
    if taken (candidate attempt) then firstFree taken candidate fuel (attempt + 1)
    else some (candidate attempt)

variable {taken : α → Bool} {candidate : ℕ → α} {fuel attempt : ℕ}

theorem not_taken_of_firstFree {a : α}
    (h : firstFree taken candidate fuel attempt = some a) : taken a = false := by
  induction fuel generalizing attempt with
  | zero => cases h
  | succ _ ih =>
    cases htaken : taken (candidate attempt) with
    | true =>
      rw [firstFree, if_pos htaken] at h
      exact ih h
    | false =>
      rw [firstFree, if_neg (by simp [htaken]), Option.some.injEq] at h
      rw [← h]
      exact htaken

theorem firstFree_eq_none_iff : firstFree taken candidate fuel attempt = none ↔
      ∀ i < fuel, taken (candidate (attempt + i)) = true := by
  induction fuel generalizing attempt with
  | zero => simp [firstFree]
  | succ fuel ih =>
    cases htaken : taken (candidate attempt) with
    | true =>
      rw [firstFree, if_pos htaken, ih]
      constructor
      · intro h i hi
        cases i with
        | zero => exact htaken
        | succ i =>
          have hnext := h i (Nat.lt_of_succ_lt_succ hi)
          rwa [Nat.add_right_comm, Nat.add_assoc] at hnext
      · intro h i hi
        have hnext := h (i + 1) (Nat.succ_lt_succ hi)
        rwa [← Nat.add_assoc, Nat.add_right_comm] at hnext
    | false =>
      rw [firstFree, if_neg (by simp [htaken])]
      constructor
      · intro h
        cases h
      · intro h
        have hfirst := h 0 (Nat.succ_pos fuel)
        rw [Nat.add_zero, htaken] at hfirst
        cases hfirst

/-- More different candidates than holders leave one free. -/
theorem firstFree_ne_none (place : ℕ → ℕ) (holders : List α) {fuel n : ℕ}
    (hholders : ∀ a, taken a = true → a ∈ holders) (hplace : ∀ i < n, place i < fuel)
    (hinj : ∀ i < n, ∀ j < n, candidate (place i) = candidate (place j) → i = j)
    (hcount : holders.length < n) : firstFree taken candidate fuel 0 ≠ none := by
  intro hnone
  have htaken := firstFree_eq_none_iff.mp hnone
  have hnodup : ((List.range n).map fun i => candidate (place i)).Nodup := by
    apply List.Nodup.map_on _ List.nodup_range
    intro i hi j hj heq
    exact hinj i (List.mem_range.mp hi) j (List.mem_range.mp hj) heq
  have hsubset : ((List.range n).map fun i => candidate (place i)) ⊆ holders := by
    intro _ ha
    obtain ⟨i, hi, rfl⟩ := List.mem_map.mp ha
    have hheld := htaken (place i) (hplace i (List.mem_range.mp hi))
    rw [Nat.zero_add] at hheld
    exact hholders _ hheld
  have hle := (hnodup.subperm hsubset).length_le
  rw [List.length_map, List.length_range] at hle
  exact absurd hcount (Nat.not_lt.mpr hle)

end Probing
