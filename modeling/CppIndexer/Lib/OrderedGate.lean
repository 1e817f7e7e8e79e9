/-
# An ordered gate over natural ranks

A gate lets ranks through in increasing order. A rank may be released early; the
gate remembers it and skips over it once every lower rank has been released. The
bookkeeping is a set of released ranks and the least rank still awaited.

`Represents gate acted` ties the bookkeeping to the set of ranks that have been
released so far, in whatever order that happened. Ranks released a second time
may linger below the gate's position, so the released set is constrained only
from that position on.
-/

import Mathlib.Data.Finset.Card
import Mathlib.Data.Finset.Insert

namespace OrderedGate

/-- The least rank awaited and the ranks released ahead of it. -/
structure Gate where
  released : Finset ℕ := ∅
  next : ℕ := 0
  deriving DecidableEq

namespace Gate

/-- Advance over consecutive released ranks. Each iteration consumes one member
of the set, so its cardinality is enough fuel. -/
def advance : ℕ → Gate → Gate
  | 0, gate => gate
  | fuel + 1, gate =>
    if gate.next ∈ gate.released then
      advance fuel ⟨gate.released.erase gate.next, gate.next + 1⟩
    else gate

/-- Record `rank` and advance as far as the released ranks allow. -/
def release (gate : Gate) (rank : ℕ) : Gate :=
  let released := insert rank gate.released
  advance released.card ⟨released, gate.next⟩

/-- The ranks below the gate have all acted, the awaited one has not, and from
there on the released set is exactly the set of ranks that acted. -/
structure Represents (gate : Gate) (acted : Set ℕ) : Prop where
  below : ∀ rank < gate.next, rank ∈ acted
  awaited : gate.next ∉ acted
  above : ∀ rank, gate.next ≤ rank → (rank ∈ gate.released ↔ rank ∈ acted)

theorem represents_empty : Represents {} ∅ where
  below := by simp
  awaited := by simp
  above := by simp

variable {gate : Gate} {acted : Set ℕ} {rank : ℕ}

/-- The loop invariant of `advance`: with enough fuel it stops exactly at the
least rank that has not acted. -/
theorem represents_advance (fuel : ℕ) (gate : Gate) (hfuel : gate.released.card ≤ fuel)
    (hbelow : ∀ rank < gate.next, rank ∈ acted)
    (habove : ∀ rank, gate.next ≤ rank → (rank ∈ gate.released ↔ rank ∈ acted)) :
    (advance fuel gate).Represents acted := by
  induction fuel generalizing gate with
  | zero =>
    have hempty : gate.released = ∅ := Finset.card_eq_zero.mp (Nat.le_zero.mp hfuel)
    have hawaited : gate.next ∉ acted := by
      rw [← habove _ le_rfl, hempty]
      simp
    exact ⟨hbelow, hawaited, habove⟩
  | succ fuel ih =>
    unfold advance
    split
    · rename_i hmem
      apply ih
      · rw [Finset.card_erase_of_mem hmem]
        omega
      · intro rank hrank
        rcases Nat.lt_succ_iff_lt_or_eq.mp hrank with hlt | heq
        · exact hbelow rank hlt
        · exact heq ▸ (habove _ le_rfl).mp hmem
      · intro rank hrank
        have hne : rank ≠ gate.next := by
          simp only at hrank
          omega
        simp only [Finset.mem_erase, hne, ne_eq, not_false_eq_true, true_and]
        exact habove rank (by simp only at hrank; omega)
    · rename_i hmem
      exact ⟨hbelow, fun hacted => hmem ((habove _ le_rfl).mpr hacted), habove⟩

section

variable (h : gate.Represents acted)
include h

theorem Represents.release (rank : ℕ) : (gate.release rank).Represents (insert rank acted) := by
  apply represents_advance
  · exact le_rfl
  · exact fun r hr => Set.mem_insert_of_mem _ (h.below r hr)
  · intro r hr
    simp only [Finset.mem_insert, Set.mem_insert_iff]
    rw [h.above r hr]

theorem Represents.le_next (hlower : ∀ r < rank, r ∈ acted) : rank ≤ gate.next := by
  by_contra hlt
  exact h.awaited (hlower _ (Nat.lt_of_not_le hlt))

theorem Represents.eq_next (hnew : rank ∉ acted) (hopen : rank ≤ gate.next) : rank = gate.next := by
  rcases Nat.lt_or_eq_of_le hopen with hlt | heq
  · exact absurd (h.below rank hlt) hnew
  · exact heq

theorem Represents.lt_next (hlower : ∀ r ≤ rank, r ∈ acted) : rank < gate.next := by
  have hle := h.le_next fun r hr => hlower r (Nat.le_of_lt hr)
  refine Nat.lt_of_le_of_ne hle ?_
  intro heq
  exact h.awaited (heq ▸ hlower rank le_rfl)

end

end Gate

end OrderedGate
