/-
# The least of a collection

A result list that keeps no more than a bound of the items it is given, and evicts the greatest ones,
ends with the first items of the collection in order. Items are compared by a key, and two items may have
the same key: which of them comes first is left open.
-/

import Mathlib.Data.List.Sort
import CppIndexer.Lib.Budget

namespace Least

open List Budget

variable {α κ : Type*} [LinearOrder κ]

/-- The items come in the order of their keys. -/
abbrev Sorted (key : α → κ) (xs : List α) : Prop := xs.Pairwise fun a b => key a ≤ key b

/-- `kept` are the first items of `all`, in order, that the bound allows. -/
def FirstOf (key : α → κ) (bound : Budget) (all kept : List α) : Prop :=
  ∃ sorted, sorted.Perm all ∧ Sorted key sorted ∧ kept = bound.cut sorted

variable {key : α → κ} {bound : Budget} {all kept : List α}

/-! ## Insertion -/

/-- Insert an item behind all that are not greater. -/
def insertBehind (key : α → κ) (a : α) (xs : List α) : List α :=
  xs.orderedInsert (fun a b => key a < key b) a

theorem perm_insertBehind (a : α) (xs : List α) : (insertBehind key a xs).Perm (a :: xs) :=
  perm_orderedInsert _ _ _

theorem length_insertBehind (a : α) (xs : List α) : (insertBehind key a xs).length = xs.length + 1 :=
  orderedInsert_length _ _ _

theorem insertBehind_cons (a b : α) (xs : List α) : insertBehind key a (b :: xs) =
    if key a < key b then a :: b :: xs else b :: insertBehind key a xs :=
  orderedInsert_cons _ _ _ _

theorem sorted_insertBehind (a : α) {xs : List α} (h : Sorted key xs) :
    Sorted key (insertBehind key a xs) := by
  induction xs with
  | nil => exact pairwise_singleton _ _
  | cons b rest ih =>
    have hhead := (pairwise_cons.mp h).1
    rw [insertBehind_cons]
    split
    · rename_i hlt
      apply pairwise_cons.mpr ⟨_, h⟩
      intro c hc
      cases mem_cons.mp hc with
      | inl hb => exact hb ▸ hlt.le
      | inr hrest => exact hlt.le.trans (hhead c hrest)
    · rename_i hle
      apply pairwise_cons.mpr ⟨_, ih (pairwise_cons.mp h).2⟩
      intro c hc
      cases mem_cons.mp ((perm_insertBehind a rest).mem_iff.mp hc) with
      | inl ha => exact ha ▸ not_lt.mp hle
      | inr hrest => exact hhead c hrest

/-- What is beyond the bound already does not come back by an insertion. -/
theorem take_insertBehind (n : ℕ) (a : α) (xs : List α) :
    (insertBehind key a (xs.take n)).take n = (insertBehind key a xs).take n := by
  induction xs generalizing n with
  | nil => rw [take_nil]
  | cons _ _ ih =>
    cases n with
    | zero => rfl
    | succ n =>
      rw [take_succ_cons, insertBehind_cons, insertBehind_cons]
      split
      · rw [take_succ_cons, take_succ_cons]
        congr 1
        cases n with
        | zero => rfl
        | succ => rw [take_succ_cons, take_succ_cons, take_take, min_eq_left (by omega)]
      · rw [take_succ_cons, take_succ_cons, ih]

/-- Inserting an item and evicting the last one where there are too many. -/
def insertWithin (key : α → κ) (bound : Budget) (a : α) (kept : List α) : List α :=
  if bound.exceeded (insertBehind key a kept).length then (insertBehind key a kept).dropLast
  else insertBehind key a kept

theorem insertWithin_eq_cut (a : α) (hbound : bound.exceeded kept.length = false) :
    insertWithin key bound a kept = bound.cut (insertBehind key a kept) := by
  cases bound with
  | none => rfl
  | some n =>
    have hle : kept.length ≤ n := by simpa [exceeded] using hbound
    unfold insertWithin
    rw [length_insertBehind]
    by_cases hfull : n < kept.length + 1
    · have hn : n = kept.length := by omega
      simp only [exceeded, hfull, decide_true, if_true, cut]
      rw [dropLast_eq_take, length_insertBehind, hn, Nat.add_sub_cancel]
    · simp only [exceeded, hfull, decide_false, Bool.false_eq_true, if_false, cut]
      exact (take_of_length_le (by rw [length_insertBehind]; omega)).symm

/-! ## The first items -/

namespace FirstOf

theorem nil : FirstOf key bound ([] : List α) [] := by
  refine ⟨[], List.Perm.refl _, List.Pairwise.nil, ?_⟩
  cases bound with
  | none => rfl
  | some => exact take_nil.symm

theorem of_sorted {xs : List α} (hsorted : Sorted key xs) (hperm : xs.Perm all) :
    FirstOf key bound all (bound.cut xs) := ⟨xs, hperm, hsorted, rfl⟩

section

variable (h : FirstOf key bound all kept)
include h

theorem congr {all' : List α} (hperm : all.Perm all') :
    FirstOf key bound all' kept := by
  obtain ⟨sorted, hsorted, hkept⟩ := h
  exact ⟨sorted, hsorted.trans hperm, hkept⟩

theorem sorted : Sorted key kept := by
  obtain ⟨_, _, hsorted, rfl⟩ := h
  cases bound with
  | none => exact hsorted
  | some => exact hsorted.sublist (take_sublist _ _)

theorem within : bound.exceeded kept.length = false := by
  obtain ⟨_, _, _, rfl⟩ := h
  cases bound with
  | none => rfl
  | some => simp [exceeded, cut]

theorem perm (hbound : bound.exceeded all.length = false) : kept.Perm all := by
  obtain ⟨_, hperm, _, rfl⟩ := h
  rwa [cut_eq_self (by rwa [hperm.length_eq])]

theorem insert (a : α) : FirstOf key bound (a :: all) (insertWithin key bound a kept) := by
  rw [insertWithin_eq_cut a h.within]
  obtain ⟨sorted, hperm, hsorted, rfl⟩ := h
  refine ⟨insertBehind key a sorted, (perm_insertBehind a sorted).trans (hperm.cons a),
    sorted_insertBehind a hsorted, ?_⟩
  cases bound with
  | none => rfl
  | some n => exact take_insertBehind n a sorted

end

end FirstOf

end Least
