/-
# The order of witnesses

`witness_less` compares lengths first and then the steps one by one. It is the order of a key, so that
sorting by it is sorting in a linear order, up to evidence and completeness, which it does not read.
-/

import Mathlib.Data.List.Lex
import Mathlib.Order.BooleanAlgebra.Basic
import CppIndexer.Lib.LeastOf
import CppIndexer.Query.Witness

namespace CppIndexer.Query

open Least PathStep

/-- What `witness_less` reads of a step, in its order. -/
def PathStep.key (step : PathStep) : ℤ ×ₗ String ×ₗ String ×ₗ Bool ×ₗ ℤ ×ₗ ℤ :=
  toLex (step.nodeId, toLex (step.domain, toLex (step.through, toLex (step.inbound,
    toLex (step.position, step.packIndex)))))

/-- What `witness_less` reads of a witness, in its order. -/
def PathWitness.key (witness : PathWitness) : ℤ ×ₗ List (ℤ ×ₗ String ×ₗ String ×ₗ Bool ×ₗ ℤ ×ₗ ℤ) :=
  toLex (witness.length, witness.steps.map PathStep.key)

theorem stepLess_cases (a b : PathStep) :
    stepLess a b = if a.key = b.key then none else some (decide (a.key < b.key)) := by
  unfold stepLess key
  simp only [Prod.Lex.toLex_lt_toLex, EmbeddingLike.apply_eq_iff_eq, Prod.mk.injEq]
  split_ifs <;> simp_all [Bool.lt_iff]

/-- The first differing step decides, and behind it the number of steps. -/
theorem stepsLess_iff (xs ys : List PathStep) :
    ((xs.zip ys).findSome? fun (a, b) => stepLess a b).getD (decide (xs.length < ys.length)) = true ↔
      xs.map key < ys.map key := by
  induction xs generalizing ys with
  | nil => cases ys <;> simp
  | cons a _ ih =>
    cases ys with
    | nil => simp
    | cons b ys =>
      rw [List.zip_cons_cons, List.findSome?_cons, List.map_cons, List.map_cons, List.cons_lt_cons_iff,
        ← ih ys]
      dsimp only
      rw [stepLess_cases]
      by_cases h : a.key = b.key <;> simp [h]

theorem witnessLess_iff (x y : PathWitness) : witnessLess x y = true ↔ x.key < y.key := by
  unfold witnessLess PathWitness.key
  rw [Prod.Lex.toLex_lt_toLex]
  by_cases h : x.length = y.length
  · rw [if_neg (not_not.mpr h), stepsLess_iff]
    simp [h]
  · simp [h]

theorem not_witnessLess_eq :
    (fun x y => !witnessLess y x) = fun x y : PathWitness => decide (x.key ≤ y.key) := by
  funext x y
  rw [Bool.eq_iff_iff, decide_eq_true_eq, ← not_lt, ← witnessLess_iff]
  simp

/-- The cap of `sort_and_cap_witnesses`, where none is 0. -/
def capOf (cap : ℤ) : Budget := if 0 < cap then some cap.toNat else none

theorem sorted_mergeSort (results : List PathWitness) :
    Sorted PathWitness.key (results.mergeSort fun x y => !witnessLess y x) := by
  rw [not_witnessLess_eq]
  have hpairwise := @List.pairwise_mergeSort _ (fun x y : PathWitness => decide (x.key ≤ y.key))
    (by simpa using fun _ _ _ => le_trans)
    (by simpa using fun x y : PathWitness => le_total x.key y.key) results
  simpa using hpairwise

theorem sortAndCapWitnesses_fst (resultCap : Budget) (results : List PathWitness) (cap : ℤ) (flag : Bool) :
    sortAndCapWitnesses resultCap results cap flag =
      (resultCap.cut ((capOf cap).cut (results.mergeSort fun x y => !witnessLess y x)),
        flag || resultCap.exceeded
          ((capOf cap).cut (results.mergeSort fun x y => !witnessLess y x)).length) := by
  unfold sortAndCapWitnesses capOf
  split <;> rfl

variable {flag : Bool} {resultCap : Budget} {results : List PathWitness} {cap : ℤ}

theorem mem_of_mem_sortAndCapWitnesses
    {witness : PathWitness} (h : witness ∈ (sortAndCapWitnesses resultCap results cap flag).1) :
    witness ∈ results := by
  rw [sortAndCapWitnesses_fst] at h
  have hsorted := Budget.mem_of_mem_cut (Budget.mem_of_mem_cut h)
  exact (List.mergeSort_perm _ _).mem_iff.mp hsorted

theorem firstOf_sortAndCapWitnesses
    (h : (sortAndCapWitnesses resultCap results cap flag).2 = false) : flag = false ∧
      FirstOf PathWitness.key (capOf cap) results (sortAndCapWitnesses resultCap results cap flag).1 := by
  rw [sortAndCapWitnesses_fst] at h ⊢
  obtain ⟨hflag, hcap⟩ := Bool.or_eq_false_iff.mp h
  refine ⟨hflag, ?_⟩
  rw [Budget.cut_eq_self hcap]
  exact FirstOf.of_sorted (sorted_mergeSort results) (List.mergeSort_perm _ _)

theorem sortAndCapWitnesses_eq
    (hsorted : Sorted PathWitness.key results) (hcap : resultCap.exceeded results.length = false) (flag : Bool) :
    sortAndCapWitnesses resultCap results 0 flag = (results, flag) := by
  have hsort : results.mergeSort (fun x y => !witnessLess y x) = results := by
    rw [not_witnessLess_eq]
    exact List.mergeSort_of_pairwise (by simpa using hsorted)
  unfold sortAndCapWitnesses
  simp [hsort, hcap, Budget.cut_eq_self hcap]

end CppIndexer.Query
