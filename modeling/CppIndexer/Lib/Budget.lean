/-
# Budgets

A budget bounds the length of a list; no budget at all is unbounded. A computation is
honest when, whenever it does not report a cut, its result is the unbounded one.
-/

import Mathlib.Algebra.GroupWithZero.Nat
import Mathlib.Logic.Function.Iterate
import Mathlib.Order.Defs.LinearOrder

/-- A bound on a number of items, `none` for no bound. -/
abbrev Budget := Option ℕ

namespace Budget

open List

/-- More items than the budget allows. -/
def exceeded (budget : Budget) (n : ℕ) : Bool :=
  match budget with
  | some bound => bound < n
  | none => false

/-- The items the budget allows. -/
def cut {α : Type*} (budget : Budget) (xs : List α) : List α :=
  match budget with
  | some bound => xs.take bound
  | none => xs

/-- One item more than the budget allows. -/
def peek {α : Type*} (budget : Budget) (xs : List α) : List α :=
  match budget with
  | some bound => xs.take (bound + 1)
  | none => xs

/-- The items the budget allows after some are used. -/
def cutAfter {α : Type*} (budget : Budget) (used : ℕ) (xs : List α) : List α :=
  match budget with
  | some bound => xs.take (bound - used)
  | none => xs

/-- One item more than the budget allows after some are used. -/
def peekAfter {α : Type*} (budget : Budget) (used : ℕ) (xs : List α) : List α :=
  match budget with
  | some bound => xs.take (bound - used + 1)
  | none => xs

/-- What is left of the budget for more items, and whether it falls short. A budget that is used
up falls short even of no items. -/
def grant {α : Type*} (budget : Budget) (used : ℕ) (xs : List α) : List α × Bool :=
  match budget with
  | some bound => if bound ≤ used then ([], true)
      else (xs.take (bound - used), bound - used < xs.length)
  | none => (xs, false)

@[simp]
theorem exceeded_none (n : ℕ) : exceeded none n = false := rfl

@[simp]
theorem exceeded_zero (budget : Budget) : budget.exceeded 0 = false := by
  cases budget with
  | none => rfl
  | some => rfl

variable {budget : Budget} {α : Type*} {left used : ℕ} {depth : ℤ} {frontier xs : List α}
  {next : List α → List α}

@[simp]
theorem cut_none (xs : List α) : cut none xs = xs := rfl

theorem cut_eq_self (h : budget.exceeded xs.length = false) : budget.cut xs = xs := by
  cases budget with
  | none => rfl
  | some => exact take_of_length_le (by simpa [exceeded] using h)

theorem mem_of_mem_cut {a : α} (h : a ∈ budget.cut xs) : a ∈ xs := by
  cases budget with
  | none => exact h
  | some => exact mem_of_mem_take h

theorem grant_eq_self (h : (budget.grant used xs).2 = false) : budget.grant used xs = (xs, false) := by
  cases budget with
  | none => rfl
  | some bound =>
    unfold grant at h ⊢
    by_cases hused : bound ≤ used
    · simp [hused] at h
    · simp only [hused, if_false, decide_eq_false_iff_not, Nat.not_lt] at h ⊢
      rw [take_of_length_le h]
      simp [h]

theorem grant_fst_eq_self
    (h : budget.exceeded (used + xs.length) = false) : (budget.grant used xs).1 = xs := by
  cases budget with
  | none => rfl
  | some bound =>
    have hle : used + xs.length ≤ bound := by simpa [exceeded] using h
    unfold grant
    by_cases hused : bound ≤ used
    · have hempty : xs = [] := eq_nil_of_length_eq_zero (by omega)
      simp [hused, hempty]
    · simp only [hused, if_false]
      exact take_of_length_le (by omega)

theorem peekAfter_eq_self
    (h : budget.exceeded (used + xs.length) = false) : budget.peekAfter used xs = xs := by
  cases budget with
  | none => rfl
  | some bound =>
    have hle : used + xs.length ≤ bound := by simpa [exceeded] using h
    exact take_of_length_le (by omega)

theorem exceeded_of_le {m n : ℕ} (hle : m ≤ n)
    (h : budget.exceeded n = false) : budget.exceeded m = false := by
  cases budget with
  | none => rfl
  | some =>
    simp only [exceeded, decide_eq_false_iff_not, Nat.not_lt] at h ⊢
    exact Nat.le_trans hle h

/-! ## Search by levels -/

/-- Follow a step from level to level, at most `left` times, and emit the levels from the given
depth on. A level that exceeds the budget of all levels together is cut and ends the search, and
so does a flag that is raised already. -/
def levels {α : Type*} [DecidableEq α] (budget : Budget) (next : List α → List α) (minDepth : ℤ) :
    ℕ → ℤ → List α → ℕ → Bool → List α × Bool
  | 0, _, _, _, flag => ([], flag)
  | left + 1, depth, frontier, used, flag =>
    if frontier = [] then ([], flag)
    else
      let level := next frontier
      let flag := flag || budget.exceeded (used + level.length)
      let level := if budget.exceeded (used + level.length) then budget.cutAfter used level
        else level
      let emitted := if minDepth ≤ depth then level else []
      if flag then (emitted, flag)
      else
        let rest := levels budget next minDepth left (depth + 1) level (used + level.length) flag
        (emitted ++ rest.1, rest.2)

theorem levels_eq_unbounded [DecidableEq α] {minDepth : ℤ}
    {flag : Bool} (h : (budget.levels next minDepth left depth frontier used flag).2 = false) :
    flag = false ∧ levels none next minDepth left depth frontier used flag =
      budget.levels next minDepth left depth frontier used flag := by
  induction left generalizing depth frontier used flag with
  | zero => exact ⟨h, rfl⟩
  | succ _ ih =>
    simp only [levels] at h ⊢
    by_cases hempty : frontier = []
    · simpa [hempty] using h
    · simp only [hempty, if_false, exceeded_none, Bool.or_false, Bool.false_eq_true] at h ⊢
      cases hover : budget.exceeded (used + (next frontier).length) with
      | true => simp [hover] at h
      | false =>
        cases flag with
        | true => simp at h
        | false =>
          simp only [hover, Bool.or_false, Bool.false_eq_true, if_false] at h ⊢
          rw [(ih h).2]
          exact ⟨trivial, rfl⟩

/-- The sum of the sizes of the first levels. -/
def levelsSize {α : Type*} (next : List α → List α) (left : ℕ) (frontier : List α) : ℕ :=
  ((List.range left).map fun d => (next^[d + 1] frontier).length).sum

theorem levelsSize_succ (next : List α → List α) (left : ℕ) (frontier : List α) :
    levelsSize next (left + 1) frontier =
      (next frontier).length + levelsSize next left (next frontier) := by
  simp [levelsSize, range_succ_eq_map, map_cons, map_map, sum_cons, Function.comp_def,
    Nat.zero_add, Function.iterate_one, Nat.succ_eq_add_one]

theorem iterate_nil (hnil : next [] = []) (n : ℕ) : next^[n] [] = [] := by
  induction n with
  | zero => rfl
  | succ _ ih => rw [Function.iterate_succ_apply, hnil, ih]

/-- A search whose levels are within the budget together, and whose flag is not raised, emits every
level from the given depth on. -/
theorem levels_within [DecidableEq α] (hnil : next [] = []) (minDepth : ℤ)
    (h : budget.exceeded (used + levelsSize next left frontier) = false) :
    budget.levels next minDepth left depth frontier used false = ((List.range left).flatMap fun d : ℕ =>
        if minDepth ≤ depth + d then next^[d + 1] frontier else [], false) := by
  induction left generalizing depth frontier used with
  | zero => rfl
  | succ _ ih =>
    rw [levels]
    by_cases hempty : frontier = []
    · subst hempty
      have hno : ∀ d : ℕ, (if minDepth ≤ depth + d then next^[d + 1] ([] : List α) else []) = [] :=
        fun d => by rw [iterate_nil hnil, ite_self]
      simp only [hno]
      simp
    · rw [levelsSize_succ, ← Nat.add_assoc] at h
      have hlevel : budget.exceeded (used + (next frontier).length) = false :=
        exceeded_of_le (Nat.le_add_right _ _) h
      simp only [hempty, hlevel, if_false, Bool.or_false, Bool.false_eq_true, ih h]
      have hshift : ∀ d : ℕ, depth + 1 + d = depth + (d.succ : ℤ) := by omega
      rw [range_succ_eq_map, flatMap_cons, flatMap_map]
      simp [hshift]

theorem levels_flagged [DecidableEq α] (hnil : next [] = []) (minDepth : ℤ) (left : ℕ) (depth : ℤ)
    (h : budget.exceeded (used + (next frontier).length) = false) :
    budget.levels next minDepth (left + 1) depth frontier used true =
      (if minDepth ≤ depth then next frontier else [], true) := by
  rw [levels]
  by_cases hempty : frontier = []
  · subst hempty
    simp [hnil]
  · simp [hempty, h]

/-! ## Honest computations -/

section Honest

variable {ε σ τ : Type} {flag : Bool} {flagged : σ → Bool} {flagged' : τ → Bool}

theorem foldl_free {α : Type*} {bounded unbounded : σ → α → σ} {xs : List α} {s : σ}
    (hstep : ∀ a ∈ xs, ∀ s, flagged (bounded s a) = false →
      flagged s = false ∧ unbounded s a = bounded s a)
    (h : flagged (xs.foldl bounded s) = false) :
    flagged s = false ∧ xs.foldl unbounded s = xs.foldl bounded s := by
  induction xs generalizing s with
  | nil => exact ⟨h, rfl⟩
  | cons a _ ih =>
    obtain ⟨hrest, heq⟩ := ih (fun b hb => hstep b (mem_cons_of_mem a hb)) h
    obtain ⟨hs, ha⟩ := hstep a mem_cons_self s hrest
    refine ⟨hs, ?_⟩
    rw [foldl_cons, foldl_cons, ha, heq]

/-- A bounded computation is honest when it keeps a flag that is raised already, and a result
it does not flag is that of the unbounded computation. -/
def Honest (flag : Bool) (flagged : σ → Bool) (bounded unbounded : Except ε σ) : Prop :=
  ∀ s, bounded = .ok s → flagged s = false → flag = false ∧ unbounded = .ok s

namespace Honest

variable {bounded unbounded : Except ε σ}

theorem of_eq (heq : unbounded = bounded) (hflag : ∀ s, bounded = .ok s → flagged s = flag) :
    Honest flag flagged bounded unbounded := by
  intro s hs hfalse
  exact ⟨(hflag s hs).symm.trans hfalse, heq.trans hs⟩

theorem ok {bounded unbounded : σ}
    (h : flagged bounded = false → flag = false ∧ unbounded = bounded) :
    Honest flag flagged (.ok bounded : Except ε σ) (.ok unbounded) := by
  intro _ hs hfalse
  cases hs
  obtain ⟨hflag, heq⟩ := h hfalse
  exact ⟨hflag, congrArg Except.ok heq⟩

theorem map (h : Honest flag flagged bounded unbounded)
    {f : σ → τ} (hf : ∀ s, flagged' (f s) = flagged s) :
    Honest flag flagged' (bounded.map f) (unbounded.map f) := by
  intro _ ht hfalse
  cases bounded with
  | error => cases ht
  | ok s =>
    cases ht
    obtain ⟨hflag, heq⟩ := h s rfl ((hf s).symm.trans hfalse)
    rw [heq]
    exact ⟨hflag, rfl⟩

theorem bind (h : Honest flag flagged bounded unbounded) {f g : σ → Except ε τ}
    (hnext : ∀ s, bounded = .ok s → Honest (flagged s) flagged' (f s) (g s)) :
    Honest flag flagged' (bounded >>= f) (unbounded >>= g) := by
  intro t ht hfalse
  cases bounded with
  | error => cases ht
  | ok s =>
    obtain ⟨hs, hg⟩ := hnext s rfl t ht hfalse
    obtain ⟨hflag, heq⟩ := h s rfl hs
    rw [heq]
    exact ⟨hflag, hg⟩

theorem check {α : Type} {x : Except ε α} {f g : α → Except ε τ}
    (h : ∀ a, Honest flag flagged' (f a) (g a)) : Honest flag flagged' (x >>= f) (x >>= g) := by
  cases x with
  | error =>
    intro _ ht
    cases ht
  | ok a => exact h a

end Honest

end Honest

end Budget
