/-
# Kleene three-valued logic

`some true`, `some false` and the unknown value `none`, with the strong Kleene
connectives. Conjunction and disjunction over a list are folds, so that nesting
one list in another or writing a list as a chain of binary connectives does not
change the value.
-/

import Mathlib.Data.List.Forall2
import Mathlib.Logic.Basic

/-- A truth value that may be unknown. -/
abbrev Kleene := Option Bool

namespace Kleene

open Kleene

/-- Negation leaves the unknown value unknown. -/
def not : Kleene → Kleene
  | some value => some !value
  | none => none

/-- False wins over unknown. -/
def and : Kleene → Kleene → Kleene
  | some false, _ => some false
  | some true, other => other
  | none, some false => some false
  | none, _ => none

/-- True wins over unknown. -/
def or : Kleene → Kleene → Kleene
  | some true, _ => some true
  | some false, other => other
  | none, some true => some true
  | none, _ => none

def all (values : List Kleene) : Kleene := values.foldr and (some true)

def any (values : List Kleene) : Kleene := values.foldr or (some false)

@[simp]
theorem not_not (a : Kleene) : a.not.not = a := by
  rcases a with _ | _ | _ <;> rfl

theorem and_assoc (a b c : Kleene) : (a.and b).and c = a.and (b.and c) := by
  rcases a with _ | _ | _ <;> rcases b with _ | _ | _ <;> rcases c with _ | _ | _ <;> rfl

theorem or_assoc (a b c : Kleene) : (a.or b).or c = a.or (b.or c) := by
  rcases a with _ | _ | _ <;> rcases b with _ | _ | _ <;> rcases c with _ | _ | _ <;> rfl

@[simp]
theorem and_true (a : Kleene) : a.and (some true) = a := by
  rcases a with _ | _ | _ <;> rfl

@[simp]
theorem or_false (a : Kleene) : a.or (some false) = a := by
  rcases a with _ | _ | _ <;> rfl

variable {b' a' a b : Kleene} {values' values : List Kleene}

theorem and_eq_true : a.and b = some true ↔ a = some true ∧ b = some true := by
  rcases a with _ | _ | _ <;> rcases b with _ | _ | _ <;> decide

@[simp]
theorem all_nil : all [] = some true := rfl

@[simp]
theorem any_nil : any [] = some false := rfl

@[simp]
theorem all_cons (a : Kleene) (rest : List Kleene) : all (a :: rest) = a.and (all rest) := rfl

@[simp]
theorem any_cons (a : Kleene) (rest : List Kleene) : any (a :: rest) = a.or (any rest) := rfl

theorem all_append (front back : List Kleene) : all (front ++ back) = (all front).and (all back) := by
  induction front with
  | nil => rfl
  | cons a rest ih => rw [List.cons_append, all_cons, ih, all_cons, and_assoc]

theorem any_append (front back : List Kleene) : any (front ++ back) = (any front).or (any back) := by
  induction front with
  | nil => rfl
  | cons a rest ih => rw [List.cons_append, any_cons, ih, any_cons, or_assoc]

/-! ## The information order -/

/-- The second value is the first one, or the first one is unknown. -/
def Refines (a b : Kleene) : Prop := a = none ∨ a = b

theorem Refines.refl (a : Kleene) : Refines a a := Or.inr rfl

theorem Refines.eq (h : Refines a b) (hknown : a ≠ none) : a = b :=
  h.resolve_left hknown

theorem Refines.not (h : Refines a b) : Refines a.not b.not := by
  cases h with
  | inl h => exact Or.inl (by rw [h]; rfl)
  | inr h => exact Or.inr (by rw [h])

theorem Refines.and (h : Refines a a') (h' : Refines b b') : Refines (a.and b) (a'.and b') := by
  unfold Refines at h h' ⊢
  cases h with
  | inl h =>
    subst h
    cases h' with
    | inl h' =>
      subst h'
      exact Or.inl rfl
    | inr h' =>
      subst h'
      rcases b with _ | _ | _ <;> rcases a' with _ | _ | _ <;> decide
  | inr h =>
    subst h
    cases h' with
    | inl h' =>
      subst h'
      rcases a with _ | _ | _ <;> rcases b' with _ | _ | _ <;> decide
    | inr h' => exact Or.inr (by rw [h'])

theorem or_eq_not_and_not (a b : Kleene) : a.or b = (a.not.and b.not).not := by
  rcases a with _ | _ | _ <;> rcases b with _ | _ | _ <;> rfl

theorem Refines.or (h : Refines a a') (h' : Refines b b') : Refines (a.or b) (a'.or b') := by
  rw [or_eq_not_and_not, or_eq_not_and_not]
  exact (h.not.and h'.not).not

theorem Refines.all (h : List.Forall₂ Refines values values') : Refines (all values) (all values') := by
  induction h with
  | nil => exact Refines.refl _
  | cons hfirst _ ih => exact hfirst.and ih

theorem Refines.any (h : List.Forall₂ Refines values values') : Refines (any values) (any values') := by
  induction h with
  | nil => exact Refines.refl _
  | cons hfirst _ ih => exact hfirst.or ih

theorem all_some (values : List Bool) : all (values.map some) = some (values.all id) := by
  induction values with
  | nil => rfl
  | cons value rest ih =>
    rw [List.map_cons, all_cons, ih, List.all_cons]
    cases value <;> rfl

theorem any_some (values : List Bool) : any (values.map some) = some (values.any id) := by
  induction values with
  | nil => rfl
  | cons value rest ih =>
    rw [List.map_cons, any_cons, ih, List.any_cons]
    cases value <;> rfl

end Kleene
