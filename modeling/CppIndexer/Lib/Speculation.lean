/-
# Speculation

A list of steps over a state, each of which may fail. Done one by one, a step that fails leaves the
state as it was. Done all at once, they succeed only together, and then the result is the same.
-/

import Mathlib.Data.List.Basic

namespace Speculation

variable {α σ : Type*}

/-- All steps in order; nothing unless every step succeeds. -/
def runAll (step : α → σ → Option σ) : List α → σ → Option σ
  | [], state => some state
  | x :: rest, state => (step x state).bind (runAll step rest)

variable (step : α → σ → Option σ)

/-- One step in turn: the new state and whether the step succeeded. -/
def runOne (acc : σ × List Bool) (x : α) : σ × List Bool :=
  match step x acc.1 with
  | some state => (state, acc.2 ++ [true])
  | none => (acc.1, acc.2 ++ [false])

def runEach (xs : List α) (state : σ) : σ × List Bool :=
  xs.foldl (runOne step) (state, [])

theorem foldl_runOne (xs : List α) (state : σ) (oks : List Bool) : xs.foldl (runOne step) (state, oks) =
      ((runEach step xs state).1, oks ++ (runEach step xs state).2) := by
  unfold runEach
  induction xs generalizing state oks with
  | nil => simp
  | cons x _ ih =>
    simp only [List.foldl_cons, runOne, List.nil_append]
    cases step x state with
    | some next =>
      rw [ih next (oks ++ [true]), ih next [true]]
      simp
    | none =>
      rw [ih state (oks ++ [false]), ih state [false]]
      simp

theorem runEach_nil (state : σ) : runEach step [] state = (state, []) :=
  rfl

variable {x : α} {step : α → σ → Option σ} {state : σ}

theorem runEach_cons_some {next : σ} (h : step x state = some next) (rest : List α) :
    runEach step (x :: rest) state =
      ((runEach step rest next).1, true :: (runEach step rest next).2) := by
  rw [runEach, List.foldl_cons, runOne, h]
  exact foldl_runOne step rest next [true]

theorem runEach_cons_none (h : step x state = none) (rest : List α) : runEach step (x :: rest) state =
      ((runEach step rest state).1, false :: (runEach step rest state).2) := by
  rw [runEach, List.foldl_cons, runOne, h]
  exact foldl_runOne step rest state [false]

theorem runEach_of_runAll {xs : List α} {final : σ} (h : runAll step xs state = some final) :
    runEach step xs state = (final, xs.map fun _ => true) := by
  induction xs generalizing state with
  | nil =>
    cases h
    rfl
  | cons _ _ ih =>
    obtain ⟨_, hnext, hrest⟩ := Option.bind_eq_some_iff.mp h
    rw [runEach_cons_some hnext, ih hrest]
    rfl

theorem length_runEach (step : α → σ → Option σ) (xs : List α) (state : σ) :
    (runEach step xs state).2.length = xs.length := by
  induction xs generalizing state with
  | nil => rfl
  | cons x _ ih =>
    cases h : step x state with
    | some => rw [runEach_cons_some h, List.length_cons, ih, List.length_cons]
    | none => rw [runEach_cons_none h, List.length_cons, ih, List.length_cons]

end Speculation
