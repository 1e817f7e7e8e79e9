/-
# When the failure actions are enabled

`InterruptPublication` and `InvalidateGeneration` assign the graph and the plans and leave the same
variables unchanged, so they can only be taken where the variables have the assigned values already. In
the states that runs reach this comes down to little: the interruption needs a graph that was never
published, the invalidation a generation without a query plan and without an include plan.
-/

import CppIndexer.Protocol.BehaviorSafety

namespace CppIndexer.Behavior

open Transition (taken)

section

variable {Id : Type} (c : Constants Id) (s : State)

/-- A candidate generation waits for its publication. -/
def InterruptionDue : Prop :=
  s.publicationState = .candidate ∧ s.indexState = .indexed ∧ s.TraceAvailable c

/-- A current generation is at rest. -/
def InvalidationDue : Prop :=
  s.publicationState = .current ∧ s.indexState = .current ∧ s.storageState = .ready ∧
    s.queryState = .idle ∧ s.transformState = .idle ∧ s.TraceAvailable c

instance : Decidable (InterruptionDue c s) := inferInstanceAs (Decidable (_ ∧ _))

/-- What is due has a successor. -/
def FailuresPossible : Prop :=
  (InterruptionDue c s → ∃ s', InterruptPublication c s s') ∧
    (InvalidationDue c s → ∃ s', InvalidateGeneration c s s')

/-- The steps that leave both actions possible: only a first generation becomes a candidate, a query plan
is validated by the last step only, and no include change is planned. -/
def LeavesFailures : Action → Prop
  | .indexSuccessfully => s.graphState = .empty
  | .validateQueryPlan _ => ¬s.ProgressTraceAvailable c
  | .planIncludeChange _ => False
  | _ => True

/-- What such steps preserve. -/
structure Undisturbed : Prop where
  unpublished : s.publicationState = .candidate → s.graphState = .empty
  unqueried : s.queryPlanState = .absent ∨ c.traceBound ≤ s.trace.length
  unplanned : s.includePlanState = .none

end

variable {Id : Type} [DecidableEq Id] {c : Constants Id} {s s' : State} {a : Action}

omit [DecidableEq Id] in
theorem Plans.reset_iff (h : Plans s) :
    s.PlansReset ↔ s.queryPlanState = .absent ∧ s.includePlanState = .none := by
  constructor
  · rintro ⟨hquery, -, -, -, -, hinclude, -⟩
    exact ⟨hquery, hinclude⟩
  · rintro ⟨hquery, hinclude⟩
    obtain ⟨hshape, htraversal, hview⟩ := h.absent hquery
    obtain ⟨hconfiguration, hedit, hauthorized⟩ := h.unplanned hinclude
    exact ⟨hquery, hshape, htraversal, hview, h.readOnly, hinclude, hconfiguration, hedit, hauthorized⟩

omit [DecidableEq Id] in
theorem GraphSound.reset_iff (h : GraphSound s) : s.GraphReset ↔ s.graphState = .empty := by
  constructor
  · exact fun hreset => hreset.1
  · exact fun hempty => ⟨hempty, h.empty hempty⟩

omit [DecidableEq Id] in
theorem Inv.plansReset_of_candidate (h : Inv c s) (hcandidate : s.publicationState = .candidate) :
    s.PlansReset := by
  have hne : s.publicationState ≠ .current := by
    rw [hcandidate]
    exact PublicationState.noConfusion
  rw [h.plans.reset_iff]
  constructor
  · by_contra hpresent
    exact hne (h.plans.present hpresent).1
  · by_contra hplanned
    exact hne (h.exclusive.includePlan hplanned).1

omit [DecidableEq Id] in
theorem Inv.interruption_iff (h : Inv c s) (hdue : InterruptionDue c s) :
    (∃ s', InterruptPublication c s s') ↔ s.graphState = .empty := by
  obtain ⟨hcandidate, hindexed, hroom⟩ := hdue
  rw [← h.graph.reset_iff]
  constructor
  · rintro ⟨s', hs'⟩
    obtain ⟨⟨-, -, -, hgraph, -⟩, -⟩ := taken ((interruptPublication_iff c s s').mp hs')
    exact hgraph
  · intro hgraph
    refine ⟨_, (interruptPublication_iff c s _).mpr (if_pos ?_)⟩
    exact ⟨hcandidate, hindexed, hroom, hgraph, h.plansReset_of_candidate hcandidate⟩

omit [DecidableEq Id] in
theorem Inv.invalidation_iff (h : Inv c s) (hdue : InvalidationDue c s) :
    (∃ s', InvalidateGeneration c s s') ↔ s.queryPlanState = .absent ∧ s.includePlanState = .none := by
  obtain ⟨hcurrent, hindex, hready, hquery, htransform, hroom⟩ := hdue
  rw [← h.plans.reset_iff]
  constructor
  · rintro ⟨s', hs'⟩
    obtain ⟨⟨-, -, -, -, -, -, hplans⟩, -⟩ := taken ((invalidateGeneration_iff c s s').mp hs')
    exact hplans
  · intro hplans
    refine ⟨_, (invalidateGeneration_iff c s _).mpr (if_pos ?_)⟩
    exact ⟨hcurrent, hindex, hready, hquery, htransform, hroom, hplans⟩

/-- A run's states, without a bound on the constants: with no room at all nothing is due. -/
theorem failuresPossible_iff_of_reachable (hreach : (behavior c).Reachable s) :
    FailuresPossible c s ↔ (InterruptionDue c s → s.graphState = .empty) ∧
        (InvalidationDue c s → s.queryPlanState = .absent ∧ s.includePlanState = .none) := by
  by_cases hbound : 1 ≤ c.traceBound
  · have h := Inv.of_reachable hbound hreach
    exact and_congr (forall_congr' h.interruption_iff) (forall_congr' h.invalidation_iff)
  · have hroom : ¬s.TraceAvailable c := by
      unfold State.TraceAvailable
      omega
    exact iff_of_true ⟨fun hdue => absurd hdue.2.2 hroom, fun hdue => absurd hdue.2.2.2.2.2 hroom⟩
      ⟨fun hdue => absurd hdue.2.2 hroom, fun hdue => absurd hdue.2.2.2.2.2 hroom⟩

theorem Undisturbed.step (h : Undisturbed c s) (hleaves : LeavesFailures c s a)
    (hstep : s.step c a = some s') : Undisturbed c s' := by
  have hlength : c.traceBound ≤ s.trace.length → c.traceBound ≤ s'.trace.length := by
    intro hend
    by_cases hne : a = .noOp
    · subst hne
      cases hstep
      exact hend
    · exact absurd (trace_step hstep hne).1 (by omega)
  have hunqueried : s'.queryPlanState = s.queryPlanState →
      s'.queryPlanState = .absent ∨ c.traceBound ≤ s'.trace.length := by
    intro hsame
    rw [hsame]
    exact h.unqueried.imp id hlength
  cases a
  case indexSuccessfully =>
    obtain ⟨-, rfl⟩ := taken hstep
    exact ⟨fun _ => hleaves, hunqueried rfl, h.unplanned⟩
  case publishGeneration =>
    obtain ⟨-, rfl⟩ := taken hstep
    exact ⟨nofun, .inl rfl, rfl⟩
  case interruptPublication | invalidateGeneration =>
    obtain ⟨-, rfl⟩ := taken hstep
    exact ⟨nofun, hunqueried rfl, h.unplanned⟩
  case validateQueryPlan =>
    obtain ⟨-, rfl⟩ := taken hstep
    refine ⟨h.unpublished, .inr ?_, h.unplanned⟩
    rw [List.length_append]
    exact Nat.not_lt.mp hleaves
  -- a query has a plan, and a plan is there at the end of the trace only
  case startQuery | returnQuery =>
    have hroom := (trace_step hstep Action.noConfusion).1
    obtain ⟨hguard, -⟩ := taken hstep
    have hplan : s.queryPlanState ≠ .absent := by
      intro habsent
      simp [habsent] at hguard
    exact absurd (h.unqueried.resolve_left hplan) (Nat.not_le.mpr hroom)
  case planIncludeChange => exact absurd hleaves id
  case validateIncludeConfiguration | rejectIncludeConfiguration | applyIncludeChange =>
    obtain ⟨⟨hplan, -⟩, rfl⟩ := taken hstep
    have hnone := h.unplanned
    rw [hplan] at hnone
    cases hnone
  case noOp =>
    cases hstep
    exact h
  all_goals
    obtain ⟨-, rfl⟩ := taken hstep
    exact ⟨h.unpublished, hunqueried rfl, h.unplanned⟩

/-- Interruption and invalidation are possible exactly where the variables they constrain twice have the
assigned values, and in every run whose steps leave them so. -/
theorem failures_possible_iff (c : Constants Id) : (∀ s, (behavior c).Reachable s →
      (FailuresPossible c s ↔ (InterruptionDue c s → s.graphState = .empty) ∧
          (InvalidationDue c s → s.queryPlanState = .absent ∧ s.includePlanState = .none))) ∧
    ∀ s, (behavior c).ReachableWithin (LeavesFailures c) s → FailuresPossible c s := by
  refine ⟨fun s hreach => failuresPossible_iff_of_reachable hreach, fun s hreach => ?_⟩
  have h : Undisturbed c s := by
    refine hreach.invariant ⟨fun _ => rfl, .inl rfl, rfl⟩ ?_
    intro _ _ _ h hleaves hstep
    exact h.step hleaves hstep
  rw [failuresPossible_iff_of_reachable hreach.reachable]
  refine ⟨fun hdue => h.unpublished hdue.1, fun hdue => ⟨?_, h.unplanned⟩⟩
  exact h.unqueried.resolve_right (Nat.not_le.mpr hdue.2.2.2.2.2)

/-- The first generation can be interrupted. -/
theorem failures_possible_firstGeneration : ∃ s, (behavior sampleConstants).play initialState
        [.importWorkspace, .captureConfiguration, .startIndexing, .indexSuccessfully] = some s ∧
      InterruptionDue sampleConstants s ∧ ∃ s', InterruptPublication sampleConstants s s' := by
  have hrun : ((behavior sampleConstants).play initialState
      [.importWorkspace, .captureConfiguration, .startIndexing, .indexSuccessfully]).any
      (fun s => InterruptionDue sampleConstants s ∧ s.graphState = .empty) := by
    decide +kernel
  obtain ⟨s, hs, hwitness⟩ := (Option.any_eq_true _ _).mp hrun
  obtain ⟨hdue, hempty⟩ := of_decide_eq_true hwitness
  have hreach := Transition.System.reachable_of_play .init _ hs
  have hpossible := ((failures_possible_iff sampleConstants).1 s hreach).mpr
    ⟨fun _ => hempty, fun hinvalidation => by
      have hcurrent := hinvalidation.1
      rw [hdue.1] at hcurrent
      cases hcurrent⟩
  exact ⟨s, hs, hdue, hpossible.1 hdue⟩

/-- A second generation waits for its publication while the graph is the first one's. -/
theorem secondGeneration_not_interruptible :
    ¬∀ s, (behavior sampleConstants).Reachable s → FailuresPossible sampleConstants s := by
  intro hall
  have hrun : ((behavior sampleConstants).play initialState
      [.importWorkspace, .captureConfiguration, .startIndexing, .indexSuccessfully,
        .publishGeneration .known, .invalidateGeneration, .startIndexing, .indexSuccessfully]).any
      (fun s => InterruptionDue sampleConstants s ∧ s.interruptPublication sampleConstants = none) := by
    decide +kernel
  obtain ⟨s, hs, hwitness⟩ := (Option.any_eq_true _ _).mp hrun
  obtain ⟨hdue, hblocked⟩ := of_decide_eq_true hwitness
  obtain ⟨_, hs'⟩ := (hall s (Transition.System.reachable_of_play .init _ hs)).1 hdue
  rw [interruptPublication_iff, hblocked] at hs'
  cases hs'

end CppIndexer.Behavior
