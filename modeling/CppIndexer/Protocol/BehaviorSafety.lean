/-
# Safety of the behavioural protocol

The invariants of `CidxBehavior` in runs of any length. Two facts carry them: what is current was published
whole, and at most one of indexing, query, transform, include change and migration is under way, so that
the step a phase kept back for its end is there when the phase ends.
-/

import CppIndexer.Protocol.Behavior

namespace CppIndexer.Behavior

open Transition (taken)

/-! ## The invariants of the module -/

section

variable {Id : Type} (c : Constants Id) (s : State)

/-- `TypeInvariant`. That a variable lies in its set is the type of the field. -/
def TypeInvariant : Prop :=
  s.currentGeneration ≤ s.generation ∧ s.queryWrites = 0 ∧ s.queryTraversalBound ≤ c.traceBound ∧
    s.trace.length ≤ c.traceBound ∧ ∀ k, c.identifier k ∈ c.declared k

/-- `NoPartialGenerationInvariant`, by `NoPartialPublication`. -/
def NoPartialGenerationInvariant : Prop :=
  s.publicationState = .current →
    s.indexState = .current ∧ (s.artifactState = .published ∨ s.artifactState = .derived) ∧
      0 < s.currentGeneration

def AtomicPublicationInvariant : Prop :=
  s.publicationState = .current → s.currentGeneration = s.generation

def InvalidationInvariant : Prop :=
  s.invalidated → s.publicationState ≠ .current ∧ s.indexState ≠ .current

def FailureHonestyInvariant : Prop :=
  (s.failureMode = .indexFailure → s.indexState = .failed) ∧
  (s.failureMode = .incompleteEvidence → s.transformState = .failed) ∧
  (s.failureMode = .interrupted → s.storageState = .recoveryRequired ∨ s.publicationState = .stale)

/-- `QueryHonestyInvariant`, by `HonestPartialResults` and `ReadOnlyQueries`. -/
def QueryHonestyInvariant : Prop :=
  (s.queryResultState = .partial_ → s.queryTruncated) ∧ s.queryWrites = 0 ∧
  (s.queryResultState = .ambiguous → s.queryState = .complete) ∧
  (s.queryResultState = .unknown → s.queryState = .complete)

/-- `MigrationInvariant`, by `PreservePublishedGeneration`. -/
def MigrationInvariant : Prop :=
  s.storageState = .migrating ∨ s.storageState = .recoveryRequired →
    s.currentGeneration = s.migrationBaseline

def IdentityInvariant : Prop :=
  s.identityMode = .merged → c.semanticUniverseId = c.sharedUniverseId

def GraphInvariant : Prop :=
  (s.graphState = .published → s.graphEvidenceState = .owned ∧
      (s.graphTargetState = .known ∨ s.graphTargetState = .unknownRetained) ∧
      s.graphConfigurationState = .exact ∧ s.graphArgumentOrder = [1, 2]) ∧
  (s.graphTargetState = .unknownRetained → s.graphState = .published ∨ s.graphState = .stale)

def QueryPlanInvariant : Prop :=
  (s.queryPlanState = .absent →
    s.queryStreamShape = .none ∧ s.queryTraversalBound = 0 ∧ s.queryViewState = .none) ∧
  (s.queryPlanState = .validated ∨ s.queryPlanState = .executing ∨ s.queryPlanState = .returned →
    (s.queryStreamShape = .set ∨ s.queryStreamShape = .path) ∧ 0 < s.queryTraversalBound ∧
      s.queryViewState = .safe ∧ s.queryReadOnly) ∧
  (s.queryState = .complete → s.queryPlanState = .returned)

def IncludeHygieneInvariant : Prop :=
  (s.destructiveEditAuthorized → s.includePlanState = .validated ∧ s.includeConfigurationState = .exact ∧
      s.evidenceState = .complete) ∧
  (s.includeEditState = .changed → s.includePlanState = .applied ∧ ¬s.destructiveEditAuthorized) ∧
  (s.evidenceState = .incomplete → ¬s.destructiveEditAuthorized)

def TraceInvariant : Prop :=
  0 < s.trace.length ∧ s.trace.head? = some "Init"

def BoundedProgressInvariant : Prop :=
  s.trace.length = c.traceBound →
    s.indexState ≠ .indexing ∧ s.publicationState ≠ .candidate ∧ s.queryState ≠ .running ∧
      s.storageState ≠ .recoveryRequired ∧ s.transformState ≠ .planned ∧
      s.includePlanState ≠ .planned

/-- `ProtectedInvariant`. -/
structure ProtectedInvariant : Prop where
  noPartialGeneration : NoPartialGenerationInvariant s
  queryHonesty : QueryHonestyInvariant s
  migration : MigrationInvariant s
  graph : GraphInvariant s
  queryPlan : QueryPlanInvariant s
  includeHygiene : IncludeHygieneInvariant s
  boundedProgress : BoundedProgressInvariant c s

/-- The invariants that the module states. -/
structure Safe : Prop where
  types : TypeInvariant c s
  atomicPublication : AtomicPublicationInvariant s
  invalidation : InvalidationInvariant s
  failureHonesty : FailureHonestyInvariant s
  identity : IdentityInvariant c s
  traceStarts : TraceInvariant s
  isProtected : ProtectedInvariant c s

/-! ## Inductive invariants -/

/-- What is indexed has a captured configuration, and what is current was published whole. -/
structure Published : Prop where
  captured : s.indexState ≠ .empty → s.workspaceState = .captured ∧ s.configState = .captured
  workspace : s.configState = .captured → s.workspaceState = .captured
  older : s.currentGeneration ≤ s.generation
  candidate : s.publicationState = .candidate ↔ s.indexState = .indexed
  current : s.publicationState = .current ↔ s.indexState = .current
  built : s.publicationState = .candidate → 0 < s.generation
  artifact : s.publicationState = .current → s.artifactState ≠ .none ∧ 0 < s.currentGeneration ∧
    s.currentGeneration = s.generation ∧ s.invalidated = false

/-- Nothing is under way but what works on the published generation. -/
structure Exclusive : Prop where
  query : s.queryState ≠ .idle → s.publicationState = .current ∧ s.storageState = .ready ∧
    s.transformState = .idle ∧ s.includePlanState = .none
  transform : s.transformState ≠ .idle → s.publicationState = .current ∧ s.storageState = .ready ∧
    s.queryState = .idle ∧ s.includePlanState = .none
  includePlan : s.includePlanState ≠ .none → s.publicationState = .current ∧
    s.storageState = .ready ∧ s.queryState = .idle ∧ s.transformState = .idle
  migration : s.storageState ≠ .ready → s.indexState ≠ .indexing ∧ s.publicationState ≠ .candidate

/-- Only a published generation has a query plan or an include plan, and without one its variables are
reset. -/
structure Plans : Prop where
  absent : s.queryPlanState = .absent →
    s.queryStreamShape = .none ∧ s.queryTraversalBound = 0 ∧ s.queryViewState = .none
  present : s.queryPlanState ≠ .absent → s.publicationState = .current ∧
    (s.queryStreamShape = .set ∨ s.queryStreamShape = .path) ∧ s.queryTraversalBound = 1 ∧
    s.queryViewState = .safe
  readOnly : s.queryReadOnly = true
  complete : s.queryState = .complete → s.queryPlanState = .returned
  unplanned : s.includePlanState = .none → s.includeConfigurationState = .none ∧
    s.includeEditState = .none ∧ s.destructiveEditAuthorized = false
  authorized : s.destructiveEditAuthorized = true → s.includePlanState = .validated ∧
    s.includeConfigurationState = .exact ∧ s.evidenceState = .complete
  changed : s.includeEditState = .changed → s.includePlanState = .applied

/-- A graph is empty, or was published with everything it carries. -/
structure GraphSound : Prop where
  empty : s.graphState = .empty → s.graphEvidenceState = .none ∧ s.graphTargetState = .none ∧
    s.graphConfigurationState = .unbound ∧ s.graphArgumentOrder = []
  published : s.graphState = .published → s.graphEvidenceState = .owned ∧
    (s.graphTargetState = .known ∨ s.graphTargetState = .unknownRetained) ∧
    s.graphConfigurationState = .exact ∧ s.graphArgumentOrder = [1, 2]

/-- A phase under way has a step left for its end. -/
structure Bounded : Prop where
  length : s.trace.length ≤ c.traceBound
  indexing : s.indexState = .indexing → s.trace.length < c.traceBound
  candidate : s.publicationState = .candidate → s.trace.length < c.traceBound
  running : s.queryState = .running → s.trace.length < c.traceBound
  migrating : s.storageState ≠ .ready → s.trace.length < c.traceBound
  planned : s.transformState = .planned → s.trace.length < c.traceBound
  includePlanned : s.includePlanState = .planned → s.trace.length < c.traceBound

/-- All of them, with those of the module that are inductive by themselves. -/
structure Inv : Prop where
  published : Published s
  exclusive : Exclusive s
  plans : Plans s
  graph : GraphSound s
  bounded : Bounded c s
  failureHonesty : FailureHonestyInvariant s
  queryHonesty : QueryHonestyInvariant s
  migration : MigrationInvariant s
  identity : IdentityInvariant c s
  traceStarts : TraceInvariant s

end

/-! ## One step -/

variable {Id : Type} [DecidableEq Id] {c : Constants Id} {s s' : State} {a : Action}

theorem Published.step (h : Published s) (hstep : s.step c a = some s') : Published s' := by
  cases a
  -- a captured configuration is the end of the workspace's own states
  case importWorkspace | captureConfiguration =>
    obtain ⟨_, rfl⟩ := taken hstep
    refine ⟨?_, ?_, h.older, h.candidate, h.current, h.built, h.artifact⟩
    all_goals grind [h.captured, h.workspace]
  case startIndexing | indexFails =>
    obtain ⟨_, rfl⟩ := taken hstep
    refine ⟨?_, h.workspace, h.older, ?_, ?_, h.built, h.artifact⟩
    all_goals grind [h.captured, h.workspace, h.candidate, h.current]
  case indexSuccessfully =>
    obtain ⟨_, rfl⟩ := taken hstep
    refine ⟨?_, h.workspace, ?_, ?_, ?_, ?_, ?_⟩
    all_goals grind [h.captured, h.older]
  case publishGeneration =>
    obtain ⟨hguard, rfl⟩ := taken hstep
    have hbuilt := h.built hguard.2.1
    refine ⟨?_, h.workspace, le_rfl, ?_, ?_, ?_, ?_⟩
    all_goals grind [h.captured]
  case interruptPublication | invalidateGeneration =>
    obtain ⟨_, rfl⟩ := taken hstep
    refine ⟨?_, h.workspace, h.older, ?_, ?_, ?_, ?_⟩
    all_goals grind [h.captured]
  case applyTransform =>
    obtain ⟨-, rfl⟩ := taken hstep
    exact ⟨h.captured, h.workspace, h.older, h.candidate, h.current, h.built,
      fun hcurrent => ⟨ArtifactState.noConfusion, (h.artifact hcurrent).2⟩⟩
  case noOp =>
    cases hstep
    exact h
  all_goals
    obtain ⟨-, rfl⟩ := taken hstep
    exact ⟨h.captured, h.workspace, h.older, h.candidate, h.current, h.built, h.artifact⟩

theorem Exclusive.step (hpublished : Published s) (h : Exclusive s)
    (hstep : s.step c a = some s') : Exclusive s' := by
  have hcurrent := hpublished.current
  cases a
  case startIndexing =>
    obtain ⟨⟨-, hready, -⟩, rfl⟩ := taken hstep
    exact ⟨h.query, h.transform, h.includePlan, fun hne => absurd hready hne⟩
  -- an unpublished generation has no query, transform or include plan
  case indexSuccessfully | publishGeneration | interruptPublication | invalidateGeneration =>
    obtain ⟨_, rfl⟩ := taken hstep
    constructor
    all_goals grind [h.query, h.transform, h.includePlan, h.migration, State.PlansReset]
  -- and a published one has at most one of them, and no migration
  case planTransform | applyTransform | rejectIncompleteTransform | startQuery | returnQuery |
      beginMigration | completeMigration | interruptMigration | recoverMigration |
      planIncludeChange | validateIncludeConfiguration | rejectIncludeConfiguration |
      applyIncludeChange =>
    obtain ⟨_, rfl⟩ := taken hstep
    constructor
    all_goals grind [h.query, h.transform, h.includePlan, h.migration]
  case indexFails =>
    obtain ⟨-, rfl⟩ := taken hstep
    exact ⟨h.query, h.transform, h.includePlan, fun hne => ⟨IndexState.noConfusion, (h.migration hne).2⟩⟩
  case noOp =>
    cases hstep
    exact h
  all_goals
    obtain ⟨-, rfl⟩ := taken hstep
    exact ⟨h.query, h.transform, h.includePlan, h.migration⟩

theorem Plans.step (hpublished : Published s) (hexclusive : Exclusive s) (h : Plans s)
    (hstep : s.step c a = some s') : Plans s' := by
  cases a
  case indexSuccessfully | invalidateGeneration | interruptPublication =>
    obtain ⟨_, rfl⟩ := taken hstep
    have hcurrent := hpublished.current
    have hpresent := h.present
    refine ⟨h.absent, ?_, h.readOnly, h.complete, h.unplanned, h.authorized, h.changed⟩
    grind [State.PlansReset]
  case publishGeneration =>
    obtain ⟨⟨-, hcandidate, -⟩, rfl⟩ := taken hstep
    refine ⟨fun _ => ⟨rfl, rfl, rfl⟩, fun hne => absurd rfl hne, rfl, fun hcomplete => ?_,
      fun _ => ⟨rfl, rfl, rfl⟩, Bool.noConfusion, IncludeEditState.noConfusion⟩
    -- a query that has returned keeps its generation current
    have hcurrent := (hexclusive.query (by rw [hcomplete]; exact QueryState.noConfusion)).1
    rw [hcandidate] at hcurrent
    cases hcurrent
  case validateQueryPlan | startQuery | returnQuery =>
    obtain ⟨_, rfl⟩ := taken hstep
    refine ⟨?_, ?_, ?_, ?_, h.unplanned, h.authorized, h.changed⟩
    all_goals grind [h.absent, h.present, h.readOnly, h.complete]
  case planIncludeChange | validateIncludeConfiguration | rejectIncludeConfiguration |
      applyIncludeChange =>
    obtain ⟨_, rfl⟩ := taken hstep
    refine ⟨h.absent, h.present, h.readOnly, h.complete, ?_, ?_, ?_⟩
    all_goals grind [h.unplanned, h.authorized, h.changed]
  case planTransform =>
    obtain ⟨_, rfl⟩ := taken hstep
    refine ⟨h.absent, h.present, h.readOnly, h.complete, ?_, Bool.noConfusion, h.changed⟩
    grind [h.unplanned]
  case noOp =>
    cases hstep
    exact h
  all_goals
    obtain ⟨-, rfl⟩ := taken hstep
    exact ⟨h.absent, h.present, h.readOnly, h.complete, h.unplanned, h.authorized, h.changed⟩

theorem GraphSound.step (h : GraphSound s) (hstep : s.step c a = some s') : GraphSound s' := by
  cases a
  case publishGeneration target =>
    obtain ⟨⟨htarget, -⟩, rfl⟩ := taken hstep
    refine ⟨nofun, fun _ => ⟨rfl, ?_, rfl, rfl⟩⟩
    simpa using htarget
  case invalidateGeneration =>
    obtain ⟨-, rfl⟩ := taken hstep
    exact ⟨nofun, nofun⟩
  case noOp =>
    cases hstep
    exact h
  all_goals
    obtain ⟨-, rfl⟩ := taken hstep
    exact ⟨h.empty, h.published⟩

/-- An action is taken while the trace has room, and appends its name. -/
theorem trace_step (hstep : s.step c a = some s') (hne : a ≠ .noOp) :
    s.trace.length < c.traceBound ∧ ∃ name, s'.trace = s.trace ++ [name] := by
  cases a
  case noOp => exact absurd rfl hne
  all_goals
    obtain ⟨_, rfl⟩ := taken hstep
    refine ⟨?_, _, rfl⟩
    grind [State.TraceAvailable, State.ProgressTraceAvailable]

theorem TraceInvariant.step (h : TraceInvariant s) (hstep : s.step c a = some s') :
    TraceInvariant s' := by
  by_cases hne : a = .noOp
  · subst hne
    cases hstep
    exact h
  · obtain ⟨-, _, htrace⟩ := trace_step hstep hne
    unfold TraceInvariant
    rw [htrace, List.length_append, List.head?_append, h.2]
    exact ⟨Nat.succ_pos _, rfl⟩

omit [DecidableEq Id] in
/-- A state in which nothing is under way may be the last one. -/
theorem Bounded.of_settled (hlength : s.trace.length ≤ c.traceBound)
    (hindex : s.indexState ≠ .indexing) (hpublication : s.publicationState ≠ .candidate)
    (hquery : s.queryState ≠ .running) (hstorage : s.storageState = .ready)
    (htransform : s.transformState ≠ .planned) (hinclude : s.includePlanState ≠ .planned) :
    Bounded c s where
  length := hlength
  indexing := fun h => absurd h hindex
  candidate := fun h => absurd h hpublication
  running := fun h => absurd h hquery
  migrating := fun h => absurd hstorage h
  planned := fun h => absurd h htransform
  includePlanned := fun h => absurd h hinclude

omit [DecidableEq Id] in
/-- A phase begins while a step is left for its end. -/
theorem Bounded.of_progress (h : s.trace.length < c.traceBound) : Bounded c s :=
  ⟨h.le, fun _ => h, fun _ => h, fun _ => h, fun _ => h, fun _ => h, fun _ => h⟩

theorem Bounded.step (hpublished : Published s) (hexclusive : Exclusive s) (h : Bounded c s)
    (hstep : s.step c a = some s') : Bounded c s' := by
  by_cases hne : a = .noOp
  · subst hne
    cases hstep
    exact h
  obtain ⟨hroom, _, htrace⟩ := trace_step hstep hne
  have hlength : s'.trace.length ≤ c.traceBound := by
    rw [htrace, List.length_append]
    exact hroom
  have hprogress : s.ProgressTraceAvailable c → Bounded c s' := by
    intro hleft
    refine .of_progress ?_
    rw [htrace, List.length_append]
    exact hleft
  have hcandidate := hpublished.candidate
  have hcurrent := hpublished.current
  have hcaptured := hpublished.captured
  have hmigration := hexclusive.migration
  cases a
  case noOp => exact absurd rfl hne
  case startIndexing | indexSuccessfully | planTransform | startQuery | beginMigration |
      interruptMigration | planIncludeChange =>
    obtain ⟨_, rfl⟩ := taken hstep
    exact hprogress (by tauto)
  -- the other actions end a phase, or are taken when none is under way
  all_goals
    obtain ⟨_, rfl⟩ := taken hstep
    refine .of_settled hlength ?_ ?_ ?_ ?_ ?_ ?_
    all_goals grind [hexclusive.query, hexclusive.transform, hexclusive.includePlan, State.PlansReset]

theorem FailureHonestyInvariant.step (hexclusive : Exclusive s) (h : FailureHonestyInvariant s)
    (hstep : s.step c a = some s') : FailureHonestyInvariant s' := by
  have hmigration := hexclusive.migration
  obtain ⟨hindex, htransform, hinterrupted⟩ := h
  cases a
  case startIndexing | indexSuccessfully | planTransform | completeMigration | recoverMigration =>
    obtain ⟨-, rfl⟩ := taken hstep
    exact ⟨nofun, nofun,
      nofun⟩
  case indexFails =>
    obtain ⟨-, rfl⟩ := taken hstep
    exact ⟨fun _ => rfl, nofun, nofun⟩
  case interruptPublication =>
    obtain ⟨-, rfl⟩ := taken hstep
    exact ⟨nofun, nofun, fun _ => .inr rfl⟩
  case interruptMigration =>
    obtain ⟨-, rfl⟩ := taken hstep
    exact ⟨nofun, nofun, fun _ => .inl rfl⟩
  case rejectIncompleteTransform =>
    obtain ⟨-, rfl⟩ := taken hstep
    exact ⟨nofun, fun _ => rfl, nofun⟩
  -- a candidate's interruption would have been recorded as stale, or as a recovery that excludes it
  case publishGeneration | invalidateGeneration | applyTransform | beginMigration =>
    obtain ⟨_, rfl⟩ := taken hstep
    refine ⟨?_, ?_, ?_⟩
    all_goals grind
  case noOp =>
    cases hstep
    exact ⟨hindex, htransform, hinterrupted⟩
  all_goals
    obtain ⟨-, rfl⟩ := taken hstep
    exact ⟨hindex, htransform, hinterrupted⟩

theorem QueryHonestyInvariant.step (h : QueryHonestyInvariant s) (hstep : s.step c a = some s') :
    QueryHonestyInvariant s' := by
  cases a
  case startQuery =>
    obtain ⟨⟨-, -, -, -, -, -, hidle, -⟩, rfl⟩ := taken hstep
    obtain ⟨htruncated, hwrites, hambiguous, hunknown⟩ := h
    rw [hidle] at hambiguous hunknown
    exact ⟨htruncated, hwrites, (fun hresult => nomatch hambiguous hresult),
      (fun hresult => nomatch hunknown hresult)⟩
  case returnQuery result =>
    obtain ⟨-, rfl⟩ := taken hstep
    exact ⟨fun hresult => decide_eq_true hresult, h.2.1, fun _ => rfl, fun _ => rfl⟩
  case noOp =>
    cases hstep
    exact h
  all_goals
    obtain ⟨-, rfl⟩ := taken hstep
    exact h

theorem MigrationInvariant.step (h : MigrationInvariant s) (hstep : s.step c a = some s') :
    MigrationInvariant s' := by
  cases a
  case publishGeneration =>
    obtain ⟨⟨-, -, -, hready, -⟩, rfl⟩ := taken hstep
    intro hmigrating
    rw [hready] at hmigrating
    exact absurd hmigrating (by decide)
  case beginMigration =>
    obtain ⟨-, rfl⟩ := taken hstep
    exact fun _ => rfl
  case completeMigration | recoverMigration =>
    obtain ⟨-, rfl⟩ := taken hstep
    rintro (hmigrating | hmigrating)
    all_goals cases hmigrating
  case interruptMigration =>
    obtain ⟨⟨hmigrating, -⟩, rfl⟩ := taken hstep
    exact fun _ => h (.inl hmigrating)
  case noOp =>
    cases hstep
    exact h
  all_goals
    obtain ⟨-, rfl⟩ := taken hstep
    exact h

theorem IdentityInvariant.step (h : IdentityInvariant c s) (hstep : s.step c a = some s') :
    IdentityInvariant c s' := by
  cases a
  case mergeSymbolsInUniverse =>
    obtain ⟨⟨-, hshared, -⟩, rfl⟩ := taken hstep
    exact fun _ => hshared
  case separateSymbolsAcrossUniverses =>
    obtain ⟨-, rfl⟩ := taken hstep
    exact nofun
  case noOp =>
    cases hstep
    exact h
  all_goals
    obtain ⟨-, rfl⟩ := taken hstep
    exact h

/-! ## Runs -/

theorem Inv.step (h : Inv c s) (hstep : s.step c a = some s') : Inv c s' where
  published := h.published.step hstep
  exclusive := h.exclusive.step h.published hstep
  plans := h.plans.step h.published h.exclusive hstep
  graph := h.graph.step hstep
  bounded := h.bounded.step h.published h.exclusive hstep
  failureHonesty := h.failureHonesty.step h.exclusive hstep
  queryHonesty := h.queryHonesty.step hstep
  migration := h.migration.step hstep
  identity := h.identity.step hstep
  traceStarts := h.traceStarts.step hstep

omit [DecidableEq Id] in
theorem inv_init (hbound : 1 ≤ c.traceBound) : Inv c initialState := by
  have hbounded : Bounded c initialState := by
    refine .of_settled hbound ?_ ?_ ?_ rfl ?_ ?_
    all_goals decide
  refine ⟨⟨?_, ?_, le_rfl, ?_, ?_, ?_, ?_⟩, ⟨?_, ?_, ?_, ?_⟩, ⟨?_, ?_, rfl, ?_, ?_, ?_, ?_⟩, ⟨?_, ?_⟩,
    hbounded, ⟨?_, ?_, ?_⟩, ⟨?_, rfl, ?_, ?_⟩, fun _ => rfl, nofun, ⟨?_, rfl⟩⟩
  all_goals decide

omit [DecidableEq Id] in
/-- The inductive invariants give those of the module. -/
theorem Inv.safe (h : Inv c s) : Safe c s := by
  have hbound : s.queryTraversalBound ≤ c.traceBound := by
    have hroom := h.traceStarts.1.trans_le h.bounded.length
    by_cases hplan : s.queryPlanState = .absent
    · rw [(h.plans.absent hplan).2.1]
      exact Nat.zero_le _
    · rw [(h.plans.present hplan).2.2.1]
      exact hroom
  refine ⟨⟨h.published.older, h.queryHonesty.2.1, hbound, h.bounded.length, c.identifier_mem⟩, ?_, ?_,
    h.failureHonesty, h.identity, h.traceStarts, ?_, h.queryHonesty, h.migration, ⟨h.graph.published, ?_⟩,
    ⟨h.plans.absent, ?_, h.plans.complete⟩, ⟨h.plans.authorized, ?_, ?_⟩, ?_⟩
  · exact fun hcurrent => (h.published.artifact hcurrent).2.2.1
  · intro hinvalidated
    have hne : s.publicationState ≠ .current := by
      intro hcurrent
      rw [(h.published.artifact hcurrent).2.2.2] at hinvalidated
      cases hinvalidated
    exact ⟨hne, fun hindex => hne (h.published.current.mpr hindex)⟩
  · intro hcurrent
    obtain ⟨hartifact, hpos, -⟩ := h.published.artifact hcurrent
    refine ⟨h.published.current.mp hcurrent, ?_, hpos⟩
    cases hstate : s.artifactState with
    | none => exact absurd hstate hartifact
    | published => exact .inl rfl
    | derived => exact .inr rfl
  · intro htarget
    cases hstate : s.graphState with
    | empty =>
      rw [(h.graph.empty hstate).2.1] at htarget
      cases htarget
    | published => exact .inl rfl
    | stale => exact .inr rfl
  · intro hplan
    have hne : s.queryPlanState ≠ .absent := by
      intro habsent
      rw [habsent] at hplan
      exact absurd hplan (by decide)
    obtain ⟨-, hshape, htraversal, hview⟩ := h.plans.present hne
    exact ⟨hshape, by rw [htraversal]; exact Nat.one_pos, hview, h.plans.readOnly⟩
  · intro hedit
    have happlied := h.plans.changed hedit
    refine ⟨happlied, fun hauthorized => ?_⟩
    rw [(h.plans.authorized hauthorized).1] at happlied
    cases happlied
  · intro hevidence hauthorized
    rw [(h.plans.authorized hauthorized).2.2] at hevidence
    cases hevidence
  · intro _
    have hlast : ¬s.trace.length < c.traceBound := by omega
    exact ⟨fun hphase => hlast (h.bounded.indexing hphase),
      fun hphase => hlast (h.bounded.candidate hphase), fun hphase => hlast (h.bounded.running hphase),
      fun hphase => hlast (h.bounded.migrating (by rw [hphase]; decide)),
      fun hphase => hlast (h.bounded.planned hphase),
      fun hphase => hlast (h.bounded.includePlanned hphase)⟩

theorem Inv.of_reachable (hbound : 1 ≤ c.traceBound) (hreach : (behavior c).Reachable s) : Inv c s := by
  refine hreach.invariant (inv_init hbound) ?_
  intro _ _ _ h hstep
  exact h.step hstep

/-- Every state that a run reaches satisfies the invariants of the module. -/
theorem behavior_safe (c : Constants Id) (hbound : 1 ≤ c.traceBound) (s : State)
    (hreach : (behavior c).Reachable s) : Safe c s :=
  (Inv.of_reachable hbound hreach).safe

/-- Constants with one shared universe and room for eleven steps. -/
def sampleConstants : Constants Unit where
  declared := fun _ => Set.univ
  identifier := fun _ => ()
  identifier_mem := fun _ => Set.mem_univ _
  semanticUniverseId := ()
  sharedUniverseId := ()
  traceBound := 12

/-- A run in which an index generation is published, symbols are merged, a migration is interrupted and
recovered, and a query plan is validated at the end of the trace. -/
theorem behavior_safe_recovered : ∃ s, (behavior sampleConstants).play initialState
        [.importWorkspace, .captureConfiguration, .startIndexing, .indexSuccessfully,
          .publishGeneration .unknownRetained, .mergeSymbolsInUniverse, .beginMigration,
          .interruptMigration, .recoverMigration, .validateQueryPlan .path] = some s ∧
      Safe sampleConstants s := by
  have hsome : ((behavior sampleConstants).play initialState
      [.importWorkspace, .captureConfiguration, .startIndexing, .indexSuccessfully,
        .publishGeneration .unknownRetained, .mergeSymbolsInUniverse, .beginMigration,
        .interruptMigration, .recoverMigration, .validateQueryPlan .path]).isSome := by
    decide +kernel
  obtain ⟨s, hs⟩ := Option.isSome_iff_exists.mp hsome
  exact ⟨s, hs, behavior_safe sampleConstants (by decide) s
    (Transition.System.reachable_of_play .init _ hs)⟩

end CppIndexer.Behavior
