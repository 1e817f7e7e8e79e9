/-
# The behavioural protocol

The state machine of `CidxBehavior`: a workspace that is imported and configured, index generations that
are built, published and invalidated, transforms, queries, migrations, symbol identity across semantic
universes and include changes.

Each action is a partial function of the state, its guard and the variables it changes; what it chooses
is its argument. `InterruptPublication` and `InvalidateGeneration` assign variables that their
`UNCHANGED` tuples name as well. These two are also given as the relations the module writes, and the
functions are proved to compute them: the variables that are constrained twice end up in the guard.
-/

import Mathlib.Data.Set.Basic
import Mathlib.Tactic.Common
import CppIndexer.Lib.Transition

namespace CppIndexer.Behavior

/-! ## Variables -/

/-- `WorkspaceStates`. -/
inductive WorkspaceState
  | empty
  | imported
  | captured
  deriving DecidableEq

/-- `ConfigurationStates`. -/
inductive ConfigurationState
  | uncaptured
  | captured
  deriving DecidableEq

/-- `IndexStates`. -/
inductive IndexState
  | empty
  | indexing
  | indexed
  | current
  | stale
  | failed
  deriving DecidableEq

/-- `PublicationStates`. -/
inductive PublicationState
  | none
  | candidate
  | current
  | stale
  deriving DecidableEq

/-- `TransformStates`. -/
inductive TransformState
  | idle
  | planned
  | applied
  | failed
  deriving DecidableEq

/-- `QueryStates`. -/
inductive QueryState
  | idle
  | running
  | complete
  deriving DecidableEq

/-- `StorageStates`. -/
inductive StorageState
  | ready
  | migrating
  | recoveryRequired
  deriving DecidableEq

/-- `ArtifactStates`. -/
inductive ArtifactState
  | none
  | published
  | derived
  deriving DecidableEq

/-- `FailureModes`. -/
inductive FailureMode
  | none
  | indexFailure
  | interrupted
  | incompleteEvidence
  deriving DecidableEq

/-- `EvidenceStates`. -/
inductive EvidenceState
  | complete
  | incomplete
  deriving DecidableEq

/-- `QueryResultStates`. -/
inductive QueryResultState
  | none
  | complete
  | partial_
  | ambiguous
  | unknown
  deriving DecidableEq

/-- `IdentityModes`. -/
inductive IdentityMode
  | separate
  | merged
  deriving DecidableEq

/-- `GraphStates`. -/
inductive GraphState
  | empty
  | published
  | stale
  deriving DecidableEq

/-- `GraphEvidenceStates`. -/
inductive GraphEvidenceState
  | none
  | owned
  deriving DecidableEq

/-- `GraphTargetStates`. -/
inductive GraphTargetState
  | none
  | known
  | unknownRetained
  deriving DecidableEq

/-- `GraphConfigurationStates`. -/
inductive GraphConfigurationState
  | unbound
  | exact
  | stale
  deriving DecidableEq

/-- `QueryPlanStates`. -/
inductive QueryPlanState
  | absent
  | validated
  | executing
  | returned
  deriving DecidableEq

/-- `QueryStreamShapes`. -/
inductive QueryStreamShape
  | none
  | set
  | path
  deriving DecidableEq

/-- `QueryViewStates`. -/
inductive QueryViewState
  | none
  | safe
  | unsafe_
  deriving DecidableEq

/-- `IncludePlanStates`. -/
inductive IncludePlanState
  | none
  | planned
  | validated
  | applied
  | rejected
  deriving DecidableEq

/-- `IncludeConfigurationStates`. -/
inductive IncludeConfigurationState
  | none
  | exact
  | mismatch
  deriving DecidableEq

/-- `IncludeEditStates`. -/
inductive IncludeEditState
  | none
  | unchanged
  | changed
  deriving DecidableEq

/-- The declared identifier sets of `CidxTypes` that the module names. -/
inductive IdKind
  | workspace
  | repository
  | translationUnit
  | configuration
  | generation
  | artifact
  | query
  | relation
  | evidence

/-- The constants, each identifier in its declared set. -/
structure Constants (Id : Type) where
  declared : IdKind → Set Id
  identifier : IdKind → Id
  identifier_mem : ∀ k, identifier k ∈ declared k
  semanticUniverseId : Id
  sharedUniverseId : Id
  traceBound : ℕ

@[ext]
structure State where
  workspaceState : WorkspaceState
  configState : ConfigurationState
  indexState : IndexState
  publicationState : PublicationState
  transformState : TransformState
  queryState : QueryState
  storageState : StorageState
  artifactState : ArtifactState
  failureMode : FailureMode
  generation : ℕ
  currentGeneration : ℕ
  migrationBaseline : ℕ
  invalidated : Bool
  evidenceState : EvidenceState
  queryResultState : QueryResultState
  queryTruncated : Bool
  queryWrites : ℕ
  identityMode : IdentityMode
  graphState : GraphState
  graphEvidenceState : GraphEvidenceState
  graphTargetState : GraphTargetState
  graphConfigurationState : GraphConfigurationState
  graphArgumentOrder : List ℕ
  queryPlanState : QueryPlanState
  queryStreamShape : QueryStreamShape
  queryTraversalBound : ℕ
  queryViewState : QueryViewState
  queryReadOnly : Bool
  includePlanState : IncludePlanState
  includeConfigurationState : IncludeConfigurationState
  includeEditState : IncludeEditState
  destructiveEditAuthorized : Bool
  trace : List String

/-- `Init`. -/
def initialState : State where
  workspaceState := .empty
  configState := .uncaptured
  indexState := .empty
  publicationState := .none
  transformState := .idle
  queryState := .idle
  storageState := .ready
  artifactState := .none
  failureMode := .none
  generation := 0
  currentGeneration := 0
  migrationBaseline := 0
  invalidated := false
  evidenceState := .complete
  queryResultState := .none
  queryTruncated := false
  queryWrites := 0
  identityMode := .separate
  graphState := .empty
  graphEvidenceState := .none
  graphTargetState := .none
  graphConfigurationState := .unbound
  graphArgumentOrder := []
  queryPlanState := .absent
  queryStreamShape := .none
  queryTraversalBound := 0
  queryViewState := .none
  queryReadOnly := true
  includePlanState := .none
  includeConfigurationState := .none
  includeEditState := .none
  destructiveEditAuthorized := false
  trace := ["Init"]

/-! ## Actions -/

namespace State

section

variable {Id : Type} (c : Constants Id) (s : State)

/-- `TraceAvailable`. -/
def TraceAvailable : Prop := s.trace.length < c.traceBound

/-- `ProgressTraceAvailable`. -/
def ProgressTraceAvailable : Prop := s.trace.length + 1 < c.traceBound

instance : Decidable (s.TraceAvailable c) := inferInstanceAs (Decidable (_ < _))

instance : Decidable (s.ProgressTraceAvailable c) := inferInstanceAs (Decidable (_ < _))

/-- `ImportWorkspace`. -/
def importWorkspace : Option State :=
  if s.storageState = .ready ∧ s.workspaceState = .empty ∧ s.TraceAvailable c then
    some { s with
      workspaceState := .imported
      trace := s.trace ++ ["ImportWorkspace"] }
  else none

/-- `CaptureConfiguration`. -/
def captureConfiguration : Option State :=
  if s.storageState = .ready ∧ s.workspaceState = .imported ∧ s.configState = .uncaptured ∧
      s.TraceAvailable c then
    some { s with
      configState := .captured
      workspaceState := .captured
      trace := s.trace ++ ["CaptureConfiguration"] }
  else none

/-- `StartIndexing`. -/
def startIndexing : Option State :=
  if s.configState = .captured ∧ s.storageState = .ready ∧
      s.indexState ∈ [.empty, .stale, .failed] ∧ s.ProgressTraceAvailable c then
    some { s with
      indexState := .indexing
      failureMode := .none
      trace := s.trace ++ ["StartIndexing"] }
  else none

/-- `IndexSuccessfully`. -/
def indexSuccessfully : Option State :=
  if s.indexState = .indexing ∧ s.ProgressTraceAvailable c then
    some { s with
      indexState := .indexed
      publicationState := .candidate
      generation := s.generation + 1
      failureMode := .none
      trace := s.trace ++ ["IndexSuccessfully"] }
  else none

/-- `IndexFails`. -/
def indexFails : Option State :=
  if s.indexState = .indexing ∧ s.TraceAvailable c then
    some { s with
      indexState := .failed
      failureMode := .indexFailure
      trace := s.trace ++ ["IndexFails"] }
  else none

/-- `PublishGeneration`. -/
def publishGeneration (target : GraphTargetState) : Option State :=
  if target ∈ [.known, .unknownRetained] ∧ s.publicationState = .candidate ∧
      s.indexState = .indexed ∧ s.storageState = .ready ∧ s.TraceAvailable c then
    some { s with
      publicationState := .current
      indexState := .current
      artifactState := .published
      currentGeneration := s.generation
      invalidated := false
      graphState := .published
      graphEvidenceState := .owned
      graphTargetState := target
      graphConfigurationState := .exact
      graphArgumentOrder := [1, 2]
      queryPlanState := .absent
      queryStreamShape := .none
      queryTraversalBound := 0
      queryViewState := .none
      queryReadOnly := true
      includePlanState := .none
      includeConfigurationState := .none
      includeEditState := .none
      destructiveEditAuthorized := false
      trace := s.trace ++ ["PublishGeneration"] }
  else none

/-- The query plan and the include plan as `InterruptPublication` and `InvalidateGeneration` assign them
and also leave them unchanged. -/
def PlansReset : Prop :=
  s.queryPlanState = .absent ∧ s.queryStreamShape = .none ∧ s.queryTraversalBound = 0 ∧
    s.queryViewState = .none ∧ s.queryReadOnly = true ∧ s.includePlanState = .none ∧
    s.includeConfigurationState = .none ∧ s.includeEditState = .none ∧
    s.destructiveEditAuthorized = false

/-- The graph as `InterruptPublication` assigns it and also leaves it unchanged. -/
def GraphReset : Prop :=
  s.graphState = .empty ∧ s.graphEvidenceState = .none ∧ s.graphTargetState = .none ∧
    s.graphConfigurationState = .unbound ∧ s.graphArgumentOrder = []

instance : Decidable s.PlansReset := inferInstanceAs (Decidable (_ ∧ _))

instance : Decidable s.GraphReset := inferInstanceAs (Decidable (_ ∧ _))

/-- `InterruptPublication`. -/
def interruptPublication : Option State :=
  if s.publicationState = .candidate ∧ s.indexState = .indexed ∧ s.TraceAvailable c ∧
      s.GraphReset ∧ s.PlansReset then
    some { s with
      publicationState := .stale
      indexState := .stale
      failureMode := .interrupted
      trace := s.trace ++ ["InterruptPublication"] }
  else none

/-- `InvalidateGeneration`. -/
def invalidateGeneration : Option State :=
  if s.publicationState = .current ∧ s.indexState = .current ∧ s.storageState = .ready ∧
      s.queryState = .idle ∧ s.transformState = .idle ∧ s.TraceAvailable c ∧ s.PlansReset then
    some { s with
      publicationState := .stale
      indexState := .stale
      invalidated := true
      graphState := .stale
      graphConfigurationState := .stale
      trace := s.trace ++ ["InvalidateGeneration"] }
  else none

/-- `PlanTransform`. -/
def planTransform (evidence : EvidenceState) : Option State :=
  if s.publicationState = .current ∧ s.indexState = .current ∧ s.storageState = .ready ∧
      s.queryState = .idle ∧ s.transformState = .idle ∧ s.includePlanState = .none ∧
      s.invalidated = false ∧ s.artifactState = .published ∧ s.ProgressTraceAvailable c then
    some { s with
      transformState := .planned
      evidenceState := evidence
      destructiveEditAuthorized := false
      failureMode := .none
      trace := s.trace ++ ["PlanTransform"] }
  else none

/-- `ApplyTransform`. -/
def applyTransform : Option State :=
  if s.transformState = .planned ∧ s.evidenceState = .complete ∧ s.TraceAvailable c then
    some { s with
      transformState := .applied
      artifactState := .derived
      trace := s.trace ++ ["ApplyTransform"] }
  else none

/-- `RejectIncompleteTransform`. -/
def rejectIncompleteTransform : Option State :=
  if s.transformState = .planned ∧ s.evidenceState = .incomplete ∧ s.TraceAvailable c then
    some { s with
      transformState := .failed
      failureMode := .incompleteEvidence
      trace := s.trace ++ ["RejectIncompleteTransform"] }
  else none

/-- `ValidateQueryPlan`. -/
def validateQueryPlan (shape : QueryStreamShape) : Option State :=
  if shape ∈ [.set, .path] ∧ s.publicationState = .current ∧ s.indexState = .current ∧
      s.storageState = .ready ∧ s.transformState = .idle ∧ s.includePlanState = .none ∧
      s.invalidated = false ∧ s.queryState = .idle ∧ s.queryPlanState = .absent ∧
      s.TraceAvailable c then
    some { s with
      queryPlanState := .validated
      queryStreamShape := shape
      queryTraversalBound := 1
      queryViewState := .safe
      queryReadOnly := true
      trace := s.trace ++ ["ValidateQueryPlan"] }
  else none

/-- `StartQuery`. -/
def startQuery : Option State :=
  if s.publicationState = .current ∧ s.indexState = .current ∧ s.storageState = .ready ∧
      s.transformState = .idle ∧ s.includePlanState = .none ∧ s.invalidated = false ∧
      s.queryState = .idle ∧ s.queryPlanState = .validated ∧ s.ProgressTraceAvailable c then
    some { s with
      queryState := .running
      queryPlanState := .executing
      trace := s.trace ++ ["StartQuery"] }
  else none

/-- `ReturnQuery`. -/
def returnQuery (result : QueryResultState) : Option State :=
  if result ∈ [.complete, .partial_, .ambiguous, .unknown] ∧ s.queryState = .running ∧
      s.queryPlanState = .executing ∧ s.TraceAvailable c then
    some { s with
      queryState := .complete
      queryPlanState := .returned
      queryResultState := result
      queryTruncated := result = .partial_
      trace := s.trace ++ ["ReturnQuery"] }
  else none

/-- `BeginMigration`. -/
def beginMigration : Option State :=
  if s.storageState = .ready ∧ s.indexState ≠ .indexing ∧ s.publicationState ≠ .candidate ∧
      s.queryState = .idle ∧ s.transformState = .idle ∧ s.includePlanState = .none ∧
      s.ProgressTraceAvailable c then
    some { s with
      storageState := .migrating
      migrationBaseline := s.currentGeneration
      trace := s.trace ++ ["BeginMigration"] }
  else none

/-- `CompleteMigration`. -/
def completeMigration : Option State :=
  if s.storageState = .migrating ∧ s.TraceAvailable c then
    some { s with
      storageState := .ready
      failureMode := .none
      trace := s.trace ++ ["CompleteMigration"] }
  else none

/-- `InterruptMigration`. -/
def interruptMigration : Option State :=
  if s.storageState = .migrating ∧ s.ProgressTraceAvailable c then
    some { s with
      storageState := .recoveryRequired
      failureMode := .interrupted
      trace := s.trace ++ ["InterruptMigration"] }
  else none

/-- `RecoverMigration`. -/
def recoverMigration : Option State :=
  if s.storageState = .recoveryRequired ∧ s.TraceAvailable c then
    some { s with
      storageState := .ready
      failureMode := .none
      trace := s.trace ++ ["RecoverMigration"] }
  else none

/-- `MergeSymbolsInUniverse`. -/
def mergeSymbolsInUniverse [DecidableEq Id] : Option State :=
  if s.identityMode = .separate ∧ c.semanticUniverseId = c.sharedUniverseId ∧
      s.indexState ≠ .indexing ∧ s.publicationState ≠ .candidate ∧ s.queryState = .idle ∧
      s.storageState = .ready ∧ s.transformState = .idle ∧ s.includePlanState = .none ∧
      s.TraceAvailable c then
    some { s with
      identityMode := .merged
      trace := s.trace ++ ["MergeSymbolsInUniverse"] }
  else none

/-- `SeparateSymbolsAcrossUniverses`. -/
def separateSymbolsAcrossUniverses : Option State :=
  if s.identityMode = .merged ∧ s.indexState ≠ .indexing ∧ s.publicationState ≠ .candidate ∧
      s.queryState = .idle ∧ s.transformState = .idle ∧ s.storageState = .ready ∧
      s.includePlanState = .none ∧ s.TraceAvailable c then
    some { s with
      identityMode := .separate
      trace := s.trace ++ ["SeparateSymbolsAcrossUniverses"] }
  else none

/-- `PlanIncludeChange`. -/
def planIncludeChange (configuration : IncludeConfigurationState) : Option State :=
  if configuration ∈ [.exact, .mismatch] ∧ s.publicationState = .current ∧
      s.indexState = .current ∧ s.storageState = .ready ∧ s.queryState = .idle ∧
      s.transformState = .idle ∧ s.invalidated = false ∧ s.includePlanState = .none ∧
      s.ProgressTraceAvailable c then
    some { s with
      includePlanState := .planned
      includeConfigurationState := configuration
      includeEditState := .none
      destructiveEditAuthorized := false
      trace := s.trace ++ ["PlanIncludeChange"] }
  else none

/-- `ValidateIncludeConfiguration`. -/
def validateIncludeConfiguration : Option State :=
  if s.includePlanState = .planned ∧ s.includeConfigurationState = .exact ∧
      s.evidenceState = .complete ∧ s.TraceAvailable c then
    some { s with
      includePlanState := .validated
      destructiveEditAuthorized := true
      trace := s.trace ++ ["ValidateIncludeConfiguration"] }
  else none

/-- `RejectIncludeConfiguration`. -/
def rejectIncludeConfiguration : Option State :=
  if s.includePlanState = .planned ∧ s.includeConfigurationState = .mismatch ∧
      s.TraceAvailable c then
    some { s with
      includePlanState := .rejected
      destructiveEditAuthorized := false
      trace := s.trace ++ ["RejectIncludeConfiguration"] }
  else none

/-- `ApplyIncludeChange`. -/
def applyIncludeChange : Option State :=
  if s.includePlanState = .validated ∧ s.includeConfigurationState = .exact ∧
      s.destructiveEditAuthorized = true ∧ s.evidenceState = .complete ∧ s.TraceAvailable c then
    some { s with
      includePlanState := .applied
      includeEditState := .changed
      destructiveEditAuthorized := false
      trace := s.trace ++ ["ApplyIncludeChange"] }
  else none

end

end State

/-- The actions, with what they choose, and the stuttering step. -/
inductive Action
  | importWorkspace
  | captureConfiguration
  | startIndexing
  | indexSuccessfully
  | indexFails
  | publishGeneration (target : GraphTargetState)
  | interruptPublication
  | invalidateGeneration
  | planTransform (evidence : EvidenceState)
  | applyTransform
  | rejectIncompleteTransform
  | validateQueryPlan (shape : QueryStreamShape)
  | startQuery
  | returnQuery (result : QueryResultState)
  | beginMigration
  | completeMigration
  | interruptMigration
  | recoverMigration
  | mergeSymbolsInUniverse
  | separateSymbolsAcrossUniverses
  | planIncludeChange (configuration : IncludeConfigurationState)
  | validateIncludeConfiguration
  | rejectIncludeConfiguration
  | applyIncludeChange
  | noOp
  deriving DecidableEq

/-- `Next`. -/
def State.step {Id : Type} [DecidableEq Id] (c : Constants Id) (s : State) : Action → Option State
  | .importWorkspace => s.importWorkspace c
  | .captureConfiguration => s.captureConfiguration c
  | .startIndexing => s.startIndexing c
  | .indexSuccessfully => s.indexSuccessfully c
  | .indexFails => s.indexFails c
  | .publishGeneration target => s.publishGeneration c target
  | .interruptPublication => s.interruptPublication c
  | .invalidateGeneration => s.invalidateGeneration c
  | .planTransform evidence => s.planTransform c evidence
  | .applyTransform => s.applyTransform c
  | .rejectIncompleteTransform => s.rejectIncompleteTransform c
  | .validateQueryPlan shape => s.validateQueryPlan c shape
  | .startQuery => s.startQuery c
  | .returnQuery result => s.returnQuery c result
  | .beginMigration => s.beginMigration c
  | .completeMigration => s.completeMigration c
  | .interruptMigration => s.interruptMigration c
  | .recoverMigration => s.recoverMigration c
  | .mergeSymbolsInUniverse => s.mergeSymbolsInUniverse c
  | .separateSymbolsAcrossUniverses => s.separateSymbolsAcrossUniverses c
  | .planIncludeChange configuration => s.planIncludeChange c configuration
  | .validateIncludeConfiguration => s.validateIncludeConfiguration c
  | .rejectIncludeConfiguration => s.rejectIncludeConfiguration c
  | .applyIncludeChange => s.applyIncludeChange c
  | .noOp => some s

def behavior {Id : Type} [DecidableEq Id] (c : Constants Id) : Transition.System State Action where
  init := initialState
  step := State.step c

/-! ## Actions that constrain a variable twice -/

section

variable {Id : Type} (c : Constants Id) (s s' : State)

/-- `InterruptPublication` as the module writes it. -/
def InterruptPublication : Prop :=
  s.publicationState = .candidate ∧ s.indexState = .indexed ∧ s.TraceAvailable c ∧
    s'.publicationState = .stale ∧ s'.indexState = .stale ∧ s'.failureMode = .interrupted ∧
    s'.graphState = .empty ∧ s'.graphEvidenceState = .none ∧ s'.graphTargetState = .none ∧
    s'.graphConfigurationState = .unbound ∧ s'.graphArgumentOrder = [] ∧
    s'.queryPlanState = .absent ∧ s'.queryStreamShape = .none ∧ s'.queryTraversalBound = 0 ∧
    s'.queryViewState = .none ∧ s'.queryReadOnly = true ∧ s'.includePlanState = .none ∧
    s'.includeConfigurationState = .none ∧ s'.includeEditState = .none ∧
    s'.destructiveEditAuthorized = false ∧ s'.trace = s.trace ++ ["InterruptPublication"] ∧
    -- `UNCHANGED`
    s'.workspaceState = s.workspaceState ∧ s'.configState = s.configState ∧
    s'.transformState = s.transformState ∧ s'.queryState = s.queryState ∧
    s'.storageState = s.storageState ∧ s'.artifactState = s.artifactState ∧
    s'.generation = s.generation ∧ s'.currentGeneration = s.currentGeneration ∧
    s'.migrationBaseline = s.migrationBaseline ∧ s'.invalidated = s.invalidated ∧
    s'.evidenceState = s.evidenceState ∧ s'.queryResultState = s.queryResultState ∧
    s'.queryTruncated = s.queryTruncated ∧ s'.queryWrites = s.queryWrites ∧
    s'.identityMode = s.identityMode ∧ s'.graphState = s.graphState ∧
    s'.graphEvidenceState = s.graphEvidenceState ∧ s'.graphTargetState = s.graphTargetState ∧
    s'.graphConfigurationState = s.graphConfigurationState ∧
    s'.graphArgumentOrder = s.graphArgumentOrder ∧ s'.queryPlanState = s.queryPlanState ∧
    s'.queryStreamShape = s.queryStreamShape ∧ s'.queryTraversalBound = s.queryTraversalBound ∧
    s'.queryViewState = s.queryViewState ∧ s'.queryReadOnly = s.queryReadOnly ∧
    s'.includePlanState = s.includePlanState ∧
    s'.includeConfigurationState = s.includeConfigurationState ∧
    s'.includeEditState = s.includeEditState ∧
    s'.destructiveEditAuthorized = s.destructiveEditAuthorized

/-- `InvalidateGeneration` as the module writes it. -/
def InvalidateGeneration : Prop :=
  s.publicationState = .current ∧ s.indexState = .current ∧ s.storageState = .ready ∧
    s.queryState = .idle ∧ s.transformState = .idle ∧ s.TraceAvailable c ∧
    s'.publicationState = .stale ∧ s'.indexState = .stale ∧ s'.invalidated = true ∧
    s'.graphState = .stale ∧ s'.graphConfigurationState = .stale ∧ s'.queryPlanState = .absent ∧
    s'.queryStreamShape = .none ∧ s'.queryTraversalBound = 0 ∧ s'.queryViewState = .none ∧
    s'.queryReadOnly = true ∧ s'.includePlanState = .none ∧ s'.includeConfigurationState = .none ∧
    s'.includeEditState = .none ∧ s'.destructiveEditAuthorized = false ∧
    s'.trace = s.trace ++ ["InvalidateGeneration"] ∧
    -- `UNCHANGED`
    s'.workspaceState = s.workspaceState ∧ s'.configState = s.configState ∧
    s'.transformState = s.transformState ∧ s'.queryState = s.queryState ∧
    s'.storageState = s.storageState ∧ s'.artifactState = s.artifactState ∧
    s'.failureMode = s.failureMode ∧ s'.generation = s.generation ∧
    s'.currentGeneration = s.currentGeneration ∧ s'.migrationBaseline = s.migrationBaseline ∧
    s'.evidenceState = s.evidenceState ∧ s'.queryResultState = s.queryResultState ∧
    s'.queryTruncated = s.queryTruncated ∧ s'.queryWrites = s.queryWrites ∧
    s'.identityMode = s.identityMode ∧ s'.graphEvidenceState = s.graphEvidenceState ∧
    s'.graphTargetState = s.graphTargetState ∧ s'.graphArgumentOrder = s.graphArgumentOrder ∧
    s'.queryPlanState = s.queryPlanState ∧ s'.queryStreamShape = s.queryStreamShape ∧
    s'.queryTraversalBound = s.queryTraversalBound ∧ s'.queryViewState = s.queryViewState ∧
    s'.queryReadOnly = s.queryReadOnly ∧ s'.includePlanState = s.includePlanState ∧
    s'.includeConfigurationState = s.includeConfigurationState ∧
    s'.includeEditState = s.includeEditState ∧
    s'.destructiveEditAuthorized = s.destructiveEditAuthorized

theorem interruptPublication_iff : InterruptPublication c s s' ↔ s.interruptPublication c = some s' := by
  unfold State.interruptPublication
  rw [Option.ite_none_right_eq_some, Option.some.injEq]
  constructor
  · intro h
    unfold InterruptPublication at h
    refine ⟨?_, ?_⟩
    · unfold State.GraphReset State.PlansReset
      grind
    · apply State.ext <;> grind
  · rintro ⟨h, rfl⟩
    unfold State.GraphReset State.PlansReset at h
    unfold InterruptPublication
    grind

theorem invalidateGeneration_iff : InvalidateGeneration c s s' ↔ s.invalidateGeneration c = some s' := by
  unfold State.invalidateGeneration
  rw [Option.ite_none_right_eq_some, Option.some.injEq]
  constructor
  · intro h
    unfold InvalidateGeneration at h
    refine ⟨?_, ?_⟩
    · unfold State.PlansReset
      grind
    · apply State.ext <;> grind
  · rintro ⟨h, rfl⟩
    unfold State.PlansReset at h
    unfold InvalidateGeneration
    grind

end

end CppIndexer.Behavior
