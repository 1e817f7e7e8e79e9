/-
# The storage lifecycle

The state machine of `CidxStorageLifecycle`: core generations that are staged, validated and published,
a sidecar that is published apart from them, migrations with their recovery, leases and pins of retired
generations, exported packages and include plans. No transaction covers the core and the sidecar.

Each action is a partial function of the state: its guard, and the variables it changes. What the
action chooses (a quality, a generation) is its argument. Where an action constrains a variable twice,
the second constraint is part of the guard.
-/

import Mathlib.Data.Finset.Basic
import CppIndexer.Lib.Transition

namespace CppIndexer.StorageLifecycle

/-! ## Variables -/

/-- `GenerationStates`. -/
inductive GenerationState
  | current
  | extracting
  | validated
  | failed
  deriving DecidableEq

/-- `ArtifactQualities`. -/
inductive ArtifactQuality
  | valid
  | partial_
  | corrupt
  | incompatible
  deriving DecidableEq

/-- `CorePublicationStates`. -/
inductive CorePublicationState
  | current
  | staging
  | stale
  | unavailable
  deriving DecidableEq

/-- `MigrationPhases`. -/
inductive MigrationPhase
  | none
  | staging
  | validated
  | committed
  | rejected
  | recoveryRequired
  deriving DecidableEq

/-- `MigrationRecoveryStates`. -/
inductive MigrationRecovery
  | none
  | snapshotRetained
  | interrupted
  | recoveredPrevious

/-- `ReadStatuses`. -/
inductive ReadStatus
  | current
  | stale
  | partial_
  | unavailable
  deriving DecidableEq

/-- `ReaderCompatibilityStates`. -/
inductive ReaderCompatibility
  | supported
  | newer
  | incompatible
  deriving DecidableEq

/-- `SidecarStates`. -/
inductive SidecarState
  | absent
  | building
  | validated
  | current
  | stale
  | missing
  | corrupt
  | incompatible
  deriving DecidableEq

/-- `SidecarAttachments`. -/
inductive SidecarAttachment
  | detached
  | attached
  deriving DecidableEq

/-- `FilePublicationStates`. -/
inductive FilePublication
  | none
  | current
  deriving DecidableEq

/-- `ReadCompletenessStates`. -/
inductive ReadCompleteness
  | complete
  | partial_
  | unknown
  | unavailable

/-- `PackageStates`. -/
inductive PackageState
  | none
  | building
  | complete
  | partial_
  | rejected
  | imported
  deriving DecidableEq

/-- `IncludePlanStates`. -/
inductive IncludePlanState
  | none
  | planned
  | validated
  | applied
  | rejected
  deriving DecidableEq

/-- `IncludeEvidenceStates`. -/
inductive IncludeEvidence
  | none
  | complete
  | incomplete
  deriving DecidableEq

/-- `IncludeEditStates`. -/
inductive IncludeEditState
  | none
  | unchanged
  | changed
  deriving DecidableEq

/-- The constants of the module that its actions read. -/
structure Constants where
  coreSchemaVersion : ℕ
  supportedSchemaVersion : ℕ
  newerSchemaVersion : ℕ
  incompatibleSchemaVersion : ℕ
  initialGeneration : ℕ
  replacementGeneration : ℕ
  traceBound : ℕ

structure State where
  currentGeneration : ℕ
  stagedGeneration : ℕ
  generationState : GenerationState
  currentArtifactQuality : ArtifactQuality
  stagedArtifactQuality : ArtifactQuality
  stagedValidated : Bool
  corePublicationState : CorePublicationState
  extractedGeneration : ℕ
  derivedGeneration : ℕ
  coreSchema : ℕ
  migrationPhase : MigrationPhase
  migrationSourceSchema : ℕ
  migrationTargetSchema : ℕ
  preMigrationGeneration : ℕ
  migrationRecovery : MigrationRecovery
  readerStatus : ReadStatus
  readerCompatibility : ReaderCompatibility
  sidecarGeneration : ℕ
  sidecarState : SidecarState
  sidecarQuality : ArtifactQuality
  sidecarValidated : Bool
  sidecarAttachment : SidecarAttachment
  coreFilePublication : FilePublication
  sidecarFilePublication : FilePublication
  readCompleteness : ReadCompleteness
  crossFileAtomicityAssumed : Bool
  retiredGenerations : Finset ℕ
  leasedGenerations : Finset ℕ
  replayPinnedGenerations : Finset ℕ
  removedGenerations : Finset ℕ
  packageState : PackageState
  packageCoreComplete : Bool
  packageSidecarComplete : Bool
  packageImported : Bool
  includePlanState : IncludePlanState
  includeEvidence : IncludeEvidence
  includeEditState : IncludeEditState
  readOnlyWrites : ℕ
  trace : List String

section

variable (c : Constants)

/-! ## Seeds -/

/-- `InitialState`. -/
def initialState : State where
  currentGeneration := c.initialGeneration
  stagedGeneration := 0
  generationState := .current
  currentArtifactQuality := .valid
  stagedArtifactQuality := .valid
  stagedValidated := false
  corePublicationState := .current
  extractedGeneration := c.initialGeneration
  derivedGeneration := c.initialGeneration
  coreSchema := c.coreSchemaVersion
  migrationPhase := .none
  migrationSourceSchema := c.coreSchemaVersion
  migrationTargetSchema := c.coreSchemaVersion
  preMigrationGeneration := c.initialGeneration
  migrationRecovery := .none
  readerStatus := .current
  readerCompatibility := .supported
  sidecarGeneration := 0
  sidecarState := .absent
  sidecarQuality := .valid
  sidecarValidated := false
  sidecarAttachment := .detached
  coreFilePublication := .current
  sidecarFilePublication := .none
  readCompleteness := .partial_
  crossFileAtomicityAssumed := false
  retiredGenerations := ∅
  leasedGenerations := ∅
  replayPinnedGenerations := ∅
  removedGenerations := ∅
  packageState := .none
  packageCoreComplete := false
  packageSidecarComplete := false
  packageImported := false
  includePlanState := .none
  includeEvidence := .none
  includeEditState := .none
  readOnlyWrites := 0
  trace := ["Init"]

/-- The scenarios, without the one that assumes a transaction over both files. -/
inductive Seed
  | valid
  | multiGeneration
  | boundaryPublication
  | newerReader
  | incompatibleReader

/-- `Init`. -/
def Seed.state : Seed → State
  | .valid => initialState c
  | .multiGeneration =>
    { initialState c with
      currentGeneration := c.replacementGeneration
      extractedGeneration := c.replacementGeneration
      derivedGeneration := c.replacementGeneration
      preMigrationGeneration := c.replacementGeneration
      sidecarGeneration := c.replacementGeneration
      sidecarState := .current
      sidecarValidated := true
      sidecarAttachment := .attached
      sidecarFilePublication := .current
      readCompleteness := .complete
      retiredGenerations := {c.initialGeneration}
      trace := ["Init", "SeedFirstReplacement"] }
  | .boundaryPublication =>
    { initialState c with
      trace := ["Init", "SeedBoundary1", "SeedBoundary2", "SeedBoundary3", "SeedBoundary4",
        "SeedBoundary5", "SeedBoundary6"] }
  | .newerReader =>
    { initialState c with
      coreSchema := c.newerSchemaVersion
      readerStatus := .unavailable
      readerCompatibility := .newer
      readCompleteness := .unavailable }
  | .incompatibleReader =>
    { initialState c with
      coreSchema := c.incompatibleSchemaVersion
      readerStatus := .unavailable
      readerCompatibility := .incompatible
      readCompleteness := .unavailable }

/-! ## Actions -/

namespace State

variable (s : State)

/-- `TraceAvailable`. -/
def TraceAvailable : Prop := s.trace.length + 1 < c.traceBound

/-- `ProgressTraceAvailable`, which is also `WorkTraceAvailable`. -/
def WorkTraceAvailable : Prop := s.trace.length + 2 < c.traceBound

instance : Decidable (s.TraceAvailable c) := inferInstanceAs (Decidable (_ < _))

instance : Decidable (s.WorkTraceAvailable c) := inferInstanceAs (Decidable (_ < _))

/-- `SidecarCompleteFor`. -/
def SidecarCompleteFor (g : ℕ) : Prop :=
  s.sidecarState = .current ∧ s.sidecarValidated ∧ s.sidecarQuality = .valid ∧
    s.sidecarAttachment = .attached ∧ s.sidecarFilePublication = .current ∧ s.sidecarGeneration = g

instance (g : ℕ) : Decidable (s.SidecarCompleteFor g) := inferInstanceAs (Decidable (_ ∧ _))

/-- `IF SidecarCompleteFor(currentGeneration) THEN "complete" ELSE "partial"`. -/
def completeness : ReadCompleteness :=
  if s.SidecarCompleteFor s.currentGeneration then .complete else .partial_

/-- `StartOneTUUpdate`. -/
def startOneTUUpdate : Option State :=
  if s.corePublicationState = .current ∧ s.migrationPhase = .none ∧ s.stagedGeneration = 0 ∧
      s.packageState ≠ .building ∧ s.packageState ≠ .imported ∧ s.WorkTraceAvailable c then
    some { s with
      stagedGeneration := s.currentGeneration + 1
      generationState := .extracting
      stagedArtifactQuality := .partial_
      stagedValidated := false
      corePublicationState := .staging
      readCompleteness := s.completeness
      trace := s.trace ++ ["StartOneTUUpdate"] }
  else none

/-- `PrepareStagedArtifact`. -/
def prepareStagedArtifact (quality : ArtifactQuality) : Option State :=
  if s.generationState = .extracting ∧ 0 < s.stagedGeneration ∧ s.WorkTraceAvailable c then
    some { s with
      stagedArtifactQuality := quality
      generationState := .validated
      trace := s.trace ++ ["PrepareStagedArtifact"] }
  else none

/-- `ValidateStagedArtifact`. -/
def validateStagedArtifact : Option State :=
  if s.generationState = .validated ∧ 0 < s.stagedGeneration ∧ s.WorkTraceAvailable c then
    some { s with
      stagedValidated := s.stagedArtifactQuality = .valid
      generationState := if s.stagedArtifactQuality = .valid then .validated else .failed
      trace := s.trace ++ ["ValidateStagedArtifact"] }
  else none

/-- `PublishCoreGeneration`. -/
def publishCoreGeneration : Option State :=
  if s.generationState = .validated ∧ s.stagedValidated ∧ s.stagedArtifactQuality = .valid ∧
      s.corePublicationState = .staging ∧ s.migrationPhase = .none ∧ s.WorkTraceAvailable c then
    some { s with
      retiredGenerations := insert s.currentGeneration s.retiredGenerations
      currentGeneration := s.stagedGeneration
      currentArtifactQuality := s.stagedArtifactQuality
      generationState := .current
      stagedGeneration := 0
      corePublicationState := .current
      extractedGeneration := s.stagedGeneration
      derivedGeneration := s.stagedGeneration
      coreFilePublication := .current
      sidecarState := if s.SidecarCompleteFor s.currentGeneration then .stale else s.sidecarState
      sidecarValidated :=
        if s.SidecarCompleteFor s.currentGeneration then false else s.sidecarValidated
      sidecarAttachment :=
        if s.SidecarCompleteFor s.currentGeneration then .detached else s.sidecarAttachment
      readCompleteness := .partial_
      trace := s.trace ++ ["PublishCoreGeneration"] }
  else none

/-- `InterruptPublication`. -/
def interruptPublication : Option State :=
  if s.corePublicationState = .staging ∧ 0 < s.stagedGeneration ∧ s.TraceAvailable c then
    some { s with
      generationState := .failed
      stagedGeneration := 0
      stagedValidated := false
      corePublicationState := .current
      readCompleteness := s.completeness
      trace := s.trace ++ ["InterruptPublication"] }
  else none

/-- `BuildSidecar`. -/
def buildSidecar : Option State :=
  if (s.generationState = .validated ∨ s.generationState = .current) ∧
      s.sidecarState ∈ [.absent, .stale, .missing, .corrupt, .incompatible] ∧
      (0 < s.stagedGeneration ∨ s.sidecarState ≠ .absent) ∧ s.WorkTraceAvailable c then
    some { s with
      sidecarGeneration := if 0 < s.stagedGeneration then s.stagedGeneration else s.currentGeneration
      sidecarState := .building
      sidecarQuality := .partial_
      sidecarValidated := false
      sidecarAttachment := .detached
      sidecarFilePublication := .none
      trace := s.trace ++ ["BuildSidecar"] }
  else none

/-- `PrepareSidecarArtifact`. -/
def prepareSidecarArtifact (quality : ArtifactQuality) : Option State :=
  if s.sidecarState = .building ∧ 0 < s.sidecarGeneration ∧ s.WorkTraceAvailable c then
    some { s with
      sidecarQuality := quality
      sidecarState := .validated
      sidecarValidated := quality = .valid
      trace := s.trace ++ ["PrepareSidecarArtifact"] }
  else none

/-- `PublishSidecar`. -/
def publishSidecar : Option State :=
  if s.sidecarState = .validated ∧ s.sidecarValidated ∧ s.sidecarQuality = .valid ∧
      s.sidecarGeneration = s.currentGeneration ∧ s.corePublicationState = .current ∧
      s.migrationPhase = .none ∧ s.readerStatus = .current ∧ s.WorkTraceAvailable c then
    some { s with
      sidecarState := .current
      sidecarAttachment := .attached
      sidecarFilePublication := .current
      readCompleteness := .complete
      trace := s.trace ++ ["PublishSidecar"] }
  else none

/-- `MarkSidecarMissing`. -/
def markSidecarMissing : Option State :=
  if s.sidecarState ∈ [.current, .stale, .absent] ∧ s.WorkTraceAvailable c then
    some { s with
      sidecarState := .missing
      sidecarAttachment := .detached
      sidecarFilePublication := .none
      readCompleteness := .partial_
      trace := s.trace ++ ["MarkSidecarMissing"] }
  else none

/-- `MarkSidecarCorrupt`. -/
def markSidecarCorrupt : Option State :=
  if s.sidecarState ∈ [.current, .stale] ∧ s.WorkTraceAvailable c then
    some { s with
      sidecarState := .corrupt
      sidecarAttachment := .detached
      sidecarQuality := .corrupt
      sidecarValidated := false
      readCompleteness := .unknown
      trace := s.trace ++ ["MarkSidecarCorrupt"] }
  else none

/-- `MarkSidecarIncompatible`. -/
def markSidecarIncompatible : Option State :=
  if s.sidecarState ∈ [.current, .stale, .absent] ∧ s.WorkTraceAvailable c then
    some { s with
      sidecarState := .incompatible
      sidecarAttachment := .detached
      sidecarQuality := .incompatible
      sidecarValidated := false
      readCompleteness := .unknown
      trace := s.trace ++ ["MarkSidecarIncompatible"] }
  else none

/-- `BeginSupportedMigration`. -/
def beginSupportedMigration : Option State :=
  if s.migrationPhase = .none ∧ s.packageState ≠ .building ∧ s.coreSchema = c.coreSchemaVersion ∧
      s.corePublicationState = .current ∧ s.readerStatus = .current ∧ s.WorkTraceAvailable c then
    some { s with
      migrationPhase := .staging
      migrationSourceSchema := s.coreSchema
      migrationTargetSchema := c.supportedSchemaVersion
      preMigrationGeneration := s.currentGeneration
      migrationRecovery := .snapshotRetained
      trace := s.trace ++ ["BeginSupportedMigration"] }
  else none

/-- `ValidateMigration`. -/
def validateMigration : Option State :=
  if s.migrationPhase = .staging ∧ s.migrationTargetSchema = c.supportedSchemaVersion ∧
      s.WorkTraceAvailable c then
    some { s with
      migrationPhase := .validated
      trace := s.trace ++ ["ValidateMigration"] }
  else none

/-- `RejectMigration`. -/
def rejectMigration : Option State :=
  if s.migrationPhase = .staging ∧ s.migrationTargetSchema = c.supportedSchemaVersion ∧
      s.WorkTraceAvailable c then
    some { s with
      migrationPhase := .rejected
      migrationRecovery := .snapshotRetained
      trace := s.trace ++ ["RejectMigration"] }
  else none

/-- `CommitMigration`. -/
def commitMigration : Option State :=
  if s.migrationPhase = .validated ∧ s.migrationTargetSchema = c.supportedSchemaVersion ∧
      s.coreSchema = s.migrationSourceSchema ∧ s.WorkTraceAvailable c then
    some { s with
      coreSchema := s.migrationTargetSchema
      migrationPhase := .committed
      migrationRecovery := .snapshotRetained
      readerStatus := .current
      readerCompatibility := .supported
      trace := s.trace ++ ["CommitMigration"] }
  else none

/-- `RollbackRejectedMigration`. -/
def rollbackRejectedMigration : Option State :=
  if s.migrationPhase = .rejected ∧ s.coreSchema = s.migrationSourceSchema ∧
      s.currentGeneration = s.preMigrationGeneration ∧ s.TraceAvailable c then
    some { s with
      migrationPhase := .none
      migrationRecovery := .recoveredPrevious
      readerStatus := .current
      readerCompatibility := .supported
      readCompleteness := s.completeness
      trace := s.trace ++ ["RollbackRejectedMigration"] }
  else none

/-- `FinishMigration`. -/
def finishMigration : Option State :=
  if s.migrationPhase = .committed ∧ s.TraceAvailable c then
    some { s with
      migrationPhase := .none
      trace := s.trace ++ ["FinishMigration"] }
  else none

/-- `RollbackCommittedMigration`. -/
def rollbackCommittedMigration : Option State :=
  if s.migrationPhase = .committed ∧ s.coreSchema = c.supportedSchemaVersion ∧
      s.TraceAvailable c then
    some { s with
      coreSchema := s.migrationSourceSchema
      migrationPhase := .none
      migrationRecovery := .recoveredPrevious
      readerStatus := .current
      readerCompatibility := .supported
      readCompleteness := s.completeness
      trace := s.trace ++ ["RollbackCommittedMigration"] }
  else none

/-- `InterruptMigration`: at the end of the trace the previous schema is recovered at once. -/
def interruptMigration : Option State :=
  if s.migrationPhase ∈ [.staging, .validated, .committed] ∧ s.TraceAvailable c then
    if c.traceBound ≤ s.trace.length + 2 then
      some { s with
        coreSchema := s.migrationSourceSchema
        migrationPhase := .none
        migrationRecovery := .recoveredPrevious
        readerStatus := .current
        readerCompatibility := .supported
        readCompleteness := s.completeness
        trace := s.trace ++ ["InterruptMigration"] }
    else
      some { s with
        migrationPhase := .recoveryRequired
        migrationRecovery := .interrupted
        readerStatus := .unavailable
        readCompleteness := .unavailable
        trace := s.trace ++ ["InterruptMigration"] }
  else none

/-- `RecoverPreviousMigration`. -/
def recoverPreviousMigration : Option State :=
  if s.migrationPhase = .recoveryRequired ∧
      (s.coreSchema = s.migrationSourceSchema ∨ s.coreSchema = s.migrationTargetSchema) ∧
      s.currentGeneration = s.preMigrationGeneration ∧ s.TraceAvailable c then
    some { s with
      coreSchema := s.migrationSourceSchema
      migrationPhase := .none
      migrationRecovery := .recoveredPrevious
      readerStatus := .current
      readerCompatibility := .supported
      readCompleteness := s.completeness
      trace := s.trace ++ ["RecoverPreviousMigration"] }
  else none

/-- `OpenNewerReader`. -/
def openNewerReader : Option State :=
  if s.coreSchema = c.newerSchemaVersion ∧ s.readerStatus = .unavailable ∧
      s.readerCompatibility = .newer ∧ s.WorkTraceAvailable c then
    some { s with trace := s.trace ++ ["OpenNewerReader"] }
  else none

/-- `OpenIncompatibleReader`. -/
def openIncompatibleReader : Option State :=
  if s.coreSchema = c.incompatibleSchemaVersion ∧ s.readerStatus = .unavailable ∧
      s.readerCompatibility = .incompatible ∧ s.WorkTraceAvailable c then
    some { s with trace := s.trace ++ ["OpenIncompatibleReader"] }
  else none

variable (generation : ℕ)

/-- `AcquireLease`. -/
def acquireLease : Option State :=
  if generation ∈ s.retiredGenerations \ s.removedGenerations ∧
      generation ≠ s.currentGeneration ∧ generation ∉ s.leasedGenerations ∧
      s.WorkTraceAvailable c then
    some { s with
      leasedGenerations := insert generation s.leasedGenerations
      trace := s.trace ++ ["AcquireLease"] }
  else none

/-- `ReleaseLease`. -/
def releaseLease : Option State :=
  if generation ∈ s.leasedGenerations ∧ s.WorkTraceAvailable c then
    some { s with
      leasedGenerations := s.leasedGenerations.erase generation
      trace := s.trace ++ ["ReleaseLease"] }
  else none

/-- `PinReplay`. -/
def pinReplay : Option State :=
  if generation ∈ s.retiredGenerations \ s.removedGenerations ∧
      generation ≠ s.currentGeneration ∧ generation ∉ s.replayPinnedGenerations ∧
      s.WorkTraceAvailable c then
    some { s with
      replayPinnedGenerations := insert generation s.replayPinnedGenerations
      trace := s.trace ++ ["PinReplay"] }
  else none

/-- `UnpinReplay`. -/
def unpinReplay : Option State :=
  if generation ∈ s.replayPinnedGenerations ∧ s.WorkTraceAvailable c then
    some { s with
      replayPinnedGenerations := s.replayPinnedGenerations.erase generation
      trace := s.trace ++ ["UnpinReplay"] }
  else none

/-- `CleanupRetired`. -/
def cleanupRetired : Option State :=
  if generation ∈ s.retiredGenerations \ s.removedGenerations ∧
      generation ≠ s.currentGeneration ∧ generation ∉ s.leasedGenerations ∧
      generation ∉ s.replayPinnedGenerations ∧ s.WorkTraceAvailable c then
    some { s with
      removedGenerations := insert generation s.removedGenerations
      trace := s.trace ++ ["CleanupRetired"] }
  else none

/-- `BeginExport`. -/
def beginExport : Option State :=
  if s.packageState = .none ∧ s.migrationPhase = .none ∧ s.corePublicationState = .current ∧
      s.WorkTraceAvailable c then
    some { s with
      packageState := .building
      packageCoreComplete := false
      packageSidecarComplete := false
      packageImported := false
      trace := s.trace ++ ["BeginExport"] }
  else none

def exportsSidecar : Bool :=
  s.sidecarState = .current ∧ s.sidecarGeneration = s.currentGeneration ∧ s.sidecarValidated

/-- `FinalizeExport`. -/
def finalizeExport : Option State :=
  if s.packageState = .building ∧ s.TraceAvailable c then
    some { s with
      packageCoreComplete := true
      packageSidecarComplete := s.exportsSidecar
      packageState := if s.exportsSidecar then .complete else .partial_
      trace := s.trace ++ ["FinalizeExport"] }
  else none

/-- `ImportCompletePackage`. -/
def importCompletePackage : Option State :=
  if s.packageState = .complete ∧ s.packageCoreComplete ∧ s.packageSidecarComplete ∧
      s.WorkTraceAvailable c then
    some { s with
      packageState := .imported
      packageImported := true
      trace := s.trace ++ ["ImportCompletePackage"] }
  else none

/-- `PlanIncludeHygiene`. The edit state is set to none and left unchanged. -/
def planIncludeHygiene : Option State :=
  if s.includePlanState = .none ∧ s.corePublicationState = .current ∧ s.WorkTraceAvailable c ∧
      s.includeEditState = .none then
    some { s with
      includePlanState := .planned
      includeEvidence := .complete
      includeEditState := .none
      trace := s.trace ++ ["PlanIncludeHygiene"] }
  else none

/-- `ValidateIncludeHygiene`. -/
def validateIncludeHygiene : Option State :=
  if s.includePlanState = .planned ∧ s.includeEvidence = .complete ∧ s.WorkTraceAvailable c then
    some { s with
      includePlanState := .validated
      trace := s.trace ++ ["ValidateIncludeHygiene"] }
  else none

/-- `ApplyIncludeHygiene`. -/
def applyIncludeHygiene : Option State :=
  if s.includePlanState = .validated ∧ s.includeEvidence = .complete ∧ s.WorkTraceAvailable c then
    some { s with
      includePlanState := .applied
      includeEditState := .changed
      trace := s.trace ++ ["ApplyIncludeHygiene"] }
  else none

/-- `RejectIncompleteIncludeHygiene`. -/
def rejectIncompleteIncludeHygiene : Option State :=
  if s.includePlanState = .planned ∧ s.includeEvidence = .incomplete ∧ s.WorkTraceAvailable c then
    some { s with
      includePlanState := .rejected
      trace := s.trace ++ ["RejectIncompleteIncludeHygiene"] }
  else none

/-- `ReadOnlyProbe`. -/
def readOnlyProbe : Option State :=
  if s.readerStatus ∈ [.current, .partial_, .unavailable] ∧ s.WorkTraceAvailable c then
    some { s with trace := s.trace ++ ["ReadOnlyProbe"] }
  else none

end State

end

/-- The actions, with what they choose, and the stuttering step. -/
inductive Action
  | startOneTUUpdate
  | prepareStagedArtifact (quality : ArtifactQuality)
  | validateStagedArtifact
  | publishCoreGeneration
  | interruptPublication
  | buildSidecar
  | prepareSidecarArtifact (quality : ArtifactQuality)
  | publishSidecar
  | markSidecarMissing
  | markSidecarCorrupt
  | markSidecarIncompatible
  | beginSupportedMigration
  | validateMigration
  | rejectMigration
  | commitMigration
  | rollbackRejectedMigration
  | finishMigration
  | rollbackCommittedMigration
  | interruptMigration
  | recoverPreviousMigration
  | openNewerReader
  | openIncompatibleReader
  | acquireLease (generation : ℕ)
  | releaseLease (generation : ℕ)
  | pinReplay (generation : ℕ)
  | unpinReplay (generation : ℕ)
  | cleanupRetired (generation : ℕ)
  | beginExport
  | finalizeExport
  | importCompletePackage
  | planIncludeHygiene
  | validateIncludeHygiene
  | applyIncludeHygiene
  | rejectIncompleteIncludeHygiene
  | readOnlyProbe
  | noOp
  deriving DecidableEq

/-- `Next`. -/
def State.step (c : Constants) (s : State) : Action → Option State
  | .startOneTUUpdate => s.startOneTUUpdate c
  | .prepareStagedArtifact quality => s.prepareStagedArtifact c quality
  | .validateStagedArtifact => s.validateStagedArtifact c
  | .publishCoreGeneration => s.publishCoreGeneration c
  | .interruptPublication => s.interruptPublication c
  | .buildSidecar => s.buildSidecar c
  | .prepareSidecarArtifact quality => s.prepareSidecarArtifact c quality
  | .publishSidecar => s.publishSidecar c
  | .markSidecarMissing => s.markSidecarMissing c
  | .markSidecarCorrupt => s.markSidecarCorrupt c
  | .markSidecarIncompatible => s.markSidecarIncompatible c
  | .beginSupportedMigration => s.beginSupportedMigration c
  | .validateMigration => s.validateMigration c
  | .rejectMigration => s.rejectMigration c
  | .commitMigration => s.commitMigration c
  | .rollbackRejectedMigration => s.rollbackRejectedMigration c
  | .finishMigration => s.finishMigration c
  | .rollbackCommittedMigration => s.rollbackCommittedMigration c
  | .interruptMigration => s.interruptMigration c
  | .recoverPreviousMigration => s.recoverPreviousMigration c
  | .openNewerReader => s.openNewerReader c
  | .openIncompatibleReader => s.openIncompatibleReader c
  | .acquireLease generation => s.acquireLease c generation
  | .releaseLease generation => s.releaseLease c generation
  | .pinReplay generation => s.pinReplay c generation
  | .unpinReplay generation => s.unpinReplay c generation
  | .cleanupRetired generation => s.cleanupRetired c generation
  | .beginExport => s.beginExport c
  | .finalizeExport => s.finalizeExport c
  | .importCompletePackage => s.importCompletePackage c
  | .planIncludeHygiene => s.planIncludeHygiene c
  | .validateIncludeHygiene => s.validateIncludeHygiene c
  | .applyIncludeHygiene => s.applyIncludeHygiene c
  | .rejectIncompleteIncludeHygiene => s.rejectIncompleteIncludeHygiene c
  | .readOnlyProbe => s.readOnlyProbe c
  | .noOp => some s

def lifecycle (c : Constants) (seed : Seed) : Transition.System State Action where
  init := seed.state c
  step := State.step c

end CppIndexer.StorageLifecycle
