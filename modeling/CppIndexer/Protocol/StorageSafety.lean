/-
# Safety of the storage lifecycle

The invariants of `CidxStorageLifecycle` in runs of any length. None of them is inductive alone. What
they rest on is that staging, migration and export exclude each other, that retired generations are
older than the current one, and that an attached sidecar is complete for the current generation.

Each group of variables has its invariant, and each invariant looks only at the actions that change
its variables.
-/

import Mathlib.Tactic.Common
import CppIndexer.Protocol.StorageLifecycle

namespace CppIndexer.StorageLifecycle

open Transition (taken)

/-! ## The invariants of the module -/

section

variable (c : Constants) (s : State)

def CurrentGenerationInvariant : Prop :=
  0 < s.currentGeneration ∧ s.currentArtifactQuality = .valid ∧
    (s.corePublicationState = .current ∨ s.corePublicationState = .staging) ∧
    s.currentGeneration = s.extractedGeneration ∧ s.derivedGeneration = s.currentGeneration

def NoInvalidCurrentInvariant : Prop :=
  (s.corePublicationState = .current → s.currentArtifactQuality = .valid ∧ 0 < s.currentGeneration) ∧
  (s.generationState = .current → s.currentArtifactQuality = .valid)

def ReadOnlyStateInvariant : Prop :=
  s.readOnlyWrites = 0 ∧
  (s.readCompleteness = .complete →
    s.readerStatus = .current ∧ s.sidecarState = .current ∧ s.sidecarAttachment = .attached ∧
      s.sidecarGeneration = s.currentGeneration)

def MigrationInvariant : Prop :=
  (s.migrationPhase = .staging ∨ s.migrationPhase = .validated →
    s.currentGeneration = s.preMigrationGeneration ∧ s.coreSchema = s.migrationSourceSchema) ∧
  (s.migrationPhase = .recoveryRequired → s.currentGeneration = s.preMigrationGeneration ∧
      (s.coreSchema = s.migrationSourceSchema ∨ s.coreSchema = s.migrationTargetSchema)) ∧
  (s.migrationPhase = .committed →
    s.coreSchema = c.supportedSchemaVersion ∧ s.currentGeneration = s.preMigrationGeneration ∧
      s.migrationRecovery = .snapshotRetained) ∧
  (s.migrationPhase = .rejected →
    s.coreSchema = s.migrationSourceSchema ∧ s.currentGeneration = s.preMigrationGeneration ∧
      s.migrationRecovery = .snapshotRetained) ∧
  (s.readerCompatibility = .newer → s.readerStatus = .unavailable) ∧
  (s.readerCompatibility = .incompatible → s.readerStatus = .unavailable)

def SidecarInvariant : Prop :=
  (s.readCompleteness = .complete →
    s.sidecarState = .current ∧ s.sidecarValidated ∧ s.sidecarQuality = .valid ∧
      s.sidecarAttachment = .attached ∧ s.sidecarGeneration = s.currentGeneration ∧
      s.sidecarFilePublication = .current) ∧
  (s.sidecarState = .missing ∨ s.sidecarState = .corrupt ∨ s.sidecarState = .incompatible →
    s.readCompleteness = .partial_ ∨ s.readCompleteness = .unknown ∨
      s.readCompleteness = .unavailable) ∧
  (s.sidecarState = .stale → s.readCompleteness = .partial_ ∨ s.readCompleteness = .unknown ∨
      s.readCompleteness = .unavailable) ∧
  (s.sidecarAttachment = .attached →
    s.sidecarState = .current ∧ s.sidecarGeneration = s.currentGeneration)

def CrossFileAtomicityInvariant : Prop :=
  (s.readCompleteness = .complete →
    s.coreFilePublication = .current ∧ s.sidecarFilePublication = .current ∧
      s.sidecarGeneration = s.currentGeneration) ∧
  (s.crossFileAtomicityAssumed → s.coreFilePublication = s.sidecarFilePublication ∧
      s.sidecarGeneration = s.currentGeneration ∧ s.readCompleteness = .complete)

def CleanupSafetyInvariant : Prop :=
  s.removedGenerations ⊆ s.retiredGenerations ∧
  s.currentGeneration ∉ s.retiredGenerations ∧
  s.removedGenerations ∩
    (s.leasedGenerations ∪ s.replayPinnedGenerations ∪ {s.currentGeneration}) = ∅ ∧
  s.leasedGenerations ∪ s.replayPinnedGenerations ⊆ s.retiredGenerations \ s.removedGenerations

def PackageInvariant : Prop :=
  (s.packageState = .partial_ → s.packageCoreComplete ∧ ¬s.packageSidecarComplete ∧ ¬s.packageImported) ∧
  (s.packageImported → s.packageState = .imported ∧ s.packageCoreComplete) ∧
  (s.packageState = .complete → s.packageCoreComplete ∧ s.packageSidecarComplete)

def IncludeHygieneInvariant : Prop :=
  (s.includePlanState = .applied → s.includeEvidence = .complete ∧ s.includeEditState = .changed) ∧
  (s.includeEditState = .changed → s.includePlanState = .applied)

def PublicationRecoveryInvariant : Prop :=
  (s.corePublicationState = .staging →
    0 < s.stagedGeneration ∧ s.stagedGeneration ≠ s.currentGeneration) ∧
  (s.migrationPhase = .recoveryRequired →
    s.readerStatus = .unavailable ∧ s.currentGeneration = s.preMigrationGeneration ∧
      (s.coreSchema = s.migrationSourceSchema ∨ s.coreSchema = s.migrationTargetSchema))

def BoundedProgressInvariant : Prop :=
  c.traceBound ≤ s.trace.length + 1 →
    s.corePublicationState ≠ .staging ∧
      s.migrationPhase ∉ [.staging, .validated, .rejected, .committed, .recoveryRequired] ∧
      s.packageState ≠ .building

/-- The invariants that the module states. -/
structure Safe : Prop where
  currentGeneration : CurrentGenerationInvariant s
  noInvalidCurrent : NoInvalidCurrentInvariant s
  readOnlyState : ReadOnlyStateInvariant s
  migration : MigrationInvariant c s
  sidecar : SidecarInvariant s
  crossFileAtomicity : CrossFileAtomicityInvariant s
  cleanupSafety : CleanupSafetyInvariant s
  package : PackageInvariant s
  includeHygiene : IncludeHygieneInvariant s
  publicationRecovery : PublicationRecoveryInvariant s
  boundedProgress : BoundedProgressInvariant c s

/-! ## Inductive invariants -/

/-- What is staged is the next generation. -/
def Staged : Prop :=
  s.corePublicationState = .current ∧ s.stagedGeneration = 0 ∨
    s.corePublicationState = .staging ∧ s.stagedGeneration = s.currentGeneration + 1

/-- The current generation is whole. -/
structure Publishing : Prop where
  pos : 0 < s.currentGeneration
  quality : s.currentArtifactQuality = .valid
  extracted : s.extractedGeneration = s.currentGeneration
  derived : s.derivedGeneration = s.currentGeneration
  coreFile : s.coreFilePublication = .current
  separate : s.crossFileAtomicityAssumed = false
  unwritten : s.readOnlyWrites = 0
  state : Staged s

/-- At most one of staging, migration and export is under way. -/
structure Exclusive : Prop where
  staging : s.corePublicationState = .staging → s.migrationPhase = .none ∧ s.packageState ≠ .building
  building : s.packageState = .building → s.migrationPhase = .none

/-- Retired generations are older, and protected ones are not removed. -/
structure Retained : Prop where
  older : ∀ g ∈ s.retiredGenerations, g < s.currentGeneration
  removed : s.removedGenerations ⊆ s.retiredGenerations
  leased : s.leasedGenerations ⊆ s.retiredGenerations \ s.removedGenerations
  pinned : s.replayPinnedGenerations ⊆ s.retiredGenerations \ s.removedGenerations

/-- An attached sidecar is complete, and complete reads need one. -/
structure SidecarSound : Prop where
  attached : s.sidecarAttachment = .attached → s.SidecarCompleteFor s.currentGeneration
  complete : s.readCompleteness = .complete →
    s.sidecarAttachment = .attached ∧ s.readerStatus = .current
  reader : s.sidecarAttachment = .attached → s.migrationPhase ≠ .recoveryRequired →
    s.readerStatus = .current

/-- A migration knows where it came from. -/
structure Migrating : Prop where
  generation : s.migrationPhase ≠ .none → s.currentGeneration = s.preMigrationGeneration ∧
    s.migrationTargetSchema = c.supportedSchemaVersion
  source : s.migrationPhase = .staging ∨ s.migrationPhase = .validated ∨
    s.migrationPhase = .rejected → s.coreSchema = s.migrationSourceSchema
  committed : s.migrationPhase = .committed → s.coreSchema = s.migrationTargetSchema
  interrupted : s.migrationPhase = .recoveryRequired → s.readerStatus = .unavailable ∧
    (s.coreSchema = s.migrationSourceSchema ∨ s.coreSchema = s.migrationTargetSchema)
  retained : s.migrationPhase = .committed ∨ s.migrationPhase = .rejected →
    s.migrationRecovery = .snapshotRetained
  unreadable : s.readerCompatibility ≠ .supported → s.readerStatus = .unavailable

structure Inv : Prop where
  publishing : Publishing s
  exclusive : Exclusive s
  retained : Retained s
  sidecar : SidecarSound s
  migrating : Migrating c s
  package : PackageInvariant s
  hygiene : IncludeHygieneInvariant s
  bounded : BoundedProgressInvariant c s

end

/-! ## One step -/

variable {c : Constants} {s s' : State} {a : Action}

/-- The two ways of `InterruptMigration`. -/
theorem interruptMigration_cases (h : s.interruptMigration c = some s') :
    s.migrationPhase ∈ [.staging, .validated, .committed] ∧ s.TraceAvailable c ∧
      (c.traceBound ≤ s.trace.length + 2 ∧ s' = { s with
            coreSchema := s.migrationSourceSchema
            migrationPhase := .none
            migrationRecovery := .recoveredPrevious
            readerStatus := .current
            readerCompatibility := .supported
            readCompleteness := s.completeness
            trace := s.trace ++ ["InterruptMigration"] } ∨
        s.trace.length + 2 < c.traceBound ∧
          s' = { s with
            migrationPhase := .recoveryRequired
            migrationRecovery := .interrupted
            readerStatus := .unavailable
            readCompleteness := .unavailable
            trace := s.trace ++ ["InterruptMigration"] }) := by
  unfold State.interruptMigration at h
  split at h
  · rename_i hguard
    refine ⟨hguard.1, hguard.2, ?_⟩
    split at h
    · rename_i hend
      exact .inl ⟨hend, (Option.some.inj h).symm⟩
    · rename_i hend
      exact .inr ⟨by omega, (Option.some.inj h).symm⟩
  · cases h

theorem Staged.of_staging (h : Staged s) (hstaging : s.corePublicationState = .staging) :
    s.stagedGeneration = s.currentGeneration + 1 := by
  rcases h with ⟨hcurrent, -⟩ | ⟨-, hstaged⟩
  · rw [hstaging] at hcurrent
    cases hcurrent
  · exact hstaged

theorem Staged.step (h : Staged s) (hstep : s.step c a = some s') : Staged s' := by
  cases a
  case startOneTUUpdate =>
    obtain ⟨-, rfl⟩ := taken hstep
    exact .inr ⟨rfl, rfl⟩
  case publishCoreGeneration | interruptPublication =>
    obtain ⟨-, rfl⟩ := taken hstep
    exact .inl ⟨rfl, rfl⟩
  case interruptMigration =>
    obtain ⟨-, -, ⟨-, rfl⟩ | ⟨-, rfl⟩⟩ := interruptMigration_cases hstep
    all_goals exact h
  case noOp =>
    cases hstep
    exact h
  all_goals
    obtain ⟨-, rfl⟩ := taken hstep
    exact h

theorem Publishing.step (h : Publishing s) (hstep : s.step c a = some s') : Publishing s' := by
  have hstate := h.state.step hstep
  cases a
  case publishCoreGeneration =>
    obtain ⟨⟨-, -, hquality, hstaging, -⟩, rfl⟩ := taken hstep
    have hstaged := h.state.of_staging hstaging
    refine ⟨?_, hquality, rfl, rfl, rfl, h.separate, h.unwritten, hstate⟩
    dsimp only
    omega
  case interruptMigration =>
    obtain ⟨-, -, ⟨-, rfl⟩ | ⟨-, rfl⟩⟩ := interruptMigration_cases hstep
    all_goals exact ⟨h.pos, h.quality, h.extracted, h.derived, h.coreFile, h.separate, h.unwritten,
      hstate⟩
  case noOp =>
    cases hstep
    exact h
  all_goals
    obtain ⟨-, rfl⟩ := taken hstep
    exact ⟨h.pos, h.quality, h.extracted, h.derived, h.coreFile, h.separate, h.unwritten, hstate⟩

theorem Exclusive.step (h : Exclusive s) (hstep : s.step c a = some s') : Exclusive s' := by
  cases a
  case startOneTUUpdate =>
    obtain ⟨⟨-, hphase, -, hpackage, -⟩, rfl⟩ := taken hstep
    exact ⟨fun _ => ⟨hphase, hpackage⟩, h.building⟩
  case publishCoreGeneration =>
    obtain ⟨-, rfl⟩ := taken hstep
    exact ⟨nofun, h.building⟩
  case interruptPublication =>
    obtain ⟨-, rfl⟩ := taken hstep
    exact ⟨nofun, h.building⟩
  case beginSupportedMigration =>
    obtain ⟨⟨-, hpackage, -, hcurrent, -⟩, rfl⟩ := taken hstep
    refine ⟨fun hstaging => ?_, fun hbuilding => absurd hbuilding hpackage⟩
    rw [hcurrent] at hstaging
    cases hstaging
  case validateMigration | rejectMigration | commitMigration =>
    obtain ⟨⟨hphase, -⟩, rfl⟩ := taken hstep
    constructor
    · intro hstaging
      have hnone := (h.staging hstaging).1
      rw [hphase] at hnone
      cases hnone
    · intro hbuilding
      have hnone := h.building hbuilding
      rw [hphase] at hnone
      cases hnone
  case rollbackRejectedMigration | finishMigration | rollbackCommittedMigration |
      recoverPreviousMigration =>
    obtain ⟨-, rfl⟩ := taken hstep
    exact ⟨fun hstaging => ⟨rfl, (h.staging hstaging).2⟩, fun _ => rfl⟩
  case interruptMigration =>
    obtain ⟨hphase, -, ⟨-, rfl⟩ | ⟨-, rfl⟩⟩ := interruptMigration_cases hstep
    · exact ⟨fun hstaging => ⟨rfl, (h.staging hstaging).2⟩, fun _ => rfl⟩
    · constructor
      · intro hstaging
        rw [(h.staging hstaging).1] at hphase
        exact absurd hphase (by decide)
      · intro hbuilding
        rw [h.building hbuilding] at hphase
        exact absurd hphase (by decide)
  case beginExport =>
    obtain ⟨⟨-, hphase, hcurrent, -⟩, rfl⟩ := taken hstep
    refine ⟨fun hstaging => ?_, fun _ => hphase⟩
    rw [hcurrent] at hstaging
    cases hstaging
  case finalizeExport =>
    obtain ⟨-, rfl⟩ := taken hstep
    have hfinal : (if s.exportsSidecar then PackageState.complete else .partial_) ≠ .building := by
      split <;> decide
    exact ⟨fun hstaging => ⟨(h.staging hstaging).1, hfinal⟩, fun hbuilding => absurd hbuilding hfinal⟩
  case importCompletePackage =>
    obtain ⟨-, rfl⟩ := taken hstep
    exact ⟨fun hstaging => ⟨(h.staging hstaging).1, PackageState.noConfusion⟩,
      nofun⟩
  case noOp =>
    cases hstep
    exact h
  all_goals
    obtain ⟨-, rfl⟩ := taken hstep
    exact ⟨h.staging, h.building⟩

theorem Retained.step (hpublishing : Publishing s) (h : Retained s) (hstep : s.step c a = some s') :
    Retained s' := by
  cases a
  case publishCoreGeneration =>
    obtain ⟨⟨-, -, -, hstaging, -⟩, rfl⟩ := taken hstep
    have hstaged := hpublishing.state.of_staging hstaging
    have hgrown : s.retiredGenerations \ s.removedGenerations ⊆
        insert s.currentGeneration s.retiredGenerations \ s.removedGenerations :=
      Finset.sdiff_subset_sdiff (Finset.subset_insert _ _) (Finset.Subset.refl _)
    refine ⟨?_, h.removed.trans (Finset.subset_insert _ _), h.leased.trans hgrown, h.pinned.trans hgrown⟩
    intro g hg
    dsimp only at hg ⊢
    rcases Finset.mem_insert.mp hg with rfl | hold
    · omega
    · have hlt := h.older g hold
      omega
  case acquireLease generation =>
    obtain ⟨⟨hmem, -⟩, rfl⟩ := taken hstep
    exact ⟨h.older, h.removed, Finset.insert_subset hmem h.leased, h.pinned⟩
  case releaseLease generation =>
    obtain ⟨-, rfl⟩ := taken hstep
    exact ⟨h.older, h.removed, (Finset.erase_subset _ _).trans h.leased, h.pinned⟩
  case pinReplay generation =>
    obtain ⟨⟨hmem, -⟩, rfl⟩ := taken hstep
    exact ⟨h.older, h.removed, h.leased, Finset.insert_subset hmem h.pinned⟩
  case unpinReplay generation =>
    obtain ⟨-, rfl⟩ := taken hstep
    exact ⟨h.older, h.removed, h.leased, (Finset.erase_subset _ _).trans h.pinned⟩
  case cleanupRetired generation =>
    obtain ⟨⟨hmem, -, hleased, hpinned, -⟩, rfl⟩ := taken hstep
    have hkeeps : ∀ held : Finset ℕ, generation ∉ held →
        held ⊆ s.retiredGenerations \ s.removedGenerations →
        held ⊆ s.retiredGenerations \ insert generation s.removedGenerations := by
      intro held hnot hsub g hg
      have hg' := Finset.mem_sdiff.mp (hsub hg)
      rw [Finset.mem_sdiff, Finset.mem_insert, not_or]
      exact ⟨hg'.1, fun heq => hnot (heq ▸ hg), hg'.2⟩
    exact ⟨h.older, Finset.insert_subset (Finset.mem_sdiff.mp hmem).1 h.removed,
      hkeeps _ hleased h.leased, hkeeps _ hpinned h.pinned⟩
  case interruptMigration =>
    obtain ⟨-, -, ⟨-, rfl⟩ | ⟨-, rfl⟩⟩ := interruptMigration_cases hstep
    all_goals exact ⟨h.older, h.removed, h.leased, h.pinned⟩
  case noOp =>
    cases hstep
    exact h
  all_goals
    obtain ⟨-, rfl⟩ := taken hstep
    exact ⟨h.older, h.removed, h.leased, h.pinned⟩

/-- Complete reads need an attached sidecar. -/
theorem attached_of_completeness (hcomplete : s.completeness = .complete) :
    s.sidecarAttachment = .attached := by
  unfold State.completeness at hcomplete
  split at hcomplete
  · rename_i hfor
    exact hfor.2.2.2.1
  · cases hcomplete

theorem SidecarSound.step (hexclusive : Exclusive s) (h : SidecarSound s)
    (hstep : s.step c a = some s') : SidecarSound s' := by
  cases a
  case startOneTUUpdate =>
    obtain ⟨⟨-, hphase, -⟩, rfl⟩ := taken hstep
    refine ⟨h.attached, fun hcomplete => ?_, h.reader⟩
    have hattached := attached_of_completeness hcomplete
    exact ⟨hattached, h.reader hattached (by rw [hphase]; decide)⟩
  case interruptPublication =>
    obtain ⟨⟨hstaging, -⟩, rfl⟩ := taken hstep
    refine ⟨h.attached, fun hcomplete => ?_, h.reader⟩
    have hattached := attached_of_completeness hcomplete
    exact ⟨hattached, h.reader hattached (by rw [(hexclusive.staging hstaging).1]; decide)⟩
  case publishCoreGeneration =>
    -- the sidecar of the old generation is detached, and no other was attached
    obtain ⟨-, rfl⟩ := taken hstep
    have hdetached : (if s.SidecarCompleteFor s.currentGeneration then SidecarAttachment.detached
        else s.sidecarAttachment) = .detached := by
      split
      · rfl
      · rename_i hnot
        cases hattachment : s.sidecarAttachment with
        | detached => rfl
        | attached => exact absurd (h.attached hattachment) hnot
    constructor
    · intro hattached
      rw [hdetached] at hattached
      cases hattached
    · exact nofun
    · intro hattached
      rw [hdetached] at hattached
      cases hattached
  case buildSidecar =>
    obtain ⟨⟨-, hstate, -⟩, rfl⟩ := taken hstep
    refine ⟨nofun, fun hcomplete => ?_, nofun⟩
    rw [(h.attached (h.complete hcomplete).1).1] at hstate
    exact absurd hstate (by decide)
  case prepareSidecarArtifact quality =>
    obtain ⟨⟨hstate, -⟩, rfl⟩ := taken hstep
    have hdetached : s.sidecarAttachment ≠ .attached := by
      intro hattached
      rw [(h.attached hattached).1] at hstate
      cases hstate
    exact ⟨fun hattached => absurd hattached hdetached,
      fun hcomplete => absurd (h.complete hcomplete).1 hdetached,
      fun hattached => absurd hattached hdetached⟩
  case publishSidecar =>
    obtain ⟨⟨-, hvalidated, hquality, hgeneration, -, -, hreader, -⟩, rfl⟩ := taken hstep
    exact ⟨fun _ => ⟨rfl, hvalidated, hquality, rfl, rfl, hgeneration⟩, fun _ => ⟨rfl, hreader⟩,
      fun _ _ => hreader⟩
  case markSidecarMissing | markSidecarCorrupt | markSidecarIncompatible =>
    obtain ⟨-, rfl⟩ := taken hstep
    exact ⟨nofun, nofun,
      nofun⟩
  case beginSupportedMigration =>
    obtain ⟨⟨-, -, -, -, hreader, -⟩, rfl⟩ := taken hstep
    exact ⟨h.attached, h.complete, fun _ _ => hreader⟩
  case validateMigration | rejectMigration =>
    obtain ⟨⟨hphase, -⟩, rfl⟩ := taken hstep
    exact ⟨h.attached, h.complete, fun hattached _ => h.reader hattached (by rw [hphase]; decide)⟩
  case commitMigration =>
    obtain ⟨-, rfl⟩ := taken hstep
    exact ⟨h.attached, fun hcomplete => ⟨(h.complete hcomplete).1, rfl⟩, fun _ _ => rfl⟩
  case finishMigration =>
    obtain ⟨⟨hphase, -⟩, rfl⟩ := taken hstep
    exact ⟨h.attached, h.complete, fun hattached _ => h.reader hattached (by rw [hphase]; decide)⟩
  case rollbackRejectedMigration | rollbackCommittedMigration | recoverPreviousMigration =>
    obtain ⟨-, rfl⟩ := taken hstep
    exact ⟨h.attached, fun hcomplete => ⟨attached_of_completeness hcomplete, rfl⟩, fun _ _ => rfl⟩
  case interruptMigration =>
    obtain ⟨-, -, ⟨-, rfl⟩ | ⟨-, rfl⟩⟩ := interruptMigration_cases hstep
    · exact ⟨h.attached, fun hcomplete => ⟨attached_of_completeness hcomplete, rfl⟩, fun _ _ => rfl⟩
    · exact ⟨h.attached, nofun, fun _ hphase => absurd rfl hphase⟩
  case noOp =>
    cases hstep
    exact h
  all_goals
    obtain ⟨-, rfl⟩ := taken hstep
    exact ⟨h.attached, h.complete, h.reader⟩

/-- Nothing is asked of a migration that is over. -/
theorem Migrating.of_none (hphase : s.migrationPhase = .none)
    (hreader : s.readerCompatibility ≠ .supported → s.readerStatus = .unavailable) : Migrating c s where
  generation hne := absurd hphase hne
  source h := by
    rw [hphase] at h
    rcases h with h | h | h <;> cases h
  committed h := by
    rw [hphase] at h
    cases h
  interrupted h := by
    rw [hphase] at h
    cases h
  retained h := by
    rw [hphase] at h
    rcases h with h | h <;> cases h
  unreadable := hreader

theorem Migrating.step (h : Migrating c s) (hstep : s.step c a = some s') : Migrating c s' := by
  cases a
  case publishCoreGeneration =>
    obtain ⟨⟨-, -, -, -, hphase, -⟩, rfl⟩ := taken hstep
    exact .of_none hphase h.unreadable
  case beginSupportedMigration =>
    obtain ⟨-, rfl⟩ := taken hstep
    exact ⟨fun _ => ⟨rfl, rfl⟩, fun _ => rfl, nofun,
      nofun, fun _ => rfl, h.unreadable⟩
  case validateMigration =>
    obtain ⟨⟨hphase, -⟩, rfl⟩ := taken hstep
    refine ⟨fun _ => h.generation (by rw [hphase]; decide), fun _ => h.source (.inl hphase),
      nofun, nofun, ?_, h.unreadable⟩
    rintro (hphase | hphase) <;> cases hphase
  case rejectMigration =>
    obtain ⟨⟨hphase, -⟩, rfl⟩ := taken hstep
    exact ⟨fun _ => h.generation (by rw [hphase]; decide), fun _ => h.source (.inl hphase),
      nofun, nofun, fun _ => rfl, h.unreadable⟩
  case commitMigration =>
    obtain ⟨⟨hphase, -⟩, rfl⟩ := taken hstep
    refine ⟨fun _ => h.generation (by rw [hphase]; decide), ?_, fun _ => rfl,
      nofun, fun _ => rfl, fun hne => absurd rfl hne⟩
    rintro (hphase | hphase | hphase) <;> cases hphase
  case finishMigration =>
    obtain ⟨-, rfl⟩ := taken hstep
    exact .of_none rfl h.unreadable
  case rollbackRejectedMigration | rollbackCommittedMigration | recoverPreviousMigration =>
    obtain ⟨-, rfl⟩ := taken hstep
    exact .of_none rfl fun hne => absurd rfl hne
  case interruptMigration =>
    obtain ⟨hphase, -, ⟨-, rfl⟩ | ⟨-, rfl⟩⟩ := interruptMigration_cases hstep
    · exact .of_none rfl fun hne => absurd rfl hne
    · have hne : s.migrationPhase ≠ .none := by
        intro hnone
        rw [hnone] at hphase
        exact absurd hphase (by decide)
      have hschema : s.coreSchema = s.migrationSourceSchema ∨
          s.coreSchema = s.migrationTargetSchema := by
        simp only [List.mem_cons, List.not_mem_nil, or_false] at hphase
        rcases hphase with hphase | hphase | hphase
        · exact .inl (h.source (.inl hphase))
        · exact .inl (h.source (.inr (.inl hphase)))
        · exact .inr (h.committed hphase)
      refine ⟨fun _ => h.generation hne, ?_, nofun,
        fun _ => ⟨rfl, hschema⟩, ?_, fun _ => rfl⟩
      · rintro (hphase | hphase | hphase) <;> cases hphase
      · rintro (hphase | hphase) <;> cases hphase
  case noOp =>
    cases hstep
    exact h
  all_goals
    obtain ⟨-, rfl⟩ := taken hstep
    exact ⟨h.generation, h.source, h.committed, h.interrupted, h.retained, h.unreadable⟩

theorem PackageInvariant.step (h : PackageInvariant s) (hstep : s.step c a = some s') :
    PackageInvariant s' := by
  cases a
  case beginExport =>
    obtain ⟨-, rfl⟩ := taken hstep
    exact ⟨nofun, nofun,
      nofun⟩
  case finalizeExport =>
    obtain ⟨⟨hbuilding, -⟩, rfl⟩ := taken hstep
    have hnot : s.packageImported = false := by
      cases himported : s.packageImported with
      | false => rfl
      | true =>
        have hstate := (h.2.1 himported).1
        rw [hbuilding] at hstate
        cases hstate
    unfold PackageInvariant
    rw [hnot]
    cases s.exportsSidecar <;> simp
  case importCompletePackage =>
    obtain ⟨⟨-, hcore, -⟩, rfl⟩ := taken hstep
    exact ⟨nofun, fun _ => ⟨rfl, hcore⟩, nofun⟩
  case interruptMigration =>
    obtain ⟨-, -, ⟨-, rfl⟩ | ⟨-, rfl⟩⟩ := interruptMigration_cases hstep
    all_goals exact h
  case noOp =>
    cases hstep
    exact h
  all_goals
    obtain ⟨-, rfl⟩ := taken hstep
    exact h

theorem IncludeHygieneInvariant.step (h : IncludeHygieneInvariant s)
    (hstep : s.step c a = some s') : IncludeHygieneInvariant s' := by
  cases a
  case planIncludeHygiene =>
    obtain ⟨-, rfl⟩ := taken hstep
    exact ⟨nofun, nofun⟩
  case validateIncludeHygiene | rejectIncompleteIncludeHygiene =>
    obtain ⟨⟨hplan, -⟩, rfl⟩ := taken hstep
    refine ⟨nofun, fun hedit => ?_⟩
    have happlied := h.2 hedit
    rw [hplan] at happlied
    cases happlied
  case applyIncludeHygiene =>
    obtain ⟨⟨-, hevidence, -⟩, rfl⟩ := taken hstep
    exact ⟨fun _ => ⟨hevidence, rfl⟩, fun _ => rfl⟩
  case interruptMigration =>
    obtain ⟨-, -, ⟨-, rfl⟩ | ⟨-, rfl⟩⟩ := interruptMigration_cases hstep
    all_goals exact h
  case noOp =>
    cases hstep
    exact h
  all_goals
    obtain ⟨-, rfl⟩ := taken hstep
    exact h

/-- A state in which nothing is under way may be the last one. -/
theorem BoundedProgressInvariant.of_settled (hcore : s.corePublicationState ≠ .staging)
    (hphase : s.migrationPhase = .none) (hpackage : s.packageState ≠ .building) :
    BoundedProgressInvariant c s := by
  intro _
  refine ⟨hcore, ?_, hpackage⟩
  rw [hphase]
  decide

/-- Work is only done while a step is left for giving it up. -/
theorem BoundedProgressInvariant.of_work (h : s.trace.length + 1 < c.traceBound) :
    BoundedProgressInvariant c s := by
  intro hend
  omega

theorem length_append_name {name : String} (h : s.WorkTraceAvailable c)
    (htrace : s'.trace = s.trace ++ [name]) : s'.trace.length + 1 < c.traceBound := by
  rw [htrace, List.length_append]
  exact h

theorem BoundedProgressInvariant.step (hexclusive : Exclusive s)
    (h : BoundedProgressInvariant c s) (hstep : s.step c a = some s') :
    BoundedProgressInvariant c s' := by
  -- giving up leaves nothing under way, because only one thing was
  have hidle : s.migrationPhase ≠ .none → s.corePublicationState ≠ .staging ∧
      s.packageState ≠ .building :=
    fun hne => ⟨fun hstaging => hne (hexclusive.staging hstaging).1,
      fun hbuilding => hne (hexclusive.building hbuilding)⟩
  cases a
  case interruptPublication =>
    obtain ⟨⟨hstaging, -⟩, rfl⟩ := taken hstep
    exact .of_settled CorePublicationState.noConfusion (hexclusive.staging hstaging).1
      (hexclusive.staging hstaging).2
  case rollbackRejectedMigration | finishMigration | rollbackCommittedMigration |
      recoverPreviousMigration =>
    obtain ⟨⟨hphase, -⟩, rfl⟩ := taken hstep
    obtain ⟨hcore, hpackage⟩ := hidle (by rw [hphase]; decide)
    exact .of_settled hcore rfl hpackage
  case interruptMigration =>
    obtain ⟨hphase, -, ⟨-, rfl⟩ | ⟨hwork, rfl⟩⟩ := interruptMigration_cases hstep
    · obtain ⟨hcore, hpackage⟩ := hidle (by
        intro hnone
        rw [hnone] at hphase
        exact absurd hphase (by decide))
      exact .of_settled hcore rfl hpackage
    · exact .of_work (length_append_name hwork rfl)
  case finalizeExport =>
    obtain ⟨⟨hbuilding, -⟩, rfl⟩ := taken hstep
    refine .of_settled (fun hstaging => (hexclusive.staging hstaging).2 hbuilding)
      (hexclusive.building hbuilding) ?_
    split <;> exact PackageState.noConfusion
  case noOp =>
    cases hstep
    exact h
  all_goals
    obtain ⟨_, rfl⟩ := taken hstep
    refine .of_work (length_append_name (s := s) ?_ rfl)
    tauto

/-! ## Runs -/

theorem Inv.step (h : Inv c s) (hstep : s.step c a = some s') : Inv c s' where
  publishing := h.publishing.step hstep
  exclusive := h.exclusive.step hstep
  retained := h.retained.step h.publishing hstep
  sidecar := h.sidecar.step h.exclusive hstep
  migrating := h.migrating.step hstep
  package := h.package.step hstep
  hygiene := h.hygiene.step hstep
  bounded := h.bounded.step h.exclusive hstep

theorem inv_seed (hinitial : 0 < c.initialGeneration)
    (hreplacement : c.initialGeneration < c.replacementGeneration) (seed : Seed) :
    Inv c (seed.state c) := by
  have hbounded : ∀ s : State, s.corePublicationState = .current → s.migrationPhase = .none →
      s.packageState = .none → BoundedProgressInvariant c s :=
    fun s hcore hphase hpackage =>
      .of_settled (by rw [hcore]; decide) hphase (by rw [hpackage]; decide)
  have hpackage : ∀ s : State, s.packageState = .none → s.packageImported = false →
      PackageInvariant s := by
    intro s hpackage himported
    unfold PackageInvariant
    rw [hpackage, himported]
    simp
  have hhygiene : ∀ s : State, s.includePlanState = .none → s.includeEditState = .none →
      IncludeHygieneInvariant s := by
    intro s hplan hedit
    unfold IncludeHygieneInvariant
    rw [hplan, hedit]
    simp
  have hexclusive : ∀ s : State, s.corePublicationState = .current → s.packageState = .none →
      Exclusive s := by
    intro s hcore hpackage
    constructor
    · intro hstaging
      rw [hcore] at hstaging
      cases hstaging
    · intro hbuilding
      rw [hpackage] at hbuilding
      cases hbuilding
  have hpos : 0 < c.replacementGeneration := by omega
  cases seed
  case multiGeneration =>
    refine ⟨⟨hpos, rfl, rfl, rfl, rfl, rfl, rfl, .inl ⟨rfl, rfl⟩⟩, hexclusive _ rfl rfl,
      ⟨?_, ?_, ?_, ?_⟩, ⟨?_, ?_, ?_⟩, .of_none rfl ?_, hpackage _ rfl rfl, hhygiene _ rfl rfl,
      hbounded _ rfl rfl rfl⟩
    · intro g hg
      rw [Finset.mem_singleton.mp hg]
      exact hreplacement
    · exact Finset.empty_subset _
    · exact Finset.empty_subset _
    · exact Finset.empty_subset _
    · exact fun _ => ⟨rfl, rfl, rfl, rfl, rfl, rfl⟩
    · exact fun _ => ⟨rfl, rfl⟩
    · exact fun _ _ => rfl
    · exact fun hne => absurd rfl hne
  all_goals
    refine ⟨⟨hinitial, rfl, rfl, rfl, rfl, rfl, rfl, .inl ⟨rfl, rfl⟩⟩, hexclusive _ rfl rfl,
      ⟨?_, ?_, ?_, ?_⟩, ⟨?_, ?_, ?_⟩, .of_none rfl ?_, hpackage _ rfl rfl, hhygiene _ rfl rfl,
      hbounded _ rfl rfl rfl⟩
    · intro g hg
      exact absurd hg (Finset.notMem_empty g)
    · exact Finset.empty_subset _
    · exact Finset.empty_subset _
    · exact Finset.empty_subset _
    · exact nofun
    · exact nofun
    · exact nofun
    · first
      | exact fun hne => absurd rfl hne
      | exact fun _ => rfl

/-- The inductive invariants give those of the module. -/
theorem Inv.safe (h : Inv c s) : Safe c s := by
  have hstate : s.corePublicationState = .current ∨ s.corePublicationState = .staging := by
    rcases h.publishing.state with ⟨hcurrent, -⟩ | ⟨hstaging, -⟩
    · exact .inl hcurrent
    · exact .inr hstaging
  have hcomplete : s.readCompleteness = .complete → s.SidecarCompleteFor s.currentGeneration :=
    fun hcomplete => h.sidecar.attached (h.sidecar.complete hcomplete).1
  have hincomplete : s.sidecarState ≠ .current →
      s.readCompleteness = .partial_ ∨ s.readCompleteness = .unknown ∨
        s.readCompleteness = .unavailable := by
    intro hne
    cases hread : s.readCompleteness with
    | complete => exact absurd (hcomplete hread).1 hne
    | partial_ => exact .inl rfl
    | unknown => exact .inr (.inl rfl)
    | unavailable => exact .inr (.inr rfl)
  constructor
  · exact ⟨h.publishing.pos, h.publishing.quality, hstate, h.publishing.extracted.symm,
      h.publishing.derived⟩
  · exact ⟨fun _ => ⟨h.publishing.quality, h.publishing.pos⟩, fun _ => h.publishing.quality⟩
  · refine ⟨h.publishing.unwritten, fun hread => ?_⟩
    obtain ⟨hcurrent, -, -, hattached, -, hgeneration⟩ := hcomplete hread
    exact ⟨(h.sidecar.complete hread).2, hcurrent, hattached, hgeneration⟩
  · refine ⟨?_, ?_, ?_, ?_, ?_, ?_⟩
    · intro hphase
      have hne : s.migrationPhase ≠ .none := by
        rcases hphase with hphase | hphase <;> rw [hphase] <;> decide
      exact ⟨(h.migrating.generation hne).1, h.migrating.source (hphase.imp_right .inl)⟩
    · intro hphase
      exact ⟨(h.migrating.generation (by rw [hphase]; decide)).1, (h.migrating.interrupted hphase).2⟩
    · intro hphase
      obtain ⟨hgeneration, htarget⟩ := h.migrating.generation (by rw [hphase]; decide)
      exact ⟨(h.migrating.committed hphase).trans htarget, hgeneration,
        h.migrating.retained (.inl hphase)⟩
    · intro hphase
      exact ⟨h.migrating.source (.inr (.inr hphase)),
        (h.migrating.generation (by rw [hphase]; decide)).1, h.migrating.retained (.inr hphase)⟩
    · exact fun hreader => h.migrating.unreadable (by rw [hreader]; decide)
    · exact fun hreader => h.migrating.unreadable (by rw [hreader]; decide)
  · refine ⟨?_, ?_, ?_, ?_⟩
    · intro hread
      obtain ⟨hcurrent, hvalidated, hquality, hattached, hfile, hgeneration⟩ := hcomplete hread
      exact ⟨hcurrent, hvalidated, hquality, hattached, hgeneration, hfile⟩
    · intro hlost
      apply hincomplete
      rcases hlost with hlost | hlost | hlost <;> rw [hlost] <;> decide
    · intro hstale
      exact hincomplete (by rw [hstale]; decide)
    · intro hattached
      exact ⟨(h.sidecar.attached hattached).1, (h.sidecar.attached hattached).2.2.2.2.2⟩
  · refine ⟨fun hread => ?_, fun hassumed => ?_⟩
    · exact ⟨h.publishing.coreFile, (hcomplete hread).2.2.2.2.1, (hcomplete hread).2.2.2.2.2⟩
    · rw [h.publishing.separate] at hassumed
      cases hassumed
  · have hcurrent : s.currentGeneration ∉ s.retiredGenerations :=
      fun hmem => absurd (h.retained.older _ hmem) (lt_irrefl _)
    refine ⟨h.retained.removed, hcurrent, ?_, Finset.union_subset h.retained.leased h.retained.pinned⟩
    apply Finset.eq_empty_of_forall_notMem
    intro g hg
    obtain ⟨hremoved, hheld⟩ := Finset.mem_inter.mp hg
    rw [Finset.mem_union, Finset.mem_union, Finset.mem_singleton] at hheld
    rcases hheld with (hleased | hpinned) | rfl
    · exact (Finset.mem_sdiff.mp (h.retained.leased hleased)).2 hremoved
    · exact (Finset.mem_sdiff.mp (h.retained.pinned hpinned)).2 hremoved
    · exact hcurrent (h.retained.removed hremoved)
  · exact h.package
  · exact h.hygiene
  · refine ⟨fun hstaging => ?_, fun hphase => ?_⟩
    · have hstaged := h.publishing.state.of_staging hstaging
      omega
    · obtain ⟨hreader, hschema⟩ := h.migrating.interrupted hphase
      exact ⟨hreader, (h.migrating.generation (by rw [hphase]; decide)).1, hschema⟩
  · exact h.bounded

/-- Every state that a seed reaches satisfies the invariants of the module, whatever bound there is on
its trace. -/
theorem lifecycle_safe (c : Constants) (seed : Seed) (hinitial : 0 < c.initialGeneration)
    (hreplacement : c.initialGeneration < c.replacementGeneration) (s : State)
    (hreach : (lifecycle c seed).Reachable s) : Safe c s := by
  have hinv : Inv c s := by
    refine hreach.invariant (inv_seed hinitial hreplacement seed) ?_
    intro _ _ _ h hstep
    exact Inv.step h hstep
  exact hinv.safe

/-- Constants with room for four steps behind the second generation. -/
def sampleConstants : Constants where
  coreSchemaVersion := 1
  supportedSchemaVersion := 2
  newerSchemaVersion := 3
  incompatibleSchemaVersion := 4
  initialGeneration := 1
  replacementGeneration := 2
  traceBound := 8

/-- A run that begins a migration and is interrupted at the end of the trace. -/
theorem lifecycle_safe_interrupted : ∃ s, (lifecycle sampleConstants .multiGeneration).play
        (Seed.multiGeneration.state sampleConstants)
        [.beginSupportedMigration, .validateMigration, .commitMigration, .interruptMigration,
          .recoverPreviousMigration] = some s ∧ Safe sampleConstants s := by
  have hsome : ((lifecycle sampleConstants .multiGeneration).play
      (Seed.multiGeneration.state sampleConstants)
      [.beginSupportedMigration, .validateMigration, .commitMigration, .interruptMigration,
        .recoverPreviousMigration]).isSome := by
    decide +kernel
  obtain ⟨s, hs⟩ := Option.isSome_iff_exists.mp hsome
  exact ⟨s, hs, lifecycle_safe sampleConstants .multiGeneration (by decide) (by decide) s
    (Transition.System.reachable_of_play .init _ hs)⟩

end CppIndexer.StorageLifecycle
