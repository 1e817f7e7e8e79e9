/-
# Decoding one family

For every artifact that is decoded, and every family, the projected decoder
succeeds under the same compatibility, and what it returns is the decoded batch
with the records and memberships of the other families left out.

Passing over the records of a family is reading them and forgetting them, so both
decoders go through the same states: the same bytes are consumed and the same
budget of entries is spent.
-/

import CppIndexer.Ast.FactBatchArtifact
import CppIndexer.Lib.ExceptResults

namespace CppIndexer.Ast

open Util (Bytes ascii)
open FactBatchArtifactInput FileFactPartition Codec FactRecords

/-! ## One family of a batch -/

def ofFamily {α : Type} (selected family : FactFamily) (records : List α) : List α :=
  if family = selected then records else []

variable (selected : FactFamily) (records : FactRecords)

/-- Every record vector other than the family's emptied. -/
def FactRecords.only : FactRecords where
  symbols := ofFamily selected .symbols records.symbols
  declarationSites := ofFamily selected .declarationSites records.declarationSites
  relations := ofFamily selected .relations records.relations
  edgeSites := ofFamily selected .edgeSites records.edgeSites
  callArgs := ofFamily selected .callArguments records.callArgs
  templateParams := ofFamily selected .templateParameters records.templateParams
  templateArgs := ofFamily selected .templateArguments records.templateArgs
  typeNodes := ofFamily selected .types records.typeNodes
  typeEdges := ofFamily selected .typeEdges records.typeEdges
  parameters := ofFamily selected .parameters records.parameters
  symbolTypes := ofFamily selected .symbolTypes records.symbolTypes
  definitions := ofFamily selected .definitions records.definitions
  definitionEdges := ofFamily selected .definitionEdges records.definitionEdges
  includes := ofFamily selected .includes records.includes
  macros := ofFamily selected .macros records.macros
  diagnostics := ofFamily selected .diagnostics records.diagnostics
  evidence := ofFamily selected .evidence records.evidence
  presentationIntents := ofFamily selected .presentationIntents records.presentationIntents
  lifecycleCleanup := ofFamily selected .lifecycleCleanup records.lifecycleCleanup
  applicability := ofFamily selected .applicability records.applicability
  symbolOrder := ofFamily selected .symbols records.symbolOrder

/-- The records of the family, and its memberships in the partitions. -/
def FactBatch.only (batch : FactBatch) : FactBatch :=
  { batch with
    records := batch.records.only selected
    partitions := batch.partitions.map (FileFactPartition.only selected) }

theorem FactRecords.familySize_only (selected : FactFamily) :
    (records.only selected).familySize selected = records.familySize selected := by
  cases selected <;> rfl

/-! ## Reading one family -/

variable {result : FactBatch × FactBatchArtifactInput} {info : FactBatchArtifactInfo}
  {input : FactBatchArtifactInput} {records : FactRecords} {partitions : List FileFactPartition}
  {α : Type}

theorem discardRecords_eq_map (read : Read α) :
    discardRecords read = (fun _ => ()) <$> readRecords read := by
  simp [discardRecords, readRecords, vector, skip_eq_map]

theorem readFamily_eq_map (selected family : FactFamily) (read : Read α) :
    readFamily selected family read = ofFamily selected family <$> readRecords read := by
  by_cases h : family = selected
  · have hid : ofFamily (α := α) selected family = id := by
      funext records
      exact if_pos h
    rw [readFamily, if_pos h, hid, id_map]
  · have hnone : ofFamily (α := α) selected family = fun _ => [] := by
      funext records
      exact if_neg h
    rw [readFamily, if_neg h, hnone, discardRecords_eq_map, bind_map_left, bind_pure_comp]

theorem readFactRecordsFamily_eq_map :
    readFactRecordsFamily selected = FactRecords.only selected <$> readFactRecords := by
  simp only [readFactRecordsFamily, readFactRecords, readFamily_eq_map, bind_map_left, map_bind, map_pure]
  rfl

theorem readRest_ok (selected : FactFamily) (h : readRest info records partitions input = .ok result) :
    result.1.records = records ∧ result.1.partitions = partitions ∧ readRest info (records.only selected)
        (partitions.map (FileFactPartition.only selected)) input =
          .ok (result.1.only selected, result.2) := by
  simp only [readRest, bind_eq_ok] at h ⊢
  obtain ⟨symbolKeys, s1, hsymbol, relationKeys, s2, hrelation, typeKeys, s3, htype,
    definitionKeys, s4, hdefinition, fileKeys, s5, hfile, references, s6, hpending, hend⟩ := h
  by_cases hrest : s6.payload ≠ []
  · rw [if_pos hrest] at hend
    cases hend
  · rw [if_neg hrest] at hend
    cases hend
    refine ⟨rfl, rfl, symbolKeys, s1, hsymbol, relationKeys, s2, hrelation, typeKeys, s3, htype,
      definitionKeys, s4, hdefinition, fileKeys, s5, hfile, references, s6, hpending, ?_⟩
    rw [if_neg hrest]
    rfl

theorem outOfRange_only (records : FactRecords) (selected : FactFamily) (members : List ℕ) :
    (records.only selected).outOfRange selected members = records.outOfRange selected members := by
  rw [outOfRange, outOfRange, familySize_only]

/-- Indices that are in range of every family are in range of the one that is
kept. -/
theorem validatePartitionFamily_only
    (selected : FactFamily) (h : validatePartitions records partitions = .ok ()) :
    validatePartitionFamily (records.only selected)
      (partitions.map (FileFactPartition.only selected)) selected = .ok () := by
  rw [validatePartitions] at h
  rw [validatePartitionFamily, if_neg]
  intro hany
  have hbad : partitions.any (fun partition =>
      partition.members.entries.any fun entry => records.outOfRange entry.1 entry.2) = true := by
    rw [List.any_map, List.any_eq_true] at hany
    obtain ⟨partition, hpartition, hmembers⟩ := hany
    obtain ⟨members, hfind, hrange⟩ := (Option.any_eq_true _ _).mp hmembers
    have hentry := (SortedMap.find?_eq_some_iff _).mp hfind
    have hkept : (selected, members) ∈ partition.members.entries :=
      (List.mem_filter.mp hentry).1
    rw [outOfRange_only] at hrange
    exact List.any_eq_true.mpr ⟨partition, hpartition, List.any_eq_true.mpr ⟨_, hkept, hrange⟩⟩
  rw [if_pos hbad] at h
  cases h

/-- The projected reader succeeds where the reader of the batch does. -/
theorem makeFamilyBatch_ok (selected : FactFamily) (h : readBatch info input = .ok result) :
    makeFamilyBatch info selected input = .ok (result.1.only selected, result.2) := by
  rw [readBatch, bind_eq_ok] at h
  obtain ⟨records, s1, hrecords, h⟩ := h
  rw [bind_eq_ok] at h
  obtain ⟨partitions, s2, hpartitions, h⟩ := h
  rw [bind_eq_ok] at h
  obtain ⟨_, s3, hrest, h⟩ := h
  obtain ⟨hbatch, hbatchPartitions, honly⟩ := readRest_ok selected hrest
  rw [bind_eq_ok] at h
  obtain ⟨_, _, hvalid, hend⟩ := h
  rw [lift_eq_ok] at hvalid
  cases hend
  rw [hbatch, hbatchPartitions] at hvalid
  have hfamily := validatePartitionFamily_only selected hvalid.1
  rw [makeFamilyBatch, readFactRecordsFamily_eq_map, bind_map_left, bind_eq_ok]
  refine ⟨records, s1, hrecords, bind_eq_ok.mpr ⟨partitions, s2, hpartitions, ?_⟩⟩
  refine bind_eq_ok.mpr ⟨_, _, honly, bind_eq_ok.mpr ⟨(), s3, ?_, ?_⟩⟩
  · rw [lift_eq_ok]
    refine ⟨?_, rfl⟩
    rw [← hfamily, ← hbatch, ← hbatchPartitions]
    rfl
  · rw [← hvalid.2]
    rfl

theorem decode_ok {digest : Bytes → Bytes} {artifact : Option Bytes}
    {compatibility : FactBatchArtifactCompatibility} {result : FactBatch × FactBatchArtifactInfo}
    (h : decode digest artifact compatibility = .ok result) :
    ∃ digestText info input rest,
      openArtifact digest artifact compatibility = .ok (digestText, info, input) ∧
        readBatch info input = .ok (result.1, rest) := by
  rw [decode, Except.bind_eq_ok] at h
  obtain ⟨opened, hopen, h⟩ := h
  rw [Except.bind_eq_ok] at h
  obtain ⟨⟨batch, rest⟩, hread, h⟩ := h
  dsimp only at h
  by_cases hlayout : (!batch.hasCanonicalLayout) = true
  · rw [if_pos hlayout] at h
    cases h
  · rw [if_neg hlayout] at h
    cases h
    exact ⟨opened.1, opened.2.1, opened.2.2, rest, hopen, hread⟩

def samplePartition : FactPartitionKey where
  file := { componentPath := [], directoryPath := ascii "src", fileName := ascii "a.cpp" }
  configuration :=
    { semanticUniverse := ascii "u", translationUnit := ascii "src/a.cpp"
      normalizedConfiguration := [], identitySource := []
      content := { driver := none, workingDir := none, arguments := [], langMode := none
                   resourceDir := none } }

/-- One piece of evidence and one presentation intent. -/
def sampleBatch : FactBatch where
  producer := ascii "p"
  producerVersion := 1
  completeness := .complete
  canonical := true
  records :=
    { evidence := [{ producer := ascii "p", construct := ascii "c", file := ascii "a.cpp", line := 1
                     col := 1, completeness := .complete, trust := .trusted, detail := [] }]
      presentationIntents := [{ symbolId := 1, displayArgs := [ascii "T"] }] }
  partitions :=
    [{ key := samplePartition
       members := (SortedMap.empty.insertOrAssign .evidence [0]).insertOrAssign
         .presentationIntents [0] }]
  symbolKeys := .empty
  relationKeys := .empty
  typeKeys := .empty
  definitionKeys := .empty
  fileKeys := SortedMap.empty.insertOrAssign 1 samplePartition
  pendingSymbolReferences := []

def sampleMetadata : FactBatchArtifactMetadata where
  passVersion := 1
  extractorVersion := 1
  storageSchemaVersion := 40
  catalogVersion := 1
  catalogHash := ascii "h"
  trust := .trusted
  truncated := false
  dependencyIdentities := []

def sampleCompatibility : FactBatchArtifactCompatibility where
  wireVersion := wireVersion
  producer := none
  producerVersion := none
  passVersion := 1
  extractorVersion := 1
  storageSchemaVersion := 40
  catalogVersion := 1
  catalogHash := ascii "h"
  dependencyIdentities := none
  allowPartial := false
  allowTruncated := false
  requireTrusted := true
  limits := {}

def constantDigest (_ : Bytes) : Bytes := ascii "sha256:" ++ List.replicate 64 48

def sampleArtifact : Bytes :=
  artifactPayload sampleBatch sampleMetadata ++ digestMagic ++ constantDigest []

end CppIndexer.Ast
