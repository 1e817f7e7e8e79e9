/-
# Fact batches and their canonical layout

A batch holds one vector of records per family, the partitions with the indices
of the records each owns, and the dictionaries of its transient handles.

`has_canonical_layout` checks a batch from the outside, whoever built it: the
partitions are strictly ordered, every family is listed partition by partition
without a gap and in the strict order of its keys, records that name their
partition are listed under it, and the emissions of symbols are grouped by
symbol, numbered within a group and ordered by the first file of the group.
-/

import CppIndexer.Ast.FactRecords
import CppIndexer.Lib.SortedMap
import Mathlib.Data.Prod.Lex
import Mathlib.Order.WithBot

namespace CppIndexer.Ast

open Util (Bytes ascii)
open Util.Json (decimal decimalNat)

/-! ## Orders -/

instance instLinearOrderInt64 : LinearOrder Int64 :=
  LinearOrder.lift' Int64.toInt fun _ _ h => Int64.toInt_inj.mp h

/-- The members of a partition key, in the order in which keys are compared. -/
abbrev PartitionOrder :=
  Bytes ×ₗ Bytes ×ₗ Bytes ×ₗ Bytes ×ₗ Bytes ×ₗ Bytes ×ₗ Bytes ×ₗ WithBot Bytes ×ₗ
    WithBot Bytes ×ₗ List Bytes ×ₗ WithBot Bytes ×ₗ WithBot Bytes

/-- An optional text as it is compared: nothing comes before everything. -/
def compared (text : Option Bytes) : WithBot Bytes := text

@[simp]
theorem compared_inj {a b : Option Bytes} : compared a = compared b ↔ a = b := Iff.rfl

def FactPartitionKey.members (key : FactPartitionKey) : PartitionOrder :=
  let content := key.configuration.content
  toLex (key.file.componentPath, toLex (key.file.directoryPath, toLex (key.file.fileName,
    toLex (key.configuration.semanticUniverse, toLex (key.configuration.translationUnit,
      toLex (key.configuration.normalizedConfiguration,
        toLex (key.configuration.identitySource, toLex (compared content.driver,
          toLex (compared content.workingDir, toLex (content.arguments,
            toLex (compared content.langMode, compared content.resourceDir)))))))))))

theorem FactPartitionKey.members_injective : Function.Injective FactPartitionKey.members := by
  intro a b h
  cases a with
  | mk fileA configurationA =>
    cases b with
    | mk fileB configurationB =>
      cases fileA; cases fileB
      cases configurationA with
      | mk _ _ _ _ contentA =>
        cases configurationB with
        | mk _ _ _ _ contentB =>
          cases contentA; cases contentB
          simp only [members, toLex_inj, Prod.mk.injEq, compared_inj] at h
          simp [h]

/-- `operator<=>` of partition keys. -/
instance instLinearOrderFactPartitionKey : LinearOrder FactPartitionKey :=
  LinearOrder.lift' FactPartitionKey.members FactPartitionKey.members_injective

/-! ## Record keys -/

/-- The separator `'\x1f'`. -/
def unit : Bytes := [31]

/-- The separator `':'`. -/
def colon : Bytes := [58]

def toText (value : Int64) : Bytes := decimal value.toInt

/-- `optional_text`, given how a value is written. -/
def optionalText {α : Type} (text : α → Bytes) : Option α → Bytes
  | none => ascii "-"
  | some value => text value

/-- `optional_text` of a text. -/
def optionalString : Option Bytes → Bytes :=
  optionalText fun value => decimalNat value.length ++ colon ++ value

/-- `optional_text` of a number. -/
def optionalInt : Option Int64 → Bytes := optionalText toText

/-- `bool_text`. -/
def boolText (value : Bool) : Bytes := if value then ascii "1" else ascii "0"

/-- `portable_file_key`. -/
def portableFileKey (file : PortableFileIdentity) : Bytes :=
  file.componentPath ++ unit ++ file.directoryPath ++ unit ++ file.fileName

/-- `optional_file_key`. -/
def optionalFileKey : Option PortableFileIdentity → Bytes := optionalText portableFileKey

/-- `symbol_record_key`. -/
def symbolRecordKey (record : SymbolRecord) : Bytes :=
  [record.file, unit, record.usr, unit, record.spelling, unit, decimal record.kind.toInt, unit,
    record.kindName, unit, optionalString record.qualName, unit,
    optionalString record.displayName, unit, optionalString record.typeInfo, unit,
    toText record.line, colon, toText record.col, colon, toText record.endLine, colon,
    toText record.endCol, colon, optionalInt record.declLine, colon, optionalInt record.declCol,
    colon, optionalString record.declPath, colon, boolText record.isDefinition,
    boolText record.isPure, boolText record.isStatic, boolText record.isInstantiation,
    boolText record.isNamedInstance, unit, optionalString record.linkage, unit,
    optionalString record.access, unit, optionalString record.parentUsr, unit,
    optionalString record.constValue, unit, boolText record.resolved].flatten

/-- `declaration_site_key`. -/
def declarationSiteKey (record : DeclarationSiteRecord) : Bytes :=
  [record.symbol.stableString, colon, toText record.line, colon, toText record.col, colon,
    toText record.endLine, colon, toText record.endCol, colon,
    boolText record.isDefinition].flatten

/-- `edge_record_key`. -/
def edgeRecordKey (record : EdgeRecord) : Bytes :=
  [toText record.srcId, colon, toText record.dstId, colon, toText record.kind, colon,
    toText record.count, colon, optionalInt record.baseAccess, colon,
    optionalInt record.isVirtual].flatten

/-- `edge_site_key`. -/
def edgeSiteKey (record : EdgeSiteRecord) : Bytes :=
  [toText record.edgeId, colon, toText record.fileId, colon, toText record.line, colon,
    toText record.col, colon, toText record.conditional, colon,
    optionalString record.recvSrcKind, colon, optionalString record.recvTypeUsr, colon,
    optionalString record.recvDeclUsr, colon, optionalInt record.recvParamPos, colon,
    optionalInt record.recvTypeIsValue].flatten

/-- `call_arg_key`. -/
def callArgKey (record : CallArgRecord) : Bytes :=
  [toText record.edgeId, colon, toText record.position, colon, toText record.fileId, colon,
    toText record.line, colon, toText record.col, colon, record.srcKind, colon,
    optionalString record.typeUsr, colon, optionalString record.declUsr, colon,
    optionalString record.calleeUsr, colon, optionalInt record.typeIsValue].flatten

/-- `template_param_key`. -/
def templateParamKey (record : TemplateParamRecord) : Bytes :=
  [toText record.ownerId, colon, toText record.position, colon, toText record.paramKind, colon,
    optionalString record.name, colon, optionalString record.defaultTxt, colon,
    optionalInt record.typeId, colon, optionalInt record.defaultTypeId, colon,
    optionalInt record.defaultRefId].flatten

/-- `template_arg_key`. -/
def templateArgKey (record : TemplateArgRecord) : Bytes :=
  [toText record.ownerId, colon, toText record.position, colon, toText record.packIndex, colon,
    toText record.argKind, colon, optionalInt record.refId, colon,
    optionalString record.literal, colon, optionalInt record.typeId].flatten

/-- `type_node_key`. -/
def typeNodeKey (record : TypeNodeRecord) : Bytes :=
  [record.typeKey, unit, record.spelling, unit, toText record.kind, colon,
    boolText record.isConst, boolText record.isVolatile, boolText record.isRestrict, colon,
    optionalString record.declUsr, colon, optionalInt record.canonicalId, colon,
    optionalString record.extent].flatten

/-- `type_edge_key`. -/
def typeEdgeKey (record : TypeEdgeRecord) : Bytes :=
  [toText record.srcId, colon, toText record.kind, colon, toText record.position, colon,
    toText record.dstId].flatten

/-- `parameter_key`. -/
def parameterKey (record : ParameterFactRecord) : Bytes :=
  [toText record.ownerId, colon, toText record.parameter.position, colon,
    toText record.parameter.packIndex, colon, optionalString record.parameter.name, colon,
    optionalInt record.parameter.typeId, colon, optionalInt record.parameter.declaredTypeId,
    colon, optionalInt record.parameter.adjustedTypeId, colon,
    optionalString record.parameter.defaultText, colon,
    optionalString record.parameter.defaultOrigin, colon,
    optionalString record.parameter.referenceSemantics, colon,
    optionalInt record.parameter.fileId, colon, optionalInt record.parameter.line, colon,
    optionalInt record.parameter.col].flatten

/-- `symbol_type_key`. -/
def symbolTypeKey (record : SymbolTypeRecord) : Bytes :=
  [toText record.symbolId, colon, toText record.kind, colon, toText record.typeId].flatten

/-- `definition_key`. -/
def definitionKey (record : DefinitionFactRecord) : Bytes :=
  [toText record.id, colon, toText record.symbolId, colon, toText record.fileId, colon,
    toText record.line, colon, toText record.col, colon, toText record.endLine, colon,
    toText record.endCol, colon, optionalString record.initText].flatten

/-- `definition_edge_key`. -/
def definitionEdgeKey (record : DefinitionEdgeRecord) : Bytes :=
  [toText record.definitionId, colon, toText record.destinationId, colon, toText record.kind].flatten

def IncludeDirectiveKind.all : List IncludeDirectiveKind :=
  [.include, .includeNext, .import, .includeMacros, .unknown]

def IncludeDirectiveKind.underlying : IncludeDirectiveKind → ℕ
  | .include => 1
  | .includeNext => 2
  | .import => 3
  | .includeMacros => 4
  | .unknown => 5

def DiagnosticSeverity.all : List DiagnosticSeverity :=
  [.remark, .warning, .error, .fatal]

def DiagnosticSeverity.underlying : DiagnosticSeverity → ℕ
  | .remark => 0
  | .warning => 1
  | .error => 2
  | .fatal => 3

def FactCompleteness.all : List FactCompleteness :=
  [.complete, .partially, .unknown, .error]

def FactCompleteness.underlying : FactCompleteness → ℕ
  | .complete => 0
  | .partially => 1
  | .unknown => 2
  | .error => 3

def FactTrust.all : List FactTrust :=
  [.trusted, .provisional, .inferred]

def FactTrust.underlying : FactTrust → ℕ
  | .trusted => 0
  | .provisional => 1
  | .inferred => 2

def LifecycleCleanupKind.all : List LifecycleCleanupKind :=
  [.relations, .definitions, .diagnostics, .includes, .applicability]

def LifecycleCleanupKind.underlying : LifecycleCleanupKind → ℕ
  | .relations => 0
  | .definitions => 1
  | .diagnostics => 2
  | .includes => 3
  | .applicability => 4

def ApplicabilityRole.all : List ApplicabilityRole :=
  [.translationUnit, .header]

def ApplicabilityRole.underlying : ApplicabilityRole → ℕ
  | .translationUnit => 0
  | .header => 1

def ApplicabilityState.all : List ApplicabilityState :=
  [.registered, .unregistered, .ambiguous, .stale, .unavailable]

def ApplicabilityState.underlying : ApplicabilityState → ℕ
  | .registered => 0
  | .unregistered => 1
  | .ambiguous => 2
  | .stale => 3
  | .unavailable => 4

/-- `include_key`. -/
def includeKey (record : IncludeDirectiveRecord) : Bytes :=
  [record.partition.stableString, colon, portableFileKey record.source, colon,
    optionalFileKey record.destination, colon, record.destinationPath, colon, record.spelling,
    colon, decimalNat record.directive.underlying, colon, toText record.line, colon,
    toText record.col, colon, toText record.beginOffset, colon, toText record.endOffset, colon,
    record.conditionalFingerprint, colon, boolText record.isAngled, boolText record.resolved,
    boolText record.isSystem, boolText record.guarded].flatten

/-- `macro_key`. -/
def macroKey (record : MacroUseRecord) : Bytes :=
  [record.partition.stableString, colon, portableFileKey record.source, colon,
    optionalFileKey record.definition, colon, record.definitionPath, colon, record.name, colon,
    toText record.count].flatten

/-- `diagnostic_key`. -/
def diagnosticKey (record : DiagnosticFactRecord) : Bytes :=
  [record.partition.stableString, colon, decimalNat record.severity.underlying, colon,
    record.spelling, colon, optionalFileKey record.locationFile, colon, optionalInt record.line,
    colon, optionalInt record.col].flatten

/-- `evidence_key`. -/
def evidenceKey (record : EvidenceRecord) : Bytes :=
  [record.producer, unit, record.construct, unit, record.file, unit, toText record.line, colon,
    toText record.col, colon, decimalNat record.completeness.underlying, colon,
    decimalNat record.trust.underlying, unit, record.detail].flatten

/-- `presentation_key`. -/
def presentationKey (record : PresentationIntent) : Bytes :=
  toText record.symbolId ++ record.displayArgs.flatMap fun argument =>
    colon ++ decimalNat argument.length ++ colon ++ argument

/-- `cleanup_key`. -/
def cleanupKey (record : LifecycleCleanupIntent) : Bytes :=
  [record.partition.stableString, colon, decimalNat record.kind.underlying, colon,
    record.target.portablePath, colon, record.priorGeneration].flatten

/-- `applicability_key`. -/
def applicabilityKey (record : ApplicabilityOwnershipRecord) : Bytes :=
  [record.partition.stableString, colon, record.file.portablePath, colon,
    decimalNat record.role.underlying, colon, decimalNat record.state.underlying, colon,
    optionalString record.reason, colon, record.generation].flatten

/-! ## Batches -/

structure FactRecords where
  symbols : List SymbolRecord := []
  declarationSites : List DeclarationSiteRecord := []
  relations : List EdgeRecord := []
  edgeSites : List EdgeSiteRecord := []
  callArgs : List CallArgRecord := []
  templateParams : List TemplateParamRecord := []
  templateArgs : List TemplateArgRecord := []
  typeNodes : List TypeNodeRecord := []
  typeEdges : List TypeEdgeRecord := []
  parameters : List ParameterFactRecord := []
  symbolTypes : List SymbolTypeRecord := []
  definitions : List DefinitionFactRecord := []
  definitionEdges : List DefinitionEdgeRecord := []
  includes : List IncludeDirectiveRecord := []
  macros : List MacroUseRecord := []
  diagnostics : List DiagnosticFactRecord := []
  evidence : List EvidenceRecord := []
  presentationIntents : List PresentationIntent := []
  lifecycleCleanup : List LifecycleCleanupIntent := []
  applicability : List ApplicabilityOwnershipRecord := []
  symbolOrder : List SymbolEmissionMetadata := []

structure FileFactPartition where
  key : FactPartitionKey
  members : SortedMap FactFamily (List ℕ)

structure PendingSymbolReference where
  handle : Int64
  usr : Bytes
  identitySource : Bytes
  semanticUniverse : Bytes
  translationUnit : Bytes

/-- The members of a reference, in the order in which references are compared. -/
def PendingSymbolReference.members (reference : PendingSymbolReference) :
    Int64 ×ₗ Bytes ×ₗ Bytes ×ₗ Bytes ×ₗ Bytes :=
  toLex (reference.handle, toLex (reference.usr, toLex (reference.identitySource,
    toLex (reference.semanticUniverse, reference.translationUnit))))

theorem PendingSymbolReference.members_injective : Function.Injective PendingSymbolReference.members := by
  intro a b h
  cases a; cases b
  simp only [members, toLex_inj, Prod.mk.injEq] at h
  simp [h]

/-- `operator<=>` of references. -/
instance instLinearOrderPendingSymbolReference : LinearOrder PendingSymbolReference :=
  LinearOrder.lift' PendingSymbolReference.members PendingSymbolReference.members_injective

/-- `FactBatch::Data`. -/
structure FactBatch where
  producer : Bytes
  producerVersion : UInt32
  completeness : FactCompleteness
  canonical : Bool
  records : FactRecords
  partitions : List FileFactPartition
  symbolKeys : SortedMap Int64 Bytes
  relationKeys : SortedMap Int64 Bytes
  typeKeys : SortedMap Int64 Bytes
  definitionKeys : SortedMap Int64 Bytes
  fileKeys : SortedMap Int64 FactPartitionKey
  pendingSymbolReferences : List PendingSymbolReference

/-! ## The canonical layout -/

section

variable {α : Type} (records : List α) (family : FactFamily)

/-- The loop over the indices of a partition: the index expected next, of indices
that are as expected and whose keys increase. -/
def membersAreCanonical (key : α → Bytes) : List ℕ → ℕ → Option Bytes → Option ℕ
  | [], expected, _ => some expected
  | index :: rest, expected, previous =>
    match records[index]? with
    | none => none
    | some record =>
      if index ≠ expected ∨ previous.any fun k => k ≥ key record then none
      else membersAreCanonical key rest (expected + 1) (some (key record))

/-- The loop over the partitions of `family_is_canonical`. -/
def partitionsAreCanonical (key : α → Bytes) : List FileFactPartition → ℕ → Option ℕ
  | [], expected => some expected
  | partition :: rest, expected =>
    match partition.members.find? family with
    | none => partitionsAreCanonical key rest expected
    | some members =>
      if members = [] then none
      else
        match membersAreCanonical records key members expected none with
        | none => none
        | some expected => partitionsAreCanonical key rest expected

variable (partitions : List FileFactPartition)

/-- `family_is_canonical`. -/
def familyIsCanonical (key : α → Bytes) : Bool :=
  partitionsAreCanonical records family key partitions 0 = some records.length

/-- `family_ownership_is_canonical`. -/
def familyOwnershipIsCanonical (recordPartition : α → FactPartitionKey) : Bool :=
  partitions.all fun partition =>
    match partition.members.find? family with
    | none => true
    | some members => members.all fun index =>
      match records[index]? with
      | none => false
      | some record => recordPartition record = partition.key

end

/-- `partitions_are_strictly_ordered`. -/
def partitionsAreStrictlyOrdered : List FileFactPartition → Bool
  | left :: right :: rest => left.key < right.key ∧ partitionsAreStrictlyOrdered (right :: rest)
  | _ => true

/-- The file of an emission, as emissions are ordered by it. -/
abbrev FileOrder := Bytes ×ₗ Bytes ×ₗ Bytes

variable (entry : SymbolEmissionMetadata)

def SymbolEmissionMetadata.file : FileOrder :=
  toLex (entry.applyOrder.componentPath,
    toLex (entry.applyOrder.directoryPath, entry.applyOrder.fileName))

/-- What groups are ordered by: their first file, then their symbol. -/
abbrev GroupOrder := FileOrder ×ₗ Bytes

/-- The entry is numbered by its place in the group. -/
def SymbolEmissionMetadata.numbered (index : UInt64) : Bool :=
  entry.firstSeen = index ∧ entry.lastSeen = index ∧ entry.applyOrder.firstSeen = index ∧
    entry.applyOrder.conflictOrdinal = index

/-- The inner loop of `symbol_order_is_canonical`: the first file of the group,
and what follows the group. -/
def symbolGroup (natural : Bytes) : List SymbolEmissionMetadata → UInt64 → FileOrder →
      Option (FileOrder × List SymbolEmissionMetadata)
  | [], _, minimum => some (minimum, [])
  | entry :: rest, index, minimum =>
    if entry.symbol.stableString ≠ natural then some (minimum, entry :: rest)
    else if !entry.numbered index then none
    else symbolGroup natural rest (index + 1) (min minimum entry.file)

/-- The outer loop, which takes at most as many steps as there are emissions. -/
def symbolGroups : ℕ → List SymbolEmissionMetadata → List Bytes → Option GroupOrder → Bool
  | 0, _, _, _ => true
  | _ + 1, [], _, _ => true
  | steps + 1, entry :: rest, seen, previous =>
    let natural := entry.symbol.stableString
    if natural ∈ seen then false
    else
      match symbolGroup natural (entry :: rest) 0 entry.file with
      | none => false
      | some (minimum, later) =>
        let order : GroupOrder := toLex (minimum, natural)
        if previous.any fun p => p ≥ order then false
        else symbolGroups steps later (natural :: seen) (some order)

/-- `symbol_order_is_canonical`. -/
def symbolOrderIsCanonical (emissions : List SymbolEmissionMetadata) : Bool :=
  symbolGroups emissions.length emissions [] none

/-- `has_canonical_layout`. -/
def FactBatch.hasCanonicalLayout (batch : FactBatch) : Bool :=
  let records := batch.records
  let partitions := batch.partitions
  batch.canonical && partitionsAreStrictlyOrdered partitions &&
    familyIsCanonical records.symbols .symbols partitions symbolRecordKey &&
    familyIsCanonical records.declarationSites .declarationSites partitions
      declarationSiteKey &&
    familyOwnershipIsCanonical records.declarationSites .declarationSites partitions
      DeclarationSiteRecord.partition &&
    familyIsCanonical records.relations .relations partitions edgeRecordKey &&
    familyIsCanonical records.edgeSites .edgeSites partitions edgeSiteKey &&
    familyIsCanonical records.callArgs .callArguments partitions callArgKey &&
    familyIsCanonical records.templateParams .templateParameters partitions templateParamKey &&
    familyIsCanonical records.templateArgs .templateArguments partitions templateArgKey &&
    familyIsCanonical records.typeNodes .types partitions typeNodeKey &&
    familyIsCanonical records.typeEdges .typeEdges partitions typeEdgeKey &&
    familyIsCanonical records.parameters .parameters partitions parameterKey &&
    familyIsCanonical records.symbolTypes .symbolTypes partitions symbolTypeKey &&
    familyIsCanonical records.definitions .definitions partitions definitionKey &&
    familyIsCanonical records.definitionEdges .definitionEdges partitions definitionEdgeKey &&
    familyIsCanonical records.includes .includes partitions includeKey &&
    familyOwnershipIsCanonical records.includes .includes partitions
      IncludeDirectiveRecord.partition &&
    familyIsCanonical records.macros .macros partitions macroKey &&
    familyOwnershipIsCanonical records.macros .macros partitions MacroUseRecord.partition &&
    familyIsCanonical records.diagnostics .diagnostics partitions diagnosticKey &&
    familyOwnershipIsCanonical records.diagnostics .diagnostics partitions
      DiagnosticFactRecord.partition &&
    familyIsCanonical records.evidence .evidence partitions evidenceKey &&
    familyIsCanonical records.presentationIntents .presentationIntents partitions
      presentationKey &&
    familyIsCanonical records.lifecycleCleanup .lifecycleCleanup partitions cleanupKey &&
    familyOwnershipIsCanonical records.lifecycleCleanup .lifecycleCleanup partitions
      LifecycleCleanupIntent.partition &&
    familyIsCanonical records.applicability .applicability partitions applicabilityKey &&
    familyOwnershipIsCanonical records.applicability .applicability partitions
      ApplicabilityOwnershipRecord.partition &&
    symbolOrderIsCanonical records.symbolOrder

end CppIndexer.Ast
