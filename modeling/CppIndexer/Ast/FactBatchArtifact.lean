/-
# Fact batch artifacts

A canonical batch as one string of bytes: a magic number, what the batch was made
with, its records family by family, its partitions, its dictionaries and the
references it defers, and behind all that a footer with the digest of what comes
before.

`decode` reads an artifact whole and checks the layout of the batch.
`decode_family` reads the same bytes but keeps the records of one family, for a
writer that goes through the families one at a time; it steps over the others
with the same readers and checks the indices of the family it keeps.

The artifact is given as its bytes, or as none for an empty handle: what is read
back is what was written.  The digest of a byte string is a parameter.
-/

import CppIndexer.Ast.ArtifactFormat
import CppIndexer.Lib.SortUnique

namespace CppIndexer.Ast

open Util (Bytes ascii)
open SortUnique (sortUnique)
open LittleEndian

/-! ## Metadata -/

/-- `kFactBatchArtifactWireVersion`. -/
def wireVersion : UInt32 := 3

structure FactBatchArtifactMetadata where
  passVersion : UInt32
  extractorVersion : UInt32
  storageSchemaVersion : UInt32
  catalogVersion : Int64
  catalogHash : Bytes
  trust : FactTrust
  truncated : Bool
  dependencyIdentities : List Bytes

structure FactBatchArtifactInfo where
  wireVersion : UInt32
  producer : Bytes
  producerVersion : UInt32
  passVersion : UInt32
  extractorVersion : UInt32
  storageSchemaVersion : UInt32
  catalogVersion : Int64
  catalogHash : Bytes
  completeness : FactCompleteness
  trust : FactTrust
  truncated : Bool
  dependencyIdentities : List Bytes
  contentDigest : Bytes
  byteSize : ℕ

structure FactBatchArtifactEncodeOptions where
  metadata : FactBatchArtifactMetadata
  maxArtifactBytes : UInt64

structure FactBatchArtifactCompatibility where
  wireVersion : UInt32
  producer : Option Bytes
  producerVersion : Option UInt32
  passVersion : UInt32
  extractorVersion : UInt32
  storageSchemaVersion : UInt32
  catalogVersion : Int64
  catalogHash : Bytes
  dependencyIdentities : Option (List Bytes)
  allowPartial : Bool
  allowTruncated : Bool
  requireTrusted : Bool
  limits : FactBatchArtifactDecodeLimits

/-- `canonical_dependencies`. -/
def canonicalDependencies (dependencies : List Bytes) : List Bytes := sortUnique dependencies

/-! ## Writing -/

namespace BinaryWriter

/-- `write_fact_records`. -/
def writeFactRecords (records : FactRecords) : Bytes :=
  [vector writeSymbolRecord records.symbols, vector writeDeclarationSite records.declarationSites,
    vector writeEdge records.relations, vector writeEdgeSite records.edgeSites,
    vector writeCallArg records.callArgs, vector writeTemplateParam records.templateParams,
    vector writeTemplateArg records.templateArgs, vector writeTypeNode records.typeNodes,
    vector writeTypeEdge records.typeEdges, vector writeParameterFact records.parameters,
    vector writeSymbolType records.symbolTypes, vector writeDefinition records.definitions,
    vector writeDefinitionEdge records.definitionEdges, vector writeInclude records.includes,
    vector writeMacro records.macros, vector writeDiagnostic records.diagnostics,
    vector writeEvidence records.evidence, vector writePresentation records.presentationIntents,
    vector writeCleanup records.lifecycleCleanup, vector writeApplicability records.applicability,
    vector writeSymbolOrder records.symbolOrder].flatten

/-- `write_string_map` and `write_file_map`. -/
def writeMap {β : Type} (write : β → Bytes) (values : SortedMap Int64 β) : Bytes :=
  vector (fun entry => [i64 entry.1, write entry.2].flatten) values.entries

/-- `write_string_map`. -/
def writeStringMap : SortedMap Int64 Bytes → Bytes := writeMap string

/-- `write_file_map`. -/
def writeFileMap : SortedMap Int64 FactPartitionKey → Bytes := writeMap writePartitionKey

def writePendingReference (reference : PendingSymbolReference) : Bytes :=
  [i64 reference.handle, string reference.usr, string reference.identitySource,
    string reference.semanticUniverse, string reference.translationUnit].flatten

/-- `write_pending_references`. -/
def writePendingReferences : List PendingSymbolReference → Bytes := vector writePendingReference

def writeMembers (entry : FactFamily × List ℕ) : Bytes :=
  [writeEnum FactFamily.underlying entry.1,
    vector (fun member => u64 (UInt64.ofNat member)) entry.2].flatten

def writePartition (partition : FileFactPartition) : Bytes :=
  [writePartitionKey partition.key, vector writeMembers partition.members.entries].flatten

/-- `write_partitions`. -/
def writePartitions : List FileFactPartition → Bytes := vector writePartition

/-- `write_info`. -/
def writeInfo (batch : FactBatch) (metadata : FactBatchArtifactMetadata) : Bytes :=
  [u32 wireVersion, string batch.producer, u32 batch.producerVersion, u32 metadata.passVersion,
    u32 metadata.extractorVersion, u32 metadata.storageSchemaVersion,
    i64 metadata.catalogVersion, string metadata.catalogHash,
    writeEnum FactCompleteness.underlying batch.completeness,
    writeEnum FactTrust.underlying metadata.trust, boolean metadata.truncated,
    vector string (canonicalDependencies metadata.dependencyIdentities)].flatten

end BinaryWriter

/-! ## Reading -/

namespace FactBatchArtifactInput

/-- `read_records`. -/
def readRecords {α : Type} (read : Read α) : Read (List α) := vector read

/-- `discard_records`. -/
def discardRecords {α : Type} (read : Read α) : Read Unit := do
  let count ← count
  Codec.skip read count.toNat

/-- The records of a family that is selected, or nothing after they are passed. -/
def readFamily {α : Type} (selected family : FactFamily) (read : Read α) : Read (List α) := do
  if family = selected then readRecords read
  else
    discardRecords read
    return []

/-- `read_fact_records`. -/
def readFactRecords : Read FactRecords := do
  let symbols ← readRecords readSymbolRecord
  let declarationSites ← readRecords readDeclarationSite
  let relations ← readRecords readEdge
  let edgeSites ← readRecords readEdgeSite
  let callArgs ← readRecords readCallArg
  let templateParams ← readRecords readTemplateParam
  let templateArgs ← readRecords readTemplateArg
  let typeNodes ← readRecords readTypeNode
  let typeEdges ← readRecords readTypeEdge
  let parameters ← readRecords readParameterFact
  let symbolTypes ← readRecords readSymbolType
  let definitions ← readRecords readDefinition
  let definitionEdges ← readRecords readDefinitionEdge
  let includes ← readRecords readInclude
  let macros ← readRecords readMacro
  let diagnostics ← readRecords readDiagnostic
  let evidence ← readRecords readEvidence
  let presentationIntents ← readRecords readPresentation
  let lifecycleCleanup ← readRecords readCleanup
  let applicability ← readRecords readApplicability
  let symbolOrder ← readRecords readSymbolOrder
  return {
    symbols, declarationSites, relations, edgeSites, callArgs, templateParams, templateArgs,
    typeNodes, typeEdges, parameters, symbolTypes, definitions, definitionEdges, includes, macros,
    diagnostics, evidence, presentationIntents, lifecycleCleanup, applicability, symbolOrder }

/-- `read_fact_records_family`. -/
def readFactRecordsFamily (selected : FactFamily) : Read FactRecords := do
  let symbols ← readFamily selected .symbols readSymbolRecord
  let declarationSites ← readFamily selected .declarationSites readDeclarationSite
  let relations ← readFamily selected .relations readEdge
  let edgeSites ← readFamily selected .edgeSites readEdgeSite
  let callArgs ← readFamily selected .callArguments readCallArg
  let templateParams ← readFamily selected .templateParameters readTemplateParam
  let templateArgs ← readFamily selected .templateArguments readTemplateArg
  let typeNodes ← readFamily selected .types readTypeNode
  let typeEdges ← readFamily selected .typeEdges readTypeEdge
  let parameters ← readFamily selected .parameters readParameterFact
  let symbolTypes ← readFamily selected .symbolTypes readSymbolType
  let definitions ← readFamily selected .definitions readDefinition
  let definitionEdges ← readFamily selected .definitionEdges readDefinitionEdge
  let includes ← readFamily selected .includes readInclude
  let macros ← readFamily selected .macros readMacro
  let diagnostics ← readFamily selected .diagnostics readDiagnostic
  let evidence ← readFamily selected .evidence readEvidence
  let presentationIntents ← readFamily selected .presentationIntents readPresentation
  let lifecycleCleanup ← readFamily selected .lifecycleCleanup readCleanup
  let applicability ← readFamily selected .applicability readApplicability
  let symbolOrder ← readFamily selected .symbols readSymbolOrder
  return {
    symbols, declarationSites, relations, edgeSites, callArgs, templateParams, templateArgs,
    typeNodes, typeEdges, parameters, symbolTypes, definitions, definitionEdges, includes, macros,
    diagnostics, evidence, presentationIntents, lifecycleCleanup, applicability, symbolOrder }

/-- The loop of `read_string_map` and `read_file_map`. -/
def readEntries {β : Type} (message : String) (read : Read β) :
    ℕ → Option Int64 → SortedMap Int64 β → Read (SortedMap Int64 β)
  | 0, _, values => return values
  | n + 1, previousKey, values => do
      let key ← i64
      if previousKey.any fun previous => key ≤ previous then fail .corrupt message
      else
        let value ← read
        readEntries message read n (some key) (values.insertOrAssign key value)

def readMap {β : Type} (message : String) (read : Read β) : Read (SortedMap Int64 β) := do
  let count ← count
  readEntries message read count.toNat none .empty

/-- `read_string_map`. -/
def readStringMap : Read (SortedMap Int64 Bytes) :=
  readMap "FactBatch artifact handle keys are not canonically ordered" string

/-- `read_file_map`. -/
def readFileMap : Read (SortedMap Int64 FactPartitionKey) :=
  readMap "FactBatch file handle keys are not canonically ordered" readPartitionKey

def readPendingReference : Read PendingSymbolReference := do
  let handle ← i64
  let usr ← string
  let identitySource ← string
  let semanticUniverse ← string
  let translationUnit ← string
  return { handle, usr, identitySource, semanticUniverse, translationUnit }

/-- The loop of `read_pending_references`, given the last reference. -/
def readReferences : ℕ → Option PendingSymbolReference → Read (List PendingSymbolReference)
  | 0, _ => return []
  | n + 1, last => do
      let reference ← readPendingReference
      if last.any fun previous => ¬ previous < reference then
        fail .corrupt "FactBatch deferred symbol references are not canonically ordered"
      else
        let rest ← readReferences n (some reference)
        return reference :: rest

/-- `read_pending_references`. -/
def readPendingReferences : Read (List PendingSymbolReference) := do
  let count ← count
  readReferences count.toNat none

def readMember : Read ℕ := do
  let member ← u64
  return member.toNat

/-- `read_partition_members`.  Every number read is a `size_t`. -/
def readPartitionMembers : Read (List ℕ) := vector readMember

/-- The loop of `read_partition`. -/
def readFamilies :
    ℕ → Option FactFamily → SortedMap FactFamily (List ℕ) → Read (SortedMap FactFamily (List ℕ))
  | 0, _, members => return members
  | n + 1, previousFamily, members => do
      let family ← readEnum FactFamily.all 0 19 "fact family"
      if previousFamily.any fun previous => family ≤ previous then
        fail .corrupt "FactBatch partition families are not canonically ordered"
      else
        let indices ← readPartitionMembers
        readFamilies n (some family) (members.insertOrAssign family indices)

/-- `read_partition`. -/
def readPartition : Read FileFactPartition := do
  let key ← readPartitionKey
  let count ← count
  let members ← readFamilies count.toNat none .empty
  return { key, members }

/-- `read_partitions`. -/
def readPartitions : Read (List FileFactPartition) := vector readPartition

/-- The fields of `read_info`, before they are checked. -/
def readInfoFields : Read FactBatchArtifactInfo := do
  let wireVersion ← u32
  let producer ← string
  let producerVersion ← u32
  let passVersion ← u32
  let extractorVersion ← u32
  let storageSchemaVersion ← u32
  let catalogVersion ← i64
  let catalogHash ← string
  let completeness ← readEnum FactCompleteness.all 0 3 "artifact completeness"
  let trust ← readEnum FactTrust.all 0 2 "artifact trust"
  let truncated ← boolean
  let dependencyIdentities ← vector string
  return {
    wireVersion, producer, producerVersion, passVersion, extractorVersion, storageSchemaVersion,
    catalogVersion, catalogHash, completeness, trust, truncated, dependencyIdentities,
    contentDigest := [], byteSize := 0 }

/-- `read_info`. -/
def readInfo : Read FactBatchArtifactInfo := do
  let info ← readInfoFields
  if info.dependencyIdentities.IsChain (· < ·) then return info
  else fail .corrupt "FactBatch dependency identities are not canonical"

end FactBatchArtifactInput

open FactBatchArtifactInput

/-! ## Checks -/

/-- `fail`. -/
def failWith {α : Type} (code : FactBatchArtifactErrorCode) (message : String) :
    Except FactBatchArtifactError α := .error { code, message }

def magicBytes : Bytes := ascii "CIDXFB01"

def digestMagic : Bytes := ascii "FBDIG001"

def digestTextSize : ℕ := 71

def footerSize : ℕ := digestMagic.length + digestTextSize

def isLowerHex (character : UInt8) : Bool :=
  48 ≤ character ∧ character ≤ 57 ∨ 97 ≤ character ∧ character ≤ 102

variable (digest : Bytes → Bytes)

/-- `verify_footer`: the payload and its digest. -/
def verifyFooter (storage : Bytes) : Except FactBatchArtifactError (Bytes × Bytes) :=
  if storage.length < footerSize then
    failWith .truncated "FactBatch artifact is shorter than its digest footer"
  else
    let payload := storage.take (storage.length - footerSize)
    let footer := storage.drop (storage.length - footerSize)
    if footer.take digestMagic.length ≠ digestMagic then
      failWith .corrupt "FactBatch artifact digest footer magic is invalid"
    else
      let expected := footer.drop digestMagic.length
      if expected.take 7 ≠ ascii "sha256:" ∨ !(expected.drop 7).all isLowerHex then
        failWith .corrupt "FactBatch artifact digest footer is malformed"
      else if digest payload ≠ expected then
        failWith .corrupt "FactBatch artifact content digest does not match its payload"
      else .ok (payload, expected)

/-- `validate_wire_preamble`. -/
def validateWirePreamble (storage : Bytes) : Except FactBatchArtifactError Unit :=
  if storage.length < magicBytes.length + 4 then
    failWith .truncated "byte artifact read exceeds its captured extent"
  else if storage.take magicBytes.length ≠ magicBytes then
    failWith .incompatible "FactBatch artifact wire magic is unsupported"
  else if UInt32.ofNat (value ((storage.drop magicBytes.length).take 4)) ≠ wireVersion then
    failWith .incompatible "FactBatch artifact wire version is unsupported"
  else .ok ()

variable (info : FactBatchArtifactInfo)

/-- `validate_compatibility`. -/
def validateCompatibility
    (compatibility : FactBatchArtifactCompatibility) : Except FactBatchArtifactError Unit :=
  let incompatible (dimension : String) : Except FactBatchArtifactError Unit :=
    failWith .incompatible ("FactBatch artifact has an incompatible " ++ dimension)
  if info.wireVersion ≠ compatibility.wireVersion then incompatible "wire version"
  else if compatibility.producer.any fun producer => info.producer ≠ producer then
    incompatible "producer identity"
  else if compatibility.producerVersion.any fun version => info.producerVersion ≠ version then
    incompatible "producer version"
  else if info.passVersion ≠ compatibility.passVersion then incompatible "pass version"
  else if info.extractorVersion ≠ compatibility.extractorVersion then
    incompatible "extractor version"
  else if info.storageSchemaVersion ≠ compatibility.storageSchemaVersion then
    incompatible "storage schema version"
  else if info.catalogVersion ≠ compatibility.catalogVersion ∨
      info.catalogHash ≠ compatibility.catalogHash then
    incompatible "catalog identity"
  else if compatibility.requireTrusted ∧ info.trust ≠ .trusted then incompatible "trust level"
  else if compatibility.dependencyIdentities.any fun dependencies =>
      info.dependencyIdentities ≠ canonicalDependencies dependencies then
    failWith .stale "FactBatch artifact dependency identities are stale"
  else if info.truncated ∧ !compatibility.allowTruncated then
    failWith .truncated "FactBatch artifact is marked truncated"
  else if info.completeness ≠ .complete ∧ !compatibility.allowPartial then
    failWith .partially "FactBatch artifact is not complete"
  else .ok ()

/-- `family_size`. -/
def FactRecords.familySize (records : FactRecords) : FactFamily → ℕ
  | .symbols => records.symbols.length
  | .declarationSites => records.declarationSites.length
  | .relations => records.relations.length
  | .edgeSites => records.edgeSites.length
  | .callArguments => records.callArgs.length
  | .templateParameters => records.templateParams.length
  | .templateArguments => records.templateArgs.length
  | .types => records.typeNodes.length
  | .typeEdges => records.typeEdges.length
  | .parameters => records.parameters.length
  | .symbolTypes => records.symbolTypes.length
  | .definitions => records.definitions.length
  | .definitionEdges => records.definitionEdges.length
  | .includes => records.includes.length
  | .macros => records.macros.length
  | .diagnostics => records.diagnostics.length
  | .evidence => records.evidence.length
  | .presentationIntents => records.presentationIntents.length
  | .lifecycleCleanup => records.lifecycleCleanup.length
  | .applicability => records.applicability.length

/-- An index of the partition is out of range. -/
def FactRecords.outOfRange (records : FactRecords) (family : FactFamily) (members : List ℕ) : Bool :=
  members.any fun index => index ≥ records.familySize family

/-- `validate_partitions`. -/
def validatePartitions (records : FactRecords) (partitions : List FileFactPartition) :
    Except FactBatchArtifactError Unit :=
  if partitions.any fun partition =>
      partition.members.entries.any fun entry => records.outOfRange entry.1 entry.2 then
    failWith .corrupt "FactBatch partition contains an out-of-range record index"
  else .ok ()

/-- `validate_partition_family`. -/
def validatePartitionFamily (records : FactRecords) (partitions : List FileFactPartition)
    (family : FactFamily) : Except FactBatchArtifactError Unit :=
  if partitions.any fun partition =>
      (partition.members.find? family).any fun members => records.outOfRange family members then
    failWith .corrupt "FactBatch partition contains an out-of-range record index"
  else .ok ()

/-! ## Encoding -/

open BinaryWriter in
/-- What `encode` writes before the footer. -/
def artifactPayload (batch : FactBatch) (metadata : FactBatchArtifactMetadata) : Bytes :=
  [magicBytes, writeInfo batch metadata, writeFactRecords batch.records,
    writePartitions batch.partitions, writeStringMap batch.symbolKeys,
    writeStringMap batch.relationKeys, writeStringMap batch.typeKeys,
    writeStringMap batch.definitionKeys, writeFileMap batch.fileKeys,
    writePendingReferences batch.pendingSymbolReferences].flatten

/-- `encode`, without failures of the spill file. -/
def encode (batch : FactBatch)
    (options : FactBatchArtifactEncodeOptions) : Except FactBatchArtifactError Bytes :=
  let metadata := options.metadata
  if !batch.hasCanonicalLayout then
    failWith .noncanonical "FactBatch artifacts require canonical_batch() input"
  else if batch.producer = [] ∨ batch.producerVersion = 0 ∨ metadata.passVersion = 0 ∨
      metadata.extractorVersion = 0 ∨ metadata.storageSchemaVersion = 0 ∨
      metadata.catalogVersion ≤ 0 ∨ metadata.catalogHash = [] then
    failWith .incompatible "FactBatch artifact version identities must be explicit"
  else if metadata.dependencyIdentities.any fun identity => identity = [] then
    failWith .incompatible "FactBatch dependency identities must be non-empty"
  else
    let payload := artifactPayload batch metadata
    let artifact := payload ++ digestMagic ++ digest payload
    if artifact.length > options.maxArtifactBytes.toNat then
      failWith .limitExceeded "byte artifact exceeds the configured encode limit"
    else .ok artifact

/-! ## Decoding -/

/-- An entry of another family erased. -/
def FileFactPartition.only (family : FactFamily) (partition : FileFactPartition) : FileFactPartition :=
  { partition with members := partition.members.eraseWhere fun other _ => other ≠ family }

/-- What stands behind the records and the partitions, and the end of the
payload. -/
def readRest (records : FactRecords)
    (partitions : List FileFactPartition) : Read FactBatch := do
  let symbolKeys ← readStringMap
  let relationKeys ← readStringMap
  let typeKeys ← readStringMap
  let definitionKeys ← readStringMap
  let fileKeys ← readFileMap
  let pendingSymbolReferences ← readPendingReferences
  fun input =>
    if input.payload ≠ [] then
      failWith .corrupt "FactBatch artifact has unrecognized trailing payload bytes"
    else
      .ok ({ producer := info.producer, producerVersion := info.producerVersion
             completeness := info.completeness, canonical := true, records, partitions
             symbolKeys, relationKeys, typeKeys, definitionKeys, fileKeys
             pendingSymbolReferences }, input)

/-- The batch that `decode` reads. -/
def readBatch : Read FactBatch := do
  let records ← readFactRecords
  let partitions ← readPartitions
  let batch ← readRest info records partitions
  validatePartitions batch.records batch.partitions
  return batch

/-- `make_family_batch`. -/
def makeFamilyBatch (family : FactFamily) : Read FactBatch := do
  let records ← readFactRecordsFamily family
  let partitions ← readPartitions
  let batch ← readRest info records (partitions.map (FileFactPartition.only family))
  validatePartitionFamily batch.records batch.partitions family
  return batch

variable (artifact : Option Bytes) (compatibility : FactBatchArtifactCompatibility)

/-- What `decode` and `decode_family` begin with: the payload, its digest, what
the artifact was made with, and the reader behind it. -/
def openArtifact :
    Except FactBatchArtifactError (Bytes × FactBatchArtifactInfo × FactBatchArtifactInput) :=
  match artifact with
  | none => failWith .missing "FactBatch artifact handle is empty"
  | some storage => do
      if storage.length > compatibility.limits.maxArtifactBytes.toNat then
        failWith .limitExceeded "FactBatch artifact exceeds the configured byte limit"
      else
        validateWirePreamble storage
        let (payload, digestText) ← verifyFooter digest storage
        let reader : FactBatchArtifactInput :=
          { limits := compatibility.limits, payload, totalEntries := 0 }
        let (magic, reader) ← readExact magicBytes.length reader
        if magic ≠ magicBytes then
          failWith .incompatible "FactBatch artifact wire magic is unsupported"
        else
          let (info, reader) ← readInfo reader
          validateCompatibility info compatibility
          return (digestText, info, reader)

/-- `decode`. -/
def decode
    :
    Except FactBatchArtifactError (FactBatch × FactBatchArtifactInfo) := do
  let (digestText, info, reader) ← openArtifact digest artifact compatibility
  let (batch, _) ← readBatch info reader
  if !batch.hasCanonicalLayout then
    failWith .corrupt "FactBatch artifact payload is not canonically ordered"
  else
    return (batch, { info with contentDigest := digestText
                               byteSize := (artifact.getD []).length })

/-- `decode_family`. -/
def decodeFamily (family : FactFamily)
    (compatibility : FactBatchArtifactCompatibility) : Except FactBatchArtifactError FactBatch := do
  let (_, info, reader) ← openArtifact digest artifact compatibility
  let (batch, _) ← makeFamilyBatch info family reader
  return batch

structure FactBatchArtifactDecodeResult where
  batch : Option FactBatch
  info : Option FactBatchArtifactInfo
  diagnostics : List FactBatchArtifactError

/-- `decode_fact_batch_artifact`. -/
def decodeFactBatchArtifact : FactBatchArtifactDecodeResult :=
  match decode digest artifact compatibility with
  | .ok (batch, info) => { batch := some batch, info := some info, diagnostics := [] }
  | .error error => { batch := none, info := none, diagnostics := [error] }

/-- `decode_fact_batch_artifact_family`. -/
def decodeFactBatchArtifactFamily (family : FactFamily) (compatibility : FactBatchArtifactCompatibility) :
    Except FactBatchArtifactError FactBatch :=
  decodeFamily digest artifact family compatibility

end CppIndexer.Ast
