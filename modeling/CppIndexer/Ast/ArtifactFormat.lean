/-
# The fields of a fact batch artifact

The bytes of each record and the readers that take them back, under the limits of
the decoder.  A text and a collection stand behind an unsigned number of eight
bytes, an optional value behind a byte that is 0 or 1, an enumerator is a byte.

A reader knows what is left of the payload and how many entries of collections
have been read, which the limits bound.  Errors carry their code and their text.
-/

import CppIndexer.Ast.FactBatch
import CppIndexer.Lib.Codec
import CppIndexer.Lib.LittleEndian

namespace CppIndexer.Ast

open Util (Bytes ascii)
open Codec (Reader)
open LittleEndian

inductive FactBatchArtifactErrorCode where
  | missing
  | stale
  | corrupt
  | incompatible
  | partially
  | truncated
  | limitExceeded
  | ioError
  | spillFailure
  | noncanonical
  deriving DecidableEq

structure FactBatchArtifactError where
  code : FactBatchArtifactErrorCode
  message : String

structure FactBatchArtifactDecodeLimits where
  maxArtifactBytes : UInt64 := 512 * 1024 * 1024
  maxStringBytes : UInt64 := 16 * 1024 * 1024
  maxCollectionEntries : UInt64 := 10000000
  maxTotalEntries : UInt64 := 20000000

/-! ## Writing -/

namespace BinaryWriter

def u8 (value : UInt8) : Bytes := [value]

def u32 (value : UInt32) : Bytes := word 4 value.toNat

def u64 (value : UInt64) : Bytes := word 8 value.toNat

def i64 (value : Int64) : Bytes := u64 value.toUInt64

def boolean (value : Bool) : Bytes := u8 (if value then 1 else 0)

def string (value : Bytes) : Bytes := u64 (UInt64.ofNat value.length) ++ value

def optional {α : Type} (write : α → Bytes) : Option α → Bytes :=
  Codec.writeOptional boolean write

def vector {α : Type} (write : α → Bytes) (values : List α) : Bytes :=
  u64 (UInt64.ofNat values.length) ++ values.flatMap write

/-- `write_enum`. -/
def writeEnum {α : Type} (underlying : α → ℕ) (value : α) : Bytes :=
  u8 (UInt8.ofNat (underlying value))

/-- `write_file_identity`. -/
def writeFileIdentity (value : PortableFileIdentity) : Bytes :=
  [string value.componentPath, string value.directoryPath, string value.fileName].flatten

/-- `write_configuration_content`. -/
def writeConfigurationContent (value : PortableConfigurationContent) : Bytes :=
  [optional string value.driver, optional string value.workingDir, vector string value.arguments,
    optional string value.langMode, optional string value.resourceDir].flatten

/-- `write_configuration_identity`. -/
def writeConfigurationIdentity (value : ConfigurationIdentity) : Bytes :=
  [string value.semanticUniverse, string value.translationUnit,
    string value.normalizedConfiguration, string value.identitySource,
    writeConfigurationContent value.content].flatten

/-- `write_partition_key`. -/
def writePartitionKey (value : FactPartitionKey) : Bytes :=
  [writeFileIdentity value.file, writeConfigurationIdentity value.configuration].flatten

/-- `write_symbol_key`. -/
def writeSymbolKey (value : SymbolNaturalKey) : Bytes :=
  [writePartitionKey value.partition, string value.usr, optional string value.localAnchor,
    optional string value.linkage].flatten

/-- `write_apply_order`. -/
def writeApplyOrder (value : LegacyApplyOrderKey) : Bytes :=
  [string value.componentPath, string value.directoryPath, string value.fileName,
    u64 value.firstSeen, u64 value.conflictOrdinal].flatten

/-- `write_symbol_record`. -/
def writeSymbolRecord (value : SymbolRecord) : Bytes :=
  [string value.file, string value.usr, string value.spelling, i64 value.kind.toInt64,
    optional string value.qualName, optional string value.displayName,
    optional string value.typeInfo, i64 value.line, i64 value.col, i64 value.endLine,
    i64 value.endCol, optional i64 value.declLine, optional i64 value.declCol,
    optional string value.declPath, boolean value.isDefinition, boolean value.isPure,
    boolean value.isStatic, boolean value.isInstantiation, boolean value.isNamedInstance,
    optional string value.callableKind, optional string value.templateOrigin,
    optional string value.templateForm, optional string value.linkage,
    optional string value.access, optional string value.parentUsr,
    optional string value.constValue, boolean value.resolved, string value.semanticUniverse,
    string value.normalizedConfiguration, optional string value.identitySource,
    optional string value.identityTranslationUnit, optional string value.localAnchor,
    string value.kindName].flatten

/-- `write_edge`. -/
def writeEdge (value : EdgeRecord) : Bytes :=
  [i64 value.srcId, i64 value.dstId, i64 value.kind, i64 value.count,
    optional i64 value.baseAccess, optional i64 value.isVirtual].flatten

/-- `write_edge_site`. -/
def writeEdgeSite (value : EdgeSiteRecord) : Bytes :=
  [i64 value.edgeId, i64 value.fileId, i64 value.line, i64 value.col, i64 value.conditional,
    optional string value.recvSrcKind, optional string value.recvTypeUsr,
    optional string value.recvDeclUsr, optional i64 value.recvParamPos,
    optional i64 value.recvTypeIsValue].flatten

/-- `write_call_arg`. -/
def writeCallArg (value : CallArgRecord) : Bytes :=
  [i64 value.edgeId, i64 value.fileId, i64 value.line, i64 value.col, i64 value.position,
    string value.srcKind, optional string value.typeUsr, optional string value.declUsr,
    optional string value.calleeUsr, optional i64 value.typeIsValue].flatten

/-- `write_template_param`. -/
def writeTemplateParam (value : TemplateParamRecord) : Bytes :=
  [i64 value.ownerId, i64 value.position, i64 value.paramKind, optional string value.name,
    optional string value.defaultTxt, optional i64 value.typeId, optional i64 value.defaultTypeId,
    optional i64 value.defaultRefId].flatten

/-- `write_template_arg`. -/
def writeTemplateArg (value : TemplateArgRecord) : Bytes :=
  [i64 value.ownerId, i64 value.position, i64 value.packIndex, i64 value.argKind,
    optional i64 value.refId, optional string value.literal, optional i64 value.typeId].flatten

/-- `write_type_node`. -/
def writeTypeNode (value : TypeNodeRecord) : Bytes :=
  [string value.typeKey, string value.spelling, i64 value.kind, boolean value.isConst,
    boolean value.isVolatile, boolean value.isRestrict, optional string value.declUsr,
    optional i64 value.canonicalId, optional string value.extent].flatten

/-- `write_type_edge`. -/
def writeTypeEdge (value : TypeEdgeRecord) : Bytes :=
  [i64 value.srcId, i64 value.kind, i64 value.position, i64 value.dstId].flatten

/-- `write_parameter`. -/
def writeParameter (value : ParameterRecord) : Bytes :=
  [i64 value.position, i64 value.packIndex, optional string value.name, optional i64 value.typeId,
    optional i64 value.declaredTypeId, optional i64 value.adjustedTypeId,
    optional string value.defaultText, optional string value.defaultOrigin,
    optional string value.referenceSemantics, optional i64 value.fileId, optional i64 value.line,
    optional i64 value.col].flatten

/-- `write_parameter_fact`. -/
def writeParameterFact (value : ParameterFactRecord) : Bytes :=
  [i64 value.ownerId, writeParameter value.parameter].flatten

/-- `write_symbol_type`. -/
def writeSymbolType (value : SymbolTypeRecord) : Bytes :=
  [i64 value.symbolId, i64 value.kind, i64 value.typeId].flatten

/-- `write_definition`. -/
def writeDefinition (value : DefinitionFactRecord) : Bytes :=
  [i64 value.id, i64 value.symbolId, i64 value.fileId, i64 value.line, i64 value.col,
    i64 value.endLine, i64 value.endCol, optional string value.initText].flatten

/-- `write_definition_edge`. -/
def writeDefinitionEdge (value : DefinitionEdgeRecord) : Bytes :=
  [i64 value.definitionId, i64 value.destinationId, i64 value.kind].flatten

/-- `write_declaration_site`. -/
def writeDeclarationSite (value : DeclarationSiteRecord) : Bytes :=
  [writeSymbolKey value.symbol, writePartitionKey value.partition, i64 value.line, i64 value.col,
    i64 value.endLine, i64 value.endCol, boolean value.isDefinition].flatten

/-- `write_include`. -/
def writeInclude (value : IncludeDirectiveRecord) : Bytes :=
  [writePartitionKey value.partition, writeFileIdentity value.source,
    optional writeFileIdentity value.destination, string value.destinationPath,
    string value.spelling, writeEnum IncludeDirectiveKind.underlying value.directive,
    i64 value.line, i64 value.col, i64 value.beginOffset, i64 value.endOffset,
    string value.conditionalFingerprint, boolean value.isAngled, boolean value.resolved,
    boolean value.isSystem, boolean value.guarded].flatten

/-- `write_macro`. -/
def writeMacro (value : MacroUseRecord) : Bytes :=
  [writePartitionKey value.partition, writeFileIdentity value.source,
    optional writeFileIdentity value.definition, string value.definitionPath, string value.name,
    i64 value.count].flatten

/-- `write_diagnostic`. -/
def writeDiagnostic (value : DiagnosticFactRecord) : Bytes :=
  [writePartitionKey value.partition, writeEnum DiagnosticSeverity.underlying value.severity,
    string value.spelling, optional writeFileIdentity value.locationFile, optional i64 value.line,
    optional i64 value.col].flatten

/-- `write_evidence`. -/
def writeEvidence (value : EvidenceRecord) : Bytes :=
  [string value.producer, string value.construct, string value.file, i64 value.line, i64 value.col,
    writeEnum FactCompleteness.underlying value.completeness,
    writeEnum FactTrust.underlying value.trust, string value.detail].flatten

/-- `write_presentation`. -/
def writePresentation (value : PresentationIntent) : Bytes :=
  [i64 value.symbolId, vector string value.displayArgs].flatten

/-- `write_cleanup`. -/
def writeCleanup (value : LifecycleCleanupIntent) : Bytes :=
  [writePartitionKey value.partition, writeEnum LifecycleCleanupKind.underlying value.kind,
    writeFileIdentity value.target, string value.priorGeneration].flatten

/-- `write_applicability`. -/
def writeApplicability (value : ApplicabilityOwnershipRecord) : Bytes :=
  [writePartitionKey value.partition, writeFileIdentity value.file,
    writeEnum ApplicabilityRole.underlying value.role,
    writeEnum ApplicabilityState.underlying value.state, optional string value.reason,
    string value.generation].flatten

/-- `write_symbol_order`. -/
def writeSymbolOrder (value : SymbolEmissionMetadata) : Bytes :=
  [writeSymbolKey value.symbol, writeApplyOrder value.applyOrder, string value.recordKey,
    u64 value.firstSeen, u64 value.lastSeen].flatten

end BinaryWriter

/-! ## Reading -/

/-- What is left of the payload, and the entries read so far. -/
structure FactBatchArtifactInput where
  limits : FactBatchArtifactDecodeLimits
  payload : Bytes
  totalEntries : UInt64

namespace FactBatchArtifactInput

abbrev Read := Reader FactBatchArtifactInput FactBatchArtifactError

/-- `fail`. -/
def fail {α : Type} (code : FactBatchArtifactErrorCode) (message : String) : Read α :=
  fun _ => .error { code, message }

/-- `read_exact`. -/
def readExact (size : ℕ) : Read Bytes := fun input =>
  if size > input.payload.length then
    .error { code := .truncated, message := "FactBatch artifact ended inside a declared field" }
  else .ok (input.payload.take size, { input with payload := input.payload.drop size })

def u8 : Read UInt8 := do
  let bytes ← readExact 1
  return UInt8.ofNat (value bytes)

def u32 : Read UInt32 := do
  let bytes ← readExact 4
  return UInt32.ofNat (value bytes)

def u64 : Read UInt64 := do
  let bytes ← readExact 8
  return UInt64.ofNat (value bytes)

def i64 : Read Int64 := do
  let value ← u64
  return value.toInt64

def boolean : Read Bool := do
  let value ← u8
  if value > 1 then fail .corrupt "FactBatch artifact contains a non-boolean value"
  else return value == 1

/-- What `string` reads behind the length. -/
def text (length : UInt64) : Read Bytes := fun input =>
  if length > input.limits.maxStringBytes then
    .error { code := .limitExceeded
             message := "FactBatch artifact string exceeds the configured limit" }
  else if length.toNat > input.payload.length then
    .error { code := .truncated
             message := "FactBatch artifact string exceeds its remaining payload" }
  else readExact length.toNat input

def string : Read Bytes := do
  let length ← u64
  text length

/-- The checks of `count` on the number read. -/
def checked (value : UInt64) : Read UInt64 := fun input =>
  if value > input.limits.maxCollectionEntries ∨
      value > input.limits.maxTotalEntries - input.totalEntries then
    .error { code := .limitExceeded
             message := "FactBatch artifact collection exceeds the configured limit" }
  else if value.toNat > input.payload.length then
    .error { code := .truncated
             message := "FactBatch artifact collection exceeds its remaining payload" }
  else .ok (value, { input with totalEntries := input.totalEntries + value })

def count : Read UInt64 := do
  let value ← u64
  checked value

def optional {α : Type} (read : Read α) : Read (Option α) := Codec.optional boolean read

def vector {α : Type} (read : Read α) : Read (List α) := do
  let length ← count
  Codec.times read length.toNat

/-- `read_enum`, of the enumerators from the least to the greatest. -/
def readEnum {α : Type} (enumerators : List α) (minimum maximum : ℕ) (name : String) : Read α := do
  let value ← u8
  if value.toNat < minimum ∨ value.toNat > maximum then
    fail .corrupt ("FactBatch artifact contains an invalid " ++ name)
  else
    match enumerators[value.toNat - minimum]? with
    | some enumerator => return enumerator
    | none => fail .corrupt ("FactBatch artifact contains an invalid " ++ name)

/-- The kind of a symbol, read and checked by `read_symbol_location`. -/
def readSymbolKind : Read Int32 := do
  let kind ← i64
  if kind < Int32.minValue.toInt64 ∨ kind > Int32.maxValue.toInt64 then
    fail .corrupt "FactBatch symbol kind is outside the supported integer range"
  else return kind.toInt32

/-- `read_file_identity`. -/
def readFileIdentity : Read PortableFileIdentity := do
  let componentPath ← string
  let directoryPath ← string
  let fileName ← string
  return { componentPath, directoryPath, fileName }

/-- `read_configuration_content`. -/
def readConfigurationContent : Read PortableConfigurationContent := do
  let driver ← optional string
  let workingDir ← optional string
  let arguments ← vector string
  let langMode ← optional string
  let resourceDir ← optional string
  return { driver, workingDir, arguments, langMode, resourceDir }

/-- `read_configuration_identity`. -/
def readConfigurationIdentity : Read ConfigurationIdentity := do
  let semanticUniverse ← string
  let translationUnit ← string
  let normalizedConfiguration ← string
  let identitySource ← string
  let content ← readConfigurationContent
  return { semanticUniverse, translationUnit, normalizedConfiguration, identitySource, content }

/-- `read_partition_key`. -/
def readPartitionKey : Read FactPartitionKey := do
  let file ← readFileIdentity
  let configuration ← readConfigurationIdentity
  return { file, configuration }

/-- `read_symbol_key`. -/
def readSymbolKey : Read SymbolNaturalKey := do
  let partition ← readPartitionKey
  let usr ← string
  let localAnchor ← optional string
  let linkage ← optional string
  return { partition, usr, localAnchor, linkage }

/-- `read_apply_order`. -/
def readApplyOrder : Read LegacyApplyOrderKey := do
  let componentPath ← string
  let directoryPath ← string
  let fileName ← string
  let firstSeen ← u64
  let conflictOrdinal ← u64
  return { componentPath, directoryPath, fileName, firstSeen, conflictOrdinal }

/-- `read_symbol_record`. -/
def readSymbolRecord : Read SymbolRecord := do
  let file ← string
  let usr ← string
  let spelling ← string
  let kind ← readSymbolKind
  let qualName ← optional string
  let displayName ← optional string
  let typeInfo ← optional string
  let line ← i64
  let col ← i64
  let endLine ← i64
  let endCol ← i64
  let declLine ← optional i64
  let declCol ← optional i64
  let declPath ← optional string
  let isDefinition ← boolean
  let isPure ← boolean
  let isStatic ← boolean
  let isInstantiation ← boolean
  let isNamedInstance ← boolean
  let callableKind ← optional string
  let templateOrigin ← optional string
  let templateForm ← optional string
  let linkage ← optional string
  let access ← optional string
  let parentUsr ← optional string
  let constValue ← optional string
  let resolved ← boolean
  let semanticUniverse ← string
  let normalizedConfiguration ← string
  let identitySource ← optional string
  let identityTranslationUnit ← optional string
  let localAnchor ← optional string
  let kindName ← string
  return {
    file, usr, spelling, kind, qualName, displayName, typeInfo, line, col, endLine, endCol,
    declLine, declCol, declPath, isDefinition, isPure, isStatic, isInstantiation, isNamedInstance,
    callableKind, templateOrigin, templateForm, linkage, access, parentUsr, constValue, resolved,
    semanticUniverse, normalizedConfiguration, identitySource, identityTranslationUnit,
    localAnchor, kindName }

/-- `read_edge`. -/
def readEdge : Read EdgeRecord := do
  let srcId ← i64
  let dstId ← i64
  let kind ← i64
  let count ← i64
  let baseAccess ← optional i64
  let isVirtual ← optional i64
  return { srcId, dstId, kind, count, baseAccess, isVirtual }

/-- `read_edge_site`. -/
def readEdgeSite : Read EdgeSiteRecord := do
  let edgeId ← i64
  let fileId ← i64
  let line ← i64
  let col ← i64
  let conditional ← i64
  let recvSrcKind ← optional string
  let recvTypeUsr ← optional string
  let recvDeclUsr ← optional string
  let recvParamPos ← optional i64
  let recvTypeIsValue ← optional i64
  return {
    edgeId, fileId, line, col, conditional, recvSrcKind, recvTypeUsr, recvDeclUsr, recvParamPos,
    recvTypeIsValue }

/-- `read_call_arg`. -/
def readCallArg : Read CallArgRecord := do
  let edgeId ← i64
  let fileId ← i64
  let line ← i64
  let col ← i64
  let position ← i64
  let srcKind ← string
  let typeUsr ← optional string
  let declUsr ← optional string
  let calleeUsr ← optional string
  let typeIsValue ← optional i64
  return { edgeId, fileId, line, col, position, srcKind, typeUsr, declUsr, calleeUsr, typeIsValue }

/-- `read_template_param`. -/
def readTemplateParam : Read TemplateParamRecord := do
  let ownerId ← i64
  let position ← i64
  let paramKind ← i64
  let name ← optional string
  let defaultTxt ← optional string
  let typeId ← optional i64
  let defaultTypeId ← optional i64
  let defaultRefId ← optional i64
  return { ownerId, position, paramKind, name, defaultTxt, typeId, defaultTypeId, defaultRefId }

/-- `read_template_arg`. -/
def readTemplateArg : Read TemplateArgRecord := do
  let ownerId ← i64
  let position ← i64
  let packIndex ← i64
  let argKind ← i64
  let refId ← optional i64
  let literal ← optional string
  let typeId ← optional i64
  return { ownerId, position, packIndex, argKind, refId, literal, typeId }

/-- `read_type_node`. -/
def readTypeNode : Read TypeNodeRecord := do
  let typeKey ← string
  let spelling ← string
  let kind ← i64
  let isConst ← boolean
  let isVolatile ← boolean
  let isRestrict ← boolean
  let declUsr ← optional string
  let canonicalId ← optional i64
  let extent ← optional string
  return { typeKey, spelling, kind, isConst, isVolatile, isRestrict, declUsr, canonicalId, extent }

/-- `read_type_edge`. -/
def readTypeEdge : Read TypeEdgeRecord := do
  let srcId ← i64
  let kind ← i64
  let position ← i64
  let dstId ← i64
  return { srcId, kind, position, dstId }

/-- `read_parameter`. -/
def readParameter : Read ParameterRecord := do
  let position ← i64
  let packIndex ← i64
  let name ← optional string
  let typeId ← optional i64
  let declaredTypeId ← optional i64
  let adjustedTypeId ← optional i64
  let defaultText ← optional string
  let defaultOrigin ← optional string
  let referenceSemantics ← optional string
  let fileId ← optional i64
  let line ← optional i64
  let col ← optional i64
  return {
    position, packIndex, name, typeId, declaredTypeId, adjustedTypeId, defaultText, defaultOrigin,
    referenceSemantics, fileId, line, col }

/-- `read_parameter_fact`. -/
def readParameterFact : Read ParameterFactRecord := do
  let ownerId ← i64
  let parameter ← readParameter
  return { ownerId, parameter }

/-- `read_symbol_type`. -/
def readSymbolType : Read SymbolTypeRecord := do
  let symbolId ← i64
  let kind ← i64
  let typeId ← i64
  return { symbolId, kind, typeId }

/-- `read_definition`. -/
def readDefinition : Read DefinitionFactRecord := do
  let id ← i64
  let symbolId ← i64
  let fileId ← i64
  let line ← i64
  let col ← i64
  let endLine ← i64
  let endCol ← i64
  let initText ← optional string
  return { id, symbolId, fileId, line, col, endLine, endCol, initText }

/-- `read_definition_edge`. -/
def readDefinitionEdge : Read DefinitionEdgeRecord := do
  let definitionId ← i64
  let destinationId ← i64
  let kind ← i64
  return { definitionId, destinationId, kind }

/-- `read_declaration_site`. -/
def readDeclarationSite : Read DeclarationSiteRecord := do
  let symbol ← readSymbolKey
  let partition ← readPartitionKey
  let line ← i64
  let col ← i64
  let endLine ← i64
  let endCol ← i64
  let isDefinition ← boolean
  return { symbol, partition, line, col, endLine, endCol, isDefinition }

/-- `read_include`. -/
def readInclude : Read IncludeDirectiveRecord := do
  let partition ← readPartitionKey
  let source ← readFileIdentity
  let destination ← optional readFileIdentity
  let destinationPath ← string
  let spelling ← string
  let directive ← readEnum IncludeDirectiveKind.all 1 5 "include directive kind"
  let line ← i64
  let col ← i64
  let beginOffset ← i64
  let endOffset ← i64
  let conditionalFingerprint ← string
  let isAngled ← boolean
  let resolved ← boolean
  let isSystem ← boolean
  let guarded ← boolean
  return {
    partition, source, destination, destinationPath, spelling, directive, line, col, beginOffset,
    endOffset, conditionalFingerprint, isAngled, resolved, isSystem, guarded }

/-- `read_macro`. -/
def readMacro : Read MacroUseRecord := do
  let partition ← readPartitionKey
  let source ← readFileIdentity
  let definition ← optional readFileIdentity
  let definitionPath ← string
  let name ← string
  let count ← i64
  return { partition, source, definition, definitionPath, name, count }

/-- `read_diagnostic`. -/
def readDiagnostic : Read DiagnosticFactRecord := do
  let partition ← readPartitionKey
  let severity ← readEnum DiagnosticSeverity.all 0 3 "diagnostic severity"
  let spelling ← string
  let locationFile ← optional readFileIdentity
  let line ← optional i64
  let col ← optional i64
  return { partition, severity, spelling, locationFile, line, col }

/-- `read_evidence`. -/
def readEvidence : Read EvidenceRecord := do
  let producer ← string
  let construct ← string
  let file ← string
  let line ← i64
  let col ← i64
  let completeness ← readEnum FactCompleteness.all 0 3 "fact completeness"
  let trust ← readEnum FactTrust.all 0 2 "fact trust"
  let detail ← string
  return { producer, construct, file, line, col, completeness, trust, detail }

/-- `read_presentation`. -/
def readPresentation : Read PresentationIntent := do
  let symbolId ← i64
  let displayArgs ← vector string
  return { symbolId, displayArgs }

/-- `read_cleanup`. -/
def readCleanup : Read LifecycleCleanupIntent := do
  let partition ← readPartitionKey
  let kind ← readEnum LifecycleCleanupKind.all 0 4 "cleanup kind"
  let target ← readFileIdentity
  let priorGeneration ← string
  return { partition, kind, target, priorGeneration }

/-- `read_applicability`. -/
def readApplicability : Read ApplicabilityOwnershipRecord := do
  let partition ← readPartitionKey
  let file ← readFileIdentity
  let role ← readEnum ApplicabilityRole.all 0 1 "applicability role"
  let state ← readEnum ApplicabilityState.all 0 4 "applicability state"
  let reason ← optional string
  let generation ← string
  return { partition, file, role, state, reason, generation }

/-- `read_symbol_order`. -/
def readSymbolOrder : Read SymbolEmissionMetadata := do
  let symbol ← readSymbolKey
  let applyOrder ← readApplyOrder
  let recordKey ← string
  let firstSeen ← u64
  let lastSeen ← u64
  return { symbol, applyOrder, recordKey, firstSeen, lastSeen }

end FactBatchArtifactInput

end CppIndexer.Ast
