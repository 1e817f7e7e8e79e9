/-
# The fact batch recorder

Extraction reports its facts to a recorder, one call at a time.  The recorder
routes every fact to a partition, gives identities their handles, and at the end
builds a batch of what it was told, either in the order of the calls or
canonically.

Calls can throw, and what was done before that stays done, so a call is a
computation that keeps the recorder beside its outcome.  `Disk` says which
operations of the disk fail.  The candidate indexes, the display names and the
counters of the source answer calls that change nothing and are left out, as are
those calls.
-/

import CppIndexer.Ast.FactBatch
import CppIndexer.Ast.IdentityHandles
import CppIndexer.Ast.SpillableFactBuffer
import CppIndexer.Lib.SortUnique

namespace CppIndexer.Ast

open Util (Bytes ascii)
open Util.Json (decimal decimalNat)
open SortUnique

/-! ## What is passed to the recorder -/

structure MintRequest where
  usr : Bytes
  spelling : Bytes
  qualName : Bytes
  displayName : Bytes
  typeInfo : Option Bytes
  kindName : Bytes
  declFileId : Option Int64
  declLine : Option Int64
  declCol : Option Int64
  declPath : Option Bytes
  isInstantiation : Bool
  isNamedInstance : Bool
  identitySource : Option Bytes
  linkage : Option Bytes
  callableKind : Option Bytes
  templateOrigin : Option Bytes
  templateForm : Option Bytes
  parentUsr : Option Bytes

structure ExtractionFactLimits where
  spillThresholdBytes : UInt64
  maxTotalBytes : UInt64
  maxResidentIdentityBytes : UInt64
  maxIdentityEntries : UInt64

structure DeferredExternalIdentity where
  enabled : Bool
  translationUnitPath : Bytes

/-- `cidx_kind_int_from_name`. -/
def cidxKindIntFromName (name : Bytes) : Int32 :=
  ([(2, "struct"), (3, "union"), (4, "class"), (5, "enum"), (6, "member"), (7, "enum-constant"),
    (8, "function"), (9, "variable"), (20, "typedef"), (21, "method"), (22, "namespace"),
    (24, "constructor"), (25, "destructor"), (30, "function-template"), (31, "class-template"),
    (36, "type-alias")].find? fun kind : Int32 × String => name = ascii kind.2).elim (-1) Prod.fst

/-! ## Keys -/

/-- The separator `'\x1e'`. -/
def record : Bytes := [30]

/-- The separator `'\n'`. -/
def newline : Bytes := [10]

variable (path : Bytes) (configuration : ConfigurationIdentity)

/-- `file_path_identity_key`. -/
def filePathIdentityKey : Bytes :=
  [ascii "path:", path, record, configuration.semanticUniverse, record,
    configuration.translationUnit, record, configuration.normalizedConfiguration, record,
    configuration.identitySource].flatten

/-- `file_source_identity_key`. -/
def fileSourceIdentityKey : Bytes :=
  ascii "path-source:" ++ path ++ record ++ configuration.identitySource

/-- `file_unscoped_identity_key`. -/
def fileUnscopedIdentityKey : Bytes := ascii "path:" ++ path

/-- `source_lookup_key`. -/
def sourceLookupKey (partition : FactPartitionKey) (source usr : Bytes) : Bytes :=
  partition.configuration.semanticUniverse ++ newline ++
    partition.configuration.translationUnit ++ newline ++ source ++ newline ++ usr

/-- `scope_lookup_key`. -/
def scopeLookupKey (partition : FactPartitionKey) (usr : Bytes) : Bytes :=
  partition.configuration.semanticUniverse ++ newline ++
    partition.configuration.translationUnit ++ newline ++ usr

/-- `edge_key`. -/
def edgeKey (edge : EdgeRecord) : Bytes :=
  [toText edge.srcId, colon, toText edge.dstId, colon, toText edge.kind, colon,
    optionalInt edge.baseAccess, colon, optionalInt edge.isVirtual].flatten

/-- `PendingSymbolReference::stable_string`. -/
def PendingSymbolReference.stableString (reference : PendingSymbolReference) : Bytes :=
  reference.semanticUniverse ++ unit ++ reference.translationUnit ++ unit ++
    reference.identitySource ++ unit ++ reference.usr

/-- `file_identity_from_path`. -/
def fileIdentityFromPath (path componentPath : Bytes) : PortableFileIdentity :=
  let isSeparator (c : UInt8) : Bool := c = 47 ∨ c = 92
  let withinComponent : Bool := componentPath ≠ [] ∧ path.length > componentPath.length ∧
    path.take componentPath.length = componentPath ∧
    (path[componentPath.length]?).any isSeparator
  let relative := if withinComponent then path.drop (componentPath.length + 1) else path
  let file := (relative.reverse.takeWhile fun c => !isSeparator c).reverse
  { componentPath := if withinComponent then componentPath else []
    directoryPath := relative.take (relative.length - file.length - 1)
    fileName := file }

/-! ## The recorder -/

structure RoutedRecord (α : Type) where
  partition : FactPartitionKey
  record : α

/-- `FactBatchRecorder`. -/
structure FactBatchRecorder where
  producer : Bytes
  completeness : FactCompleteness
  currentPartition : FactPartitionKey
  partitionsByFileHandle : SortedMap Int64 FactPartitionKey
  symbols : List (RoutedRecord SymbolRecord)
  declarationSites : List (RoutedRecord DeclarationSiteRecord)
  relations : List (RoutedRecord EdgeRecord)
  edgeSites : List (RoutedRecord EdgeSiteRecord)
  callArgs : List (RoutedRecord CallArgRecord)
  templateParams : List (RoutedRecord TemplateParamRecord)
  templateArgs : List (RoutedRecord TemplateArgRecord)
  typeNodes : List (RoutedRecord TypeNodeRecord)
  typeEdges : List (RoutedRecord TypeEdgeRecord)
  parameterBuckets : SortedMap Int64 (FactPartitionKey × List ParameterRecord)
  symbolTypes : List (RoutedRecord SymbolTypeRecord)
  definitions : List (RoutedRecord DefinitionFactRecord)
  definitionEdges : List (RoutedRecord DefinitionEdgeRecord)
  includes : List (RoutedRecord IncludeDirectiveRecord)
  macros : List (RoutedRecord MacroUseRecord)
  diagnostics : List (RoutedRecord DiagnosticFactRecord)
  evidence : List (RoutedRecord EvidenceRecord)
  presentationIntents : List (RoutedRecord PresentationIntent)
  lifecycleCleanup : List (RoutedRecord LifecycleCleanupIntent)
  applicability : List (RoutedRecord ApplicabilityOwnershipRecord)
  symbolOrder : List SymbolEmissionMetadata
  deferredExternalIdentity : DeferredExternalIdentity
  pendingSymbolReferences : List PendingSymbolReference
  externalIdsByKey : AssocMap Bytes Int64
  symbolIdsBySourceUsr : AssocMap Bytes Int64
  symbolIdsByScopeUsr : AssocMap Bytes (List Int64)
  symbolPositionsById : AssocMap Int64 (List ℕ)
  edgePositionsByKey : AssocMap Bytes ℕ
  bodyEdgePositionsBySource : AssocMap Int64 (List ℕ)
  definitionIdsByKey : AssocMap Bytes Int64
  definitionPartitionsById : AssocMap Int64 FactPartitionKey
  nextEmissionOrder : UInt64
  identities : IdentityRecorder
  factPayload : SpillableFactBuffer

inductive FactBatchError where
  | identity (error : RecorderError)
  | payload (error : FactBufferError)
  | ambiguousUsr (usr : Bytes)
  | mintNotIndexed

/-- What fails when the identity index writes a run, and when the payload writes
a segment. -/
structure Disk where
  index : ℕ → DiskFault
  payload : ℕ → Bool

def emptyPartition : FactPartitionKey where
  file := { componentPath := [], directoryPath := [], fileName := [] }
  configuration :=
    { semanticUniverse := [], translationUnit := [], normalizedConfiguration := []
      identitySource := []
      content := { driver := none, workingDir := none, arguments := [], langMode := none
                   resourceDir := none } }

namespace FactBatchRecorder

/-- `kSpillThreshold` and the other defaults of `ExtractionFactLimits`. -/
def defaultLimits : ExtractionFactLimits where
  spillThresholdBytes := 64 * 1024 * 1024
  maxTotalBytes := 512 * 1024 * 1024
  maxResidentIdentityBytes := 32 * 1024 * 1024
  maxIdentityEntries := 1000000

variable (limits : ExtractionFactLimits)

def identityOptions : SpillableIdentityIndexOptions where
  maxResidentIdentityBytes := limits.maxResidentIdentityBytes
  maxIdentityEntries := limits.maxIdentityEntries
  maxIdentityRuns := 8
  maxTotalBytes := limits.maxTotalBytes

def payloadOptions : SpillableFactBufferOptions where
  family := .symbols
  spillThresholdBytes := limits.spillThresholdBytes
  maxTotalBytes := limits.maxTotalBytes

def create (producer : Bytes) (primaryHasher : Bytes → UInt64) : FactBatchRecorder where
  producer := producer
  completeness := .complete
  currentPartition := emptyPartition
  partitionsByFileHandle := .empty
  symbols := []
  declarationSites := []
  relations := []
  edgeSites := []
  callArgs := []
  templateParams := []
  templateArgs := []
  typeNodes := []
  typeEdges := []
  parameterBuckets := .empty
  symbolTypes := []
  definitions := []
  definitionEdges := []
  includes := []
  macros := []
  diagnostics := []
  evidence := []
  presentationIntents := []
  lifecycleCleanup := []
  applicability := []
  symbolOrder := []
  deferredExternalIdentity := { enabled := false, translationUnitPath := [] }
  pendingSymbolReferences := []
  externalIdsByKey := .empty
  symbolIdsBySourceUsr := .empty
  symbolIdsByScopeUsr := .empty
  symbolPositionsById := .empty
  edgePositionsByKey := .empty
  bodyEdgePositionsBySource := .empty
  definitionIdsByKey := .empty
  definitionPartitionsById := .empty
  nextEmissionOrder := 0
  identities := .create primaryHasher (identityOptions defaultLimits)
  factPayload := .create (payloadOptions defaultLimits)

abbrev Record := ExceptT FactBatchError (StateM FactBatchRecorder)

variable (disk : Disk)

/-! ## Identities -/

variable (kind : FactIdentityKind) (key : Bytes)

/-- `lookup_identity`. -/
def lookupIdentity : Record (Option Int64) :=
  fun recorder =>
    let (result, identities) := recorder.identities.lookupIdentity (toLex (kind, key))
    (result.mapError FactBatchError.identity, { recorder with identities := identities })

/-- `identity_handle`. -/
def identityHandle : Record Int64 := fun recorder =>
  let (result, identities) := recorder.identities.identityHandle disk.index (toLex (kind, key))
  (result.mapError FactBatchError.identity, { recorder with identities := identities })

/-- `bind_identity`. -/
def bindIdentity (handle : Int64) : Record Unit :=
  fun recorder =>
    let (result, identities) :=
      recorder.identities.bindIdentity disk.index (toLex (kind, key)) handle
    (result.mapError FactBatchError.identity, { recorder with identities := identities })

variable (symbol : SymbolRecord)

/-- `append` of the payload. -/
def appendPayload : Record Unit := fun recorder =>
  let (result, payload) := recorder.factPayload.append disk.payload symbol
  ((result.mapError FactBatchError.payload).map fun _ => (),
    { recorder with factPayload := payload })

/-- `set_extraction_limits`. -/
def setExtractionLimits : Record Unit :=
  modify fun recorder =>
    { recorder with
      identities := .create recorder.identities.primaryHasher (identityOptions limits)
      factPayload := .create (payloadOptions limits) }

/-- `set_completeness`. -/
def setCompleteness (completeness : FactCompleteness) : Record Unit :=
  modify fun recorder => { recorder with completeness }

/-- `set_deferred_external_identity`. -/
def setDeferredExternalIdentity (deferral : DeferredExternalIdentity) : Record Unit :=
  modify fun recorder => { recorder with deferredExternalIdentity := deferral }

/-! ## Partitions -/

/-- `bind_identity`, if the key has no handle. -/
def bindIfUnbound (handle : Int64) : Record Unit := do
  match ← lookupIdentity .file key with
  | some _ => return ()
  | none => bindIdentity disk .file key handle

def bindPath (partition : FactPartitionKey) (handle : Int64) : Record Unit := do
  let path := partition.file.portablePath
  if path ≠ [] then
    bindIdentity disk .file (filePathIdentityKey path partition.configuration) handle
    bindIfUnbound disk (fileSourceIdentityKey path partition.configuration) handle
    bindIfUnbound disk (fileUnscopedIdentityKey path) handle

def setFileHandle (handle : Int64) (partition : FactPartitionKey) : Record Unit :=
  modify fun recorder =>
    { recorder with
      partitionsByFileHandle := recorder.partitionsByFileHandle.insertOrAssign handle partition }

/-- `set_partition`. -/
def setPartition (partition : FactPartitionKey) (transientFileHandle : Option Int64) :
    Record Unit := do
  modify fun recorder => { recorder with currentPartition := partition }
  let naturalHandle ← identityHandle disk .file (ascii "file:" ++ partition.stableString)
  setFileHandle naturalHandle partition
  match transientFileHandle with
  | some handle =>
    setFileHandle handle partition
    bindPath disk partition handle
  | none => bindPath disk partition naturalHandle

variable (recorder : FactBatchRecorder) (fileId : Int64)

/-- `partition_for_file_handle`. -/
def partitionForFileHandle : FactPartitionKey :=
  (recorder.partitionsByFileHandle.find? fileId).getD recorder.currentPartition

/-- The current partition with the identity dimensions of the symbol. -/
def scopedPartition (symbol : SymbolRecord) : FactPartitionKey :=
  let configuration := recorder.currentPartition.configuration
  { recorder.currentPartition with
    configuration :=
      { configuration with
        semanticUniverse :=
          if symbol.semanticUniverse ≠ [] then symbol.semanticUniverse
          else configuration.semanticUniverse
        normalizedConfiguration :=
          if symbol.normalizedConfiguration ≠ [] then symbol.normalizedConfiguration
          else configuration.normalizedConfiguration
        identitySource :=
          match symbol.identitySource with
          | some source => source
          | none =>
            if configuration.identitySource = [] then symbol.file
            else configuration.identitySource
        translationUnit := symbol.identityTranslationUnit.getD configuration.translationUnit } }

/-- `partition_for_symbol`. -/
def partitionForSymbol (symbol : SymbolRecord) : Record FactPartitionKey := do
  let own := (← get).scopedPartition symbol
  if symbol.file ≠ [] ∧ own.file.portablePath ≠ symbol.file then
    match ← lookupIdentity .file (filePathIdentityKey symbol.file own.configuration) with
    | some handle => return (← get).partitionForFileHandle handle
    | none =>
      match ← lookupIdentity .file
          (fileSourceIdentityKey symbol.file own.configuration) with
      | some handle => return (← get).partitionForFileHandle handle
      | none =>
        match ← lookupIdentity .file (fileUnscopedIdentityKey symbol.file) with
        | some handle => return (← get).partitionForFileHandle handle
        | none =>
          return { own with
                   file := fileIdentityFromPath symbol.file own.file.componentPath }
  else return own

/-! ## Symbols -/

/-- `natural_key`. -/
def naturalKey (partition : FactPartitionKey) : SymbolNaturalKey where
  partition := partition
  usr := symbol.usr
  localAnchor := symbol.localAnchor
  linkage := symbol.linkage

/-- The values of a key with one more behind them. -/
def pushed {κ ν : Type} [DecidableEq κ] (m : AssocMap κ (List ν)) (k : κ) (v : ν) :
    AssocMap κ (List ν) :=
  m.insertOrAssign k ((m.find? k).getD [] ++ [v])

/-- The entry that `emit` adds to the emissions. -/
def emission (symbol : SymbolRecord)
    (partition : FactPartitionKey) (id : Int64) : SymbolEmissionMetadata where
  symbol := naturalKey symbol partition
  applyOrder :=
    { componentPath := partition.file.componentPath
      directoryPath := partition.file.directoryPath
      fileName := partition.file.fileName
      firstSeen := recorder.nextEmissionOrder
      conflictOrdinal :=
        UInt64.ofNat ((recorder.symbolPositionsById.find? id).getD []).length }
  recordKey := symbolRecordKey symbol
  firstSeen := recorder.nextEmissionOrder
  lastSeen := recorder.nextEmissionOrder

/-- What `emit` stores once the symbol has its partition and its handle. -/
def store (symbol : SymbolRecord) (partition : FactPartitionKey) (id : Int64) : FactBatchRecorder :=
  let sourceKey := sourceLookupKey partition (symbol.identitySource.getD symbol.file) symbol.usr
  let scopeKey := scopeLookupKey partition symbol.usr
  { recorder with
    symbols := recorder.symbols ++ [{ partition := partition, record := symbol }]
    symbolPositionsById := pushed recorder.symbolPositionsById id recorder.symbols.length
    symbolIdsBySourceUsr :=
      if (recorder.symbolIdsBySourceUsr.find? sourceKey).isSome then
        recorder.symbolIdsBySourceUsr
      else recorder.symbolIdsBySourceUsr.insertOrAssign sourceKey id
    symbolIdsByScopeUsr :=
      recorder.symbolIdsByScopeUsr.insertOrAssign scopeKey
        (((recorder.symbolIdsByScopeUsr.find? scopeKey).getD []).insert id)
    nextEmissionOrder := recorder.nextEmissionOrder + 1
    symbolOrder := recorder.symbolOrder ++ [recorder.emission symbol partition id] }

/-- `emit(SymbolRecord)`. -/
def emitSymbol (symbol : SymbolRecord) : Record Unit := do
  let partition ← partitionForSymbol symbol
  let id ← identityHandle disk .symbol
    (ascii "symbol:" ++ (naturalKey symbol partition).stableString)
  appendPayload disk symbol
  modify fun recorder => recorder.store symbol partition id

variable (usr : Bytes)

/-- `source_independent_symbol_id`. -/
def sourceIndependentSymbolId : Option Int64 :=
  match recorder.symbolIdsByScopeUsr.find? (scopeLookupKey recorder.currentPartition usr) with
  | some [candidate] =>
    match recorder.symbolPositionsById.find? candidate with
    | some (first :: _) =>
      match recorder.symbols[first]? with
      | some symbol => if isLocal symbol.record.linkage then none else some candidate
      | none => none
    | _ => none
  | _ => none

/-- `local_lookup` of `resolve_symbol_id`. -/
def localLookup : Option Bytes → Except FactBatchError (Option Int64)
  | some source =>
    match recorder.symbolIdsBySourceUsr.find?
        (sourceLookupKey recorder.currentPartition source usr) with
    | some id => .ok (some id)
    | none => .ok (recorder.sourceIndependentSymbolId usr)
  | none =>
    match recorder.symbolIdsByScopeUsr.find? (scopeLookupKey recorder.currentPartition usr) with
    | none => .ok none
    | some [] => .ok none
    | some [id] => .ok (some id)
    | some _ => .error (.ambiguousUsr usr)

/-- The reference that `defer_external_symbol` asks about. -/
def externalReference (source : Option Bytes) : PendingSymbolReference where
  handle := 0
  usr := usr
  identitySource := source.getD []
  semanticUniverse := recorder.currentPartition.configuration.semanticUniverse
  translationUnit := recorder.currentPartition.configuration.translationUnit

/-- `defer_external_symbol`. -/
def deferExternalSymbol (source : Option Bytes) : Record (Option Int64) := do
  let recorder ← get
  if recorder.deferredExternalIdentity.enabled = false then return none
  else if source = some recorder.deferredExternalIdentity.translationUnitPath then return none
  else
    let reference := recorder.externalReference usr source
    let key := reference.stableString
    match recorder.externalIdsByKey.find? key with
    | some id => return some id
    | none =>
      let handle ← identityHandle disk .symbol (ascii "external:" ++ key)
      modify fun recorder =>
        { recorder with
          externalIdsByKey := recorder.externalIdsByKey.insertOrAssign key handle
          pendingSymbolReferences := recorder.pendingSymbolReferences ++
            [{ reference with handle }] }
      return some handle

/-- `resolve_symbol_id`. -/
def resolveSymbolId (identitySource : Option Bytes) (allowDeferral : Bool) :
    Record (Option Int64) := do
  let source := identitySource.filter fun source => source ≠ []
  match ← (← get).localLookup usr source with
  | some id => return some id
  | none => if allowDeferral then deferExternalSymbol disk usr source else return none

/-- `lookup_symbol_id`. -/
def lookupSymbolId (identitySource : Option Bytes) : Record (Option Int64) :=
  resolveSymbolId disk usr identitySource true

/-! ## Minting -/

/-- `merge_mint_enrichment`. -/
def mergeMintEnrichment (request : MintRequest) : SymbolRecord :=
  let named (text : Bytes) : Option Bytes := if text = [] then none else some text
  { symbol with
    qualName := symbol.qualName <|> named request.qualName
    displayName := symbol.displayName <|> named request.displayName
    typeInfo := symbol.typeInfo <|> request.typeInfo
    callableKind := symbol.callableKind <|> request.callableKind
    templateOrigin := symbol.templateOrigin <|> request.templateOrigin
    templateForm := symbol.templateForm <|> request.templateForm
    linkage := symbol.linkage <|> request.linkage
    parentUsr := symbol.parentUsr <|> request.parentUsr
    declPath := symbol.declPath <|> request.declPath
    isInstantiation := symbol.isInstantiation || request.isInstantiation
    isNamedInstance := symbol.isNamedInstance || request.isNamedInstance }

variable (request : MintRequest)

/-- `mint_identity_source`. -/
def mintIdentitySource : Option Bytes :=
  (match request.identitySource.filter fun source => source ≠ [] with
    | some source => some source
    | none => request.declPath).filter fun source => source ≠ []

/-- A symbol changed where it stands, and the key of its emission with it. -/
def changeSymbol (position : ℕ) (change : SymbolRecord → SymbolRecord) : FactBatchRecorder :=
  match recorder.symbols[position]? with
  | none => recorder
  | some routed =>
    let changed := change routed.record
    { recorder with
      symbols := recorder.symbols.set position { routed with record := changed }
      symbolOrder := recorder.symbolOrder.modify position fun entry =>
        { entry with recordKey := symbolRecordKey changed } }

/-- The file of a mint's declaration, or no text. -/
def declarationFile : Bytes :=
  match request.declFileId with
  | some id => (recorder.partitionForFileHandle id).file.portablePath
  | none => []

/-- `add_mint_declaration`. -/
def addMintDeclaration (positions : List ℕ) (request : MintRequest) : Record Unit := do
  let recorder ← get
  let symbolAt (position : ℕ) := recorder.symbols[position]?.map RoutedRecord.record
  if request.declLine = none ∨ positions = [] ∨ positions.any fun position =>
      (symbolAt position).any fun symbol => symbol.declLine.isSome then return ()
  else
    let file := recorder.declarationFile request
    let isHere (position : ℕ) : Bool := (symbolAt position).any fun symbol =>
      symbol.line > 0 ∧ (file = [] ∨ symbol.file = file)
    match positions.find? isHere with
    | some position =>
      modify fun recorder => recorder.changeSymbol position fun symbol =>
        { symbol with declLine := request.declLine, declCol := request.declCol }
    | none =>
      match positions.head?.bind symbolAt with
      | none => return ()
      | some symbol =>
        emitSymbol disk
          { symbol with
            file := if file ≠ [] then file else symbol.file
            line := 0, col := 0, endLine := 0, endCol := 0
            declLine := request.declLine, declCol := request.declCol
            isDefinition := false, resolved := false }

/-- `enrich_minted_symbol`. -/
def enrichMintedSymbol (id : Int64) (request : MintRequest) : Record Unit := do
  match (← get).symbolPositionsById.find? id with
  | none => return ()
  | some positions =>
    modify fun recorder => positions.foldl (fun recorder position =>
      recorder.changeSymbol position fun symbol => mergeMintEnrichment symbol request) recorder
    addMintDeclaration disk positions request

/-- The record of `create_minted_symbol`. -/
def mintedSymbol (source : Option Bytes) : SymbolRecord :=
  { SymbolRecord.named request.usr with
    file :=
      match request.declFileId with
      | some id => (recorder.partitionForFileHandle id).file.portablePath
      | none => recorder.currentPartition.file.portablePath
    spelling := request.spelling
    kind := cidxKindIntFromName request.kindName
    qualName := some request.qualName
    displayName := some request.displayName
    typeInfo := request.typeInfo
    declLine := request.declLine
    declCol := request.declCol
    declPath := request.declPath
    isInstantiation := request.isInstantiation
    isNamedInstance := request.isNamedInstance
    linkage := request.linkage
    callableKind := request.callableKind
    templateOrigin := request.templateOrigin
    templateForm := request.templateForm
    identitySource := source
    kindName := request.kindName }

/-- `create_minted_symbol`. -/
def createMintedSymbol (source : Option Bytes) : Record Int64 := do
  let recorder ← get
  emitSymbol disk (recorder.mintedSymbol request source)
  match ← resolveSymbolId disk request.usr source false with
  | some id => return id
  | none => throw .mintNotIndexed

/-- `mint_symbol`. -/
def mintSymbol : Record Int64 := do
  let source := mintIdentitySource request
  match ← resolveSymbolId disk request.usr source false with
  | some id =>
    enrichMintedSymbol disk id request
    return id
  | none => createMintedSymbol disk request source

/-! ## Relations -/

/-- `add_edge`. -/
def addEdge (edge : EdgeRecord) : Record Int64 := do
  let recorder ← get
  let natural := recorder.currentPartition.stableString ++ edgeKey edge
  match recorder.edgePositionsByKey.find? natural with
  | some position =>
    modify fun recorder =>
      { recorder with
        relations := recorder.relations.modify position fun routed =>
          { routed with record := { routed.record with
                                    count := routed.record.count + edge.count } } }
    identityHandle disk .relation (ascii "edge:" ++ natural)
  | none =>
    let id ← identityHandle disk .relation (ascii "edge:" ++ natural)
    modify fun recorder =>
      { recorder with
        edgePositionsByKey := recorder.edgePositionsByKey.insertOrAssign natural
          recorder.relations.length
        relations := recorder.relations ++
          [{ partition := recorder.currentPartition, record := edge }]
        bodyEdgePositionsBySource :=
          if edge.kind = 1 ∨ edge.kind = 7 then
            pushed recorder.bodyEdgePositionsBySource edge.srcId recorder.relations.length
          else recorder.bodyEdgePositionsBySource }
    return id

/-- `ensure_edge`. -/
def ensureEdge (edge : EdgeRecord) : Record Int64 := do
  let recorder ← get
  let natural := recorder.currentPartition.stableString ++ edgeKey edge
  if (recorder.edgePositionsByKey.find? natural).isSome then
    identityHandle disk .relation (ascii "edge:" ++ natural)
  else addEdge disk edge

/-- `add_edge_site`. -/
def addEdgeSite (site : EdgeSiteRecord) : Record Unit :=
  modify fun recorder =>
    { recorder with
      edgeSites := recorder.edgeSites ++
        [{ partition := recorder.partitionForFileHandle site.fileId, record := site }] }

/-- `add_call_arg`. -/
def addCallArg (arg : CallArgRecord) : Record Unit :=
  modify fun recorder =>
    { recorder with
      callArgs := recorder.callArgs ++
        [{ partition := recorder.partitionForFileHandle arg.fileId, record := arg }] }

/-- `add_template_param`. -/
def addTemplateParam (param : TemplateParamRecord) : Record Unit :=
  modify fun recorder =>
    { recorder with
      templateParams := recorder.templateParams ++
        [{ partition := recorder.currentPartition, record := param }] }

/-- `add_template_arg`. -/
def addTemplateArg (arg : TemplateArgRecord) : Record Unit :=
  modify fun recorder =>
    { recorder with
      templateArgs := recorder.templateArgs ++
        [{ partition := recorder.currentPartition, record := arg }] }

/-! ## Types -/

/-- `intern_type_node`. -/
def internTypeNode (node : TypeNodeRecord) : Record Int64 := do
  let key : TypeNaturalKey := { partition := (← get).currentPartition, typeKey := node.typeKey }
  let stable := ascii "type:" ++ key.stableString
  match ← lookupIdentity .type stable with
  | some id => return id
  | none =>
    let id ← identityHandle disk .type stable
    modify fun recorder =>
      { recorder with
        typeNodes := recorder.typeNodes ++
          [{ partition := recorder.currentPartition, record := node }] }
    return id

/-- `add_type_edge`. -/
def addTypeEdge (edge : TypeEdgeRecord) : Record Unit :=
  modify fun recorder =>
    { recorder with
      typeEdges := recorder.typeEdges ++
        [{ partition := recorder.currentPartition, record := edge }] }

/-- `replace_parameters`. -/
def replaceParameters (ownerId : Int64) (parameters : List ParameterRecord) : Record Unit :=
  modify fun recorder =>
    { recorder with
      parameterBuckets := recorder.parameterBuckets.insertOrAssign ownerId
        (recorder.currentPartition, parameters) }

/-- `add_symbol_type`. -/
def addSymbolType (symbolType : SymbolTypeRecord) : Record Unit :=
  modify fun recorder =>
    { recorder with
      symbolTypes := recorder.symbolTypes ++
        [{ partition := recorder.currentPartition, record := symbolType }] }

/-! ## Definitions -/

/-- `get_or_create_definition`; the record carries the arguments, its `id` is not
used. -/
def getOrCreateDefinition (definition : DefinitionFactRecord) : Record Int64 := do
  let recorder ← get
  let partition := recorder.partitionForFileHandle definition.fileId
  let natural :=
    [partition.stableString, colon, toText definition.symbolId, colon, toText definition.line,
      colon, toText definition.col, colon, toText definition.endLine, colon,
      toText definition.endCol, colon, optionalString definition.initText].flatten
  match recorder.definitionIdsByKey.find? natural with
  | some id => return id
  | none =>
    let id ← identityHandle disk .definition (ascii "definition:" ++ natural)
    modify fun recorder =>
      { recorder with
        definitionIdsByKey := recorder.definitionIdsByKey.insertOrAssign natural id
        definitionPartitionsById :=
          if (recorder.definitionPartitionsById.find? id).isSome then
            recorder.definitionPartitionsById
          else recorder.definitionPartitionsById.insertOrAssign id partition
        definitions := recorder.definitions ++
          [{ partition := partition, record := { definition with id } }] }
    return id

/-- `add_def_edge`, on the recorder. -/
def withDefEdge (edge : DefinitionEdgeRecord) : FactBatchRecorder :=
  { recorder with
    definitionEdges := recorder.definitionEdges ++
      [{ partition := (recorder.definitionPartitionsById.find? edge.definitionId).getD
           recorder.currentPartition
         record := edge }] }

/-- `add_def_edge`. -/
def addDefEdge (edge : DefinitionEdgeRecord) : Record Unit :=
  modify fun recorder => recorder.withDefEdge edge

/-- `copy_body_edges_to_def_edge`. -/
def copyBodyEdgesToDefEdge (definitionId symbolId : Int64) : Record Unit :=
  modify fun recorder =>
    ((recorder.bodyEdgePositionsBySource.find? symbolId).getD []).foldl
      (fun copied position =>
        match recorder.relations[position]? with
        | none => copied
        | some edge => copied.withDefEdge { definitionId, destinationId := edge.record.dstId
                                            kind := edge.record.kind })
      recorder

/-! ## The remaining calls -/

/-- `emit(EvidenceRecord)`. -/
def emitEvidence (evidence : EvidenceRecord) : Record Unit :=
  modify fun recorder =>
    { recorder with
      evidence := recorder.evidence ++
        [{ partition := recorder.currentPartition, record := evidence }] }

/-- `emit(DeclarationSiteRecord)`. -/
def emitDeclarationSite (site : DeclarationSiteRecord) : Record Unit :=
  modify fun recorder =>
    { recorder with
      declarationSites := recorder.declarationSites ++
        [{ partition := site.partition, record := site }] }

/-- `emit(IncludeDirectiveRecord)`. -/
def emitInclude (directive : IncludeDirectiveRecord) : Record Unit :=
  modify fun recorder =>
    { recorder with
      includes := recorder.includes ++ [{ partition := directive.partition, record := directive }] }

/-- `emit(MacroUseRecord)`. -/
def emitMacro (use : MacroUseRecord) : Record Unit :=
  modify fun recorder =>
    { recorder with
      macros := recorder.macros ++ [{ partition := use.partition, record := use }] }

/-- `emit(DiagnosticFactRecord)`. -/
def emitDiagnostic (diagnostic : DiagnosticFactRecord) : Record Unit :=
  modify fun recorder =>
    { recorder with
      diagnostics := recorder.diagnostics ++
        [{ partition := diagnostic.partition, record := diagnostic }] }

/-- `emit(LifecycleCleanupIntent)`. -/
def emitLifecycleCleanup (intent : LifecycleCleanupIntent) : Record Unit :=
  modify fun recorder =>
    { recorder with
      lifecycleCleanup := recorder.lifecycleCleanup ++
        [{ partition := intent.partition, record := intent }] }

/-- `emit(ApplicabilityOwnershipRecord)`. -/
def emitApplicability (ownership : ApplicabilityOwnershipRecord) : Record Unit :=
  modify fun recorder =>
    { recorder with
      applicability := recorder.applicability ++
        [{ partition := ownership.partition, record := ownership }] }

/-- `emit(PresentationIntent)`. -/
def emitPresentationIntent (intent : PresentationIntent) : Record Unit :=
  modify fun recorder =>
    { recorder with
      presentationIntents := recorder.presentationIntents ++
        [{ partition := recorder.currentPartition, record := intent }] }

/-- `file_id_for_path`. -/
def fileIdForPath : Record (Option Int64) := do
  let configuration := (← get).currentPartition.configuration
  match ← lookupIdentity .file (filePathIdentityKey path configuration) with
  | some handle => return some handle
  | none =>
    match ← lookupIdentity .file (fileSourceIdentityKey path configuration) with
    | some handle => return some handle
    | none => lookupIdentity .file (fileUnscopedIdentityKey path)

/-- `set_current_file_id`. -/
def setCurrentFileId : Record Unit :=
  modify fun recorder =>
    { recorder with currentPartition := recorder.partitionForFileHandle fileId }

/-- `set_identity_translation_unit_file_id`. -/
def setIdentityTranslationUnitFileId : Record Unit :=
  modify fun recorder =>
    let configuration := recorder.currentPartition.configuration
    { recorder with
      currentPartition :=
        { recorder.currentPartition with
          configuration :=
            { configuration with
              translationUnit := (recorder.partitionForFileHandle fileId).file.portablePath } } }

/-- `set_identity_translation_unit_config_id`. -/
def setIdentityTranslationUnitConfigId (translationUnitFileId : Int64) : Record Unit :=
  if translationUnitFileId ≥ 0 then setIdentityTranslationUnitFileId translationUnitFileId
  else return ()

/-- `delete_edges_for_file` and `delete_definitions_for_file`. -/
def deleteForFile (kind : LifecycleCleanupKind) (fileId : Int64) : Record Unit := do
  let partition := (← get).partitionForFileHandle fileId
  emitLifecycleCleanup { partition, kind, target := partition.file, priorGeneration := [] }

/-- `update_display_name`. -/
def updateDisplayName (symbolId : Int64) (display : Bytes) : Record Unit :=
  modify fun recorder =>
    ((recorder.symbolPositionsById.find? symbolId).getD []).foldl
      (fun changed position => changed.changeSymbol position fun symbol =>
        { symbol with displayName := some display })
      recorder

end FactBatchRecorder

end CppIndexer.Ast
