/-
# Building a batch

What the recorder makes of the facts it was told: the records of each family with
the partitions they belong to, sorted and without repetition when the batch is to
be canonical, the emissions of symbols group by group, and the dictionaries of
the handles.  A partition that no handle stands for is given one.

Of records with the same partition and the same key one is kept; which one the
source leaves open, and here it is the first.
-/

import CppIndexer.Ast.FactBatchRecorder

namespace CppIndexer.Ast

open Util (Bytes ascii)
open SortUnique

abbrev Memberships := SortedMap FactPartitionKey (SortedMap FactFamily (List ℕ))

/-- `memberships[partition][family].push_back(index)`. -/
def Memberships.push (memberships : Memberships) (partition : FactPartitionKey)
    (family : FactFamily) (index : ℕ) : Memberships :=
  let members := (memberships.find? partition).getD .empty
  memberships.insertOrAssign partition
    (members.insertOrAssign family ((members.find? family).getD [] ++ [index]))

section

variable {α : Type}

def routedOrder (key : α → Bytes) (item : RoutedRecord α) : FactPartitionKey ×ₗ Bytes :=
  toLex (item.partition, key item.record)

variable (source : List (RoutedRecord α))

/-- The routed records as `append_records` appends them. -/
def arranged (key : α → Bytes) (canonical : Bool) : List (RoutedRecord α) :=
  if canonical then sortUniqueBy (routedOrder key) source else source

/-- The loop of `append_records`, from an index on. -/
def addMembers (family : FactFamily) : List (RoutedRecord α) → ℕ → Memberships → Memberships
  | [], _, memberships => memberships
  | item :: rest, index, memberships =>
    addMembers family rest (index + 1) (memberships.push item.partition family index)

/-- `append_records`: the memberships after it.  The records appended are those
of `arranged`. -/
def appendRecords (family : FactFamily) (key : α → Bytes)
    (canonical : Bool) (memberships : Memberships) : Memberships :=
  addMembers family (arranged source key canonical) 0 memberships

def recordsOf (key : α → Bytes) (canonical : Bool) : List α :=
  (arranged source key canonical).map RoutedRecord.record

end

/-! ## The emissions of symbols -/

def firstFile : List SymbolEmissionMetadata → FileOrder
  | [] => toLex ([], toLex ([], []))
  | entry :: rest => rest.foldl (fun minimum other => min minimum other.file) entry.file

/-- An entry numbered by its place. -/
def SymbolEmissionMetadata.renumbered (entry : SymbolEmissionMetadata) (index : UInt64) :
    SymbolEmissionMetadata :=
  { entry with
    firstSeen := index, lastSeen := index
    applyOrder := { entry.applyOrder with firstSeen := index, conflictOrdinal := index } }

/-- The loop that numbers a group. -/
def renumberFrom : UInt64 → List SymbolEmissionMetadata → List SymbolEmissionMetadata
  | _, [] => []
  | index, entry :: rest => entry.renumbered index :: renumberFrom (index + 1) rest

variable (emissions : List SymbolEmissionMetadata)

/-- `groups`: the emissions of each symbol. -/
def emissionGroups : SortedMap Bytes (List SymbolEmissionMetadata) :=
  emissions.foldl (fun groups metadata =>
    groups.insertOrAssign metadata.symbol.stableString
      ((groups.find? metadata.symbol.stableString).getD [] ++ [metadata])) .empty

def orderedGroup (group : Bytes × List SymbolEmissionMetadata) :
    GroupOrder × List SymbolEmissionMetadata :=
  let entries := sortBy (fun entry => entry.firstSeen.toNat) group.2
  (toLex (firstFile entries, group.1), entries)

/-- `canonical_symbol_order`. -/
def canonicalSymbolOrder : List SymbolEmissionMetadata :=
  (sortBy Prod.fst ((emissionGroups emissions).entries.map orderedGroup)).flatMap fun group =>
    renumberFrom 0 group.2

/-! ## The batch -/

namespace FactBatchRecorder

/-- The identities of one kind, by their handles; the first of several keys with
the same handle stays. -/
def identityKeys (kind : FactIdentityKind) (entries : IdentityEntries) : SortedMap Int64 Bytes :=
  entries.entries.foldl (fun keys entry =>
    if (ofLex entry.1).1 = kind then keys.emplace entry.2 (ofLex entry.1).2 else keys) .empty

/-- The handle that is tried first for a partition without one. -/
def partitionHandle (partition : FactPartitionKey) : Int64 :=
  let hash := stableFactHash (ascii "file:" ++ partition.stableString)
  let handle := -(hash &&& 0x3fffffffffffffff).toInt64
  if handle = 0 then -1 else handle

/-- A partition that is not registered gets the next free handle. -/
def registerPartition (fileKeys : SortedMap Int64 FactPartitionKey)
    (partition : FactPartitionKey) : SortedMap Int64 FactPartitionKey :=
  if fileKeys.entries.any fun entry => entry.2 = partition then fileKeys
  else
    match Probing.firstFree (fun handle => (fileKeys.find? handle).isSome)
        (fun step => partitionHandle partition - Int64.ofNat step)
        (fileKeys.entries.length + 1) 0 with
    | some handle => fileKeys.insertOrAssign handle partition
    | none => fileKeys

variable (recorder : FactBatchRecorder)

def parameters : List (RoutedRecord ParameterFactRecord) :=
  recorder.parameterBuckets.entries.flatMap fun bucket =>
    bucket.2.2.map fun parameter =>
      { partition := bucket.2.1, record := { ownerId := bucket.1, parameter } }

variable (canonical : Bool)

/-- `append_symbol_records`. -/
def appendSymbolRecords (memberships : Memberships) : Memberships :=
  let memberships :=
    appendRecords recorder.symbols .symbols symbolRecordKey canonical memberships
  let memberships :=
    appendRecords recorder.declarationSites .declarationSites declarationSiteKey canonical
      memberships
  let memberships :=
    appendRecords recorder.relations .relations edgeRecordKey canonical memberships
  let memberships :=
    appendRecords recorder.edgeSites .edgeSites edgeSiteKey canonical memberships
  let memberships :=
    appendRecords recorder.callArgs .callArguments callArgKey canonical memberships
  let memberships :=
    appendRecords recorder.templateParams .templateParameters templateParamKey canonical
      memberships
  appendRecords recorder.templateArgs .templateArguments templateArgKey canonical memberships

/-- `append_type_records`. -/
def appendTypeRecords (memberships : Memberships) : Memberships :=
  let memberships :=
    appendRecords recorder.typeNodes .types typeNodeKey canonical memberships
  let memberships :=
    appendRecords recorder.typeEdges .typeEdges typeEdgeKey canonical memberships
  let memberships :=
    appendRecords recorder.parameters .parameters parameterKey canonical memberships
  let memberships :=
    appendRecords recorder.symbolTypes .symbolTypes symbolTypeKey canonical memberships
  let memberships :=
    appendRecords recorder.definitions .definitions definitionKey canonical memberships
  appendRecords recorder.definitionEdges .definitionEdges definitionEdgeKey canonical memberships

/-- `append_auxiliary_records`. -/
def appendAuxiliaryRecords (memberships : Memberships) : Memberships :=
  let memberships := appendRecords recorder.includes .includes includeKey canonical memberships
  let memberships := appendRecords recorder.macros .macros macroKey canonical memberships
  let memberships :=
    appendRecords recorder.diagnostics .diagnostics diagnosticKey canonical memberships
  let memberships :=
    appendRecords recorder.evidence .evidence evidenceKey canonical memberships
  let memberships :=
    appendRecords recorder.presentationIntents .presentationIntents presentationKey canonical
      memberships
  let memberships :=
    appendRecords recorder.lifecycleCleanup .lifecycleCleanup cleanupKey canonical memberships
  appendRecords recorder.applicability .applicability applicabilityKey canonical memberships

def memberships : Memberships :=
  recorder.appendAuxiliaryRecords canonical
    (recorder.appendTypeRecords canonical (recorder.appendSymbolRecords canonical .empty))

/-- The records that the three appends append. -/
def records : FactRecords where
  symbols := recordsOf recorder.symbols symbolRecordKey canonical
  declarationSites := recordsOf recorder.declarationSites declarationSiteKey canonical
  relations := recordsOf recorder.relations edgeRecordKey canonical
  edgeSites := recordsOf recorder.edgeSites edgeSiteKey canonical
  callArgs := recordsOf recorder.callArgs callArgKey canonical
  templateParams := recordsOf recorder.templateParams templateParamKey canonical
  templateArgs := recordsOf recorder.templateArgs templateArgKey canonical
  typeNodes := recordsOf recorder.typeNodes typeNodeKey canonical
  typeEdges := recordsOf recorder.typeEdges typeEdgeKey canonical
  parameters := recordsOf recorder.parameters parameterKey canonical
  symbolTypes := recordsOf recorder.symbolTypes symbolTypeKey canonical
  definitions := recordsOf recorder.definitions definitionKey canonical
  definitionEdges := recordsOf recorder.definitionEdges definitionEdgeKey canonical
  includes := recordsOf recorder.includes includeKey canonical
  macros := recordsOf recorder.macros macroKey canonical
  diagnostics := recordsOf recorder.diagnostics diagnosticKey canonical
  evidence := recordsOf recorder.evidence evidenceKey canonical
  presentationIntents := recordsOf recorder.presentationIntents presentationKey canonical
  lifecycleCleanup := recordsOf recorder.lifecycleCleanup cleanupKey canonical
  applicability := recordsOf recorder.applicability applicabilityKey canonical
  symbolOrder :=
    if canonical then canonicalSymbolOrder recorder.symbolOrder else recorder.symbolOrder

/-- `build_batch`. -/
def buildBatch : Except FactBatchError FactBatch :=
  match recorder.identities.index.entries with
  | .error error => .error (.identity (.index error))
  | .ok entries =>
    let memberships := recorder.memberships canonical
    .ok
      { producer := recorder.producer
        producerVersion := 1
        completeness := recorder.completeness
        canonical := canonical
        records := recorder.records canonical
        partitions := memberships.entries.map fun entry => { key := entry.1, members := entry.2 }
        symbolKeys := identityKeys .symbol entries
        relationKeys := identityKeys .relation entries
        typeKeys := identityKeys .type entries
        definitionKeys := identityKeys .definition entries
        fileKeys :=
          (memberships.entries.map Prod.fst).foldl registerPartition
            recorder.partitionsByFileHandle
        pendingSymbolReferences :=
          if canonical then sortBy id recorder.pendingSymbolReferences
          else recorder.pendingSymbolReferences }

/-- `canonical_batch`. -/
def canonicalBatch : Except FactBatchError FactBatch := recorder.buildBatch true

end FactBatchRecorder

end CppIndexer.Ast
