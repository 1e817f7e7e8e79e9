/-
# Histories of an index

What publications, deletions and reopenings do to symbols with their parents, to types, to the
dictionary and to the evidence of calls. A publication is the one of `FactBatchWriter` with the rest
of its tables: symbols and their parents, types, external identities and occurrences. Its edges,
applicability rows and stale sweep are those of the bare publication.

Rows that refer to a symbol, an edge or a file lose the reference, or go with it, as the foreign keys
of the schema say.
-/

import CppIndexer.Storage.IdentityModes

namespace CppIndexer.Occurrences

open Storage (nextRowId EdgeTable Applicability FileRoute ExternalRef StagedRelation
  CleanupIntent DerivedKind SymbolMap RelationMap)

/-! ## The database -/

/-- The database of an index: files with their directory and directories with their component. -/
structure Index where
  tables : Tables := {}
  edges : EdgeTable := .empty
  applicability : Applicability := .empty
  fileConfigs : List (ℕ × ℤ) := []
  files : AssocMap ℕ ℕ := .empty
  directories : AssocMap ℕ ℕ := .empty

variable (t : Tables)

/-- The columns of `symbol` that the bare publication works on. -/
def Tables.bareSymbols : AssocMap ℕ Storage.SymbolRow :=
  t.symbols.map (·.toSymbolRow)

/-- An edge with this row id. -/
def hasEdge (edges : EdgeTable) (id : ℕ) : Bool :=
  edges.rows.entries.any fun entry => entry.2.id = id

/-! ## Foreign keys -/

/-- `ON DELETE SET NULL` of a symbol that a slot names. -/
def Slot.keep (slot : Slot) (symbol : ℕ → Bool) : Slot :=
  { slot with target := slot.target.filter symbol }

/-- What the foreign keys leave when only some symbols, edges and files stay. -/
def Tables.restrict (symbol edge file : ℕ → Bool) : Tables where
  symbols := (t.symbols.eraseWhere fun id _ => !symbol id).mapValues fun _ row =>
    { row with
      fileId := row.fileId.filter file
      declFileId := row.declFileId.filter file
      parentId := row.parentId.filter symbol }
  types := t.types.mapValues fun _ row => { row with declId := row.declId.filter symbol }
  identities := t.identities.mapValues fun _ row =>
    { row with symbolId := row.symbolId.filter symbol }
  sites := (t.sites.eraseWhere fun key _ => !(edge key.edgeId && file key.fileId)).mapValues
    fun _ row => { row with recvDecl := row.recvDecl.keep symbol }
  args := (t.args.eraseWhere fun key _ => !(edge key.edgeId && file key.fileId)).mapValues
    fun _ row => { row with decl := row.decl.keep symbol, callee := row.callee.keep symbol }

/-- Everything of a kind stays. -/
def all (_ : ℕ) : Bool := true

/-! ## A staged batch -/

/-- `temp.cidx_batch_symbol` with the columns of parents and declarations. -/
structure StagedSymbol extends Storage.StagedSymbol where
  parentUsr : Option String := none
  declLine : Option ℤ := none
  declPath : Option String := none

/-- `temp.cidx_batch_type`. -/
structure StagedType where
  handle : ℤ
  typeKey : String
  declUsr : Option String := none
  canonicalHandle : Option ℤ := none
  extent : Option String := none

/-- A row of `temp.cidx_batch_aux` for an edge site, with the relation in place of its handle. -/
structure StagedSite where
  relation : StagedRelation
  fileHandle : ℤ
  line : ℤ
  col : ℤ
  conditional : ℤ := 0
  srcKind : Option String := none
  typeUsr : Option String := none
  declUsr : Option String := none
  paramPos : Option ℤ := none
  typeIsValue : Option ℤ := none

/-- A row of `temp.cidx_batch_aux` for a call argument. -/
structure StagedArg where
  relation : StagedRelation
  fileHandle : ℤ
  line : ℤ
  col : ℤ
  position : ℤ
  srcKind : Option String := none
  typeUsr : Option String := none
  declUsr : Option String := none
  calleeUsr : Option String := none
  typeIsValue : Option ℤ := none

/-- A staged batch with its publication context. -/
structure Batch where
  configurationId : ℤ
  files : List FileRoute
  symbols : List StagedSymbol := []
  externalRefs : List ExternalRef := []
  relations : List StagedRelation := []
  cleanups : List CleanupIntent := []
  types : List StagedType := []
  sites : List StagedSite := []
  args : List StagedArg := []
  derived : List (DerivedKind × ℕ × ℕ) := []
  diagnostics : List (ℕ × ℕ) := []
  registered : List ℕ := []

namespace Batch

variable (b : Batch)

/-- The publication without parents, types and evidence. -/
def publication : Storage.Publication where
  configurationId := b.configurationId
  files := b.files
  symbols := b.symbols.map (·.toStagedSymbol)
  externalRefs := b.externalRefs
  relations := b.relations
  cleanups := b.cleanups
  derived := b.derived
  diagnostics := b.diagnostics
  registered := b.registered

/-- The file behind a handle, planned or not. -/
def fileOf (handle : ℤ) : Option ℕ :=
  (b.files.find? fun route => route.handle = handle).map (·.fileId)

/-! ## Symbols -/

variable (staged : StagedSymbol)

/-- `DO UPDATE SET` of `apply_symbols`, with the file of a located symbol and of its declaration. -/
def mergeSymbol (located declared : Option ℕ) (row : SymbolRow) : SymbolRow :=
  { row with
    fileId := if located.isSome ∧ row.isDefinition ≤ staged.isDefinition then located
      else row.fileId
    declFileId := if located.isNone then row.declFileId <|> declared
      else declared <|> row.declFileId
    isDefinition := max staged.isDefinition row.isDefinition
    parentUsr := staged.parentUsr <|> row.parentUsr }

def newSymbol (located declared : Option ℕ) : SymbolRow where
  universeId := staged.universeId
  identityKey := staged.identityKey
  usr := staged.usr
  fileId := located
  isDefinition := staged.isDefinition
  parentUsr := staged.parentUsr
  declFileId := declared

/-- `INSERT INTO symbol … ON CONFLICT(semantic_universe_id,identity_key)`. -/
def upsertSymbol (fileId : ℕ) : Tables :=
  let located := if staged.line ≤ 0 then none else some fileId
  let declared := if staged.declLine.isNone ∨ staged.declPath.isSome then none else some fileId
  match t.symbolWithKey staged.universeId staged.identityKey with
  | some id => t.updateSymbol id (mergeSymbol staged located declared)
  | none => { t with symbols := insertNew t.symbols (newSymbol staged located declared) }

/-- `apply_symbols`: the rows. -/
def applySymbols (t : Tables) : Tables :=
  b.symbols.foldl (fun t staged =>
    match b.publication.plannedFile staged.fileHandle with
    | some fileId => upsertSymbol t staged fileId
    | none => t) t

/-- `apply_symbols`: the handles it binds. -/
def boundSymbols (t : Tables) : SymbolMap :=
  b.symbols.filterMap fun staged =>
    (t.symbolWithKey staged.universeId staged.identityKey).map fun id => (staged.handle, id)

/-- The file of the declaration that is ranked first for a symbol. -/
def declarationFile (map : SymbolMap) (id : ℕ) : Option ℕ :=
  let declared := b.symbols.filter fun staged =>
    staged.declLine.isSome ∧ staged.declPath.isNone ∧ map.find? staged.handle = some id
  ((declared.find? fun staged => 0 < staged.line) <|> declared.head?).bind fun staged =>
    b.fileOf staged.fileHandle

/-- `apply_symbols`: a symbol without a declaration file gets one. -/
def repairDeclarations (map : SymbolMap) (t : Tables) : Tables :=
  { t with symbols := t.symbols.mapValues fun id row =>
      { row with declFileId := row.declFileId <|> b.declarationFile map id } }

end Batch

def Tables.firstIn (universeId : ℕ) (usr : String) : Option ℕ :=
  t.symbols.minKey? fun row => row.universeId = universeId ∧ row.usr = usr

/-- The first symbol of its universe with the USR of its parent. -/
def Tables.resolveParent (row : SymbolRow) : SymbolRow :=
  match row.parentUsr with
  | some usr => { row with parentId := t.firstIn row.universeId usr }
  | none => row

/-- `UPDATE symbol AS child SET parent_id=(SELECT MIN(parent.id) …) WHERE … child.id IN (…)`. -/
def Tables.resolveParents (map : SymbolMap) : Tables :=
  { t with symbols := t.symbols.mapValues fun id row =>
      if map.any fun entry => entry.2 = id then t.resolveParent row else row }

namespace Batch

variable (b : Batch)

/-! ## Types -/

/-- The last value of a column among the staged rows of a type key. -/
def lastOf (column : StagedType → Option String) (typeKey : String) : Option String :=
  (b.types.filter fun staged => staged.typeKey = typeKey).reverse.findSome? column

/-- `apply_types`: one staged type. A key that is staged twice is merged first, so its second row
changes nothing. -/
def upsertType (t : Tables) (staged : StagedType) : Tables :=
  let declUsr := b.lastOf (·.declUsr) staged.typeKey
  let extent := b.lastOf (·.extent) staged.typeKey
  let declId := declUsr.bind (t.first .symbol)
  match t.typeWithKey staged.typeKey with
  | some id =>
    { t with types := t.types.mapValues fun key row =>
        if key = id then
          { row with declId := declId <|> row.declId, extent := extent <|> row.extent }
        else row }
  | none =>
    { t with
      types := insertNew t.types
        { typeKey := staged.typeKey, declUsr := declUsr, declId := declId, extent := extent } }

/-- The type that a staged type names as its canonical form. -/
def canonicalOf (t : Tables) (typeKey : String) : Option ℕ :=
  b.types.findSome? fun staged =>
    if staged.typeKey = typeKey then
      staged.canonicalHandle.bind fun handle =>
        (b.types.find? fun canonical => canonical.handle = handle).bind fun canonical =>
          t.typeWithKey canonical.typeKey
    else none

/-- `apply_types`. -/
def applyTypes (t : Tables) : Tables :=
  let t := b.types.foldl b.upsertType t
  { t with types := t.types.mapValues fun _ row =>
      if b.types.any fun staged => staged.typeKey = row.typeKey ∧ staged.canonicalHandle.isSome then
        { row with canonicalId := b.canonicalOf t row.typeKey }
      else row }

/-! ## Evidence -/

/-- The texts of a kind that the evidence of the batch records. -/
def texts : IdentityKind → List String
  | .type => b.sites.filterMap (·.typeUsr) ++ b.args.filterMap (·.typeUsr)
  | .symbol =>
    b.sites.filterMap (·.declUsr) ++ b.args.filterMap (·.declUsr) ++ b.args.filterMap (·.calleeUsr)
  | .reserved => []

/-- `INSERT INTO external_identity … ON CONFLICT DO UPDATE SET resolution_status=0`, for the texts
that name no row. -/
def insertExternals (kind : IdentityKind) (t : Tables) : Tables :=
  ((b.texts kind).filter fun text => text ≠ "" ∧ (t.first kind text).isNone).foldl
    (fun t text => (t.upsertIdentity kind text).1) t

end Batch

/-- The columns of a USR in a row that is inserted: the row it names, or its dictionary row. -/
def Tables.slotFor (kind : IdentityKind) : Option String → Slot
  | none => {}
  | some text =>
    match t.first kind text with
    | some id => { target := some id }
    | none => { identity := t.identityOf kind text }

namespace Batch

variable (b : Batch) (relations : RelationMap)

def edgeOf (relation : StagedRelation) : Option ℕ :=
  (relations.find? fun entry => entry.1 = relation).map Prod.snd

def siteKey (staged : StagedSite) : Option SiteKey :=
  (edgeOf relations staged.relation).bind fun edgeId =>
    (b.fileOf staged.fileHandle).map fun fileId => ⟨edgeId, fileId, staged.line, staged.col⟩

def siteRow (staged : StagedSite) : SiteRow where
  conditional := staged.conditional
  srcKindId := staged.srcKind.bind SourceKind.ofName
  recvType := t.slotFor .type staged.typeUsr
  recvDecl := t.slotFor .symbol staged.declUsr
  recvParamPos := staged.paramPos
  recvTypeIsValue := staged.typeIsValue

/-- `INSERT OR IGNORE INTO edge_site`. -/
def insertSites (t : Tables) : Tables :=
  b.sites.foldl (fun t staged =>
    match b.siteKey relations staged with
    | some key => t.insertSite key (siteRow t staged)
    | none => t) t

def argKey (staged : StagedArg) : Option ArgKey :=
  (edgeOf relations staged.relation).bind fun edgeId =>
    (b.fileOf staged.fileHandle).map fun fileId =>
      ⟨⟨edgeId, fileId, staged.line, staged.col⟩, staged.position⟩

def argRow (staged : StagedArg) : ArgRow where
  srcKindId := staged.srcKind.bind SourceKind.ofName
  type := t.slotFor .type staged.typeUsr
  decl := t.slotFor .symbol staged.declUsr
  callee := t.slotFor .symbol staged.calleeUsr
  typeIsValue := staged.typeIsValue

/-- `INSERT OR IGNORE INTO call_arg`. -/
def insertArgs (t : Tables) : Tables :=
  b.args.foldl (fun t staged =>
    match b.argKey relations staged with
    | some key => t.insertArg key (argRow t staged)
    | none => t) t

/-! ## Publication -/

variable (index : Index)

/-- The edges that lifecycle cleanup leaves. -/
def cleanedEdges : EdgeTable :=
  (b.publication.applyLifecycleCleanup
    ⟨index.tables.bareSymbols, index.edges, index.applicability, index.fileConfigs⟩).edges

/-- The tables behind `apply_symbols`. -/
def withSymbols : Tables :=
  let t := index.tables.restrict all (hasEdge (b.cleanedEdges index)) all
  let t := b.applySymbols t
  let map := b.boundSymbols t
  (b.repairDeclarations map t).resolveParents map

/-- The symbol map with the deferred references. -/
def symbolMap (t : Tables) : SymbolMap :=
  b.publication.resolveExternalReferences t.bareSymbols (b.boundSymbols t)

/-- The tables behind `apply_types`, and those behind the dictionary. -/
def withDictionary (t : Tables) : Tables :=
  b.insertExternals .symbol (b.insertExternals .type (b.applyTypes t))

/-- The edges behind `apply_relations`. -/
def appliedEdges : EdgeTable :=
  b.publication.applyRelations (b.symbolMap (b.withSymbols index)) (b.cleanedEdges index)

/-- The edges of the relations that are bound. -/
def relationMap : RelationMap :=
  b.publication.relationMap (b.symbolMap (b.withSymbols index)) (b.appliedEdges index)

/-- The tables behind `apply_auxiliary`. -/
def withEvidence : Tables :=
  b.insertArgs (b.relationMap index) (b.insertSites (b.relationMap index)
    (b.withDictionary (b.withSymbols index)))

/-- The bare database behind `publish_applicability`. -/
def published : Storage.Database :=
  b.publication.publishApplicability (b.symbolMap (b.withSymbols index)) (b.relationMap index)
    ⟨(b.withEvidence index).bareSymbols, b.appliedEdges index, index.applicability, index.fileConfigs⟩

/-- `FactBatchWriter::apply_in_transaction`; a batch that is refused is rolled back. -/
def publish : Except String Index :=
  match b.relations.find? fun relation =>
      relation.unresolved (b.symbolMap (b.withSymbols index)) b.externalRefs with
  | some relation => .error ("relation endpoint did not resolve: " ++ toString relation.srcHandle ++
      " -> " ++ toString relation.dstHandle)
  | none =>
    .ok { index with
      tables := (b.withEvidence index).restrict
        (fun id => ((b.published index).symbols.find? id).isSome)
        (hasEdge (b.published index).edges) all
      edges := (b.published index).edges
      applicability := (b.published index).applicability
      fileConfigs := (b.published index).fileConfigs }

end Batch

/-! ## Deletions -/

namespace Index

variable (index : Index)

/-- `DELETE FROM symbol WHERE …`: edges go with the symbol at either of their ends. -/
def deleteSymbols (p : ℕ → SymbolRow → Bool) : Index :=
  let symbol := fun id => ((index.tables.symbols.eraseWhere p).find? id).isSome
  let edges := index.edges.deleteWhere fun key _ => !(symbol key.srcId && symbol key.dstId)
  { index with tables := index.tables.restrict symbol (hasEdge edges) all, edges := edges }

/-- `DELETE FROM file WHERE …`. -/
def deleteFiles (p : ℕ → Bool) : Index :=
  { index with
    tables := index.tables.restrict all all (!p ·)
    applicability := index.applicability.eraseWhere fun key _ => p key.fileId
    fileConfigs := index.fileConfigs.filter fun config => !p config.1
    files := index.files.eraseWhere fun id _ => p id }

def deleteFilesWithSymbols (p : ℕ → Bool) : Index :=
  (index.deleteSymbols fun _ row => row.fileId.any p || row.declFileId.any p).deleteFiles p

def inDirectory (directoryId id : ℕ) : Bool := index.files.find? id = some directoryId

def inComponent (componentId id : ℕ) : Bool :=
  (index.files.find? id).bind index.directories.find? = some componentId

/-- `delete_component`. -/
def deleteComponent (componentId : ℕ) : Index :=
  let index' := index.deleteFilesWithSymbols (index.inComponent componentId)
  { index' with directories := index.directories.eraseWhere fun _ component => component = componentId }

/-- `delete_directory`. -/
def deleteDirectory (directoryId : ℕ) : Index :=
  let index' := index.deleteFilesWithSymbols (index.inDirectory directoryId)
  { index' with directories := index.directories.eraseWhere fun id _ => id = directoryId }

/-- `delete_file`. -/
def deleteFile (fileId : ℕ) : Index := index.deleteFilesWithSymbols (· = fileId)

/-- `delete_symbol`. -/
def deleteSymbol (symbolId : ℕ) : Index := index.deleteSymbols fun id _ => id = symbolId

/-- A call of the service in immediate mode. -/
def call (c : Call) : Except String Index :=
  (c.apply index.tables).map fun result =>
    { index with tables := result.1.reconciled result.2 }

/-- `migrate` of a database of this schema version, and `reconcile_external_identities`. -/
def reopen : Except String Index :=
  index.tables.reconcileExternalIdentities.map fun tables => { index with tables := tables }

def addDirectory (componentId : ℕ) : Index :=
  { index with directories := insertNew index.directories componentId }

def addFile (directoryId : ℕ) : Index :=
  { index with files := insertNew index.files directoryId }

end Index

end CppIndexer.Occurrences
