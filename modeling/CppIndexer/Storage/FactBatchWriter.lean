/-
# Publishing one batch

What `FactBatchWriter::apply_in_transaction` does to the symbol, edge and applicability tables:
lifecycle cleanup, the symbol upsert, the resolution of deferred references, the relation upsert
and the publication of applicability with its stale sweep.

An applicability row says that a file, under a configuration, states a fact. Rows of the tables
that are joined only to derive further applicability rows come with the publication.
-/

import CppIndexer.Lib.AssocMap
import Mathlib.Algebra.Order.Ring.Int
import Mathlib.Data.String.Basic

namespace CppIndexer.Storage

open List

/-- `kContainsEdgeKind`. -/
def kContainsEdgeKind : ℕ := 3

/-- The fact kinds that are published from tables other than symbol and edge. -/
inductive DerivedKind
  | definition
  | defEdge
  | declSite
  | parameter
  | symbolType
  | typeNode
  | typeEdge
  | templateParam
  | templateArg
  | callArg
  | possibleCall
  deriving DecidableEq

/-- `fact_applicability.fact_kind`. -/
inductive FactKind
  | symbol
  | edge
  | derived (kind : DerivedKind)
  | diagnostic
  deriving DecidableEq

/-- The primary key of `fact_applicability`. -/
structure ApplicabilityKey where
  factKind : FactKind
  factId : ℕ
  fileId : ℕ
  configId : ℤ
  deriving DecidableEq

/-- `fact_applicability`, with the generation of each row. -/
abbrev Applicability := AssocMap ApplicabilityKey ℤ

/-- A row of `symbol`, without the columns no modelled statement reads. -/
structure SymbolRow where
  universeId : ℕ
  identityKey : String
  usr : String
  fileId : Option ℕ := none
  isDefinition : ℕ := 0
  deriving DecidableEq

/-- The unique columns of `edge`. -/
structure EdgeKey where
  srcId : ℕ
  dstId : ℕ
  kind : ℕ
  deriving DecidableEq

/-- The other columns of `edge`. -/
structure EdgeData where
  id : ℕ
  count : ℤ
  deriving DecidableEq

/-- The row id SQLite gives a new row. -/
def nextRowId (ids : List ℕ) : ℕ := ids.foldr max 0 + 1

theorem lt_nextRowId {ids : List ℕ} {id : ℕ} (h : id ∈ ids) : id < nextRowId ids := by
  induction ids with
  | nil => simp at h
  | cons _ _ ih =>
    simp only [nextRowId, foldr_cons] at ih ⊢
    rcases mem_cons.mp h with rfl | hrest
    · omega
    · have := ih hrest
      omega

/-- `edge`: both its key and its row id are unique. -/
structure EdgeTable where
  rows : AssocMap EdgeKey EdgeData
  ids : (rows.entries.map fun entry => entry.2.id).Nodup

namespace EdgeTable

def empty : EdgeTable := ⟨.empty, nodup_nil⟩

variable (table : EdgeTable) (key : EdgeKey)

def find? : Option EdgeData := table.rows.find? key

/-- An edge that is not there yet gets a row id no other edge has. -/
def rowIdFor : ℕ :=
  match table.find? key with
  | some edge => edge.id
  | none => nextRowId (table.rows.entries.map fun entry => entry.2.id)

theorem rowIdFor_not_mem : table.rowIdFor key ∉
      (table.rows.entries.filter fun entry => entry.1 ≠ key).map fun entry => entry.2.id := by
  intro hmem
  obtain ⟨entry, hentry, hid⟩ := mem_map.mp hmem
  simp only [ne_eq, mem_filter, decide_not, Bool.not_eq_true', decide_eq_false_iff_not]
    at hentry
  unfold rowIdFor at hid
  split at hid
  case h_1 edge hedge =>
    have hstored := (AssocMap.find?_eq_some_iff _ _ _).mp hedge
    have hsame := inj_on_of_nodup_map table.ids hentry.1 hstored hid
    exact hentry.2 (congrArg Prod.fst hsame)
  case h_2 =>
    have hlt := lt_nextRowId (mem_map_of_mem (f := fun entry => entry.2.id) hentry.1)
    omega

/-- `INSERT INTO edge … ON CONFLICT(src_id,dst_id,kind) DO UPDATE SET count=excluded.count`. -/
def upsert (count : ℤ) : EdgeTable where
  rows := table.rows.insertOrAssign key ⟨table.rowIdFor key, count⟩
  ids := by
    simp only [AssocMap.insertOrAssign, map_cons, nodup_cons]
    refine ⟨table.rowIdFor_not_mem key, ?_⟩
    exact table.ids.sublist (filter_sublist.map _)

variable (p : EdgeKey → EdgeData → Bool)

/-- `DELETE FROM edge WHERE …`. -/
def deleteWhere : EdgeTable where
  rows := table.rows.eraseWhere p
  ids := table.ids.sublist (filter_sublist.map _)

/-- `UPDATE edge SET count=… WHERE …`. -/
def setCountWhere (count : ℕ → ℤ) : EdgeTable where
  rows := table.rows.mapValues fun key edge =>
    if p key edge then { edge with count := count edge.id } else edge
  ids := by
    have hids : ∀ entry : EdgeKey × EdgeData,
        (if p entry.1 entry.2 then { entry.2 with count := count entry.2.id } else entry.2).id =
          entry.2.id := by
      intro _
      split <;> rfl
    simpa [AssocMap.mapValues, map_map, Function.comp_def, hids] using table.ids

@[simp]
theorem find?_empty : empty.find? key = none := rfl

@[simp]
theorem find?_upsert (key key' : EdgeKey) (count : ℤ) : (table.upsert key count).find? key' =
      if key' = key then some ⟨table.rowIdFor key, count⟩ else table.find? key' := by
  simp [find?, upsert]

@[simp]
theorem find?_deleteWhere (key : EdgeKey) :
    (table.deleteWhere p).find? key = (table.find? key).filter fun edge => !p key edge := by
  simp [find?, deleteWhere]

@[simp]
theorem find?_setCountWhere (count : ℕ → ℤ)
    (key : EdgeKey) :
    (table.setCountWhere p count).find? key =
      (table.find? key).map fun edge =>
        if p key edge then { edge with count := count edge.id } else edge := by
  simp [find?, setCountWhere]

end EdgeTable

/-- The tables a publication changes. -/
structure Database where
  symbols : AssocMap ℕ SymbolRow
  edges : EdgeTable
  applicability : Applicability
  fileConfigs : List (ℕ × ℤ)

/-- A database before the first publication. -/
def Database.empty : Database := ⟨.empty, .empty, .empty, []⟩

/-- `temp.cidx_batch_file_map`. -/
structure FileRoute where
  handle : ℤ
  fileId : ℕ
  planned : Bool

/-- `temp.cidx_batch_symbol`. -/
structure StagedSymbol where
  handle : ℤ
  fileHandle : ℤ
  universeId : ℕ
  identityKey : String
  usr : String
  line : ℤ
  isDefinition : ℕ

/-- `temp.cidx_batch_external_ref`. -/
structure ExternalRef where
  handle : ℤ
  universeId : ℕ
  usr : String
  localKey : Option String
  portableKey : String
  localPrefix : Option String

/-- `temp.cidx_batch_relation`, in ordinal order. -/
structure StagedRelation where
  fileHandle : ℤ
  srcHandle : ℤ
  dstHandle : ℤ
  kind : ℕ
  count : ℤ
  deriving DecidableEq

/-- A `LifecycleCleanupIntent` for relations. -/
structure CleanupIntent where
  fileHandle : ℤ
  universeId : ℕ

/-- A staged batch with its publication context. -/
structure Publication where
  configurationId : ℤ
  files : List FileRoute
  symbols : List StagedSymbol := []
  externalRefs : List ExternalRef := []
  relations : List StagedRelation := []
  cleanups : List CleanupIntent := []
  /-- Kind, fact and file of the definition rows and of the rows derived by a join. -/
  derived : List (DerivedKind × ℕ × ℕ) := []
  /-- Id and file of the diagnostics stored after the batch is applied. -/
  diagnostics : List (ℕ × ℕ) := []
  /-- The files that get a `file_config` row. -/
  registered : List ℕ := []

/-- `temp.cidx_batch_symbol_map`. -/
abbrev SymbolMap := List (ℤ × ℕ)

def SymbolMap.find? (map : SymbolMap) (handle : ℤ) : Option ℕ :=
  (List.find? (fun entry => entry.1 = handle) map).map Prod.snd

/-- `temp.cidx_batch_relation_map`, with the relation in place of its handle. -/
abbrev RelationMap := List (StagedRelation × ℕ)

namespace Publication

variable (p : Publication)

/-- The file is planned for this publication. -/
def plans (fileId : ℕ) : Bool :=
  p.files.any fun route => route.planned && decide (route.fileId = fileId)

def plannedFile (handle : ℤ) : Option ℕ :=
  ((p.files.find? fun route => route.handle = handle).filter (·.planned)).map (·.fileId)

/-- `apply_lifecycle_cleanup`, on edges. -/
def applyLifecycleCleanup (db : Database) : Database :=
  let cleaned := fun (symbol : SymbolRow) => p.cleanups.any fun intent =>
    (p.plannedFile intent.fileHandle).isSome &&
      decide (symbol.fileId = p.plannedFile intent.fileHandle) &&
      decide (symbol.universeId = intent.universeId)
  { db with edges := db.edges.deleteWhere fun key _ =>
      key.kind != kContainsEdgeKind && (db.symbols.find? key.srcId).any cleaned }

variable (symbols : AssocMap ℕ SymbolRow)

/-- The row a symbol natural key names. -/
def symbolWithKey (universeId : ℕ) (identityKey : String) : Option (ℕ × SymbolRow) :=
  symbols.entries.find? fun entry =>
    identityKey != "" && decide (entry.2.universeId = universeId) &&
      entry.2.identityKey == identityKey

/-- `INSERT INTO symbol … ON CONFLICT(semantic_universe_id,identity_key)`. -/
def upsertSymbol (staged : StagedSymbol) (fileId : ℕ) : AssocMap ℕ SymbolRow :=
  let excluded := if staged.line ≤ 0 then none else some fileId
  match symbolWithKey symbols staged.universeId staged.identityKey with
  | some (id, row) =>
    symbols.insertOrAssign id
      { row with
        fileId := if excluded.isSome ∧ row.isDefinition ≤ staged.isDefinition then excluded
          else row.fileId
        isDefinition := max staged.isDefinition row.isDefinition }
  | none =>
    symbols.insertOrAssign (nextRowId (symbols.entries.map Prod.fst))
      { universeId := staged.universeId, identityKey := staged.identityKey, usr := staged.usr,
        fileId := excluded, isDefinition := staged.isDefinition }

/-- `apply_symbols`: the rows it leaves. -/
def applySymbols : AssocMap ℕ SymbolRow :=
  p.symbols.foldl (fun symbols staged =>
    match p.plannedFile staged.fileHandle with
    | some fileId => upsertSymbol symbols staged fileId
    | none => symbols) symbols

/-- `apply_symbols`: the handles it binds. -/
def boundSymbols : SymbolMap :=
  p.symbols.filterMap fun staged =>
    (symbolWithKey symbols staged.universeId staged.identityKey).map fun found =>
      (staged.handle, found.1)

/-- The id of the only row that satisfies a test. -/
def uniqueSymbol (test : SymbolRow → Bool) : Option ℕ :=
  match symbols.entries.filter fun entry => test entry.2 with
  | [entry] => some entry.1
  | _ => none

/-- The four probes of `resolve_external_references`, in order. -/
def probe (ref : ExternalRef) : Option ℕ :=
  let sameUsr := fun (row : SymbolRow) =>
    decide (row.universeId = ref.universeId) && row.usr == ref.usr
  let withKey := fun (key : String) => (symbols.entries.find? fun entry =>
    decide (entry.2.universeId = ref.universeId) && entry.2.identityKey == key).map Prod.fst
  (ref.localKey.bind withKey)
    <|> (ref.localKey.bind fun _ => withKey ref.portableKey)
    <|> (ref.localPrefix.bind fun local_ => uniqueSymbol symbols fun row =>
          sameUsr row && local_.toList.isPrefixOf row.identityKey.toList)
    <|> (if ref.localKey.isNone then uniqueSymbol symbols sameUsr else none)

/-- `resolve_external_references`: a handle that is bound already keeps its symbol. -/
def resolveExternalReferences (map : SymbolMap) : SymbolMap :=
  map ++ p.externalRefs.filterMap fun ref => (probe symbols ref).map fun id => (ref.handle, id)

/-- The symbol map the relations are resolved with. -/
def symbolMap (db : Database) : SymbolMap :=
  let symbols := p.applySymbols db.symbols
  p.resolveExternalReferences symbols (p.boundSymbols symbols)

end Publication

namespace StagedRelation

/-- The edge a relation names, when both endpoints are bound. -/
def key? (relation : StagedRelation) (map : SymbolMap) : Option EdgeKey :=
  (map.find? relation.srcHandle).bind fun src =>
    (map.find? relation.dstHandle).map fun dst => ⟨src, dst, relation.kind⟩

/-- An endpoint that is neither bound nor a deferred reference. -/
def unresolved (relation : StagedRelation) (map : SymbolMap) (refs : List ExternalRef) : Bool :=
  let missing := fun handle =>
    (map.find? handle).isNone && !refs.any fun ref => decide (ref.handle = handle)
  missing relation.srcHandle || missing relation.dstHandle

end StagedRelation

/-- `ROW_NUMBER() OVER(PARTITION BY src_id,dst_id,kind ORDER BY ordinal DESC) = 1`. -/
def keepLast : List (EdgeKey × ℤ) → List (EdgeKey × ℤ)
  | [] => []
  | relation :: rest =>
    if rest.any fun later => later.1 = relation.1 then keepLast rest
    else relation :: keepLast rest

namespace Publication

variable (p : Publication)

/-- The edges the relations of the batch name, with the staged counts. -/
def resolvedRelations (map : SymbolMap) : List (EdgeKey × ℤ) :=
  p.relations.filterMap fun relation =>
    (relation.key? map).map fun key => (key, relation.count)

/-- `apply_relations`: the edges it leaves. -/
def applyRelations (map : SymbolMap) (edges : EdgeTable) : EdgeTable :=
  (keepLast (p.resolvedRelations map)).foldl (fun edges relation =>
    edges.upsert relation.1 relation.2) edges

/-- `apply_relations`: the relations it binds. -/
def relationMap (map : SymbolMap) (edges : EdgeTable) : RelationMap :=
  p.relations.filterMap fun relation =>
    (relation.key? map).bind fun key => (edges.find? key).map fun edge => (relation, edge.id)

/-- The generation `publish_applicability` assigns to a planned file. -/
def generation (rows : Applicability) (fileId : ℕ) : ℤ :=
  match ((rows.entries.filter fun entry =>
      decide (entry.1.fileId = fileId) && decide (entry.1.configId = p.configurationId)).map
        Prod.snd).max? with
  | some newest => newest + 1
  | none => 1

/-- The symbols the batch states, with the planned file that states them. -/
def symbolFacts (map : SymbolMap) : List (ℕ × ℕ) :=
  p.symbols.filterMap fun staged =>
    if 0 < staged.line then
      (map.find? staged.handle).bind fun id =>
        (p.plannedFile staged.fileHandle).map fun fileId => (id, fileId)
    else none

/-- The edges the batch states, with the planned file that states them. -/
def edgeFacts (relations : RelationMap) : List (ℕ × ℕ) :=
  relations.filterMap fun entry =>
    (p.plannedFile entry.1.fileHandle).map fun fileId => (entry.2, fileId)

/-- Everything published before the stale sweep. -/
def publishedFacts (map : SymbolMap) (relations : RelationMap) : List (FactKind × ℕ × ℕ) :=
  (p.symbolFacts map).map (fun fact => (.symbol, fact.1, fact.2)) ++
    (p.edgeFacts relations).map (fun fact => (.edge, fact.1, fact.2)) ++
    (p.derived.filter fun fact => p.plans fact.2.2).map fun fact =>
      (.derived fact.1, fact.2.1, fact.2.2)

/-- The diagnostics published after the stale sweep. -/
def diagnosticFacts : List (FactKind × ℕ × ℕ) :=
  (p.diagnostics.filter fun fact => p.plans fact.2).map fun fact => (.diagnostic, fact.1, fact.2)

variable (generations : ℕ → ℤ)

/-- `publish`: insert the rows under their file's generation, or move them to it. -/
def publishFacts (facts : List (FactKind × ℕ × ℕ)) (rows : Applicability) : Applicability :=
  facts.foldl (fun rows fact =>
    rows.insertOrAssign ⟨fact.1, fact.2.1, fact.2.2, p.configurationId⟩ (generations fact.2.2)) rows

/-- The row belongs to a planned file under the configuration that is published. -/
def owns (key : ApplicabilityKey) : Bool :=
  decide (key.configId = p.configurationId) && p.plans key.fileId

/-- A row of a planned file that the publication has not stated again. -/
def stale (key : ApplicabilityKey) (generation : ℤ) : Bool :=
  p.owns key && decide (generation ≠ generations key.fileId)

/-- The row says that some file states the fact. -/
def aboutFact (kind : FactKind) (id : ℕ) (key : ApplicabilityKey) : Bool :=
  decide (key.factKind = kind) && decide (key.factId = id)

/-- The fact has a stale row and no other. -/
def onlyStale (rows : Applicability) (kind : FactKind) (id : ℕ) : Bool :=
  (rows.entries.any fun entry =>
      aboutFact kind id entry.1 && p.stale generations entry.1 entry.2) &&
    !rows.entries.any fun entry =>
      aboutFact kind id entry.1 && !p.stale generations entry.1 entry.2

/-- The stale sweep: an edge goes with the symbol at either of its ends. -/
def removeStale (db : Database) : Database :=
  let edges := db.edges.deleteWhere fun _ edge =>
    p.onlyStale generations db.applicability .edge edge.id
  let symbols := db.symbols.eraseWhere fun id _ =>
    p.onlyStale generations db.applicability .symbol id
  { db with
    symbols := symbols
    edges := edges.deleteWhere fun key _ =>
      (symbols.find? key.srcId).isNone || (symbols.find? key.dstId).isNone
    applicability := db.applicability.eraseWhere fun key generation =>
      decide (key.factKind ≠ .diagnostic) && p.stale generations key generation }

/-- Some row is stale and is not a diagnostic's. -/
def hasStale (rows : Applicability) : Bool :=
  rows.entries.any fun entry =>
    decide (entry.1.factKind ≠ .diagnostic) && p.stale generations entry.1 entry.2

end Publication

/-- How many files state an edge. -/
def Database.routes (db : Database) (edgeId : ℕ) : ℕ :=
  db.applicability.countKeys (Publication.aboutFact .edge edgeId)

namespace Publication

variable (p : Publication)

/-- The count of a containment edge the batch names is the number of files that state it. -/
def deriveCounts (relations : RelationMap) (db : Database) : Database :=
  let counted := fun (key : EdgeKey) (edge : EdgeData) =>
    decide (key.kind = kContainsEdgeKind) &&
      (relations.any fun entry => decide (entry.2 = edge.id)) && decide (0 < db.routes edge.id)
  { db with edges := db.edges.setCountWhere counted fun id => db.routes id }

/-- The generation of a published file with a `file_config` row goes back to one. -/
def normaliseGenerations (db : Database) : Database :=
  { db with applicability := db.applicability.mapValues fun key generation =>
      if p.owns key && db.fileConfigs.any fun config =>
          decide (config = (key.fileId, p.configurationId)) then 1
      else generation }

/-- `publish_applicability`. -/
def publishApplicability (map : SymbolMap) (relations : RelationMap) (db : Database) : Database :=
  if p.configurationId < 0 then db
  else
    let generations := p.generation db.applicability
    let db := { db with
      fileConfigs := db.fileConfigs ++ p.registered.map fun fileId => (fileId, p.configurationId)
      applicability :=
        p.publishFacts generations (p.publishedFacts map relations) db.applicability }
    let db := if p.hasStale generations db.applicability then p.removeStale generations db else db
    let db := { db with
      applicability := p.publishFacts generations p.diagnosticFacts db.applicability }
    p.normaliseGenerations (deriveCounts relations db)

/-- `FactBatchWriter::apply_in_transaction`. -/
def applyInTransaction (db : Database) : Except String Database :=
  let map := p.symbolMap db
  let db := p.applyLifecycleCleanup db
  let db := { db with symbols := p.applySymbols db.symbols }
  match p.relations.find? fun relation => relation.unresolved map p.externalRefs with
  | some relation => .error ("relation endpoint did not resolve: " ++ toString relation.srcHandle ++
      " -> " ++ toString relation.dstHandle)
  | none =>
    let db := { db with edges := p.applyRelations map db.edges }
    .ok (p.publishApplicability map (p.relationMap map db.edges) db)

end Publication

end CppIndexer.Storage
