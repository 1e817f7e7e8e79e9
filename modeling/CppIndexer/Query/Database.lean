/-
# The index database

The tables of the SQLite index that queries read, with the keys the schema in
`storage/storage_schema.cpp` declares. Rows are listed in primary-key order, which
is the order SQLite returns them in under the `ORDER BY` clauses of the executor.
Columns that no modelled statement reads are left out.
-/

import Mathlib.Data.List.Sort
import Mathlib.Data.Int.Order.Basic
import Mathlib.Data.Prod.Lex

namespace CppIndexer.Query

/-- A stored value; SQL `NULL` is the absence of one. -/
inductive SqlValue
  | int (value : ℤ)
  | text (value : String)
  deriving DecidableEq

/-- The columns of `symbol` a query reads besides its key. -/
inductive SymbolColumn
  | usr | spelling | qualName | kind | fileId | line | col | declPath
  | isDefinition | isPure | isStatic | callableKind | templateOrigin | templateForm
  | parentUsr | multiDef | identityKey | semanticUniverseId
  deriving DecidableEq

/-- A row of `symbol`. -/
structure SymbolRow where
  id : ℤ
  column : SymbolColumn → Option SqlValue

/-- `COALESCE(qual_name, spelling)`. -/
def SymbolRow.name (row : SymbolRow) : Option SqlValue :=
  (row.column .qualName).or (row.column .spelling)

/-- A row of `edge`; `(src, dst, kind)` is unique too. -/
structure EdgeRow where
  id : ℤ
  src : ℤ
  dst : ℤ
  kind : ℤ
  count : ℤ := 1
  deriving DecidableEq

/-- The endpoints and kind of a row of `entity_edge`. -/
structure EntityEdgeRow where
  src : ℤ
  dst : ℤ
  kind : ℤ
  deriving DecidableEq

/-- The end a traversal starts from. -/
def EntityEdgeRow.source (edge : EntityEdgeRow) (inbound : Bool) : ℤ :=
  if inbound then edge.dst else edge.src

/-- The end a traversal leads to. -/
def EntityEdgeRow.target (edge : EntityEdgeRow) (inbound : Bool) : ℤ :=
  if inbound then edge.src else edge.dst

/-- The key of a row of a typed view; unused parts are zero. -/
structure LogicalKey where
  a : ℤ
  b : ℤ := 0
  c : ℤ := 0
  d : ℤ := 0
  e : ℤ := 0
  tag : ℤ := 0
  deriving DecidableEq

namespace LogicalKey

/-- Keys are compared part by part. -/
def tuple (key : LogicalKey) : ℤ ×ₗ ℤ ×ₗ ℤ ×ₗ ℤ ×ₗ ℤ ×ₗ ℤ :=
  toLex (key.a, toLex (key.b, toLex (key.c, toLex (key.d, toLex (key.e, key.tag)))))

theorem tuple_injective : Function.Injective tuple := by
  intro x y h
  cases x
  cases y
  simpa [tuple] using h

instance : LinearOrder LogicalKey := LinearOrder.lift' tuple tuple_injective

theorem lt_iff {x y : LogicalKey} : x < y ↔ x.tuple < y.tuple := Iff.rfl

theorem ofId_lt_ofId {x y : ℤ} : ({ a := x } : LogicalKey) < { a := y } ↔ x < y := by
  simp [lt_iff, tuple, Prod.Lex.toLex_lt_toLex]

end LogicalKey

/-- A row of `edge_site`, keyed by all but its flag. -/
structure SiteRow where
  edgeId : ℤ
  fileId : ℤ
  line : ℤ
  col : ℤ
  conditional : ℤ := 0
  deriving DecidableEq

def SiteRow.key (site : SiteRow) : LogicalKey :=
  { a := site.edgeId, b := site.fileId, c := site.line, d := site.col }

theorem SiteRow.key_lt_key {x y : SiteRow} (hedge : x.edgeId = y.edgeId) :
    x.key < y.key ↔ x.fileId < y.fileId ∨ x.fileId = y.fileId ∧
      (x.line < y.line ∨ x.line = y.line ∧ x.col < y.col) := by
  simp [LogicalKey.lt_iff, LogicalKey.tuple, SiteRow.key, Prod.Lex.toLex_lt_toLex, hedge]

/-- A row of `type_node`. -/
structure TypeNodeRow where
  id : ℤ
  typeKey : String
  declId : Option ℤ := none
  canonicalId : Option ℤ := none

/-- A row of `type_edge`. -/
structure TypeEdgeRow where
  src : ℤ
  kind : ℤ
  position : ℤ := 0
  dst : ℤ

/-- A row of `symbol_type`. -/
structure SymbolTypeRow where
  symbolId : ℤ
  kind : ℤ
  typeId : ℤ

/-- A row of `parameter`. -/
structure ParameterRow where
  ownerId : ℤ
  position : ℤ
  packIndex : ℤ := -1
  typeId : Option ℤ := none
  declaredTypeId : Option ℤ := none
  adjustedTypeId : Option ℤ := none
  fileId : Option ℤ := none
  line : Option ℤ := none
  col : Option ℤ := none

def ParameterRow.key (row : ParameterRow) : LogicalKey :=
  { a := row.ownerId, b := row.position, c := row.packIndex }

/-- A row of `template_param`. -/
structure TemplateParamRow where
  ownerId : ℤ
  position : ℤ
  typeId : Option ℤ := none
  defaultTxt : Option String := none
  defaultTypeId : Option ℤ := none
  defaultRefId : Option ℤ := none

def TemplateParamRow.key (row : TemplateParamRow) : LogicalKey :=
  { a := row.ownerId, b := row.position }

/-- A row of `template_arg`. -/
structure TemplateArgRow where
  ownerId : ℤ
  position : ℤ
  packIndex : ℤ := -1
  refId : Option ℤ := none
  typeId : Option ℤ := none

/-- The primary key of a template argument. -/
def TemplateArgRow.key (row : TemplateArgRow) : LogicalKey :=
  { a := row.ownerId, b := row.position, c := row.packIndex }

/-- A row of `call_arg`. -/
structure CallArgRow where
  edgeId : ℤ
  fileId : ℤ
  line : ℤ
  col : ℤ
  position : ℤ
  typeId : Option ℤ := none
  declId : Option ℤ := none

/-- The primary key of a call argument. -/
def CallArgRow.key (row : CallArgRow) : LogicalKey :=
  { a := row.edgeId, b := row.fileId, c := row.line, d := row.col, e := row.position }

/-! ## The database -/

namespace Db

theorem noEntityNodes_sorted : (([] : List (ℤ × ℤ)).map Prod.fst).Pairwise (· < ·) := by decide

theorem noEdges_sorted : (([] : List EdgeRow).map (·.id)).Pairwise (· < ·) := by decide

theorem noSites_sorted : (([] : List SiteRow).map (·.key)).Pairwise (· < ·) := by decide

theorem noTypeNodes_sorted : (([] : List TypeNodeRow).map (·.id)).Pairwise (· < ·) := by decide

theorem noParameters_sorted : (([] : List ParameterRow).map (·.key)).Pairwise (· < ·) := by decide

theorem noTemplateParams_sorted : (([] : List TemplateParamRow).map (·.key)).Pairwise (· < ·) := by decide

theorem noTemplateArgs_sorted : (([] : List TemplateArgRow).map (·.key)).Pairwise (· < ·) := by decide

theorem noCallArgs_sorted : (([] : List CallArgRow).map (·.key)).Pairwise (· < ·) := by decide

theorem noEdges_unique : (([] : List EdgeRow).map fun edge => (edge.src, edge.dst, edge.kind)).Nodup := by
  decide

theorem noTypeNodes_unique : (([] : List TypeNodeRow).map (·.typeKey)).Nodup := by decide

end Db

/-- The index database. -/
structure Db where
  symbols : List SymbolRow := []
  /-- `entity_node`: entity id and classification. -/
  entityNodes : List (ℤ × ℤ) := []
  edges : List EdgeRow := []
  entityEdges : List EntityEdgeRow := []
  sites : List SiteRow := []
  typeNodes : List TypeNodeRow := []
  typeEdges : List TypeEdgeRow := []
  symbolTypes : List SymbolTypeRow := []
  parameters : List ParameterRow := []
  templateParams : List TemplateParamRow := []
  templateArgs : List TemplateArgRow := []
  callArgs : List CallArgRow := []
  /-- `semantic_universe`: id and key. -/
  semanticUniverses : List (ℤ × String) := []
  /-- `meta.graph_resolved_at` is set. -/
  graphResolved : Bool := true
  symbols_sorted : (symbols.map (·.id)).Pairwise (· < ·) := by decide
  entityNodes_sorted : (entityNodes.map Prod.fst).Pairwise (· < ·) := by
    first | exact Db.noEntityNodes_sorted | decide
  edges_sorted : (edges.map (·.id)).Pairwise (· < ·) := by
    first | exact Db.noEdges_sorted | decide
  edges_unique : (edges.map fun edge => (edge.src, edge.dst, edge.kind)).Nodup := by
    first | exact Db.noEdges_unique | decide
  edges_closed : ∀ edge ∈ edges, edge.src ∈ symbols.map (·.id) ∧ edge.dst ∈ symbols.map (·.id) := by
    decide
  sites_sorted : (sites.map (·.key)).Pairwise (· < ·) := by
    first | exact Db.noSites_sorted | decide
  typeNodes_sorted : (typeNodes.map (·.id)).Pairwise (· < ·) := by
    first | exact Db.noTypeNodes_sorted | decide
  typeNodes_unique : (typeNodes.map (·.typeKey)).Nodup := by
    first | exact Db.noTypeNodes_unique | decide
  parameters_sorted : (parameters.map (·.key)).Pairwise (· < ·) := by
    first | exact Db.noParameters_sorted | decide
  templateParams_sorted : (templateParams.map (·.key)).Pairwise (· < ·) := by
    first | exact Db.noTemplateParams_sorted | decide
  templateArgs_sorted : (templateArgs.map (·.key)).Pairwise (· < ·) := by
    first | exact Db.noTemplateArgs_sorted | decide
  callArgs_sorted : (callArgs.map (·.key)).Pairwise (· < ·) := by
    first | exact Db.noCallArgs_sorted | decide

theorem find?_of_nodup_keys {α β : Type} [DecidableEq β] {key : α → β} {rows : List α} {row : α}
    (hnodup : (rows.map key).Nodup) (hmem : row ∈ rows) :
    rows.find? (fun other => key other = key row) = some row := by
  induction rows with
  | nil => cases hmem
  | cons first _ ih =>
    obtain ⟨hfirst, hrest⟩ := List.nodup_cons.mp hnodup
    by_cases heq : key first = key row
    · have hrow : row = first := by
        cases hmem with
        | head => rfl
        | tail _ htail => exact absurd (heq ▸ List.mem_map_of_mem htail) hfirst
      simp [hrow]
    · rw [List.find?_cons_of_neg (by simpa using heq)]
      cases hmem with
      | head => exact absurd rfl heq
      | tail _ htail => exact ih hrest htail

/-- The table a relation layer keeps its edges in. -/
inductive EdgeTable
  | edge
  | entityEdge

namespace Db

variable (db : Db)

/-- The rows `(src_id, dst_id, kind)` of an edge table. -/
def endpoints : EdgeTable → List EntityEdgeRow
  | .edge => db.edges.map fun edge => ⟨edge.src, edge.dst, edge.kind⟩
  | .entityEdge => db.entityEdges

/-- `entity_node.kind` of an id, `NULL` without a row. -/
def entityKind (id : ℤ) : Option SqlValue :=
  (db.entityNodes.find? fun node => node.1 = id).map fun node => .int node.2

/-- `semantic_universe.key` of a universe id. -/
def universeKey (id : Option SqlValue) : Option SqlValue :=
  (db.semanticUniverses.find? fun row => id = some (.int row.1)).map fun row => .text row.2

end Db

end CppIndexer.Query
