/-
# What the executor reads

The index as the executor sees it: the tables of `Database`, the cells of typed rows, the
key statements behind the typed views, and the graph reads it makes through `GraphQuery`.

Such a graph read runs plans of its own under the same budgets, so the reads are given for each
choice of budgets. The remaining cells of a row are a function of its key that the executor
only passes on.
-/

import CppIndexer.Query.Plan

namespace CppIndexer.Query

/-- The execution budgets of `query/exec.hpp`. -/
structure Budgets where
  traverseNode : Budget
  enumerate : Budget
  resultCap : Budget
  pathNode : Budget
  pathReconstruction : Budget

def Budgets.code : Budgets :=
  { traverseNode := some 10000, enumerate := some kEnumerateBudget, resultCap := some 1000,
    pathNode := some 10000, pathReconstruction := some 200000 }

def Budgets.unbounded : Budgets := ⟨none, none, none, none, none⟩

/-- A result cell: null, integer or text. -/
abbrev Cell := Option SqlValue

/-- `cell_less`: integers, then texts, then nulls. -/
def cellLess : Cell → Cell → Bool
  | some (.int a), some (.int b) => a < b
  | some (.int _), _ => true
  | some (.text a), some (.text b) => a < b
  | some (.text _), none => true
  | _, _ => false

/-- `cell_eq`. -/
def cellEq (a b : Cell) : Bool := !cellLess a b && !cellLess b a

/-- The rows of a statement that selects keys, in key order. -/
structure KeyRows where
  rows : List LogicalKey
  sorted : rows.Pairwise (· < ·)

namespace KeyRows

/-- `SELECT key FROM table WHERE p`. -/
def select {α : Type} {table : List α} {key : α → LogicalKey}
    (h : (table.map key).Pairwise (· < ·)) (p : α → Bool) : KeyRows :=
  ⟨(table.filter p).map key, h.sublist (List.filter_sublist.map key)⟩

/-- A union of statements, ordered by key. -/
def union (rows : List LogicalKey) : KeyRows :=
  ⟨SortUnique.sortUnique rows, SortUnique.pairwise_sortUnique rows⟩

/-- At most one row. -/
def single (present : Bool) (key : LogicalKey) : KeyRows :=
  ⟨if present then [key] else [], by cases present <;> simp⟩

/-- Keys of one part, in the order of that part. -/
def ofIds {ids : List ℤ} (h : ids.Pairwise (· < ·)) : KeyRows :=
  ⟨ids.map fun id => { a := id }, List.pairwise_map.mpr (h.imp fun hlt => Prod.Lex.left _ _ hlt)⟩

end KeyRows

/-- The occurrence of a call, as far as receivers are concerned. -/
structure CallSite where
  recvSrcKind : Option String := none
  recvTypeUsr : Option String := none
  recvTypeIsValue : Option ℤ := none

/-- A symbol a call may lead to. -/
structure Callee where
  id : ℤ
  parentUsr : Option String

/-- A `calls` edge with its sites. -/
structure CallEdge where
  peer : Callee
  sites : List CallSite

structure TypeLayer where
  typeId : ℤ
  path : String
  depth : ℤ

/-- The reads of the executor that go through `GraphQuery`. -/
structure GraphReads where
  /-- `edges_out(id, {"calls"}, kTraverseNodeBudget)`. -/
  callEdges : ℤ → List CallEdge
  isVirtualMethod : ℤ → Bool
  dispatchTargets : ℤ → List Callee
  /-- `get_by_usr`, then the USRs of its bases. -/
  basesOf : String → Option (List String)
  typeLayers : ℤ → List TypeLayer
  /-- The cells of a signature slot, from `slot_facts_for_ids`. -/
  slotCell : LogicalKey → String → Cell
  /-- The cells of a type layer. -/
  layerCell : LogicalKey → String → Cell

structure Index where
  db : Db
  /-- SQLite's `GLOB`. -/
  glob : String → String → Bool
  /-- The cells of a typed row that no column of `db` holds. -/
  otherCell : View → LogicalKey → String → Cell
  /-- `logical_row_id`. -/
  rowId : View → LogicalKey → ℤ
  /-- `ambiguous_ungrouped_file`. -/
  ambiguousFile : ℤ → Bool
  /-- The display form of a column value of a symbol. -/
  shown : String → SqlValue → Cell
  graph : Budgets → GraphReads

namespace Index

variable (idx : Index)

/-- The return types, parameters, template parameters and template arguments that satisfy the
given conditions, as slots of a signature. -/
def slots (returns : SymbolTypeRow → Bool) (parameter : ParameterRow → Bool)
    (templateParam : TemplateParamRow → Bool) (templateArg : TemplateArgRow → Bool) : KeyRows :=
  .union
    (((idx.db.symbolTypes.filter fun row => row.kind = 1 && returns row).map
        fun row => { a := row.symbolId, b := -1, c := -1, tag := 1 }) ++
      ((idx.db.parameters.filter parameter).map fun row => { row.key with tag := 2 }) ++
      ((idx.db.templateParams.filter templateParam).map
        fun row => { row.key with c := -1, tag := 3 }) ++
      (idx.db.templateArgs.filter templateArg).map fun row => { row.key with tag := 4 })

theorem edges_sorted : (idx.db.edges.map (·.id)).Pairwise (· < ·) :=
  idx.db.edges_sorted

theorem sites_sorted : (idx.db.sites.map (·.key)).Pairwise (· < ·) :=
  idx.db.sites_sorted

theorem typeNodes_sorted : (idx.db.typeNodes.map (·.id)).Pairwise (· < ·) :=
  idx.db.typeNodes_sorted

theorem parameters_sorted : (idx.db.parameters.map (·.key)).Pairwise (· < ·) :=
  idx.db.parameters_sorted

theorem templateParams_sorted : (idx.db.templateParams.map (·.key)).Pairwise (· < ·) :=
  idx.db.templateParams_sorted

theorem templateArgs_sorted : (idx.db.templateArgs.map (·.key)).Pairwise (· < ·) :=
  idx.db.templateArgs_sorted

theorem callArgs_sorted : (idx.db.callArgs.map (·.key)).Pairwise (· < ·) :=
  idx.db.callArgs_sorted

/-- The rows of a typed view in key order; the layers of types are no table. -/
def keysOf : View → KeyRows
  | .edge => .ofIds idx.edges_sorted
  | .site | .evidence => .select idx.sites_sorted fun _ => true
  | .type => .ofIds idx.typeNodes_sorted
  | .parameter => .select idx.parameters_sorted fun _ => true
  | .templateParameter => .select idx.templateParams_sorted fun _ => true
  | .templateArgument => .select idx.templateArgs_sorted fun _ => true
  | .callArgument => .select idx.callArgs_sorted fun _ => true
  | .signatureSlot => idx.slots (fun _ => true) (fun _ => true) (fun _ => true) fun _ => true
  | .symbol | .entity | .typeLayer => ⟨[], List.Pairwise.nil⟩

variable (edge : EdgeRow)

/-- `effective_count`: the stored count of a resolved graph, else the number of sites;
never zero. -/
def effectiveCount : ℤ :=
  let sites : ℤ := (idx.db.sites.filter fun site => site.edgeId = edge.id).length
  if idx.db.graphResolved then if edge.count ≠ 0 then edge.count else 1
  else if 0 < sites then sites
  else if edge.count ≠ 0 then edge.count else 1

/-- `negative_count`. -/
def negativeCount : ℤ :=
  -(if idx.db.graphResolved then edge.count
    else (idx.db.sites.filter fun site => site.edgeId = edge.id).length)

/-- The cell of a field of an `edge` row. -/
def edgeCell (field : String) : Cell :=
  match field with
  | "edge_id" => some (.int edge.id)
  | "src_id" => some (.int edge.src)
  | "dst_id" => some (.int edge.dst)
  | "kind" => some (.int edge.kind)
  | "count" => some (.int edge.count)
  | "effective_count" => some (.int (idx.effectiveCount edge))
  | "negative_count" => some (.int (idx.negativeCount edge))
  | "id" => some (.int (idx.rowId .edge { a := edge.id }))
  | field => idx.otherCell .edge { a := edge.id } field

/-- The cell of a field of an `edge_site` row, in the site or the evidence view. -/
def siteCell (view : View) (site : SiteRow) (field : String) : Cell :=
  match field with
  | "edge_id" => some (.int site.edgeId)
  | "file_id" => some (.int site.fileId)
  | "line" => some (.int site.line)
  | "col" => some (.int site.col)
  | "id" => some (.int (idx.rowId view site.key))
  | field =>
    if view = .evidence ∧ field = "conditional" then some (.int site.conditional)
    else idx.otherCell view site.key field

/-- The cell of a field of a `type_node` row. -/
def typeCell (row : TypeNodeRow) (field : String) : Cell :=
  match field with
  | "type_key" => some (.text row.typeKey)
  | "id" => some (.int (idx.rowId .type { a := row.id }))
  | field => idx.otherCell .type { a := row.id } field

/-- One entry of `fetch_typed_cells`; a key without a row has none. The default of a template
parameter is evidence too, under a key with tag 1. -/
def typedCells (graph : GraphReads) (view : View) (key : LogicalKey) (fields : List String) :
    Option (List Cell) :=
  match view with
  | .edge => (idx.db.edges.find? fun edge => edge.id = key.a).map fun edge =>
    fields.map (idx.edgeCell edge)
  | .site => (idx.db.sites.find? fun site => site.key = { key with e := 0, tag := 0 }).map
      fun site => fields.map (idx.siteCell .site site)
  | .evidence =>
    if key.tag = 1 then
      (idx.db.templateParams.find? fun row => row.key = { a := key.a, b := key.b }).map
        fun _ => fields.map (idx.otherCell .evidence key)
    else (idx.db.sites.find? fun site => site.key = { key with e := 0, tag := 0 }).map
      fun site => fields.map (idx.siteCell .evidence site)
  | .type => (idx.db.typeNodes.find? fun row => row.id = key.a).map fun row =>
    fields.map (idx.typeCell row)
  | .signatureSlot =>
    if key ∈ (idx.keysOf .signatureSlot).rows then some (fields.map (graph.slotCell key))
    else none
  | .typeLayer =>
    if 0 ≤ key.b ∧ key.b < (graph.typeLayers key.a).length then
      some (fields.map (graph.layerCell key))
    else none
  | view =>
    if key ∈ (idx.keysOf view).rows then some (fields.map (idx.otherCell view key)) else none

variable {graph : GraphReads} {fields : List String}

theorem typedCells_edge {edge : EdgeRow} (h : edge ∈ idx.db.edges) :
    idx.typedCells graph .edge { a := edge.id } fields = some (fields.map (idx.edgeCell edge)) := by
  have hfind := find?_of_nodup_keys (idx.edges_sorted.imp ne_of_lt) h
  simp [typedCells, hfind]

theorem typedCells_site {site : SiteRow} (h : site ∈ idx.db.sites) :
    idx.typedCells graph .site site.key fields = some (fields.map (idx.siteCell .site site)) := by
  have hfind := find?_of_nodup_keys (idx.sites_sorted.imp ne_of_lt) h
  have hkey : ({ site.key with e := 0, tag := 0 } : LogicalKey) = site.key := rfl
  simp [typedCells, hkey, hfind]

/-- The column of a field that is selected; there is none for a count of edges. -/
def selectColumn (field : String) : Except PlanError (Option Column) :=
  if field = "negative_count" ∨ field = "effective_count" then .ok none
  else (colExpr field).map some

/-- `fetch_cells`: the cells of symbols, with an error for a field without a column. SQLite sees the
columns only where there are ids to fetch. -/
def symbolCells (ids : List ℤ) (fields : List String) :
    Except PlanError (ℤ → Option (List Cell)) := do
  let columns ← fields.mapM selectColumn
  match columns.mapM id with
  | some columns => pure fun id => (idx.db.symbols.find? fun row => row.id = id).map fun row =>
    (fields.zip columns).map fun (field, column) =>
      (column.value idx.db row (idx.db.entityKind row.id)).bind fun value =>
        if field = "id" then some value else idx.shown field value
  | none => if ids = [] then pure fun _ => none else throw ⟨.sql, "no such column: edge.count"⟩

/-- An index of tables alone: its graph reads find nothing and no file is ambiguous. -/
def ofDb (db : Db) : Index where
  db := db
  glob pattern value := pattern = value
  otherCell _ _ _ := none
  rowId _ key := key.a
  ambiguousFile _ := false
  shown _ value := some value
  graph _ :=
    { callEdges := fun _ => [], isVirtualMethod := fun _ => false, dispatchTargets := fun _ => [],
      basesOf := fun _ => none, typeLayers := fun _ => [], slotCell := fun _ _ => none,
      layerCell := fun _ _ => none }

end Index

end CppIndexer.Query
