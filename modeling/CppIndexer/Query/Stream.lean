/-
# Streams and the stages that reshape them

The state `Exec::run_plan` threads through the stages of a plan, and the stages that neither
follow relations nor build witnesses: views, enumeration, filters, sites, set operations,
projection, order, distinctness and limits.

A stream carries the ids of symbols or the keys of typed rows, later rows of cells, or witness
paths. Its flag says that a budget has cut it.
-/

import Mathlib.Data.String.Basic
import CppIndexer.Query.Index

namespace CppIndexer.Query

open SortUnique

/-- What a stream holds. -/
inductive Shape
  | nodes
  | rows
  | scalar
  | path
  deriving DecidableEq

structure StepSite where
  fileId : Option ℤ
  line : Option ℤ
  col : Option ℤ
  deriving DecidableEq

structure PathStep where
  nodeId : ℤ
  domain : String
  through : String := ""
  inbound : Bool := false
  status : String
  position : ℤ := -1
  packIndex : ℤ := -1
  sites : List StepSite := []
  deriving DecidableEq

structure PathWitness where
  length : ℤ
  steps : List PathStep
  status : String
  deriving DecidableEq

/-- `Stream`, with the id of every row beside its cells. -/
structure Stream where
  view : View
  shape : Shape := .nodes
  ids : List ℤ := []
  keys : List LogicalKey := []
  fields : List String := []
  rows : List (List Cell × ℤ) := []
  paths : List PathWitness := []
  pathStream : Bool := false
  truncated : Bool := false
  limitInEffect : Bool := false
  deriving DecidableEq

/-! ## Predicates over typed rows -/

mutual

/-- `predicate_fields`. -/
def predicateFields : Pred → List String
  | .junction _ kids => sortUnique (predicateFieldsOf kids)
  | .not kids => sortUnique (predicateFieldsOf kids)
  | .cmp _ field _ _ => [field]
  | .quantified .. => [""]

def predicateFieldsOf : List Pred → List String
  | [] => []
  | kid :: rest => predicateFields kid ++ predicateFieldsOf rest

end

/-- The cell a string value is compared with: the kind of an edge is a relation of the symbol
layer. -/
def expectedCell (view : View) (field value : String) : Cell :=
  if view = .edge ∧ field = "kind" then
    match relationCatalog.find? fun relation =>
        relation.layer = .symbol && relation.name = value with
    | some relation => some (.int relation.kindId)
    | none => some (.text value)
  else some (.text value)

/-- A comparison in `predicate_matches`. -/
def compareCell (view : View) (op : CmpOp) (field : String) (strValues : List String)
    (intValue : Option ℤ) (value : Cell) : Bool :=
  match intValue, op, strValues with
  | some int, .eq, _ => cellEq value (some (.int int))
  | some int, _, _ => !cellEq value (some (.int int))
  | none, .inList, _ => strValues.any fun item => cellEq value (some (.text item))
  | none, .eq, first :: _ => cellEq value (expectedCell view field first)
  | none, _, first :: _ => !cellEq value (expectedCell view field first)
  | none, _, [] => false

mutual

/-- `predicate_matches`. A quantifier has no values to compare with, so that the source reads
past the end of an empty vector; it matches nothing here. -/
def predicateMatches (view : View) (fields : List String) (cells : List Cell) : Pred → Bool
  | .junction .allOf kids => (matchesOf view fields cells kids).all id
  | .junction .anyOf kids => (matchesOf view fields cells kids).any id
  | .not kids => !(matchesOf view fields cells kids).headD true
  | .cmp op field strValues intValue =>
    match cells[fields.idxOf field]? with
    | some value => compareCell view op field strValues intValue value
    | none => false
  | .quantified .. => false

/-- The answers of several predicates. -/
def matchesOf (view : View) (fields : List String) (cells : List Cell) : List Pred → List Bool
  | [] => []
  | kid :: rest => predicateMatches view fields cells kid :: matchesOf view fields cells rest

end

/-! ## Comparing rows -/

/-- Whether the first differing cells are in order; nothing where all are equal. -/
def cellsLess : List Cell → List Cell → Option Bool
  | a :: as, b :: bs => if cellEq a b then cellsLess as bs else some (cellLess a b)
  | _, _ => none

/-- Sort by cells, then by a key of their own. -/
def sortByCells {α β : Type} [LinearOrder β] (cells : α → List Cell) (key : α → β) (xs : List α) :
    List α :=
  xs.mergeSort fun x y => !(cellsLess (cells y) (cells x)).getD (key y < key x)

/-- Equal rows of `apply_distinct`. -/
def sameCells (xs ys : List Cell) : Bool :=
  xs.length = ys.length && (xs.zip ys).all fun (x, y) => cellEq x y

/-- Equal witnesses of `apply_distinct`. -/
def samePath (x y : PathWitness) : Bool :=
  x.steps.length = y.steps.length && (x.steps.zip y.steps).all fun (a, b) =>
    a.nodeId = b.nodeId && a.through = b.through && a.inbound = b.inbound &&
      a.domain = b.domain && a.position = b.position && a.packIndex = b.packIndex

/-- Leave out what repeats an earlier item. -/
def dropRepeats {α : Type} (same : α → α → Bool) (xs : List α) : List α :=
  xs.foldl (fun kept x => if kept.any fun prev => same prev x then kept else kept ++ [x]) []

export Option (mapM_eq_some_map)

theorem mapM_id_of_isSome {columns : List (Option Column)}
    (h : ∀ column ∈ columns, column.isSome = true) :
    columns.mapM id = some (columns.map (·.getD .id)) := by
  apply mapM_eq_some_map
  intro column hmem
  obtain ⟨_, rfl⟩ := Option.isSome_iff_exists.mp (h column hmem)
  rfl

namespace Exec

variable (idx : Index) (budgets : Budgets) (st : Stream) (fields : List String)

/-- `fetch_typed_cells`. -/
def typedCells (key : LogicalKey) : Option (List Cell) :=
  idx.typedCells (idx.graph budgets) st.view key fields

/-- `reject_ambiguous_ungrouped`. -/
def rejectAmbiguous : Except PlanError Unit :=
  if (st.view = .callArgument ∨ st.view = .site ∨ st.view = .evidence) ∧
      st.keys.any (fun key => !(st.view = .evidence && key.tag = 1) && idx.ambiguousFile key.b) then
    .error ⟨.identity, "ambiguous ungrouped component identity"⟩
  else .ok ()

/-- `resolve_source`: the first of USR, qualified name and spelling that names some symbol. -/
def resolveSource (source : Source) : List ℤ :=
  let nodes := if source.kind = .entity then
      idx.db.symbols.filter fun row => row.id ∈ idx.db.entityNodes.map Prod.fst
    else idx.db.symbols
  let named (column : SymbolColumn) : List ℤ :=
    (nodes.filter fun row => row.column column = some (.text source.ref)).map (·.id)
  if named .usr ≠ [] then named .usr
  else if named .qualName ≠ [] then named .qualName
  else named .spelling

/-- `change_view`. -/
def changeView (level : View) : Stream :=
  if !level.isNode then { st with ids := [], keys := [], view := level }
  else
    let st := if st.view.isNode then st else { st with keys := [] }
    let ids := if level = .entity ∧ st.view ≠ .entity then
        sortUnique (st.ids.filter fun id => id ∈ idx.db.entityNodes.map Prod.fst ++
          idx.db.entityEdges.map (·.src) ++ idx.db.entityEdges.map (·.dst))
      else st.ids
    { st with ids := ids, view := level }

/-- `filter`. -/
def filter (pred : Pred) (unknown : UnknownPolicy) : Except PlanError Stream :=
  if st.view.isNode then
    (filterNodes idx.glob idx.db st.view pred unknown st.ids).map fun ids => { st with ids := ids }
  else
    let fields := predicateFields pred
    .ok { st with keys := st.keys.filter fun key =>
      (typedCells idx budgets st fields key).any fun cells =>
        predicateMatches st.view fields cells pred }

/-- The integer an equality compares one field with. -/
def intEquality : Option Pred → Option (String × ℤ)
  | some (.cmp .eq field _ (some value)) => some (field, value)
  | _ => none

/-- The edges whose named end, or whose id, is the given one. -/
def edgesWith (field : String) (value : ℤ) : List EdgeRow :=
  idx.db.edges.filter fun edge =>
    (if field = "edge_id" then edge.id else if field = "src_id" then edge.src else edge.dst) = value

/-- The sites of an edge in file order. -/
def sitesOf (edgeId : ℤ) : List LogicalKey :=
  (idx.db.sites.filter fun site => site.edgeId = edgeId).map (·.key)

/-- Put enumerated keys in a stream, cut at a bound that raises the flag. -/
def withKeys (bound : Budget) (keys : List LogicalKey) : Stream :=
  { st with keys := bound.cut keys, truncated := st.truncated || bound.exceeded keys.length }

variable (pred : Option Pred) (unknown : UnknownPolicy)

/-- Keep the rows that match an optional predicate. -/
def filterWith : Except PlanError Stream :=
  match pred with
  | some pred => filter idx budgets st pred unknown
  | none => .ok st

/-- `enumerate` of a view without a fast path. The statement over type layers binds a value it
has no place for. -/
def enumerateAll (afterId : Option ℤ) : Except PlanError Stream :=
  if st.view.isNode then
    (enumerateNodes idx.glob idx.db budgets.enumerate st.view pred unknown afterId).map
      fun (ids, cut) => { st with ids := ids, truncated := st.truncated || cut }
  else if st.view = .typeLayer then .error ⟨.sql, "column index out of range"⟩
  else
    let keys := (idx.keysOf st.view).rows
    let keys := if st.view = .edge then keys.filter fun key => afterId.all fun id => id < key.a
      else keys
    filterWith idx budgets (withKeys st budgets.enumerate keys) pred unknown

/-- `enumerate`. An equality on the edge of an `edge` or `site` row is answered by one statement
with a limit of its own; the cut of sites does not raise the flag. -/
def enumerate (afterId : Option ℤ) (nodeLimit : Option ℕ) : Except PlanError Stream :=
  match st.view, intEquality pred with
  | .edge, some (field, value) =>
    if field ∈ ["edge_id", "src_id", "dst_id"] then
      .ok (withKeys st (nodeLimit.or budgets.enumerate)
        (((edgesWith idx field value).filter fun edge => afterId.all fun id => id < edge.id).map
          fun edge => { a := edge.id }))
    else enumerateAll idx budgets st pred unknown afterId
  | .site, some (field, value) =>
    if field = "edge_id" ∧ afterId = none then
      let sites := Budget.cut (nodeLimit.or budgets.traverseNode) (sitesOf idx value)
      .ok { st with keys := st.keys ++ sites }
    else enumerateAll idx budgets st pred unknown afterId
  | _, _ => enumerateAll idx budgets st pred unknown afterId

/-- Collect the sites of edges until the budget is exceeded. A stream that is cut already
gives up after its first edge. -/
def collectSites (cut : Bool) : List LogicalKey → List LogicalKey → List LogicalKey × Bool
  | [], sites => (sites, cut)
  | edge :: rest, sites =>
    let found := sites ++ sitesOf idx edge.a
    if budgets.traverseNode.exceeded found.length then (budgets.traverseNode.peek found, true)
    else if cut then (found, cut)
    else collectSites cut rest found

/-- `expand_sites`. -/
def expandSites : Stream :=
  let (sites, cut) := collectSites idx budgets st.truncated (sortUnique st.keys) []
  { st with view := .site, ids := [], keys := budgets.traverseNode.cut (sortUnique sites),
            truncated := cut }

/-- `set_op`, given the stream of the operand. -/
def setOp (st sub : Stream) (op : SetOp) : Stream :=
  let st := { st with truncated := st.truncated || sub.truncated }
  if st.view.isNode then { st with ids := op.apply (sortUnique st.ids) (sortUnique sub.ids) }
  else { withKeys st budgets.traverseNode (op.apply (sortUnique st.keys) (sortUnique sub.keys))
    with ids := [] }

/-- `materialize`: a typed stream gives up its keys, another its ids. -/
def materialize : Except PlanError Stream := do
  rejectAmbiguous idx st
  if st.keys ≠ [] ∨ !st.view.isNode then
    pure { st with fields := fields, keys := [], rows := st.keys.filterMap fun key =>
      (typedCells idx budgets st fields key).map fun cells => (cells, idx.rowId st.view key) }
  else
    let cells ← idx.symbolCells st.ids fields
    pure { st with fields := fields, ids := [], rows := st.ids.filterMap fun id =>
      (cells id).map fun cells => (cells, id) }

/-- `apply_distinct`. -/
def applyDistinct : Stream :=
  match st.shape with
  | .path => { st with paths := dropRepeats samePath st.paths }
  | .nodes =>
    if st.keys ≠ [] then { st with keys := sortUnique st.keys }
    else { st with ids := sortUnique st.ids }
  | _ => { st with rows := dropRepeats (fun x y => sameCells x.1 y.1) st.rows }

/-- Sort nodes by their cells; a node without a row is an error as soon as two are compared. -/
def orderNodes {α : Type} [LinearOrder α] (cells : α → Option (List Cell)) (nodes : List α) :
    Except PlanError (List α) :=
  match nodes.mapM fun node => (cells node).map fun cells => (cells, node) with
  | some rows => .ok ((sortByCells Prod.fst Prod.snd rows).map Prod.snd)
  | none => if nodes.length < 2 then .ok nodes else .error ⟨.range, "map::at"⟩

/-- `apply_order`. -/
def applyOrder : Except PlanError Stream :=
  if st.shape = .nodes then
    if st.keys ≠ [] then
      (orderNodes (typedCells idx budgets st fields) st.keys).map fun keys => { st with keys := keys }
    else do
      let cells ← idx.symbolCells st.ids fields
      let ids ← orderNodes cells st.ids
      pure { st with ids := ids }
  else
    let cellsOf (row : List Cell) : List Cell :=
      fields.map fun field => (row[st.fields.idxOf field]?).join
    .ok { st with rows := sortByCells (fun row => cellsOf row.1) Prod.snd st.rows }

/-- `apply_limit`. -/
def applyLimit (n : ℤ) : Stream :=
  let st := { st with limitInEffect := true }
  match st.shape with
  | .path => { st with paths := st.paths.take n.toNat }
  | .nodes =>
    if st.keys ≠ [] then { st with keys := st.keys.take n.toNat }
    else { st with ids := st.ids.take n.toNat }
  | _ => { st with rows := st.rows.take n.toNat }

end Exec

end CppIndexer.Query
