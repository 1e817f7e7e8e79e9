/-
# Graph queries

The reads of `GraphQuery` that traversals are made of. Symbols, edges and the candidates for the other
end of an edge are read by plans through `run_fast`; a walk and the search for a path go through the
edges of one node after another.

The kinds of edges are the relations of the symbol layer. A kind is given by its name, an edge has its
id.
-/

import CppIndexer.Graph.OrderedIds
import CppIndexer.Lib.BreadthFirst

namespace CppIndexer.Graph

open Query BreadthFirst

/-- What stops a graph query. -/
inductive GraphError
  | read (error : ReadError)
  /-- `E_COMPAT_TRUNCATED: QueryPlan candidate set was truncated`. -/
  | compatTruncated
  | invalidArgument (message : String)
  deriving DecidableEq

/-- What `catch (const query::PlanError &)` catches; SQLite and `std::map` have errors of their own. -/
def GraphError.isPlanError : GraphError → Bool
  | .read (.plan error) => decide (error.code ≠ .sql ∧ error.code ≠ .range)
  | .compatTruncated => true
  | _ => false

/-! ## Kinds of edges -/

/-- `edge_kinds_map`, with the names in the order of the catalogue. -/
def edgeKindsMap : List (String × ℤ) :=
  (relationCatalog.filter fun relation => relation.layer = .symbol).map fun relation =>
    (relation.name, relation.kindId)

/-- `edge_kinds_map().find`. -/
def edgeKind? (name : String) : Option ℤ :=
  (edgeKindsMap.find? fun kind => kind.1 = name).map Prod.snd

/-- `edge_names_map().find`. -/
def edgeName? (id : ℤ) : Option String :=
  (edgeKindsMap.find? fun kind => kind.2 = id).map Prod.fst

def unknownEdgeKind (name : String) : String :=
  let valid := (edgeKindsMap.map Prod.fst).mergeSort fun x y => decide (x ≤ y)
  "unknown edge kind '" ++ name ++ "'; valid: [" ++
    ", ".intercalate (valid.map fun kind => "'" ++ kind ++ "'") ++ "]"

/-- `kind_ids`. An empty list of names is no filter either. -/
def kindIds (kinds : Option (List String)) : Except GraphError (Option (List ℤ)) :=
  match kinds with
  | none => .ok none
  | some kinds => do
      let out ← kinds.mapM fun name =>
        match edgeKind? name with
        | some id => .ok id
        | none => .error (.invalidArgument (unknownEdgeKind name))
      pure (if out = [] then none else some out)

/-! ## Plans -/

/-- `eq(field, value)` of an integer field. -/
def eqInt (field : String) (value : ℤ) : Pred := .cmp .eq field [] (some value)

/-- `nodes(pred)`, with the policy that leaves out what is unknown. -/
def nodesOf (pred : Pred) : Stage := .nodes (some pred) .exclude

/-- The fields of an edge that `adapter_edge_rows` reads. -/
def edgeFields : List String :=
  ["edge_id", "src_id", "dst_id", "kind", "effective_count", "negative_count", "base_access",
    "is_virtual"]

/-- The order of `adapter_edge_rows`. -/
def edgeOrder : List String := ["negative_count", "kind", "edge_id"]

/-- The edges at one end of a symbol, in order. -/
def edgeStages (symId : ℤ) (direction : String) : List Stage :=
  [.changeView .edge, nodesOf (eqInt (if direction = "in" then "dst_id" else "src_id") symId),
    .select edgeFields, .orderBy edgeOrder]

/-- The plan of `adapter_edge_rows`. -/
def edgePlan (symId : ℤ) (direction : String) (limit : ℤ) : Plan :=
  .mk { kind := .codebase }
    (edgeStages symId direction ++ if 0 < limit then [.limit limit] else [])

/-- A row of `adapter_edge_rows`. -/
structure PlannedEdge where
  edgeId : ℤ
  srcId : ℤ
  dstId : ℤ
  kindId : ℤ
  count : ℤ
  baseAccess : ℤ
  isVirtual : ℤ

/-- `int_cell`: an integer, or zero. -/
def intCell : Cell → ℤ
  | some (.int value) => value
  | _ => 0

/-- The row of some cells; rows of another size are skipped. -/
def plannedEdge? : List Cell → Option PlannedEdge
  | [edgeId, srcId, dstId, kindId, count, _, baseAccess, isVirtual] =>
    some ⟨intCell edgeId, intCell srcId, intCell dstId, intCell kindId, intCell count,
      intCell baseAccess, intCell isVirtual⟩
  | _ => none

/-- `Edge`, without its sites. -/
structure Edge where
  edgeId : ℤ
  kind : String
  srcId : ℤ
  dstId : ℤ
  peer : SymbolRow
  count : ℤ
  baseAccess : ℤ
  isVirtual : Bool

/-- `Traversal`: nodes, depths and parents, in the order of insertion. -/
abbrev Traversal := List (Visit ℤ SymbolRow)

namespace GraphQuery

variable (idx : Index) (paths : FilePaths idx)

/-- `graph_symbol_by_id`. -/
def symbolById (id : ℤ) : Option SymbolRow := idx.db.symbols.find? fun row => row.id = id

/-- `run_fast`, which validates the plan first. -/
def runFast (plan : Plan) : Except GraphError Result := do
  let normal ← (validate plan).mapError fun e => .read (.plan e)
  (Exec.runFast idx { budgets := .code } paths normal none).mapError fun e => .read (.plan e)

/-- `adapter_ids`. -/
def adapterIds (plan : Plan) : Except GraphError (List ℤ) := do
  let result ← runFast idx paths (.mk plan.source (plan.stages ++ [.select ["id"]]))
  if result.truncated then throw .compatTruncated
  (result.rows.filter (· ≠ [])).mapM fun row => (intOf row.head?.join).mapError .read

/-- `get_by_id`. -/
def getById (id : ℤ) : Except GraphError (Option SymbolRow) := do
  let ids ← adapterIds idx paths (.mk { kind := .codebase } [nodesOf (eqInt "id" id)])
  pure (if id ∈ ids then symbolById idx id else none)

/-- The text of a symbol's USR. -/
def usrOf (row : SymbolRow) : String :=
  match row.column .usr with
  | some (.text usr) => usr
  | _ => ""

/-- `plan_for`. -/
def planFor (symId : ℤ) (relation : Option String) (direction : String) (minDepth maxDepth : ℤ) :
    Except GraphError Plan := do
  match ← getById idx paths symId with
  | none =>
    pure (.mk { kind := .codebase }
      [nodesOf (.junction .allOf [eqInt "id" (-1), eqInt "id" (-2)])])
  | some sym =>
    let source : Source := { kind := .symbol, ref := usrOf sym }
    match relation with
    | none => pure (.mk source [])
    | some relation =>
      if direction = "out" then
        pure (.mk source [.traverse false { name := relation } .static minDepth maxDepth])
      else if direction = "in" then
        pure (.mk source [.traverse true { name := relation } .static minDepth maxDepth])
      else throw (.invalidArgument "direction must be 'in' or 'out'")

/-- `adapter_symbol_exists`. -/
def adapterSymbolExists (symId : ℤ) : Except GraphError Bool := do
  let result ← runFast idx paths (.mk { kind := .codebase }
    [nodesOf (eqInt "id" symId), .select ["id", "kind", "name", "is_definition"]])
  pure (decide (result.rows ≠ []))

/-- The loop of `adapter_peer_ids` over the kinds: without candidates once a plan is refused. -/
def candidateIds (symId : ℤ) (direction : String) : List ℤ → List ℤ → Except GraphError (Option (List ℤ))
  | [], ids => .ok (some ids)
  | relation :: rest, ids =>
    match edgeName? relation with
    | none => candidateIds symId direction rest ids
    | some name =>
      match planFor idx paths symId (some name) direction 1 1 >>= adapterIds idx paths with
      | .ok rows => candidateIds symId direction rest (ids ++ rows)
      | .error error => if error.isPlanError then .ok none else .error error

/-- `adapter_peer_ids`. -/
def adapterPeerIds (symId : ℤ) (direction : String) (kindIds : Option (List ℤ)) :
    Except GraphError (Option (List ℤ)) :=
  match kindIds with
  | none | some [] => do
      let _ ← planFor idx paths symId none "out" 1 1 >>= adapterIds idx paths
      pure none
  | some relations => candidateIds idx paths symId direction relations []

/-- `adapter_edge_rows`. -/
def adapterEdgeRows (symId : ℤ) (direction : String) (limit : ℤ) : Except GraphError (List PlannedEdge) :=
  if limit = 0 then .ok []
  else do
    let result ← runFast idx paths (edgePlan symId direction limit)
    pure (result.rows.filterMap plannedEdge?)

/-- The loop of `edges` over the planned rows. -/
def collectEdges (direction : String) (kindIds candidates : Option (List ℤ)) (limit : ℤ) :
    List PlannedEdge → List Edge → List Edge
  | [], out => out
  | row :: rest, out =>
    let peerId := if direction = "in" then row.srcId else row.dstId
    if candidates.any fun ids => peerId ∉ ids then
      collectEdges direction kindIds candidates limit rest out
    else if kindIds.any fun ids => row.kindId ∉ ids then
      collectEdges direction kindIds candidates limit rest out
    else
      match symbolById idx peerId with
      | none => collectEdges direction kindIds candidates limit rest out
      | some peer =>
        let out := out ++ [{
          edgeId := row.edgeId, kind := (edgeName? row.kindId).getD (toString row.kindId)
          srcId := row.srcId, dstId := row.dstId, peer := peer, count := row.count
          baseAccess := row.baseAccess, isVirtual := row.isVirtual ≠ 0 }]
        if 0 < limit ∧ limit ≤ out.length then out
        else collectEdges direction kindIds candidates limit rest out

/-- `edges`, without sites. -/
def edges (symId : ℤ) (direction : String) (kindIds : Option (List ℤ)) (limit : ℤ) :
    Except GraphError (List Edge) := do
  if limit = 0 then
    return []
  if !(← adapterSymbolExists idx paths symId) then
    return []
  let candidates ← adapterPeerIds idx paths symId direction kindIds
  if candidates = some [] then
    return []
  let rows ← adapterEdgeRows idx paths symId direction (if candidates.isSome then -1 else limit)
  pure (collectEdges idx direction kindIds candidates limit rows [])

/-- `peers`. -/
def peers (symId : ℤ) (kinds : Option (List String)) (direction : String) (limit : ℤ) :
    Except GraphError (List SymbolRow) := do
  let edges ← edges idx paths symId direction (← kindIds kinds) limit
  pure (edges.map (·.peer))

/-- `walk`. -/
def walk (startId : ℤ) (kinds : Option (List String)) (direction : String) (depth maxNodes : ℤ) :
    Except GraphError Traversal := do
  match ← getById idx paths startId with
  | none => pure []
  | some start =>
    let kids ← kindIds kinds
    let next := fun node => (edges idx paths node direction kids maxNodes).map
      (List.map fun edge : Edge => edge.peer)
    let progress ← search (fun row : SymbolRow => row.id) next
      (fun count _ => decide (maxNodes ≤ count)) depth.toNat start
    pure progress.seen

/-- `reaches`. -/
def reaches (srcId dstId : ℤ) (kinds : Option (List String)) (direction : String) (maxDepth : ℤ) :
    Except GraphError (Option (List SymbolRow)) := do
  match ← getById idx paths srcId, ← getById idx paths dstId with
  | some s, some t =>
    if s.id = t.id then
      pure (some [s])
    else
      let _ ← kindIds kinds
      let progress ← search (fun row : SymbolRow => row.id)
        (fun node => peers idx paths node kinds direction 500) (fun _ node => decide (node = t.id))
        maxDepth.toNat s
      if progress.stopped then
        let chain := (parents (fun row : SymbolRow => row.id) progress.seen maxDepth.toNat t.id).reverse
        let path ← chain.mapM fun id =>
          if id = s.id then pure (some s) else if id = t.id then pure (some t)
          else getById idx paths id
        pure (some (path.filterMap id))
      else pure none
  | _, _ => pure none

end GraphQuery

end CppIndexer.Graph
