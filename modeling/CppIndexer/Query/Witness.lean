/-
# Witness paths

`Exec::path_stage`, `Exec::rank_stage` and `Exec::reverse_type_use_stage`. A path search follows
a relation level by level from each start and rebuilds the simple paths of the first length in
the window that has one; a reverse type use climbs from a type to the types it is part of and
reports the declarations that use them.

Reading levels, rebuilding paths and keeping results have budgets of their own.
-/

import CppIndexer.Query.Traverse

namespace CppIndexer.Query

open SortUnique

/-! ## The order of witnesses -/

/-- Whether the first differing parts of two steps are in order; nothing where all are equal. -/
def stepLess (a b : PathStep) : Option Bool :=
  if a.nodeId ≠ b.nodeId then some (a.nodeId < b.nodeId)
  else if a.domain ≠ b.domain then some (a.domain < b.domain)
  else if a.through ≠ b.through then some (a.through < b.through)
  else if a.inbound ≠ b.inbound then some (!a.inbound && b.inbound)
  else if a.position ≠ b.position then some (a.position < b.position)
  else if a.packIndex ≠ b.packIndex then some (a.packIndex < b.packIndex)
  else none

/-- `witness_less`. -/
def witnessLess (x y : PathWitness) : Bool :=
  if x.length ≠ y.length then x.length < y.length
  else ((x.steps.zip y.steps).findSome? fun (a, b) => stepLess a b).getD
    (x.steps.length < y.steps.length)

/-- `sort_and_cap_witnesses`. -/
def sortAndCapWitnesses (resultCap : Budget) (results : List PathWitness) (cap : ℤ)
    (truncated : Bool) : List PathWitness × Bool :=
  let sorted := results.mergeSort fun x y => !witnessLess y x
  let kept := if 0 < cap then sorted.take cap.toNat else sorted
  (resultCap.cut kept, truncated || resultCap.exceeded kept.length)

/-! ## Rebuilding paths -/

/-- The rows `(parent, child)` one level of a path search has read. -/
abbrev LevelRows := List (ℤ × ℤ)

/-- The children of a node at one level, in order. -/
def successors (rows : LevelRows) (parent : ℤ) : List ℤ :=
  sortUnique ((rows.filter fun row => row.1 = parent).map Prod.snd)

/-- The chains rebuilt so far, the descents made, and whether their budget is used up. -/
structure Rebuild where
  chains : List (List ℤ) := []
  descents : ℕ := 0
  exceeded : Bool := false

/-- `enumerate` of `reconstruct`: extend a chain through the remaining levels. A node may repeat
only to close a cycle at the end. -/
def descend (budgets : Budgets) (targets : List ℤ) (start : ℤ) :
    List LevelRows → List ℤ → Rebuild → Rebuild
  | levels, chain, acc =>
    if budgets.resultCap.exceeded acc.chains.length || acc.exceeded then acc
    else if budgets.pathReconstruction.exceeded (acc.descents + 1) then
      { acc with descents := acc.descents + 1, exceeded := true }
    else
      let acc := { acc with descents := acc.descents + 1 }
      match levels with
      | [] =>
        if chain.getLastD start ∈ targets then { acc with chains := acc.chains ++ [chain] }
        else acc
      | rows :: deeper =>
        let children := (successors rows (chain.getLastD start)).filter fun child =>
          (deeper = [] && child = start && child ∈ targets) || child ∉ chain
        children.foldl (fun acc child =>
          descend budgets targets start deeper (chain ++ [child]) acc) acc

/-! ## Searching from one start -/

/-- How the search from one start ends: with chains of one length, cut by a budget, or without a
witness, where some last level may still have been expandable. -/
inductive SearchEnd
  | found (depth : ℤ) (chains : List (List ℤ)) (truncated : Bool)
  | truncated
  | exhausted
  | depthReached (frontier : List ℤ)

/-- The counters of a stage: rows read and descents made. -/
structure SearchCost where
  rows : ℕ := 0
  descents : ℕ := 0

namespace Exec

variable (idx : Index) (budgets : Budgets) (relation : RelationDesc) (inbound : Bool)

/-- The rows of the edge table out of a frontier, by parent and child. -/
def levelRows (frontier : List ℤ) : LevelRows :=
  (((idx.db.endpoints relation.table).filter fun edge =>
    edge.kind = relation.kindId && edge.source inbound ∈ frontier).map fun edge =>
      toLex (edge.source inbound, edge.target inbound)).mergeSort

/-- The levels of `path_stage` from one start. -/
def searchFrom (relation : RelationDesc) (inbound : Bool) (minDepth : ℤ) (targets : List ℤ)
    (start : ℤ) : ℕ → ℤ → List ℤ → List LevelRows → SearchCost → SearchEnd × SearchCost
  | 0, _, frontier, _, cost => (.depthReached frontier, cost)
  | left + 1, depth, frontier, levels, cost =>
    let rows := levelRows idx relation inbound frontier
    let cost := { cost with rows := cost.rows + rows.length }
    if budgets.pathNode.exceeded cost.rows then (.truncated, cost)
    else if rows = [] then (.exhausted, cost)
    else
      let level := sortUnique (rows.map Prod.snd)
      let levels := levels ++ [rows]
      if minDepth ≤ depth ∧ level.any (· ∈ targets) then
        let rebuilt := descend budgets targets start levels [start] { descents := cost.descents }
        let cost := { cost with descents := rebuilt.descents }
        if rebuilt.chains ≠ [] then (.found depth rebuilt.chains rebuilt.exceeded, cost)
        else if rebuilt.exceeded then (.truncated, cost)
        else searchFrom relation inbound minDepth targets start left (depth + 1) level levels cost
      else searchFrom relation inbound minDepth targets start left (depth + 1) level levels cost

/-- `hop_sites`: the evidence of one hop, cut at the result cap. -/
def hopSites (parent child : ℤ) : List StepSite × Bool :=
  if relation.layer = .entity then ([], false)
  else
    let src := if inbound then child else parent
    let dst := if inbound then parent else child
    match idx.db.edges.find? fun edge =>
        edge.src = src && edge.dst = dst && edge.kind = relation.kindId with
    | none => ([], false)
    | some edge =>
      let sites := idx.db.sites.filter fun site => site.edgeId = edge.id
      ((budgets.resultCap.cut sites).map fun site =>
        ⟨some site.fileId, some site.line, some site.col⟩,
        budgets.resultCap.exceeded sites.length)

/-- The domain of a step between symbols or entities. -/
def hopDomain : String :=
  if relation.layer = .entity then "entity" else "symbol"

/-- The first step of a witness. -/
def startStep (start : ℤ) : PathStep :=
  { nodeId := start, domain := hopDomain relation, inbound := inbound,
    status := relation.completeness }

/-- The step of one hop, and whether its evidence is cut. -/
def hopStep (parent child : ℤ) : PathStep × Bool :=
  let (sites, cut) := hopSites idx budgets relation inbound parent child
  ({ nodeId := child, domain := hopDomain relation, through := relation.name, inbound := inbound,
     status := if cut then "partial" else relation.completeness, sites := sites }, cut)

/-- The witness of a chain, and whether some evidence of it is cut. -/
def chainWitness (depth : ℤ) (chain : List ℤ) : PathWitness × Bool :=
  let hops := (chain.zip chain.tail).map fun (parent, child) =>
    hopStep idx budgets relation inbound parent child
  let cut := hops.any Prod.snd
  ({ length := depth,
     steps := (chain.head?.map (startStep relation inbound)).toList ++ hops.map Prod.fst,
     status := if relation.completeness = "complete" ∧ !cut then "complete" else "partial" }, cut)

/-- The results of `path_stage` while it goes through the starts. -/
structure PathSearch where
  results : List PathWitness := []
  cost : SearchCost := {}
  /-- A search budget is used up; no further start is searched. -/
  stopped : Bool := false
  /-- Some other budget has cut the result. -/
  incomplete : Bool := false

/-- One start of `path_stage`. A search that stops at its depth with levels left to expand
proves nothing, and counts as cut. -/
def searchStart (minDepth maxDepth : ℤ) (targets : List ℤ) (acc : PathSearch) (start : ℤ) : PathSearch :=
  if acc.stopped then acc
  else
    let (finish, cost) := searchFrom idx budgets relation inbound minDepth targets start
      maxDepth.toNat 1 [start] [] acc.cost
    match finish with
    | .truncated => { acc with cost := cost, stopped := true }
    | .exhausted => { acc with cost := cost }
    | .depthReached frontier =>
      { acc with cost := cost, incomplete :=
        acc.incomplete || levelRows idx relation inbound frontier ≠ [] }
    | .found depth chains truncated =>
      let witnesses := (budgets.resultCap.cut chains).map
        (chainWitness idx budgets relation inbound depth)
      { results := acc.results ++ witnesses.map Prod.fst, cost := cost, stopped := truncated,
        incomplete := acc.incomplete || budgets.resultCap.exceeded chains.length ||
          witnesses.any Prod.snd }

/-- All starts of `path_stage`. -/
def searchPaths (minDepth maxDepth : ℤ) (targets starts : List ℤ) : PathSearch :=
  (sortUnique starts).foldl
    (searchStart idx budgets relation inbound minDepth maxDepth targets) {}

/-- The end of a stage that finds witnesses. -/
def withPaths (st : Stream) (found : List PathWitness × Bool) : Stream :=
  { st with paths := found.1, truncated := st.truncated || found.2, ids := [], keys := [],
            shape := .path, pathStream := true }

/-- `path_stage`, given the stream of the operand. -/
def pathStage (st sub : Stream) (relation : RelationName) (minDepth maxDepth shortest : ℤ)
    (inbound : Bool) : Except PlanError Stream :=
  match resolveRelation relation st.view inbound with
  | none => .error ⟨.relation, "unknown relation '" ++ relation.text ++ "' in " ++
      viewName st.view ++ " view"⟩
  | some relation =>
    let search := searchPaths idx budgets relation inbound minDepth maxDepth sub.ids st.ids
    .ok (withPaths { st with truncated := st.truncated || sub.truncated }
      (sortAndCapWitnesses budgets.resultCap search.results shortest
        (search.stopped || search.incomplete)))

/-- `rank_stage`. -/
def rankStage (st : Stream) (topN : ℤ) : Stream :=
  let (paths, cut) := sortAndCapWitnesses budgets.resultCap st.paths topN st.truncated
  { st with paths := paths, truncated := cut }

end Exec

/-! ## Uses of a type -/

/-- `kTypeEdgeKinds`, from id 1 on. -/
def typeEdgeKinds : List String :=
  ["pointee", "element_type", "alias_of", "return_type", "param_type", "template_argument_type",
    "member_owner", "member_component"]

/-- `type_edge_kind_name`. -/
def typeEdgeKindName (kind : ℤ) : String :=
  if 1 ≤ kind then (typeEdgeKinds[kind.toNat - 1]?).getD "unknown" else "unknown"

/-- A declaration whose signature names a type. -/
structure TypeOwner where
  domain : String
  role : String
  nodeId : ℤ
  position : ℤ := -1
  packIndex : ℤ := -1
  site : StepSite := ⟨none, none, none⟩

/-- One climbed layer. -/
structure ChainLink where
  typeId : ℤ
  through : String := ""
  position : ℤ := -1

def SymbolRow.intColumn (row : SymbolRow) (column : SymbolColumn) : Option ℤ :=
  match row.column column with
  | some (.int value) => some value
  | _ => none

namespace Index

variable (idx : Index)

/-- The role of a type in a row of `symbol_type`. -/
def symbolTypeRole (kind : ℤ) : String :=
  if kind = 1 then "returns" else if kind = 2 then "of_type" else "underlying_type"

/-- `owners_of_type`. -/
def ownersOfType (typeId : ℤ) : List TypeOwner :=
  ((idx.db.symbolTypes.filter fun row => row.typeId = typeId).map fun row =>
    { domain := "symbol", role := symbolTypeRole row.kind, nodeId := row.symbolId,
      site := ((idx.db.symbols.find? fun symbol => symbol.id = row.symbolId).map fun symbol =>
        ⟨symbol.intColumn .fileId, symbol.intColumn .line, symbol.intColumn .col⟩).getD
          ⟨none, none, none⟩ }) ++
  ((idx.db.parameters.filter fun row => row.typeId = some typeId ∨
      row.declaredTypeId = some typeId ∨ row.adjustedTypeId = some typeId).map fun row =>
    { domain := "parameter", role := "parameter", nodeId := row.ownerId, position := row.position,
      packIndex := row.packIndex, site := ⟨row.fileId, row.line, row.col⟩ }) ++
  ((idx.db.templateParams.filter fun row => row.typeId = some typeId).map fun row =>
    { domain := "template_parameter", role := "template_parameter", nodeId := row.ownerId,
      position := row.position }) ++
  (idx.db.templateArgs.filter fun row => row.typeId = some typeId).map fun row =>
    { domain := "template_argument", role := "template_argument", nodeId := row.ownerId,
      position := row.position, packIndex := row.packIndex }

/-- The types one climb leads to: those with an edge to the type, then those it is the canonical
form of. -/
def typeParents (typeId : ℤ) : List ChainLink :=
  (((idx.db.typeEdges.filter fun edge => edge.dst = typeId).mergeSort fun x y =>
      toLex (x.src, x.position) ≤ toLex (y.src, y.position)).map fun edge =>
    { typeId := edge.src, through := typeEdgeKindName edge.kind, position := edge.position }) ++
  (idx.db.typeNodes.filter fun row => row.canonicalId = some typeId).map fun row =>
    { typeId := row.id, through := "sugared_by" }

end Index

def ownerWitness (depth : ℤ) (chain : List ChainLink) (owner : TypeOwner) : PathWitness :=
  { length := depth + 1
    steps := (chain.map fun link =>
        { nodeId := link.typeId, domain := "type", through := link.through, status := "complete",
          position := link.position }) ++
      [{ nodeId := owner.nodeId, domain := owner.domain, through := owner.role,
         status := "partial", position := owner.position, packIndex := owner.packIndex,
         sites := if owner.site = ⟨none, none, none⟩ then [] else [owner.site] }]
    status := "partial" }

/-- The state of `reverse_type_use_stage`. -/
structure TypeUses where
  /-- The best witnesses so far, best first. -/
  best : List PathWitness := []
  visited : ℕ := 0
  truncated : Bool := false
  /-- A result or a climb was left out. -/
  incomplete : Bool := false

namespace Exec

variable (idx : Index) (budgets : Budgets)

/-- Insert a witness and evict the worst one beyond the result cap. -/
def insertBest (acc : TypeUses) (witness : PathWitness) : TypeUses :=
  let best := acc.best.orderedInsert (fun x y => witnessLess x y = true) witness
  if budgets.resultCap.exceeded best.length then
    { acc with best := best.dropLast, incomplete := true }
  else { acc with best := best }

def climbable (chain : List ChainLink) (typeId : ℤ) : List ChainLink :=
  (idx.typeParents typeId).filter fun parent =>
    !chain.any fun link => link.typeId = parent.typeId

/-- Visit one frame: count it and report the owners of its type. -/
def visitFrame (typeId depth : ℤ) (chain : List ChainLink) (acc : TypeUses) : TypeUses :=
  let acc := { acc with visited := acc.visited + 1 }
  if budgets.pathNode.exceeded acc.visited then { acc with truncated := true }
  else (idx.ownersOfType typeId).foldl
    (fun acc owner => insertBest budgets acc (ownerWitness depth chain owner)) acc

/-- Climb from one type. The source keeps its frames on a stack, so that the last parent comes
first. -/
def climb : ℕ → ℤ → ℤ → List ChainLink → TypeUses → TypeUses
  | 0, typeId, depth, chain, acc =>
    if acc.truncated then acc
    else
      let acc := visitFrame idx budgets typeId depth chain acc
      if acc.truncated then acc
      else { acc with incomplete := acc.incomplete || (climbable idx chain typeId).length ≠ 0 }
  | left + 1, typeId, depth, chain, acc =>
    if acc.truncated then acc
    else
      let acc := visitFrame idx budgets typeId depth chain acc
      if acc.truncated then acc
      else (climbable idx chain typeId).reverse.foldl (fun acc parent =>
        climb left parent.typeId (depth + 1) (chain ++ [parent]) acc) acc

/-- The types `reverse_type_use_stage` starts from. -/
def typeSeeds (st : Stream) : List ℤ :=
  sortUnique (
    if st.view = .type then st.keys.map (·.a)
    else st.keys.filterMap fun key => (Index.layerAt (idx.graph budgets) key).map (·.typeId))

/-- All climbs of `reverse_type_use_stage`. -/
def typeUses (seeds : List ℤ) (maxDepth : ℤ) : TypeUses :=
  seeds.foldl (fun acc seed =>
    climb idx budgets maxDepth.toNat seed 0 [{ typeId := seed }] acc) {}

/-- `reverse_type_use_stage`. -/
def reverseTypeUseStage (st : Stream) (maxDepth : ℤ) : Stream :=
  let uses := typeUses idx budgets (typeSeeds idx budgets st) maxDepth
  withPaths st (sortAndCapWitnesses budgets.resultCap uses.best 0
    (uses.truncated || uses.incomplete))

end Exec

end CppIndexer.Query
