/-
# Traversals

`Exec::traverse`, `Exec::traverse_typed` and `Exec::traverse_devirtualized`. A relation between
symbols or between entities is followed level by level. A relation from or to a typed view is
followed once, by one statement for every node. A devirtualized traversal of `calls` keeps the
types a receiver may have beside every reached function.
-/

import CppIndexer.Query.Stream

namespace CppIndexer.Query

open SortUnique

/-! ## Typed relations -/

/-- A relation that `traverse_typed` follows. -/
def RelationDesc.isTyped (relation : RelationDesc) (view : View) : Bool :=
  relation.virtualRelation || !relation.targetView.isNode || !view.isNode

/-- What one statement of `traverse_typed` reads: keys in key order, keys that may repeat, ids, or
an id that needs no statement. -/
inductive TypedRead
  | keys (rows : KeyRows)
  | repeated (rows : List LogicalKey)
  | ids (rows : List ℤ)
  | owner (id : ℤ)

/-- The targets a typed traversal has read. -/
structure TypedReads where
  keys : List LogicalKey := []
  ids : List ℤ := []
  truncated : Bool := false

/-- `add_keys`, `add_ids` and, as one row, `add_synthetic`. `add_keys` makes the rows it has
read unique before it compares their number with what is left of the budget. -/
def TypedReads.add (budget : Budget) (acc : TypedReads) (read : TypedRead) : TypedReads :=
  let used := acc.keys.length + acc.ids.length
  match read with
  | .keys rows =>
    let (rows, cut) := budget.grant used rows.rows
    { acc with keys := acc.keys ++ rows, truncated := acc.truncated || cut }
  | .repeated rows =>
    let (rows, cut) := budget.grant used (sortUnique (budget.peekAfter used rows))
    { acc with keys := acc.keys ++ rows, truncated := acc.truncated || cut }
  | .ids rows =>
    let (rows, cut) := budget.grant used rows
    { acc with ids := acc.ids ++ rows, truncated := acc.truncated || cut }
  | .owner id => { acc with ids := acc.ids ++ [id] }

/-- The keys in a target view; ids of types are keys too. -/
def TypedReads.keysIn (found : TypedReads) (target : View) : List LogicalKey :=
  if target = .type then
    sortUnique (sortUnique found.keys ++ (sortUnique found.ids).map fun id => { a := id })
  else sortUnique found.keys

namespace Index

variable (idx : Index)

def slotsOf (owner : ℤ) : KeyRows :=
  idx.slots (fun row => row.symbolId = owner) (fun row => row.ownerId = owner)
    (fun row => row.ownerId = owner) fun row => row.ownerId = owner

def slotsOfType (typeId : ℤ) : KeyRows :=
  idx.slots (fun row => row.typeId = typeId) (fun row => row.typeId = some typeId)
    (fun row => row.typeId = some typeId) fun row => row.typeId = some typeId

def edgeKeys (p : EdgeRow → Bool) : KeyRows :=
  .ofIds (idx.edges_sorted.sublist (List.filter_sublist.map _) :
    ((idx.db.edges.filter p).map (·.id)).Pairwise (· < ·))

def siteKeys (p : SiteRow → Bool) : KeyRows := .select idx.sites_sorted p

def siteAt (key : LogicalKey) (site : SiteRow) : Bool :=
  site.edgeId = key.a && site.fileId = key.b && site.line = key.c && site.col = key.d

def edgeOfSite (key : LogicalKey) : KeyRows :=
  .single (idx.db.sites.any (siteAt key)) { a := key.a }

/-- The arguments of the call at a site. -/
def argumentsAt (key : LogicalKey) : KeyRows :=
  .select idx.callArgs_sorted fun row =>
    row.edgeId = key.a && row.fileId = key.b && row.line = key.c && row.col = key.d

/-- The symbols a type names: its declaration and the symbols of that type. -/
def symbolsOfType (typeId : ℤ) : List ℤ :=
  sortUnique ((idx.db.typeNodes.filter fun row => row.id = typeId).filterMap (·.declId) ++
    (idx.db.symbolTypes.filter fun row => row.typeId = typeId).map (·.symbolId))

/-- The column `type_column` names. -/
def typeColumn (name : String) (row : ParameterRow) : Option ℤ :=
  if name = "of_type" then row.typeId
  else if name = "declared_type" then row.declaredTypeId
  else row.adjustedTypeId

def readsOfSymbol (relation : RelationDesc) (owner : ℤ) : List TypedRead :=
  match relation.name with
  | "has_parameter" =>
    [.keys (.select idx.parameters_sorted fun row => row.ownerId = owner)]
  | "has_template_parameter" =>
    [.keys (.select idx.templateParams_sorted fun row => row.ownerId = owner)]
  | "has_template_argument" =>
    [.keys (.select idx.templateArgs_sorted fun row => row.ownerId = owner)]
  | "has_signature_slot" => [.keys (idx.slotsOf owner)]
  | "has_call_edge" =>
    [.keys (idx.edgeKeys fun edge => edge.src = owner && edge.kind = relation.kindId - 23)]
  | "has_evidence" | "has_site" =>
    [.keys (idx.siteKeys fun site =>
      idx.db.edges.any fun edge => edge.id = site.edgeId && edge.src = owner)]
  | "of_type" =>
    [.ids (((idx.db.symbolTypes.filter fun row => row.symbolId = owner).map (·.typeId)).mergeSort)]
  | _ => []

def readsIntoSymbol (relation : RelationDesc) (owner : ℤ) : List TypedRead :=
  match relation.name, relation.layer with
  | "of_callable", _ | "of_type", _ => [.keys (idx.slotsOf owner)]
  | "references_symbol", .parameter =>
    [.keys (.select idx.parameters_sorted fun row =>
      (idx.db.typeNodes.any fun type => some type.id = row.typeId && type.declId = some owner) ||
      idx.db.symbolTypes.any fun type =>
        some type.typeId = row.typeId && type.symbolId = owner)]
  | "references_symbol", .templateArgument =>
    [.keys (.select idx.templateArgs_sorted fun row => row.refId = some owner)]
  | "references_symbol", .callArgument =>
    [.keys (.select idx.callArgs_sorted fun row => row.declId = some owner)]
  | "references_symbol", .type =>
    [.ids (sortUnique ((idx.db.symbolTypes.filter fun row => row.symbolId = owner).map (·.typeId) ++
      (idx.db.typeNodes.filter fun row => row.declId = some owner).map (·.id)))]
  | _, _ => []

variable (graph : GraphReads)

/-- The layers of a type that a condition picks. -/
def layersWhere (typeId : ℤ) (p : TypeLayer → Bool) : List TypedRead :=
  (graph.typeLayers typeId).zipIdx.filterMap fun (layer, i) =>
    if p layer then some (.keys (.single true { a := typeId, b := i })) else none

/-- `child` is one level below `parent`. -/
def isChildOf (child parent : TypeLayer) : Bool :=
  child.depth = parent.depth + 1 && (parent.path ++ ".").isPrefixOf child.path

def layerAt (key : LogicalKey) : Option TypeLayer :=
  if 0 ≤ key.b then (graph.typeLayers key.a)[key.b.toNat]? else none

/-- Relations into a type. The rows behind `type_layer.of_type` are call arguments, of which only
the first two parts of the key are kept. -/
def readsIntoType (relation : RelationDesc) (typeId : ℤ) : List TypedRead :=
  match relation.name with
  | "of_type" | "declared_type" | "adjusted_type" =>
    match relation.layer with
    | .symbol =>
      [.ids (((idx.db.symbolTypes.filter fun row => row.typeId = typeId).map
        (·.symbolId)).mergeSort)]
    | .parameter =>
      [.keys (.select idx.parameters_sorted fun row =>
        typeColumn relation.name row = some typeId)]
    | .templateParameter =>
      [.keys (.select idx.templateParams_sorted fun row => row.typeId = some typeId)]
    | .templateArgument =>
      [.keys (.select idx.templateArgs_sorted fun row => row.typeId = some typeId)]
    | .signatureSlot => [.keys (idx.slotsOfType typeId)]
    | .typeLayer =>
      [.repeated ((idx.db.callArgs.filter fun row => row.typeId = some typeId).map
        fun row => { a := row.edgeId, b := row.fileId })]
    | _ => [.keys (.select idx.callArgs_sorted fun row => row.typeId = some typeId)]
  | "has_type_edge" =>
    [.ids (((idx.db.typeEdges.filter fun edge => edge.dst = typeId).map (·.src)).mergeSort)]
  | _ => []

def readsOfType (relation : RelationDesc) (typeId : ℤ) : List TypedRead :=
  match relation.name with
  | "has_layer" => layersWhere graph typeId fun _ => true
  | "references_symbol" => [.ids (idx.symbolsOfType typeId)]
  | "has_type_edge" =>
    [.ids (((idx.db.typeEdges.filter fun edge => edge.src = typeId).mergeSort fun x y =>
      x.position ≤ y.position).map (·.dst))]
  | _ => []

/-- Relations out of a slot of a signature. -/
def readsOfSlot (relation : RelationDesc) (key : LogicalKey) : List TypedRead :=
  match relation.name with
  | "of_callable" => [.ids [key.a]]
  | "of_type" =>
    [.ids (
      if key.tag = 1 then
        (idx.db.symbolTypes.filter fun row => row.symbolId = key.a && row.kind = 1).map (·.typeId)
      else if key.tag = 2 then
        (idx.db.parameters.filter fun row => row.key = { a := key.a, b := key.b, c := key.c }).map
          fun row => row.typeId.getD 0
      else if key.tag = 3 then
        (idx.db.templateParams.filter fun row => row.key = { a := key.a, b := key.b }).map
          fun row => row.typeId.getD 0
      else
        (idx.db.templateArgs.filter fun row => row.key = { a := key.a, b := key.b, c := key.c }).map
          fun row => row.typeId.getD 0)]
  | _ => []

def readsOfParameter (relation : RelationDesc) (key : LogicalKey) : List TypedRead :=
  let rows := idx.db.parameters.filter fun row => row.key = { a := key.a, b := key.b, c := key.c }
  match relation.name with
  | "of_type" | "declared_type" | "adjusted_type" =>
    [.ids (rows.filterMap (typeColumn relation.name))]
  | "references_symbol" =>
    [.ids (sortUnique ((rows.filterMap (·.typeId)).flatMap idx.symbolsOfType))]
  | "has_evidence" =>
    [.keys (idx.siteKeys fun site => rows.any fun row =>
      row.fileId = some site.fileId && row.line = some site.line && row.col = some site.col)]
  | _ => []

def readsOfEdge (relation : RelationDesc) (edgeId : ℤ) : List TypedRead :=
  match relation.name with
  | "has_argument" =>
    [.keys (.select idx.callArgs_sorted fun row => row.edgeId = edgeId)]
  | "has_evidence" | "has_site" => [.keys (idx.siteKeys fun site => site.edgeId = edgeId)]
  | _ => []

/-- Relations out of a call argument. -/
def readsOfArgument (relation : RelationDesc) (key : LogicalKey) : List TypedRead :=
  let rows := idx.db.callArgs.filter fun row => row.key = { key with tag := 0 }
  match relation.name with
  | "of_type" => [.ids (rows.filterMap (·.typeId))]
  | "references_symbol" => [.ids (rows.filterMap (·.declId))]
  | "has_evidence" => [.keys (idx.siteKeys (siteAt key))]
  | _ => []

def readsIntoEvidence (relation : RelationDesc) (key : LogicalKey) : List TypedRead :=
  match relation.name, relation.layer with
  | "has_evidence", .edge => [.keys (idx.edgeOfSite key)]
  | "has_evidence", .callArgument => [.keys (idx.argumentsAt key)]
  | "has_evidence", .symbol =>
    [.ids ((idx.db.edges.filter fun edge => edge.id = key.a).map (·.src))]
  | "has_evidence", .parameter =>
    [.keys (.select idx.parameters_sorted fun row =>
      row.fileId = some key.b && row.line = some key.c && row.col = some key.d)]
  | _, _ => []

/-- The statements of `traverse_typed` for one node; a symbol is a key of one part. -/
def typedReads (relation : RelationDesc) (inbound : Bool) (view : View)
    (key : LogicalKey) : List TypedRead :=
  match inbound, view with
  | false, .symbol => idx.readsOfSymbol relation key.a
  | true, .symbol => idx.readsIntoSymbol relation key.a
  | false, .type => idx.readsOfType graph relation key.a
  | true, .type => idx.readsIntoType relation key.a
  | false, .signatureSlot => idx.readsOfSlot relation key
  | true, .signatureSlot => if relation.name = "has_signature_slot" then [.ids [key.a]] else []
  | false, .typeLayer =>
    if relation.name = "of_type" then [.ids [key.a]]
    else if relation.name = "child" then
      (layerAt graph key).toList.flatMap fun parent =>
        layersWhere graph key.a fun child => isChildOf child parent
    else []
  | true, .typeLayer =>
    if relation.name = "has_layer" then [.ids [key.a]]
    else if relation.name = "child" ∨ relation.name = "parent" then
      (layerAt graph key).toList.flatMap fun child =>
        layersWhere graph key.a fun parent => isChildOf child parent
    else []
  | false, .parameter => idx.readsOfParameter relation key
  | true, .parameter => if relation.name = "has_parameter" then [.owner key.a] else []
  | false, .templateParameter =>
    let rows := idx.db.templateParams.filter fun row => row.key = { a := key.a, b := key.b }
    if relation.name = "of_type" then [.ids (rows.filterMap (·.typeId))]
    else if relation.name = "has_default" ∧ rows.any (fun row =>
        row.defaultTxt.isSome || row.defaultTypeId.isSome || row.defaultRefId.isSome) then
      [.keys (.single true { a := key.a, b := key.b, tag := 1 })]
    else []
  | true, .templateParameter =>
    if relation.name = "has_template_parameter" then [.owner key.a] else []
  | false, .templateArgument =>
    let rows := idx.db.templateArgs.filter fun row =>
      row.key = { a := key.a, b := key.b, c := key.c }
    if relation.name = "of_type" then [.ids (rows.filterMap (·.typeId))]
    else if relation.name = "references_symbol" then [.ids (rows.filterMap (·.refId))]
    else []
  | true, .templateArgument =>
    if relation.name = "has_template_argument" then [.owner key.a] else []
  | false, .edge => idx.readsOfEdge relation key.a
  | true, .edge =>
    if relation.name = "has_call_edge" then
      [.ids ((idx.db.edges.filter fun edge => edge.id = key.a).map (·.src))]
    else if relation.name = "of_edge" then [.keys (idx.siteKeys fun site => site.edgeId = key.a)]
    else []
  | false, .callArgument => idx.readsOfArgument relation key
  | true, .callArgument =>
    if relation.name = "has_argument" then
      [.keys (.single (idx.db.edges.any fun edge => edge.id = key.a) { a := key.a })]
    else if relation.name = "of_occurrence" then [.keys (idx.siteKeys (siteAt key))]
    else []
  | false, .evidence =>
    if relation.name = "of_edge" then [.keys (idx.edgeOfSite key)]
    else if relation.name = "of_occurrence" then [.keys (idx.argumentsAt key)]
    else []
  | true, .evidence => idx.readsIntoEvidence relation key
  | false, .site => if relation.name = "of_edge" then [.keys (idx.edgeOfSite key)] else []
  | true, .site =>
    if relation.name = "has_site" ∨ relation.name = "of_edge" then [.keys (idx.edgeOfSite key)]
    else []
  | _, .entity => []

end Index

/-! ## Receivers of calls -/

/-- `ReceiverTypes`: any type, or one of a set. -/
structure ReceiverTypes where
  top : Bool := true
  types : List String := []
  deriving DecidableEq

namespace ReceiverTypes

/-- `join_receiver_types`. -/
def join (into other : ReceiverTypes) : ReceiverTypes :=
  if into.top || other.top then {}
  else ⟨false, sortUnique (into.types ++ other.types)⟩

/-- What one site of a call says about its receiver. -/
def ofSite (site : CallSite) (kind : String) (currentThis : ReceiverTypes) : ReceiverTypes :=
  let exact := site.recvTypeUsr.filter fun _ =>
    (site.recvTypeIsValue.any fun value => value ≠ 0) || kind = "construct"
  match exact with
  | some type => ⟨false, [type]⟩
  | none => if kind = "this" then currentThis else {}

/-- `resolve_receiver`. -/
def resolve (sites : List CallSite) (currentThis : ReceiverTypes) : ReceiverTypes :=
  let resolved := sites.filterMap fun site =>
    site.recvSrcKind.map fun kind => ofSite site kind currentThis
  if resolved = [] then {} else resolved.foldl join ⟨false, []⟩

end ReceiverTypes

/-- `append_unique`. -/
def appendUnique (symbols : List Callee) (symbol : Callee) : List Callee :=
  if symbols.any fun item => item.id = symbol.id then symbols else symbols ++ [symbol]

/-- `select_dispatch_target`: the first candidate that the receiver or one of its bases owns. -/
def selectDispatchTarget (graph : GraphReads) (candidates : List Callee) (receiverUsr : String) :
    Option Callee :=
  (graph.basesOf receiverUsr).bind fun bases =>
    (receiverUsr :: bases).findSome? fun owner =>
      candidates.find? fun candidate => candidate.parentUsr = some owner

/-- The candidates for each receiver type; an unknown one brings in all of them. -/
def dispatchTo (graph : GraphReads) (candidates : List Callee) : List String → List Callee → List Callee
  | [], result => result
  | receiverUsr :: rest, result =>
    match selectDispatchTarget graph candidates receiverUsr with
    | none => candidates.foldl appendUnique result
    | some target => dispatchTo graph candidates rest (appendUnique result target)

/-- `receiver_aware_callees`. -/
def receiverAwareCallees (graph : GraphReads) (callee : Callee) (receiver : ReceiverTypes) :
    List Callee :=
  if !graph.isVirtualMethod callee.id then [callee]
  else
    let candidates := graph.dispatchTargets callee.id
    if receiver.top then candidates.foldl appendUnique [callee]
    else dispatchTo graph candidates receiver.types [callee]

/-- `try_emplace`, or join with the types already there. -/
def joinReceiver (id : ℤ) (receiver : ReceiverTypes) : List (ℤ × ReceiverTypes) → List (ℤ × ReceiverTypes)
  | [] => [(id, receiver)]
  | (key, types) :: rest =>
    if id < key then (id, receiver) :: (key, types) :: rest
    else if id = key then (key, types.join receiver) :: rest
    else (key, types) :: joinReceiver id receiver rest

/-- One level of a devirtualized traversal. -/
def nextCallees (graph : GraphReads) (frontier : List (ℤ × ReceiverTypes)) : List (ℤ × ReceiverTypes) :=
  (frontier.flatMap fun (caller, currentThis) =>
    (graph.callEdges caller).flatMap fun edge =>
      let receiver := ReceiverTypes.resolve edge.sites currentThis
      (receiverAwareCallees graph edge.peer receiver).map fun callee => (callee.id, receiver)).foldl
    (fun level callee => joinReceiver callee.1 callee.2 level) []

namespace Exec

variable (idx : Index) (budgets : Budgets) (st : Stream)

/-- `traverse_devirtualized`. -/
def traverseDevirtualized (minDepth maxDepth : ℤ) : Stream :=
  let found := budgets.traverseNode.levels (nextCallees (idx.graph budgets)) minDepth
    maxDepth.toNat 1 ((sortUnique st.ids).map fun id => (id, {})) 0 st.truncated
  { st with ids := sortUnique (found.1.map Prod.fst), view := .symbol, truncated := found.2 }

/-- The statements of `traverse_typed`, node by node. -/
def typedTargets (relation : RelationDesc) (inbound : Bool) : TypedReads :=
  let nodes := if st.view = .symbol then st.ids.map fun id => { a := id } else st.keys
  let reads := nodes.flatMap (idx.typedReads (idx.graph budgets) relation inbound st.view)
  reads.foldl (TypedReads.add budgets.traverseNode) {}

/-- The end of `traverse_typed`: the stream moves to the target view. -/
def moveTo (target : View) (found : TypedReads) : Stream :=
  let st := { st with view := target, truncated := st.truncated || found.truncated }
  if target.isNode then
    let ids := sortUnique found.ids
    { st with ids := budgets.traverseNode.cut ids, keys := [],
              truncated := st.truncated || budgets.traverseNode.exceeded ids.length }
  else { withKeys st budgets.traverseNode (found.keysIn target) with ids := [] }

/-- `traverse_typed`. -/
def traverseTyped (relation : RelationDesc) (inbound : Bool) : Stream :=
  moveTo budgets st (if inbound then relation.layer else relation.targetView)
    (typedTargets idx budgets st relation inbound)

/-- One level of a traversal between symbols or between entities. -/
def nextNodes (relation : RelationDesc) (inbound : Bool) (frontier : List ℤ) : List ℤ :=
  sortUnique (((idx.db.endpoints relation.table).filter fun edge =>
    edge.kind = relation.kindId && edge.source inbound ∈ frontier).map fun edge =>
      edge.target inbound)

/-- `traverse`. -/
def traverse (inbound : Bool) (relation : RelationName) (minDepth maxDepth : ℤ) :
    Except PlanError Stream :=
  match resolveRelation relation st.view inbound with
  | none => .error ⟨.relation, "unknown relation '" ++ relation.text ++ "' in " ++
      viewName st.view ++ " view"⟩
  | some relation =>
    if relation.isTyped st.view then
      .ok (traverseTyped idx budgets st relation inbound)
    else
      let found := budgets.traverseNode.levels (nextNodes idx relation inbound) minDepth
        maxDepth.toNat 1 (sortUnique st.ids) 0 st.truncated
      .ok { st with ids := sortUnique found.1, view := relation.layer, truncated := found.2 }

end Exec

end CppIndexer.Query
