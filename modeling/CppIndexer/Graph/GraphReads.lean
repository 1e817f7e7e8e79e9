/-
# What the plans of a graph query read

The plan for a symbol finds its row, and the plan for the edges at a symbol finds the first of them: by
id, up to the limit of the plan or the budget of the enumeration, and only then in the order of the
plan.
-/

import CppIndexer.Graph.GraphQuery
import CppIndexer.Graph.OrderedIdsRows

namespace CppIndexer.Graph

open Query List Option Exec Except

namespace GraphQuery

variable {idx : Index} {paths : FilePaths idx}

/-! ## Symbols -/

theorem symbolById_eq_some {id : ℤ} {row : SymbolRow} :
    symbolById idx id = some row ↔ row ∈ idx.db.symbols ∧ row.id = id := by
  constructor
  · intro h
    have hid := find?_some h
    exact ⟨mem_of_find?_eq_some h, by simpa using hid⟩
  · intro h
    obtain ⟨hmem, rfl⟩ := h
    exact find?_of_nodup_keys idx.db.nodup_ids hmem

variable (value : ℤ)

/-- The predicate `id = value` selects by the id. -/
theorem selects_eqInt :
    enumerateSelects idx.glob idx.db .symbol (eqInt "id" value) UnknownPolicy.exclude.test =
      fun row => decide (row.id = value) := by
  funext row
  have hkleene : kleene idx.glob idx.db (eqInt "id" value) .symbol row =
      some (decide (row.id = value)) := by
    rw [eqInt, kleene]
    show some (decide (SqlValue.int row.id = SqlValue.int value)) = _
    simp
  show UnknownPolicy.exclude.test.holds (ofKleene (kleene idx.glob idx.db _ .symbol row)) = _
  rw [hkleene]
  cases decide (row.id = value) with
  | true => rfl
  | false => rfl

theorem filter_id :
    (idx.db.symbols.filter fun row => row.id = value) = (symbolById idx value).toList := by
  cases hrow : symbolById idx value with
  | none =>
    apply filter_eq_nil_iff.mpr
    exact fun row hmem => find?_eq_none.mp hrow row hmem
  | some row =>
    obtain ⟨hmem, rfl⟩ := symbolById_eq_some.mp hrow
    have hsub : [row].Sublist idx.db.symbols := singleton_sublist.mpr hmem
    have hfilter := filter_mem_ids hsub idx.db.nodup_ids
    simpa using hfilter

/-- The plan for a symbol enumerates its id. -/
theorem enumeratedIds_eqInt : enumeratedIds idx .symbol (some (eqInt "id" value)) .exclude =
      .ok ((symbolById idx value).toList.map (·.id)) := by
  obtain ⟨out, hout⟩ : ∃ out, predSql (eqInt "id" value) .symbol .s .en 0 = .ok out := ⟨_, rfl⟩
  have hvalid : Valid (eqInt "id" value) .symbol := by
    rw [eqInt, Valid]
    rfl
  have hfetch := fetchWithPolicy_eq idx.glob idx.db
    (fetchIds_enumerate idx.glob idx.db hvalid hout (idx.db.nodes .symbol)) .exclude
  unfold enumeratedIds enumerateNodes
  simp only [hout, hfetch, bind, Except.bind]
  rw [selectWithPolicy, if_neg (by simp)]
  rw [selects_eqInt]
  simp only [pure, Except.pure, Except.map, afterCursor_none, Budget.cut]
  rw [show idx.db.nodes .symbol = idx.db.symbols from rfl, filter_id]

variable (idx paths) in
/-- The rows of the plan for a symbol. -/
theorem runFast_byId (fields : List String)
    (hvalid : validate (.mk { kind := .codebase } [nodesOf (eqInt "id" value), .select fields]) =
      .ok (.mk { kind := .codebase } [nodesOf (eqInt "id" value), .select fields]))
    (hcells : ∀ ids, ∃ cells, idx.symbolCells ids fields = .ok cells) :
    ∃ result, runFast idx paths (.mk { kind := .codebase }
        [nodesOf (eqInt "id" value), .select fields]) = .ok result ∧ result.truncated = false ∧
      result.rows =
        (nodeRows idx ((symbolById idx value).toList.map (·.id)) fields).map Prod.fst := by
  let config : Config := { budgets := .code }
  let ids := (symbolById idx value).toList.map (·.id)
  have hshort : ids.length ≤ 1 := by
    show ((symbolById idx value).toList.map (·.id)).length ≤ 1
    cases symbolById idx value with
    | none => simp
    | some => simp
  let found : Stream := { view := .symbol, ids := ids }
  have hfound : runStage idx config (config.nodeLimit
      [nodesOf (eqInt "id" value), .select fields]) (nodesOf (eqInt "id" value))
      { view := .symbol } none = .ok found := by
    have hview : View.symbol.isNode = true := rfl
    apply (runStage_nodes hview _ none).trans
    rw [enumeratedIds_eqInt]
    have hcut : Budget.exceeded config.budgets.enumerate ids.length = false := by
      show decide (10000 < ids.length) = false
      simp only [decide_eq_false_iff_not]
      omega
    show ok _ = ok found
    simp only [afterCursor_none]
    rw [Budget.cut_eq_self hcut, hcut]
  obtain ⟨_, hcells⟩ := hcells ids
  obtain ⟨out, hout⟩ : ∃ out, materialize idx config.budgets found fields = .ok out :=
    materialize_of_symbolCells rfl rfl hcells
  obtain ⟨kept, rfl⟩ := materialize_nodes rfl hout
  let last : Stream := { found with fields := fields, keys := [], ids := kept, shape := .rows
                                    rows := nodeRows idx ids fields }
  have hselect : runStage idx config (config.nodeLimit
      [nodesOf (eqInt "id" value), .select fields]) (.select fields) found none = .ok last := by
    show (materialize idx config.budgets found fields).map _ = _
    rw [hout]
    rfl
  have hrun : runPlan idx config (.mk { kind := .codebase }
      [nodesOf (eqInt "id" value), .select fields]) none = .ok last := by
    rw [runPlan]
    show runStages idx config _ _ { view := .symbol } none = _
    rw [runStages_cons (rejectAmbiguous_nil rfl) hfound (by simp)]
    show runStages idx config _ _ found none = _
    rw [runStages_cons (rejectAmbiguous_nil rfl) hselect (by simp),
      runStages_nil (rejectAmbiguous_nil rfl)]
  refine ⟨unfinished last, ?_, rfl, rfl⟩
  have hfast : Plan.fast? (.mk { kind := .codebase } [nodesOf (eqInt "id" value), .select fields]) =
      none := rfl
  unfold runFast
  rw [hvalid]
  show Except.mapError _ (Exec.runFast idx config paths _ none) = _
  unfold Exec.runFast
  rw [hfast, hrun]
  rfl

/-- `get_by_id` reads the row of a symbol. -/
theorem getById_eq (id : ℤ) : getById idx paths id = .ok (symbolById idx id) := by
  obtain ⟨result, hresult, hcomplete, hrows⟩ :=
    runFast_byId idx paths id ["id"] rfl fun ids => ⟨_, rfl⟩
  have hids : adapterIds idx paths (.mk { kind := .codebase } [nodesOf (eqInt "id" id)]) =
      .ok ((symbolById idx id).toList.map (·.id)) := by
    have hplan : runFast idx paths (.mk { kind := .codebase }
        ([nodesOf (eqInt "id" id)] ++ [.select ["id"]])) = .ok result := hresult
    unfold adapterIds
    simp only [Plan.source, Plan.stages, hplan, bind, Except.bind, hcomplete, hrows]
    cases hrow : symbolById idx id with
    | none => rfl
    | some row =>
      obtain ⟨_, rfl⟩ := symbolById_eq_some.mp hrow
      have hfind : (idx.db.symbols.find? fun other => other.id = row.id) = some row := hrow
      simp only [nodeRows, toList_some, map_cons, map_nil, filterMap_cons, hfind, map_some, filterMap_nil]
      rfl
  unfold getById
  rw [hids]
  cases hrow : symbolById idx id with
  | none => rfl
  | some =>
    obtain ⟨_, rfl⟩ := symbolById_eq_some.mp hrow
    simp

theorem adapterSymbolExists_eq (id : ℤ) :
    adapterSymbolExists idx paths id = .ok (symbolById idx id).isSome := by
  obtain ⟨result, hresult, _, hrows⟩ :=
    runFast_byId idx paths id ["id", "kind", "name", "is_definition"] rfl fun ids => ⟨_, rfl⟩
  unfold adapterSymbolExists
  rw [hresult]
  show ok (decide (result.rows ≠ [])) = _
  rw [hrows]
  cases hrow : symbolById idx id with
  | none => rfl
  | some row =>
    obtain ⟨_, rfl⟩ := symbolById_eq_some.mp hrow
    have hfind : (idx.db.symbols.find? fun other => other.id = row.id) = some row := hrow
    simp [nodeRows, hfind]

/-! ## Edges -/

/-- The end of an edge that a hop starts from. -/
def nearEnd (direction : String) (edge : EdgeRow) : ℤ :=
  if direction = "in" then edge.dst else edge.src

/-- The end of an edge that a hop leads to. -/
def farEnd (direction : String) (edge : EdgeRow) : ℤ :=
  if direction = "in" then edge.src else edge.dst

variable (idx) in
/-- The edges at a symbol that the plan enumerates: the first ones by id. -/
def enumeratedEdges (symId : ℤ) (direction : String) (limit : ℤ) : List EdgeRow :=
  (idx.db.edges.filter fun edge => nearEnd direction edge = symId).take
    (if 0 < limit then limit.toNat else kEnumerateBudget)

variable (idx) in
/-- The order of the plan. -/
def byCount (edges : List EdgeRow) : List EdgeRow :=
  sortByCells (fun edge => edgeOrder.map (idx.edgeCell edge))
    (fun edge => idx.rowId .edge { a := edge.id }) edges

variable (idx) in
def plannedEdge (edge : EdgeRow) : PlannedEdge :=
  { edgeId := edge.id, srcId := edge.src, dstId := edge.dst, kindId := edge.kind
    count := idx.effectiveCount edge, baseAccess := intCell (idx.edgeCell edge "base_access")
    isVirtual := intCell (idx.edgeCell edge "is_virtual") }

theorem mem_byCount {edges : List EdgeRow} {edge : EdgeRow} :
    edge ∈ byCount idx edges ↔ edge ∈ edges :=
  mem_sortByCells

theorem validate_edgePlan (symId : ℤ) (direction : String) (limit : ℤ) :
    validate (edgePlan symId direction limit) = .ok (edgePlan symId direction limit) := by
  have hwalk : ∃ middle : WalkState,
      walkStages (edgeStages symId direction) { codebaseUnenumerated := true } =
        .ok (middle, edgeStages symId direction) ∧
      middle.codebaseUnenumerated = false ∧ middle.shape = .rows := by
    unfold edgeStages
    by_cases hdirection : direction = "in"
    · rw [if_pos hdirection]
      exact ⟨_, rfl, rfl, rfl⟩
    · rw [if_neg hdirection]
      exact ⟨_, rfl, rfl, rfl⟩
  obtain ⟨middle, hmiddle, hconsumed, hshape⟩ := hwalk
  have hlimit : walkStages (if 0 < limit then [.limit limit] else []) middle =
      .ok (middle, if 0 < limit then [.limit limit] else []) := by
    by_cases hpositive : 0 < limit
    · rw [if_pos hpositive, walkStages, walkStage]
      · have hbound : ¬ limit < 1 := by omega
        simp only [failIf, hshape, walkPlain, WalkState.consume, hconsumed, hbound, walkStages]
        rfl
      · simp
      · simp
    · rw [if_neg hpositive, walkStages]
  have hall := walkStages_join hmiddle hlimit
  unfold validate edgePlan
  rw [validateWalk]
  show Except.map Prod.snd (walkStages _ { codebaseUnenumerated := true } >>= _) = _
  rw [hall]
  simp only [bind, Except.bind, WalkState.consume, failIf, hconsumed]
  rfl

section EdgePlan

variable {config : Config} {nodeLimit : Option ℕ}

def edgeCells (idx : Index) (edge : EdgeRow) : List Cell × ℤ :=
  (edgeFields.map (idx.edgeCell edge), idx.rowId .edge { a := edge.id })

def edgeStream (edges : List EdgeRow) (cut : Bool) : Query.Stream :=
  { view := .edge, keys := edges.map fun edge => { a := edge.id }, truncated := cut }

def edgeRowStream (idx : Index) (edges : List EdgeRow) (cut : Bool) : Query.Stream :=
  { view := .edge, shape := .rows, fields := edgeFields, rows := edges.map (edgeCells idx), truncated := cut }

theorem edgesWith_end (symId : ℤ) (direction : String) :
    edgesWith idx (if direction = "in" then "dst_id" else "src_id") symId =
      idx.db.edges.filter fun edge => nearEnd direction edge = symId := by
  unfold edgesWith nearEnd
  by_cases hdirection : direction = "in" <;> simp [hdirection]

/-- The enumeration stops at the limit of the plan, else at the budget. -/
theorem runStage_edges {symId limit : ℤ} {direction : String}
    (hbound : nodeLimit = if 0 < limit then some limit.toNat else none) :
    ∃ cut, runStage idx { budgets := .code } nodeLimit
        (nodesOf (eqInt (if direction = "in" then "dst_id" else "src_id") symId)) { view := .edge } none =
      .ok (edgeStream (enumeratedEdges idx symId direction limit) cut) := by
  have hfast : (if direction = "in" then "dst_id" else "src_id") ∈ ["edge_id", "src_id", "dst_id"] := by
    by_cases hdirection : direction = "in" <;> simp [hdirection]
  have hcut : nodeLimit.or Budgets.code.enumerate =
      some (if 0 < limit then limit.toNat else kEnumerateBudget) := by
    rw [hbound]
    by_cases hpositive : 0 < limit
    · rw [if_pos hpositive, if_pos hpositive, some_or]
    · rw [if_neg hpositive, if_neg hpositive]
      rfl
  apply Exists.intro
  show (enumerate idx Budgets.code { view := .edge } _ _ none _).map _ = _
  unfold enumerate
  simp only [eqInt, intEquality]
  rw [if_pos hfast, hcut, edgesWith_end]
  simp only [all_none, filter_true, Except.map, withKeys, Budget.cut, ← map_take]
  rfl

theorem runStage_selectEdges {edges : List EdgeRow} (hmem : ∀ edge ∈ edges, edge ∈ idx.db.edges)
    (cut : Bool) :
    runStage idx config nodeLimit (.select edgeFields) (edgeStream edges cut) none =
      .ok (edgeRowStream idx edges cut) := by
  have hrows : (edgeStream edges cut).keys.filterMap (fun key =>
      (typedCells idx config.budgets (edgeStream edges cut) edgeFields key).map fun cells =>
        (cells, idx.rowId .edge key)) = edges.map (edgeCells idx) := by
    show (edges.map _).filterMap _ = _
    rw [filterMap_map, ← filterMap_eq_map]
    apply filterMap_congr
    intro edge hedge
    show ((idx.typedCells _ .edge { a := edge.id } edgeFields).map _ : Option (List Cell × ℤ)) = _
    rw [idx.typedCells_edge (hmem edge hedge)]
    rfl
  have hok : rejectAmbiguous idx (edgeStream edges cut) = .ok () := by
    simp [rejectAmbiguous, edgeStream]
  have htyped : (edgeStream edges cut).keys ≠ [] ∨ (!(edgeStream edges cut).view.isNode) = true :=
    Or.inr rfl
  show (materialize idx config.budgets (edgeStream edges cut) edgeFields).map _ = _
  unfold materialize
  simp only [bind, Except.bind, htyped, if_true]
  exact congrArg (fun rows => ok { edgeRowStream idx edges cut with rows := rows }) hrows

theorem runStage_orderEdges (edges : List EdgeRow) (cut : Bool) :
    runStage idx config nodeLimit (.orderBy edgeOrder) (edgeRowStream idx edges cut) none =
      .ok (edgeRowStream idx (byCount idx edges) cut) := by
  have hrows : sortByCells (fun row : List Cell × ℤ => edgeOrder.map fun field =>
      (row.1[edgeFields.idxOf field]?).join) Prod.snd (edges.map (edgeCells idx)) =
      (byCount idx edges).map (edgeCells idx) := by
    rw [sortByCells_map]
    rfl
  show applyOrder idx config.budgets (edgeRowStream idx edges cut) edgeOrder = _
  unfold applyOrder
  rw [if_neg (by simp [edgeRowStream])]
  exact congrArg (fun rows => ok { edgeRowStream idx edges cut with rows := rows }) hrows

/-- The limit of the plan has cut the enumeration already. -/
theorem runStages_limitEdges {edges : List EdgeRow} {limit : ℤ}
    (hlength : 0 < limit → (edges.length : ℤ) ≤ limit) (cut : Bool) :
    ∃ out, runStages idx config nodeLimit (if 0 < limit then [.limit limit] else [])
        (edgeRowStream idx edges cut) none = .ok out ∧ out.rows = edges.map (edgeCells idx) := by
  have hok : ∀ st : Query.Stream, st.keys = [] → rejectAmbiguous idx st = .ok () :=
    fun st hkeys => rejectAmbiguous_nil hkeys
  by_cases hpositive : 0 < limit
  · rw [if_pos hpositive]
    have hstage : runStage idx config nodeLimit (.limit limit) (edgeRowStream idx edges cut) none =
        .ok { edgeRowStream idx edges cut with
          rows := (edges.map (edgeCells idx)).take limit.toNat, limitInEffect := true } := rfl
    rw [runStages_cons (hok _ rfl) hstage (by simp [edgeRowStream]), runStages_nil (hok _ rfl)]
    refine ⟨_, rfl, ?_⟩
    exact take_of_length_le (by rw [length_map]; omega)
  · rw [if_neg hpositive, runStages_nil (hok _ rfl)]
    exact ⟨_, rfl, rfl⟩

end EdgePlan

theorem length_byCount (edges : List EdgeRow) : (byCount idx edges).length = edges.length :=
  length_mergeSort _

variable {candidates kindIds : Option (List ℤ)} {direction : String} {α : Type} {x : α}
  {limit symId : ℤ}

/-- The rows of the plan for the edges at a symbol. -/
theorem adapterEdgeRows_eq (hlimit : limit ≠ 0) : adapterEdgeRows idx paths symId direction limit =
      .ok ((byCount idx (enumeratedEdges idx symId direction limit)).map (plannedEdge idx)) := by
  let config : Config := { budgets := .code }
  let stages := edgeStages symId direction ++ if 0 < limit then [.limit limit] else []
  have hnodeLimit : config.nodeLimit stages = if 0 < limit then some limit.toNat else none := by
    show typedNodeLimit stages = _
    by_cases hpositive : 0 < limit
    · simp [typedNodeLimit, stages, edgeStages, edgeOrder, nodesOf, hpositive]
    · simp [typedNodeLimit, stages, edgeStages, nodesOf, hpositive]
  have hmem : ∀ edge ∈ enumeratedEdges idx symId direction limit, edge ∈ idx.db.edges :=
    fun edge hedge => mem_of_mem_filter (mem_of_mem_take hedge)
  have hlength : 0 < limit →
      ((byCount idx (enumeratedEdges idx symId direction limit)).length : ℤ) ≤ limit := by
    intro hpositive
    rw [length_byCount, enumeratedEdges, if_pos hpositive, length_take]
    omega
  obtain ⟨cut, hnodes⟩ : ∃ cut, runStage idx config (config.nodeLimit stages)
      (nodesOf (eqInt (if direction = "in" then "dst_id" else "src_id") symId)) { view := .edge } none =
        .ok (edgeStream (enumeratedEdges idx symId direction limit) cut) :=
    runStage_edges hnodeLimit
  obtain ⟨out, hout, hrows⟩ : ∃ out, runStages idx config (config.nodeLimit stages)
      (if 0 < limit then [.limit limit] else [])
      (edgeRowStream idx (byCount idx (enumeratedEdges idx symId direction limit)) cut) none = .ok out ∧
        out.rows = (byCount idx (enumeratedEdges idx symId direction limit)).map (edgeCells idx) :=
    runStages_limitEdges hlength cut
  have hok : ∀ st : Query.Stream, st.view = .edge ∨ st.view = .symbol →
      rejectAmbiguous idx st = .ok () := by
    intro _ hview
    rcases hview with hview | hview <;> simp [rejectAmbiguous, hview]
  have hrun : runPlan idx config (edgePlan symId direction limit) none = .ok out := by
    have hview : runStage idx config (config.nodeLimit stages) (.changeView .edge)
        { view := .symbol } none = .ok { view := .edge } := rfl
    unfold edgePlan
    rw [runPlan]
    show runStages idx config (config.nodeLimit stages) (.changeView .edge :: _) { view := .symbol } none = _
    rw [runStages_cons (hok _ (Or.inr rfl)) hview (by simp)]
    show runStages idx config (config.nodeLimit stages) (nodesOf _ :: _) { view := .edge } none = _
    rw [runStages_cons (hok _ (Or.inl rfl)) hnodes (by simp [edgeStream])]
    show runStages idx config (config.nodeLimit stages) (.select _ :: _) _ none = _
    rw [runStages_cons (hok _ (Or.inl rfl)) (runStage_selectEdges hmem cut) (by simp [edgeRowStream])]
    show runStages idx config (config.nodeLimit stages) (.orderBy _ :: _) _ none = _
    rw [runStages_cons (hok _ (Or.inl rfl)) (runStage_orderEdges _ cut) (by simp [edgeRowStream])]
    exact hout
  have hfast : Plan.fast? (edgePlan symId direction limit) = none := by
    unfold Plan.fast?
    rw [if_neg]
    intro hfast
    have hview : ((edgePlan symId direction limit).stages.foldl FastScan.step {}).view = .edge := by
      unfold edgePlan edgeStages nodesOf eqInt
      by_cases hdirection : direction = "in"
      · by_cases hpositive : 0 < limit
        · rw [if_pos hdirection, if_pos hpositive]
          rfl
        · rw [if_pos hdirection, if_neg hpositive]
          rfl
      · by_cases hpositive : 0 < limit
        · rw [if_neg hdirection, if_pos hpositive]
          rfl
        · rw [if_neg hdirection, if_neg hpositive]
          rfl
    have hanswers := hfast.2
    simp only [FastScan.answers, hview] at hanswers
    simp at hanswers
  have hresult : runFast idx paths (edgePlan symId direction limit) = .ok (unfinished out) := by
    unfold runFast
    rw [validate_edgePlan]
    show Except.mapError _ (Exec.runFast idx config paths _ none) = _
    unfold Exec.runFast
    rw [hfast, hrun]
    rfl
  unfold adapterEdgeRows
  rw [if_neg hlimit, hresult]
  show ok ((out.rows.map Prod.fst).filterMap plannedEdge?) = _
  rw [hrows, List.map_map, filterMap_map, ← filterMap_eq_map]
  rfl

/-- The edge of a planned row, if it is wanted. -/
def wantedEdge (idx : Index) (direction : String) (kindIds candidates : Option (List ℤ))
    (row : PlannedEdge) : Option Edge :=
  let peerId := if direction = "in" then row.srcId else row.dstId
  if (candidates.any fun ids => peerId ∉ ids) ∨ (kindIds.any fun ids => row.kindId ∉ ids) then none
  else (symbolById idx peerId).map fun peer => {
    edgeId := row.edgeId, kind := (edgeName? row.kindId).getD (toString row.kindId)
    srcId := row.srcId, dstId := row.dstId, peer := peer, count := row.count
    baseAccess := row.baseAccess, isVirtual := row.isVirtual ≠ 0 }

/-- The first edges up to a limit; a limit that is not positive is none. -/
def upTo {α : Type} (limit : ℤ) (xs : List α) : List α := if 0 < limit then xs.take limit.toNat else xs

theorem map_upTo {β : Type} (f : α → β) (limit : ℤ) (xs : List α) :
    (upTo limit xs).map f = upTo limit (xs.map f) := by
  unfold upTo
  split
  · exact map_take
  · rfl

theorem mem_of_mem_upTo {xs : List α} (h : x ∈ upTo limit xs) : x ∈ xs := by
  unfold upTo at h
  split at h
  · exact mem_of_mem_take h
  · exact h

/-- A list that reaches the limit with its next item is full with it. -/
theorem upTo_full {out more : List α} (hpositive : 0 < limit)
    (hless : (out.length : ℤ) < limit) (hlimit : limit ≤ ((out ++ [x]).length : ℤ)) :
    upTo limit (out ++ x :: more) = out ++ [x] := by
  rw [length_append, length_singleton] at hlimit
  have hlength : limit.toNat = (out ++ [x]).length := by
    rw [length_append, length_singleton]
    omega
  have hsplit : out ++ x :: more = (out ++ [x]) ++ more := by simp
  rw [upTo, if_pos hpositive, hlength, hsplit, take_left]

/-- The loop of `edges` collects the wanted edges up to its limit. -/
theorem collectEdges_eq
    (rows : List PlannedEdge) (out : List Edge) (hout : 0 < limit → (out.length : ℤ) < limit) :
    collectEdges idx direction kindIds candidates limit rows out =
      upTo limit (out ++ rows.filterMap (wantedEdge idx direction kindIds candidates)) := by
  induction rows generalizing out with
  | nil =>
    rw [collectEdges, filterMap_nil, append_nil, upTo]
    split
    · rename_i hpositive
      have hlength := hout hpositive
      rw [take_of_length_le (by omega)]
    · rfl
  | cons row rest ih =>
    rw [collectEdges, filterMap_cons]
    by_cases hcandidates : candidates.any (fun ids =>
        (if direction = "in" then row.srcId else row.dstId) ∉ ids) = true
    · have hwanted : wantedEdge idx direction kindIds candidates row = none :=
        if_pos (Or.inl hcandidates)
      rw [if_pos hcandidates, hwanted]
      exact ih out hout
    · rw [if_neg hcandidates]
      by_cases hkind : kindIds.any (fun ids => row.kindId ∉ ids) = true
      · have hwanted : wantedEdge idx direction kindIds candidates row = none :=
          if_pos (Or.inr hkind)
        rw [if_pos hkind, hwanted]
        exact ih out hout
      · have hwanted : wantedEdge idx direction kindIds candidates row =
            (symbolById idx (if direction = "in" then row.srcId else row.dstId)).map _ :=
          if_neg (not_or.mpr ⟨hcandidates, hkind⟩)
        rw [if_neg hkind, hwanted]
        cases hpeer : symbolById idx (if direction = "in" then row.srcId else row.dstId) with
        | none => exact ih out hout
        | some =>
          dsimp only [map_some]
          split
          · rename_i hend
            exact (upTo_full hend.1 (hout hend.1) hend.2).symm
          · rename_i hgoing
            rw [ih]
            · rw [append_assoc, singleton_append]
            · exact fun hpositive => not_le.mp fun hle => hgoing ⟨hpositive, hle⟩

/-- The edges that `edges` lists at a symbol, given the candidates for their other ends. -/
def listedEdges (idx : Index) (symId : ℤ) (direction : String) (kindIds candidates : Option (List ℤ))
    (limit : ℤ) : List EdgeRow :=
  upTo limit ((byCount idx (enumeratedEdges idx symId direction
    (if candidates.isSome then -1 else limit))).filter fun edge =>
      (candidates.all fun ids => farEnd direction edge ∈ ids) && kindIds.all fun ids => edge.kind ∈ ids)

theorem isSome_symbolById {id : ℤ} : (symbolById idx id).isSome ↔ id ∈ idx.db.symbols.map (·.id) := by
  rw [isSome_iff_exists, List.mem_map]
  exact exists_congr fun row => symbolById_eq_some

theorem peers_wanted {edges : List EdgeRow} (hmem : ∀ edge ∈ edges, edge ∈ idx.db.edges) :
    ((edges.map (plannedEdge idx)).filterMap (wantedEdge idx direction kindIds candidates)).map
        (fun edge => edge.peer.id) =
      (edges.filter fun edge => (candidates.all fun ids => farEnd direction edge ∈ ids) &&
        kindIds.all fun ids => edge.kind ∈ ids).map (farEnd direction) := by
  induction edges with
  | nil => rfl
  | cons edge _ ih =>
    have hrest := ih fun other hother => hmem other (mem_cons_of_mem _ hother)
    have hpeer : ∃ peer, symbolById idx (farEnd direction edge) = some peer := by
      apply isSome_iff_exists.mp
      apply isSome_symbolById.mpr
      have hclosed := idx.db.edges_closed edge (hmem edge mem_cons_self)
      unfold farEnd
      split
      · exact hclosed.1
      · exact hclosed.2
    obtain ⟨peer, hpeer⟩ := hpeer
    have hadmits : ∀ (ids : Option (List ℤ)) (x : ℤ),
        (ids.any fun ids => x ∉ ids) = true ↔ (ids.all fun ids => x ∈ ids) = false := by
      intro ids _
      cases ids with
      | none => simp
      | some => simp
    rw [map_cons, filterMap_cons, filter_cons]
    by_cases hwanted : (candidates.all (fun ids => farEnd direction edge ∈ ids) &&
        kindIds.all fun ids => edge.kind ∈ ids) = true
    · have hsome : ∃ found, wantedEdge idx direction kindIds candidates (plannedEdge idx edge) =
          some found ∧ found.peer = peer := by
        obtain ⟨hcandidates, hkinds⟩ := Bool.and_eq_true_iff.mp hwanted
        unfold wantedEdge
        rw [if_neg]
        · show ∃ found, (symbolById idx (farEnd direction edge)).map _ = some found ∧ _
          rw [hpeer]
          exact ⟨_, rfl, rfl⟩
        · rw [not_or, hadmits, hadmits, Bool.not_eq_false, Bool.not_eq_false]
          exact ⟨hcandidates, hkinds⟩
      obtain ⟨_, hfound, hpeerFound⟩ := hsome
      rw [hfound, if_pos hwanted, map_cons, map_cons, hrest, hpeerFound, (symbolById_eq_some.mp hpeer).2]
    · have hnone : wantedEdge idx direction kindIds candidates (plannedEdge idx edge) = none := by
        rw [Bool.and_eq_true, not_and_or, Bool.not_eq_true, Bool.not_eq_true, ← hadmits,
          ← hadmits] at hwanted
        exact if_pos hwanted
      rw [hnone, if_neg hwanted]
      exact hrest

/-- What `edges` collects at a symbol. -/
theorem edges_of_candidates (hlimit : limit ≠ 0) (hsymbol : (symbolById idx symId).isSome = true)
    (hcandidates : adapterPeerIds idx paths symId direction kindIds = .ok candidates)
    (hsome : candidates ≠ some []) : edges idx paths symId direction kindIds limit =
      .ok (collectEdges idx direction kindIds candidates limit ((byCount idx (enumeratedEdges idx symId
        direction (if candidates.isSome then -1 else limit))).map (plannedEdge idx)) []) := by
  have hbound : (if candidates.isSome then -1 else limit) ≠ 0 := by
    split
    · omega
    · exact hlimit
  simp only [edges, hlimit, if_false, adapterSymbolExists_eq, hsymbol, hcandidates, hsome, bind,
    Except.bind, adapterEdgeRows_eq hbound]
  rfl

/-- The symbols that `edges` leads to. -/
theorem edges_eq
    (hlimit : limit ≠ 0) (hcandidates : adapterPeerIds idx paths symId direction kindIds = .ok candidates) :
    ∃ found, edges idx paths symId direction kindIds limit = .ok found ∧
      found.map (fun edge => edge.peer.id) =
        (listedEdges idx symId direction kindIds candidates limit).map (farEnd direction) := by
  have hmem : ∀ bound, ∀ edge ∈ byCount idx (enumeratedEdges idx symId direction bound),
      edge ∈ idx.db.edges :=
    fun bound edge hedge => mem_of_mem_filter (mem_of_mem_take (mem_byCount.mp hedge))
  by_cases hsymbol : (symbolById idx symId).isSome = true
  · by_cases hempty : candidates = some []
    · refine ⟨[], ?_, ?_⟩
      · simp only [edges, hlimit, if_false, adapterSymbolExists_eq, hsymbol, hcandidates, hempty, bind,
          Except.bind]
        rfl
      · simp [listedEdges, hempty, upTo]
    · refine ⟨_, edges_of_candidates hlimit hsymbol hcandidates hempty, ?_⟩
      rw [collectEdges_eq _ _ (fun hpositive => by simpa using hpositive), nil_append,
        map_upTo, peers_wanted (hmem _), listedEdges, map_upTo]
  · refine ⟨[], ?_, ?_⟩
    · simp only [edges, hlimit, if_false, adapterSymbolExists_eq, hsymbol, bind, Except.bind]
      rfl
    · have hnone : idx.db.edges.filter (fun edge => nearEnd direction edge = symId) = [] := by
        apply filter_eq_nil_iff.mpr
        intro edge hedge hnear
        have hclosed := idx.db.edges_closed edge hedge
        apply hsymbol
        apply isSome_symbolById.mpr
        rw [← of_decide_eq_true hnear]
        unfold nearEnd
        split
        · exact hclosed.2
        · exact hclosed.1
      have hedges : ∀ bound, byCount idx (enumeratedEdges idx symId direction bound) = [] := by
        intro _
        rw [← length_eq_zero_iff, length_byCount, enumeratedEdges, hnone]
        simp
      simp [listedEdges, hedges, upTo]

/-- Edges are found only where the candidates have been read. -/
theorem candidates_of_edges
    {found : List Edge} (h : edges idx paths symId direction kindIds limit = .ok found)
    (hfound : found ≠ []) :
    limit ≠ 0 ∧ ∃ candidates, adapterPeerIds idx paths symId direction kindIds = .ok candidates := by
  unfold edges at h
  by_cases hlimit : limit = 0
  · rw [if_pos hlimit] at h
    cases h
    exact absurd rfl hfound
  · rw [if_neg hlimit, adapterSymbolExists_eq] at h
    refine ⟨hlimit, ?_⟩
    cases hsymbol : (symbolById idx symId).isSome with
    | false =>
      rw [hsymbol] at h
      cases h
      exact absurd rfl hfound
    | true =>
      rw [hsymbol] at h
      have hrest : (adapterPeerIds idx paths symId direction kindIds >>= _) = .ok found := h
      obtain ⟨candidates, hcandidates, _⟩ := ok_of_bind hrest
      exact ⟨candidates, hcandidates⟩

end GraphQuery

end CppIndexer.Graph
