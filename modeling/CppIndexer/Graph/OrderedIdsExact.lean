/-
# When the pages add up

A plan that is answered on one page returns what it denotes. Beyond one page, only an enumeration
of the code base moves on with its cursor: it misses ids exactly where a whole page of rejected
nodes hides a kept one. A plan that starts elsewhere reads its first page for ever.
-/

import CppIndexer.Graph.OrderedIdsRows
import CppIndexer.Query.Truncation

namespace CppIndexer.Graph

open Query Paging List PagedPlan Exec Stage FastScan Except Candidate

variable {idx : Index}

/-! ## The validity of the page plan -/

/-- The stages of a validated paged plan, part by part. -/
structure Walked (paged : PagedPlan) (first middle rows : WalkState) : Prop where
  start : WalkState.start paged.source = .ok first
  nodes : walkStages paged.nodes first = .ok (middle, paged.nodes)
  select : walkStage (.select paged.fields) middle = .ok (rows, .select paged.fields)
  tail : ∃ last, walkStages paged.tail rows = .ok (last, paged.tail)

variable {next walk : WalkState}

theorem active_walkStages {stages : List Stage} (h : walkStages stages walk = .ok (next, stages)) :
    next.active = stages.foldl viewAfter walk.active := by
  induction stages generalizing walk with
  | nil =>
    cases h
    rfl
  | cons _ _ ih =>
    obtain ⟨_, _, _, hstage, hrest, hcons⟩ := walkStages_cons h
    cases hcons
    rw [ih hrest, (walkStage_moves hstage).active]
    rfl

theorem foldl_viewAfter_tail (paged : PagedPlan) (view : View) :
    paged.tail.foldl viewAfter view = view := by
  unfold PagedPlan.tail
  by_cases horder : paged.order = []
  all_goals
    cases hlimit : paged.limit <;> simp [horder, viewAfter]

theorem walked_of_validateWalk {paged : PagedPlan} {plan : Plan}
    (h : validateWalk plan = .ok (walk, paged.plan)) :
    ∃ first middle rows, Walked paged first middle rows ∧ walk.active = middle.active := by
  have hagain := validateWalk_again _ _ _ h
  unfold PagedPlan.plan at hagain
  rw [validateWalk] at hagain
  obtain ⟨first, hstart, hagain⟩ := ok_of_bind hagain
  obtain ⟨⟨_, _⟩, hstages, hagain⟩ := ok_of_bind hagain
  obtain ⟨_, _, hagain⟩ := ok_of_bind hagain
  cases hagain
  obtain ⟨middle, hnodes, hrest⟩ := walkStages_split hstages
  obtain ⟨rows, _, _, hselect, htail, hcons⟩ := walkStages_cons hrest
  cases hcons
  refine ⟨first, middle, rows, ⟨hstart, hnodes, hselect, ⟨_, htail⟩⟩, ?_⟩
  rw [active_walkStages htail, foldl_viewAfter_tail, (walkStage_moves hselect).active]
  rfl

variable {fields : List String}

/-- What `select` is checked for. -/
theorem walkStage_select :
    walkStage (.select fields) walk = .ok (next, .select fields) ↔
      walk.codebaseUnenumerated = false ∧ walk.shape = .nodes ∧ fields ≠ [] ∧
        (∀ field ∈ fields, fieldAvailable walk.active field = true) ∧
        next = { walk with shape := .rows, selected := fields } := by
  have hfields : (fields.forM walk.requireField = .ok ()) ↔
      ∀ field ∈ fields, fieldAvailable walk.active field = true := by
    constructor
    · intro h field hmem
      simpa using failIf_eq_ok.mp (forM_eq_ok h field hmem)
    · intro h
      induction fields with
      | nil => rfl
      | cons field rest ih =>
        have hfield : walk.requireField field = .ok () :=
          failIf_eq_ok.mpr (by simp [h field mem_cons_self])
        show (walk.requireField field >>= fun _ => rest.forM walk.requireField) = _
        rw [hfield]
        exact ih fun other hmem => h other (mem_cons_of_mem _ hmem)
  rw [walkStage_plain rfl]
  constructor
  · intro h
    obtain ⟨_, _, h⟩ := ok_of_bind h
    obtain ⟨_, hconsume, h⟩ := ok_of_bind h
    obtain ⟨_, hshape, h⟩ := ok_of_bind h
    obtain ⟨_, hne, h⟩ := ok_of_bind h
    obtain ⟨_, havailable, h⟩ := ok_of_bind h
    cases h
    exact ⟨consume_eq_ok hconsume, requireShape_eq_ok hshape, failIf_eq_ok.mp hne,
      hfields.mp havailable, rfl⟩
  · rintro ⟨hconsume, hshape, hne, havailable, rfl⟩
    refine bind_eq_ok.mpr ⟨(), failIf_eq_ok.mpr (by simp [hshape]), ?_⟩
    refine bind_eq_ok.mpr ⟨(), failIf_eq_ok.mpr (by simp [hconsume]), ?_⟩
    refine bind_eq_ok.mpr ⟨(), failIf_eq_ok.mpr (by simp [hshape]), ?_⟩
    refine bind_eq_ok.mpr ⟨(), failIf_eq_ok.mpr hne, ?_⟩
    exact bind_eq_ok.mpr ⟨(), hfields.mpr havailable, rfl⟩

namespace Walked

variable {paged : PagedPlan} {first middle rows : WalkState}

/-- The fields of the order are fields of the view, and selected. -/
theorem order_selected (h : Walked paged first middle rows) :
    ∀ field ∈ paged.order, fieldAvailable middle.active field = true ∧ field ∈ paged.fields := by
  obtain ⟨_, _, _, _, hrows⟩ := walkStage_select.mp h.select
  obtain ⟨_, htail⟩ := h.tail
  by_cases horder : paged.order = []
  · simp [horder]
  · unfold PagedPlan.tail at htail
    rw [if_neg horder, singleton_append, walkStages] at htail
    obtain ⟨⟨_, _⟩, hstage, _⟩ := ok_of_bind htail
    rw [walkStage_plain rfl] at hstage
    obtain ⟨_, _, hstage⟩ := ok_of_two_binds hstage
    obtain ⟨_, _, hstage⟩ := ok_of_two_binds hstage
    obtain ⟨_, hfields, _⟩ := ok_of_bind hstage
    intro field hmem
    obtain ⟨_, hfield, hselected⟩ := ok_of_bind (forM_eq_ok hfields field hmem)
    have hfield := failIf_eq_ok.mp hfield
    have hselected := failIf_eq_ok.mp hselected
    rw [hrows] at hfield hselected
    exact ⟨by simpa using hfield, by simpa using hselected⟩

theorem collectionFields_subset (h : Walked paged first middle rows) :
    ∀ field ∈ collectionFields paged.order, field = "id" ∨ field ∈ paged.fields := by
  rw [collectionFields_eq]
  intro field hmem
  rcases mem_cons.mp hmem with rfl | hmem
  · exact Or.inl rfl
  · exact Or.inr (h.order_selected field (newFields_subset hmem)).2

theorem fieldAvailable_id (view : View) : fieldAvailable view "id" = true := by
  cases view <;> decide

theorem validate_pagePlan (h : Walked paged first middle rows) {plan : Plan} {walk : WalkState}
    (hvalid : validateWalk plan = .ok (walk, paged.plan)) :
    ∃ last, validateWalk paged.pagePlan = .ok (last, paged.pagePlan) := by
  unfold pagePlan
  by_cases horder : paged.order = []
  · rw [if_pos horder]
    exact ⟨walk, validateWalk_again _ _ _ hvalid⟩
  · rw [if_neg horder, validateWalk, h.start]
    obtain ⟨hsource, hshape, _⟩ := walkStage_select.mp h.select
    have hselect : walkStage (.select (collectionFields paged.order)) middle =
        .ok ({ middle with shape := .rows, selected := collectionFields paged.order },
          .select (collectionFields paged.order)) := by
      refine walkStage_select.mpr ⟨hsource, hshape, ?_, ?_, rfl⟩
      · rw [collectionFields_eq]
        simp
      · intro field hmem
        rw [collectionFields_eq] at hmem
        rcases mem_cons.mp hmem with rfl | hmem
        · exact fieldAvailable_id _
        · exact (h.order_selected field (newFields_subset hmem)).1
    have hlast : walkStages [.select (collectionFields paged.order)] middle =
        .ok ({ middle with shape := .rows, selected := collectionFields paged.order },
          [.select (collectionFields paged.order)]) := by
      rw [walkStages]
      exact bind_eq_ok.mpr ⟨_, hselect, bind_eq_ok.mpr ⟨_, by rw [walkStages], rfl⟩⟩
    refine ⟨{ middle with shape := .rows, selected := collectionFields paged.order }, ?_⟩
    refine bind_eq_ok.mpr ⟨first, rfl, bind_eq_ok.mpr ⟨_, walkStages_join h.nodes hlast, ?_⟩⟩
    exact bind_eq_ok.mpr ⟨(), failIf_eq_ok.mpr (by simp [hsource]), rfl⟩

end Walked

/-! ## One page -/

def PagedPlan.pageFields (paged : PagedPlan) : List String :=
  if paged.order = [] then paged.fields else collectionFields paged.order

variable {config : Config} {nodeLimit : Option ℕ} {paged : PagedPlan} {st : Stream} {α : Type}

theorem PagedPlan.Readable.pageFields (h : paged.Readable) : ∃ rest, paged.pageFields = "id" :: rest := by
  unfold PagedPlan.pageFields
  by_cases horder : paged.order = []
  · rw [if_pos horder]
    exact ⟨_, (head?_eq_some_iff.mp (h.idFirst horder)).choose_spec⟩
  · rw [if_neg horder, collectionFields_eq]
    exact ⟨_, rfl⟩

theorem fields_scan (stages : List Stage) (scan : FastScan) :
    (stages.foldl step scan).fields = stages.foldl fieldsAfter scan.fields := by
  induction stages generalizing scan with
  | nil => rfl
  | cons stage _ ih =>
    rw [foldl_cons, foldl_cons, ih]
    have hstep : (scan.step stage).fields = stage.fieldsAfter scan.fields := by
      cases stage with
      | nodes =>
        unfold step
        dsimp only
        split
        · split <;> rfl
        · rfl
      | _ => rfl
    rw [hstep]

/-- A plan that selects ids is left to the executor. -/
theorem fast?_pagePlan (h : paged.Readable) : paged.pagePlan.fast? = none := by
  have hfields : paged.pagePlan.stages.foldl fieldsAfter [] = paged.pageFields := by
    unfold pagePlan pageFields
    by_cases horder : paged.order = []
    · rw [if_pos horder, if_pos horder]
      show (paged.nodes ++ Stage.select paged.fields :: paged.tail).foldl _ _ = _
      rw [foldl_append, foldl_cons]
      unfold PagedPlan.tail
      cases hlimit : paged.limit <;> simp [horder, fieldsAfter]
    · rw [if_neg horder, if_neg horder]
      show (paged.nodes ++ [Stage.select (collectionFields paged.order)]).foldl _ _ = _
      rw [foldl_append]
      rfl
  obtain ⟨_, hrest⟩ := h.pageFields
  have hanswers : (paged.pagePlan.stages.foldl step {}).answers = false := by
    unfold answers
    rw [fields_scan, show ({} : FastScan).fields = [] from rfl, hfields, hrest]
    simp
  unfold Plan.fast?
  simp [hanswers]

variable {paths : FilePaths idx}

/-- A page is what the executor returns for the page plan. -/
theorem page_eq (hreadable : paged.Readable)
    {plan : Plan} (hvalid : validate plan = .ok paged.pagePlan) (afterId : Option ℤ) :
    page idx paths plan afterId = (do
      let st ← (runPlan idx { budgets := .code } paged.pagePlan afterId).mapError .plan
      let candidates ← ((st.rows.map Prod.fst).filter (· ≠ [])).mapM candidateOf
      pure (candidates, st.truncated)) := by
  have hfast : runFast idx { budgets := .code } paths paged.pagePlan afterId =
      (runPlan idx { budgets := .code } paged.pagePlan afterId).map unfinished := by
    unfold runFast
    rw [fast?_pagePlan hreadable]
    cases afterId <;> rfl
  unfold page
  rw [hvalid]
  show ((runFast idx { budgets := .code } paths paged.pagePlan afterId).mapError
    ReadError.plan >>= _) = _
  rw [hfast]
  cases runPlan idx { budgets := .code } paged.pagePlan afterId with
  | error => rfl
  | ok => rfl

theorem page_of_rows {paged : PagedPlan} (hreadable : paged.Readable)
    {plan : Plan} (hvalid : validate plan = .ok paged.pagePlan) {afterId : Option ℤ} {st : Stream}
    (hst : runPlan idx { budgets := .code } paged.pagePlan afterId = .ok st) {ids : List ℤ}
    (hrows : st.rows = nodeRows idx ids paged.pageFields) :
    page idx paths plan afterId =
      .ok ((present idx ids).map (candidateAt idx paged.pageFields.tail), st.truncated) := by
  obtain ⟨_, hfields⟩ := hreadable.pageFields
  rw [page_eq hreadable hvalid, hst, hfields]
  rw [hfields] at hrows
  simp only [Except.mapError, bind, Except.bind, hrows, candidates_nodeRows]
  rfl

/-! ## What the plan denotes -/

theorem map_cutAt {β : Type} (f : α → β) (limit : Option ℤ) (xs : List α) :
    (cutAt limit xs).map f = cutAt limit (xs.map f) := by
  cases limit with
  | none => rfl
  | some => exact map_take

variable (limit : Option ℤ)

theorem sublist_cutAt (xs : List α) : (cutAt limit xs).Sublist xs := by
  cases limit with
  | none => exact List.Sublist.refl _
  | some => exact take_sublist _ _

theorem present_cutAt (ids : List ℤ) :
    present idx (cutAt limit (present idx ids)) = cutAt limit (present idx ids) := by
  apply filter_eq_self.mpr
  intro _ hid
  exact (mem_filter.mp ((sublist_cutAt limit _).subset hid)).2

/-- Fewer rows are the rows of fewer nodes. -/
theorem cutAt_nodeRows (ids : List ℤ) (fields : List String) : cutAt limit (nodeRows idx ids fields) =
      nodeRows idx (cutAt limit (present idx ids)) fields := by
  rw [nodeRows_eq, nodeRows_eq, present_cutAt, map_cutAt]

/-- The stages after the projection order and cut the rows. -/
theorem runStages_tail (paged : PagedPlan)
    (hshape : st.shape = .rows) (hkeys : st.keys = []) (afterId : Option ℤ) :
    ∃ out, runStages idx config nodeLimit paged.tail st afterId = .ok out ∧
      out.truncated = st.truncated ∧ out.rows = cutAt paged.limit (if paged.order = [] then st.rows
        else sortByCells (fun row : List Cell × ℤ => paged.order.map fun field =>
          (row.1[st.fields.idxOf field]?).join) Prod.snd st.rows) := by
  have hlimit : ∀ st : Stream, st.shape = .rows → st.keys = [] →
      ∃ out, runStages idx config nodeLimit (paged.limit.toList.map .limit) st afterId = .ok out ∧
        out.truncated = st.truncated ∧ out.rows = cutAt paged.limit st.rows := by
    intro st hshape hkeys
    cases paged.limit with
    | none => exact ⟨st, runStages_nil (rejectAmbiguous_nil hkeys), rfl, rfl⟩
    | some n =>
      let cut : Stream := { st with limitInEffect := true, rows := st.rows.take n.toNat }
      refine ⟨cut, ?_, rfl, rfl⟩
      have hstage : runStage idx config nodeLimit (.limit n) st afterId = .ok cut :=
        congrArg ok (applyLimit_rows hshape n)
      show runStages idx config nodeLimit [.limit n] st afterId = _
      rw [runStages_cons (rejectAmbiguous_nil hkeys) hstage (by simp [cut, hshape])]
      exact runStages_nil (rejectAmbiguous_nil hkeys)
  unfold PagedPlan.tail
  by_cases horder : paged.order = []
  · rw [if_pos horder, if_pos horder, nil_append]
    exact hlimit st hshape hkeys
  · rw [if_neg horder, if_neg horder, singleton_append]
    let sorted : Stream := { st with rows := sortByCells (fun row : List Cell × ℤ =>
      paged.order.map fun field => (row.1[st.fields.idxOf field]?).join) Prod.snd st.rows }
    have hstage : runStage idx config nodeLimit (.orderBy paged.order) st afterId =
        .ok sorted := by
      show applyOrder idx config.budgets st paged.order = _
      unfold applyOrder
      rw [if_neg (by simp [hshape])]
    rw [runStages_cons (rejectAmbiguous_nil hkeys) hstage (by simp [sorted, hshape])]
    exact hlimit sorted hshape hkeys

variable {rest : List Stage}

/-- A projection and the stages after it. -/
theorem runStages_select {out : Stream}
    (hview : st.view.isNode = true) {afterId : Option ℤ}
    (h : runStages idx config nodeLimit (.select fields :: rest) st afterId = .ok out) :
    (∃ found, materialize idx config.budgets st fields = .ok found) ∧
    ∃ rows, rows.shape = .rows ∧ rows.keys = [] ∧ rows.fields = fields ∧
      rows.truncated = st.truncated ∧ rows.rows = nodeRows idx (projected st) fields ∧
      runStages idx config nodeLimit rest rows afterId = .ok out := by
  rw [runStages] at h
  obtain ⟨_, _, h⟩ := ok_of_bind h
  obtain ⟨_, hfound, h⟩ := ok_of_bind h
  obtain ⟨rows, hrows, rfl⟩ := map_eq_ok.mp hfound
  obtain ⟨ids, rfl⟩ := materialize_nodes hview hrows
  rw [if_neg (by simp)] at h
  refine ⟨⟨_, hrows⟩, ?_⟩
  exact ⟨{ st with shape := .rows, fields := fields, keys := [], ids := ids
                   rows := nodeRows idx (projected st) fields }, rfl, rfl, rfl, rfl, rfl, h⟩

/-- The nodes of a plan, without budgets. -/
def PagedPlan.nodeStream (idx : Index) (paged : PagedPlan) : Except PlanError Stream :=
  Exec.runStages idx { budgets := .unbounded, pushDown := false } none paged.nodes
    (Exec.initial idx paged.source) none

/-- The ids of the rows, given the nodes. -/
def PagedPlan.idsOf (idx : Index) (paged : PagedPlan) (ids : List ℤ) : List ℤ :=
  cutAt paged.limit (if paged.order = [] then present idx ids
    else orderedBy idx paged.order (present idx ids))

namespace Walked

variable {paged : PagedPlan} {first middle rows : WalkState}

theorem shape_nodes (h : Walked paged first middle rows) : middle.shape = .nodes :=
  (walkStage_select.mp h.select).2.1

variable {config : Config} {nodeLimit : Option ℕ} {afterId : Option ℤ}

section

variable (h : Walked paged first middle rows)
include h

/-- The stages up to the projection come first. -/
theorem runStages_nodes :
    runStages idx config nodeLimit (paged.nodes ++ rest) (initial idx paged.source) afterId =
      (do
        let st ← runStages idx config nodeLimit paged.nodes (initial idx paged.source) afterId
        runStages idx config nodeLimit rest st (cursorAfter afterId paged.nodes)) :=
  runStages_append h.nodes (by simp [h.shape_nodes]) (follows_initial h.start)

theorem view_nodes {st : Stream}
    (hst : runStages idx config nodeLimit paged.nodes (initial idx paged.source) afterId =
      .ok st) : st.view = middle.active :=
  (follows_runStages h.nodes (follows_initial h.start) hst).view

theorem idsOf_rows (ids : List ℤ) :
    (cutAt paged.limit (if paged.order = [] then nodeRows idx ids paged.fields
      else sortByCells (fun row : List Cell × ℤ => paged.order.map fun field =>
        (row.1[paged.fields.idxOf field]?).join) Prod.snd
        (nodeRows idx ids paged.fields))).map Prod.snd = paged.idsOf idx ids := by
  unfold idsOf
  rw [map_cutAt]
  split
  · rw [nodeRows_eq, map_map]
    simp [Function.comp_def]
  · rw [ids_sortedRows fun field hmem => (h.order_selected field hmem).2]

theorem denotes (hnode : middle.active.isNode = true)
    {ids : List ℤ} (hids : Denotes idx paged.plan ids) :
    ∃ st, paged.nodeStream idx = .ok st ∧ ids = paged.idsOf idx (projected st) ∧
      ∃ out, materialize idx .unbounded st paged.fields = .ok out := by
  obtain ⟨_, hout, rfl⟩ := hids
  unfold plan at hout
  rw [runPlan, h.runStages_nodes] at hout
  obtain ⟨st, hst, hout⟩ := ok_of_bind hout
  have hview : st.view.isNode = true := by
    rw [h.view_nodes hst]
    exact hnode
  obtain ⟨hmaterialize, _, hshape, hkeys, hfields, _, hrows, htail⟩ := runStages_select hview hout
  obtain ⟨_, hout', _, hlast⟩ := runStages_tail paged hshape hkeys
    (cursorAfter none paged.nodes)
  rw [htail] at hout'
  cases hout'
  refine ⟨st, hst, ?_, hmaterialize⟩
  rw [hlast, hfields, hrows]
  exact h.idsOf_rows _

end

end Walked

/-! ## Answered on one page -/

/-- The page plan is answered in full at once: none of its cuts goes unreported, no limit of an
operand is pushed down, and the flag is not raised. -/
structure OnePage (idx : Index) (paged : PagedPlan) : Prop where
  reports : paged.pagePlan.Reports idx { budgets := .code } none
  pushless : paged.pagePlan.pushless = true
  complete : ∃ st, Exec.runPlan idx { budgets := .code } paged.pagePlan none = .ok st ∧
    st.truncated = false

/-- The stages after the projection of a page plan. -/
def PagedPlan.pageTail (paged : PagedPlan) : List Stage := if paged.order = [] then paged.tail else []

theorem pagePlan_eq (paged : PagedPlan) :
    paged.pagePlan = .mk paged.source (paged.nodes ++ .select paged.pageFields :: paged.pageTail) := by
  unfold pagePlan pageFields pageTail
  split <;> rfl

variable {config : Config} {paths : FilePaths idx} {ids : List ℤ} {paged : PagedPlan} {plan : Plan}
  {st : Stream} {rows first walk middle : WalkState}

theorem Walked.page_rows (h : Walked paged first middle rows) (hnode : middle.active.isNode = true)
    {afterId : Option ℤ} {out : Stream}
    (hout : runPlan idx config paged.pagePlan afterId = .ok out) :
    ∃ st, runStages idx config (config.nodeLimit paged.pagePlan.stages) paged.nodes
        (initial idx paged.source) afterId = .ok st ∧ out.truncated = st.truncated ∧
      out.rows = nodeRows idx (if paged.order = [] then
        cutAt paged.limit (present idx (projected st)) else projected st)
          paged.pageFields := by
  rw [pagePlan_eq] at hout ⊢
  rw [runPlan, h.runStages_nodes] at hout
  obtain ⟨st, hst, hout⟩ := ok_of_bind hout
  have hview : st.view.isNode = true := by
    rw [h.view_nodes hst]
    exact hnode
  obtain ⟨_, _, hshape, hkeys, _, hflag, hrows, htail⟩ := runStages_select hview hout
  refine ⟨st, hst, ?_⟩
  unfold pageTail at htail
  by_cases horder : paged.order = []
  · rw [if_pos horder] at htail ⊢
    obtain ⟨_, hout', hflag', hlast⟩ := runStages_tail paged hshape hkeys
      (cursorAfter afterId paged.nodes)
    rw [htail] at hout'
    cases hout'
    refine ⟨hflag'.trans hflag, ?_⟩
    rw [hlast, if_pos horder, hrows, cutAt_nodeRows]
  · rw [if_neg horder] at htail ⊢
    rw [runStages_nil (rejectAmbiguous_nil hkeys)] at htail
    cases htail
    exact ⟨hflag, hrows⟩

/-- The candidates are read from the page plan, and ordered and cut at the end. -/
theorem adapterOrderedIds_eq (hvalid : validateWalk plan = .ok (walk, paged.plan)) (fuel : ℕ) :
    adapterOrderedIds idx paths fuel plan = (collect Candidate.id
      (page idx paths (if paged.order = [] then plan else paged.pagePlan)) fuel none []).map
        (Except.map fun found => if paged.order = [] then found.map Candidate.id
          else (cutAt paged.limit (inOrder found)).map Candidate.id) := by
  unfold adapterOrderedIds
  rw [show validate plan = .ok paged.plan from map_eq_ok.mpr ⟨_, hvalid, rfl⟩]
  dsimp only
  rw [paged.orderFields_plan, paged.resultLimit_plan]
  by_cases horder : paged.order = []
  · rw [if_neg (by simp [horder]), if_pos horder]
    simp [if_pos horder]
  · rw [if_pos horder, if_neg horder, paged.collection_plan horder]
    simp [if_neg horder]

/-- The ids the adapter returns for the candidates it has collected. -/
theorem ids_collected (hreadable : paged.Readable) (kept : List ℤ) : (if paged.order = [] then
        (kept.map (candidateAt idx paged.pageFields.tail)).map Candidate.id
      else (cutAt paged.limit (inOrder
        (kept.map (candidateAt idx paged.pageFields.tail)))).map Candidate.id) =
      if paged.order = [] then kept else cutAt paged.limit (orderedBy idx paged.order kept) := by
  by_cases horder : paged.order = []
  · rw [if_pos horder, if_pos horder]
    simp [candidateAt, Function.comp_def]
  · have hfields : paged.pageFields.tail = newFields ["id"] paged.order := by
      unfold pageFields
      rw [if_neg horder, collectionFields_eq]
      rfl
    rw [if_neg horder, if_neg horder, hfields, map_cutAt, ids_inOrder hreadable.idLast]

/-- The plan whose pages are read is the page plan. -/
theorem Walked.validate_read (h : Walked paged first middle rows)
    (hvalid : validateWalk plan = .ok (walk, paged.plan)) :
    validate (if paged.order = [] then plan else paged.pagePlan) = .ok paged.pagePlan := by
  by_cases horder : paged.order = []
  · rw [if_pos horder]
    unfold pagePlan
    rw [if_pos horder]
    exact map_eq_ok.mpr ⟨_, hvalid, rfl⟩
  · rw [if_neg horder]
    obtain ⟨_, hlast⟩ := h.validate_pagePlan hvalid
    exact map_eq_ok.mpr ⟨_, hlast, rfl⟩

/-- A plan that is answered on one page returns what it denotes. -/
theorem returns_of_onePage (hgraph : idx.graph .code = idx.graph .unbounded)
    (h : Walked paged first middle rows)
    (hnode : middle.active.isNode = true) (hreadable : paged.Readable)
    (hvalid : validateWalk plan = .ok (walk, paged.plan))
    (hpage : OnePage idx paged) (hids : Denotes idx paged.plan ids) :
    ∃ fuel, adapterOrderedIds idx paths fuel plan = some (.ok ids) := by
  obtain ⟨out, hout, hflag⟩ := hpage.complete
  have hfree : runPlan idx { budgets := .unbounded } paged.pagePlan none = .ok out :=
    (runPlan_honest hgraph paged.pagePlan none hpage.reports out hout hflag).2
  rw [runPlan_pushless _ _ hpage.pushless] at hfree
  obtain ⟨st, hst, _, hrows⟩ := h.page_rows hnode hfree
  obtain ⟨st', hst', rfl, _⟩ := h.denotes hnode hids
  have hsame : st' = st := by
    have hboth : paged.nodeStream idx = .ok st := hst
    rw [hst'] at hboth
    exact ok.inj hboth
  subst hsame
  have hread := @page_of_rows idx paths paged hreadable _ (h.validate_read hvalid) none out hout _ hrows
  rw [hflag] at hread
  have hcollect := @collect_last _ _ _ _ Candidate.id _ [] _ none false hread (by simp) 0
  refine ⟨1, ?_⟩
  rw [adapterOrderedIds_eq hvalid, hcollect]
  simp only [nil_append, Option.map_some, Except.map, ids_collected hreadable]
  unfold idsOf
  by_cases horder : paged.order = []
  · simp [if_pos horder, present_cutAt]
  · simp [if_neg horder]

/-! ## Each id once -/

theorem pairwise_present (h : ids.Pairwise (· < ·)) : (present idx ids).Pairwise (· < ·) :=
  h.sublist filter_sublist

theorem nodup_idsOf (hst : paged.nodeStream idx = .ok st) : (paged.idsOf idx (projected st)).Nodup ∧
      (paged.order = [] → (paged.idsOf idx (projected st)).Pairwise (· < ·)) := by
  have hids : Exec.Ascending st := ascending_runStages paged.unprojected
    (ascending_initial paged.source) hst
  have hprojected : (projected st).Pairwise (· < ·) := by
    unfold projected
    split
    · exact hids
    · exact List.Pairwise.nil
  have hpresent := @pairwise_present idx _ hprojected
  unfold idsOf
  constructor
  · refine List.Nodup.sublist (sublist_cutAt _ _) ?_
    split
    · exact hpresent.imp ne_of_lt
    · exact (perm_orderedBy _ _).nodup_iff.mpr (hpresent.imp ne_of_lt)
  · intro horder
    rw [if_pos horder]
    exact hpresent.sublist (sublist_cutAt _ _)

/-! ## Sources other than the code base -/

theorem readsCursor_tail (paged : PagedPlan) :
    ∀ stage ∈ Stage.select paged.pageFields :: paged.pageTail, readsCursor stage = false := by
  intro _ hmem
  rcases mem_cons.mp hmem with rfl | hmem
  · rfl
  · unfold pageTail PagedPlan.tail at hmem
    by_cases horder : paged.order = []
    · cases hlimit : paged.limit with
      | none => simp [horder, hlimit] at hmem
      | some =>
        simp only [horder, hlimit, if_true, Option.toList_some, map_cons, map_nil,
          nil_append, mem_singleton] at hmem
        subst hmem
        rfl
    · simp [horder] at hmem

/-- Without an enumeration the cursor is not read. -/
theorem Walked.runPlan_cursor
    (h : Walked paged first middle rows) (hsource : paged.source.kind ≠ .codebase)
    (afterId : Option ℤ) : runPlan idx config paged.pagePlan afterId =
      runPlan idx config paged.pagePlan none := by
  have hfirst : first.codebaseUnenumerated = false := by
    have hstart := h.start
    unfold WalkState.start at hstart
    split at hstart
    · cases hstart
    · cases hstart
      simpa using hsource
  rw [pagePlan_eq]
  simp only [runPlan]
  apply runStages_cursor
  intro stage hmem
  rcases mem_append.mp hmem with hmem | hmem
  · exact readsCursor_of_walkStages h.nodes hfirst stage hmem
  · exact readsCursor_tail paged stage hmem

/-- A plan that does not start from the code base reads a cut first page for ever. -/
theorem endless_of_cut (h : Walked paged first middle rows) (hnode : middle.active.isNode = true)
    (hreadable : paged.Readable)
    (hvalid : validateWalk plan = .ok (walk, paged.plan)) (hsource : paged.source.kind ≠ .codebase)
    (hst : runPlan idx { budgets := .code } paged.pagePlan none = .ok st)
    (hflag : st.truncated = true) (hrows : st.rows ≠ []) (fuel : ℕ) :
    adapterOrderedIds idx paths fuel plan = none := by
  obtain ⟨nodes, _, _, hnodes⟩ := h.page_rows hnode hst
  generalize (if paged.order = [] then cutAt paged.limit (present idx (projected nodes))
    else projected nodes) = ids at hnodes
  have hpage : ∀ cursor, page idx paths (if paged.order = [] then plan else paged.pagePlan) cursor =
      .ok ((present idx ids).map (candidateAt idx paged.pageFields.tail), true) := by
    intro cursor
    have hcursor := (h.runPlan_cursor hsource cursor).trans hst
    rw [page_of_rows hreadable (h.validate_read hvalid) hcursor hnodes, hflag]
  have hne : (present idx ids).map (candidateAt idx paged.pageFields.tail) ≠ [] := by
    intro hempty
    apply hrows
    rw [hnodes, nodeRows_eq, map_eq_nil_iff.mp hempty]
    rfl
  have hloop := @collect_constant _ _ _ _ Candidate.id _ _ hpage hne fuel none []
  rw [adapterOrderedIds_eq hvalid, hloop]
  rfl

end CppIndexer.Graph
