/-
# The plans that `run_fast` answers itself

A validated plan of this kind changes the view to sites, enumerates the sites of one edge, and then
orders, cuts and selects them. The executor does this one stage after the other: it sorts keys
before the selection and rows after it, a change of view throws the keys away, and the enumeration
is cut at the last limit when no stage orders by path.

`replay` says what the stages select from the sites of the edge. The fast answer is right exactly
when this is the selection in file order, cut at the last limit.
-/

import CppIndexer.Query.RunFast

namespace CppIndexer.Query

open SortUnique List Option Index FastScan Except Budget

/-- The rows of an order and limit stages that follow the selection. -/
def Index.replayRows (idx : Index) : List Stage → List SiteRow → List SiteRow
  | [], sites => sites
  | .orderBy fields :: rest, sites =>
    idx.replayRows rest (sortByCells (idx.siteCells fields) (fun site => idx.rowId .site site.key)
      sites)
  | .limit n :: rest, sites => idx.replayRows rest (sites.take n.toNat)
  | _ :: rest, sites => idx.replayRows rest sites

/-- The sites that the stages behind the enumeration select. Without sites left, fields are looked
up as those of a symbol. -/
def Index.replay (idx : Index) : List Stage → List SiteRow → Option (List SiteRow)
  | [], sites => some sites
  | .changeView _ :: rest, _ => idx.replay rest []
  | .orderBy fields :: rest, sites =>
    if sites = [] ∧ (fields.mapM Index.selectColumn).toOption = none then none
    else idx.replay rest (sortByCells (idx.siteCells fields) (·.key) sites)
  | .limit n :: rest, sites => idx.replay rest (sites.take n.toNat)
  | .select _ :: rest, sites => some (idx.replayRows rest sites)
  | _ :: rest, sites => idx.replay rest sites

/-- The stages behind the enumeration. -/
def stagesAfterNodes : List Stage → List Stage
  | [] => []
  | .nodes .. :: rest => rest
  | _ :: rest => stagesAfterNodes rest

/-- The sites a plan over one edge selects, unless one of them is in an ambiguous file. -/
def Index.selectedSites (idx : Index) (stages : List Stage) (edgeId : ℤ) : Option (List SiteRow) :=
  let sites := Budget.cut (typedNodeLimit stages) (idx.edgeSites edgeId)
  if sites.any fun site => idx.ambiguousFile site.fileId then none
  else idx.replay (stagesAfterNodes stages) sites

/-- The stages select the sites that `run_fast` reads, with the same cells. -/
def SameSelection (idx : Index) (paths : FilePaths idx) (stages : List Stage) (scan : FastScan) : Prop :=
  (idx.selectedSites stages (scan.edgeId.getD 0)).map (fun sites =>
      sites.map (idx.siteCells scan.fields)) =
    some ((paths.fastSites scan).map fun site => scan.fields.map (paths.fastCell site))

/-! ## The scan -/

theorem fast?_eq_some {plan : Plan} {scan : FastScan} (h : plan.fast? = some scan) :
    plan.source.kind = .codebase ∧ scan.answers = true ∧
      plan.stages.foldl step {} = scan := by
  unfold Plan.fast? at h
  dsimp only at h
  split at h
  · rename_i hanswers
    cases h
    exact ⟨hanswers.1, hanswers.2, rfl⟩
  · cases h

/-- A stage that `run_fast` supports. -/
def fastStage : Stage → Bool
  | .changeView _ | .select _ | .orderBy _ | .limit _ => true
  | .nodes pred _ => (Exec.intEquality pred).any fun (field, _) => field = "edge_id"
  | _ => false

attribute [local simp] fastStage

theorem supported_step (scan : FastScan) (stage : Stage) :
    (scan.step stage).supported = (scan.supported && fastStage stage) := by
  cases stage with
  | nodes =>
    simp only [step, fastStage]
    split
    · rename_i field value hpred
      by_cases hfield : field = "edge_id" <;> simp [hpred, hfield]
    · rename_i hpred
      simp [hpred]
  | _ => simp [step]

/-- A supported scan has seen supported stages only. -/
theorem fastStage_of_supported {stages : List Stage} {scan : FastScan}
    (h : (stages.foldl step scan).supported = true) :
    scan.supported = true ∧ ∀ stage ∈ stages, fastStage stage = true := by
  induction stages generalizing scan with
  | nil => exact ⟨h, by simp⟩
  | cons _ _ ih =>
    obtain ⟨hstep, hrest⟩ := ih h
    rw [supported_step, Bool.and_eq_true] at hstep
    exact ⟨hstep.1, forall_mem_cons.mpr ⟨hstep.2, hrest⟩⟩

variable {stages normal : List Stage} {walk next : WalkState}

/-- The scan collects the fields that validation tracks, and the view. -/
theorem scan_walkStages
    (hwalk : walkStages stages walk = .ok (next, normal))
    (hfast : ∀ stage ∈ normal, fastStage stage = true) {scan : FastScan}
    (hview : scan.view = walk.active) (hfields : scan.fields = walk.selected) :
    (normal.foldl step scan).view = next.active ∧
      (normal.foldl step scan).fields = next.selected := by
  induction stages generalizing walk normal scan with
  | nil =>
    cases hwalk
    exact ⟨hview, hfields⟩
  | cons _ _ ih =>
    obtain ⟨_, stage', _, hstage, hrest, rfl⟩ := walkStages_cons hwalk
    obtain ⟨hactive, _, hselected⟩ := walkStage_moves hstage
    have hfast' := fun other hother => hfast other (mem_cons_of_mem _ hother)
    refine ih hrest hfast' ?_ ?_
    · rw [hactive]
      cases stage' with
      | nodes pred unknown =>
        have hnodes : (scan.step (.nodes pred unknown)).view = scan.view := by
          simp only [step]
          split
          · split <;> rfl
          · rfl
        exact hnodes.trans hview
      | changeView => rfl
      | select fields | orderBy fields | limit n => exact hview
      | _ => exact absurd (hfast _ mem_cons_self) (by simp)
    · rw [hselected]
      cases stage' with
      | nodes pred unknown =>
        have hnodes : (scan.step (.nodes pred unknown)).fields = scan.fields := by
          simp only [step]
          split
          · split <;> rfl
          · rfl
        exact hnodes.trans hfields
      | select => rfl
      | changeView level | orderBy fields | limit n => exact hfields
      | _ => exact absurd (hfast _ mem_cons_self) (by simp)

/-- Behind the enumeration, the view stays and no other edge is scanned. -/
theorem enumerated_walkStages (hwalk : walkStages stages walk = .ok (next, normal))
    (hfast : ∀ stage ∈ normal, fastStage stage = true)
    (hsource : walk.codebaseUnenumerated = false) (scan : FastScan) :
    (next.active.isNode = false → walk.active = next.active) ∧
      (normal.foldl step scan).edgeId = scan.edgeId := by
  induction stages generalizing walk normal scan with
  | nil =>
    cases hwalk
    exact ⟨fun _ => rfl, rfl⟩
  | cons _ _ ih =>
    obtain ⟨_, stage', _, hstage, hrest, rfl⟩ := walkStages_cons hwalk
    obtain ⟨hpermits, hsource'⟩ := walkStage_permits hstage
    have hactive := (walkStage_moves hstage).active
    have hfast' := fun other hother => hfast other (mem_cons_of_mem _ hother)
    cases stage' with
    | nodes => exact absurd (hsource.symm.trans hpermits) (by simp)
    | changeView level =>
      obtain ⟨hview, hedge⟩ := ih hrest hfast' (hsource'.trans hsource)
        (scan.step (.changeView level))
      refine ⟨fun htyped => ?_, hedge⟩
      have hlevel : level = next.active := hactive.symm.trans (hview htyped)
      rcases hpermits.2 with hcodebase | hsame | hnodes
      · exact absurd (hsource.symm.trans hcodebase) (by simp)
      · exact hsame.symm.trans hlevel
      · rw [hlevel, htyped] at hnodes
        exact absurd hnodes.2 (by simp)
    | select fields =>
      obtain ⟨hview, hedge⟩ := ih hrest hfast' (hsource'.trans hsource)
        (scan.step (.select fields))
      exact ⟨fun htyped => hactive.symm.trans (hview htyped), hedge⟩
    | orderBy fields =>
      obtain ⟨hview, hedge⟩ := ih hrest hfast' (hsource'.trans hsource)
        (scan.step (.orderBy fields))
      exact ⟨fun htyped => hactive.symm.trans (hview htyped), hedge⟩
    | limit n =>
      obtain ⟨hview, hedge⟩ := ih hrest hfast' (hsource'.trans hsource) (scan.step (.limit n))
      exact ⟨fun htyped => hactive.symm.trans (hview htyped), hedge⟩
    | _ => exact absurd (hfast _ mem_cons_self) (by simp)

/-! ## Sorting through a projection -/

theorem sortByCells_map {α β γ : Type} [LinearOrder γ] (cells : β → List Cell) (key : β → γ)
    (f : α → β) (xs : List α) :
    sortByCells cells key (xs.map f) =
      (sortByCells (fun x => cells (f x)) (fun x => key (f x)) xs).map f := by
  unfold sortByCells
  rw [map_mergeSort]
  exact fun _ _ _ _ => rfl

theorem mem_sortByCells {α γ : Type} [LinearOrder γ] {cells : α → List Cell} {key : α → γ}
    {xs : List α} {x : α} : x ∈ sortByCells cells key xs ↔ x ∈ xs :=
  mem_mergeSort

namespace Exec

variable {idx : Index} {config : Config}

def siteResult (idx : Index) (fields : List String) (site : SiteRow) : List Cell × ℤ :=
  (idx.siteCells fields site, idx.rowId .site site.key)

/-- The stream ends in the rows of the given sites, or the execution fails. -/
def SelectsRows (idx : Index) (fields : List String) (x : Except PlanError Stream) :
    Option (List SiteRow) → Prop
  | some sites => ∃ out, x = .ok out ∧ out.shape = .rows ∧ out.fields = fields ∧
      out.rows = sites.map (siteResult idx fields)
  | none => ∃ e, x = .error e

variable {sites : List SiteRow} {fields : List String} {st : Stream}

/-- A selected field is found among the cells of a row. -/
theorem cell_of_selected {field : String} (h : field ∈ fields) (site : SiteRow) :
    ((siteResult idx fields site).1[fields.idxOf field]?).join = idx.siteCell .site site field := by
  simp only [siteResult, siteCells, getElem?_map]
  rw [getElem?_idxOf h]
  rfl

theorem applyOrder_rows {order : List String}
    (hshape : st.shape = .rows) (hfields : st.fields = fields)
    (hrows : st.rows = sites.map (siteResult idx fields)) (horder : ∀ field ∈ order, field ∈ fields) :
    applyOrder idx config.budgets st order = .ok { st with
      rows := (sortByCells (idx.siteCells order) (fun site => idx.rowId .site site.key) sites).map
        (siteResult idx fields) } := by
  unfold applyOrder
  rw [if_neg (by simp [hshape]), hrows, hfields]
  dsimp only
  rw [sortByCells_map]
  have hcells : ∀ site, order.map (fun field =>
      ((siteResult idx fields site).1[fields.idxOf field]?).join) = idx.siteCells order site := by
    intro site
    exact map_congr_left fun field hmem => cell_of_selected (horder field hmem) site
  simp only [hcells]
  rfl

/-- The stages behind the selection order and cut rows. -/
theorem runStages_siteRows
    (hwalk : walkStages stages walk = .ok (next, normal)) (hshape : walk.shape = .rows)
    (hsource : walk.codebaseUnenumerated = false) (hfast : ∀ stage ∈ normal, fastStage stage = true)
    (hselected : walk.selected = fields) (hst : st.shape = .rows)
    (hfields : st.fields = fields) (hkeys : st.keys = [])
    (hrows : st.rows = sites.map (siteResult idx fields)) {nodeLimit : Option ℕ} :
    next.selected = fields ∧
      SelectsRows idx fields (runStages idx config nodeLimit normal st none)
        (some (idx.replayRows normal sites)) := by
  induction stages generalizing walk normal st sites with
  | nil =>
    cases hwalk
    exact ⟨hselected, st, runStages_nil (rejectAmbiguous_nil hkeys), hst, hfields, hrows⟩
  | cons _ _ ih =>
    obtain ⟨_, stage', _, hstage, hrest, rfl⟩ := walkStages_cons hwalk
    obtain ⟨hpermits, hsource'⟩ := walkStage_permits hstage
    obtain ⟨_, hshape', hselected'⟩ := walkStage_moves hstage
    have hfast' := fun other hother => hfast other (mem_cons_of_mem _ hother)
    have hreject := @rejectAmbiguous_nil idx _ hkeys
    cases stage' with
    | orderBy order =>
      have hsorted : runStage idx config nodeLimit (.orderBy order) st none = .ok _ :=
        applyOrder_rows hst hfields hrows (hselected ▸ hpermits.2.2 hshape)
      rw [runStages_cons hreject hsorted (by simp [hst]), replayRows]
      exact ih hrest (hshape'.trans hshape) (hsource'.trans hsource) hfast'
        (hselected'.trans hselected) hst hfields hkeys rfl
    | limit n =>
      have hlimit : runStage idx config nodeLimit (.limit n) st none =
          .ok { st with limitInEffect := true, rows := st.rows.take n.toNat } :=
        congrArg ok (applyLimit_rows hst n)
      rw [runStages_cons hreject hlimit (by simp [hst]), replayRows]
      refine ih hrest (hshape'.trans hshape) (hsource'.trans hsource) hfast'
        (hselected'.trans hselected) hst hfields hkeys ?_
      rw [hrows, map_take]
    | nodes => exact absurd (hsource.symm.trans hpermits) (by simp)
    | changeView => exact absurd (hshape.symm.trans hpermits.1) (by simp)
    | select => exact absurd (hshape.symm.trans hpermits.2.1) (by simp)
    | _ => exact absurd (hfast _ mem_cons_self) (by simp)

/-- A stream of the keys of existing sites, none of them in an ambiguous file. -/
structure SiteKeys (idx : Index) (st : Stream) (sites : List SiteRow) : Prop where
  view : st.view = .site
  shape : st.shape = .nodes
  ids : st.ids = []
  keys : st.keys = sites.map (·.key)
  exist : ∀ site ∈ sites, site ∈ idx.db.sites
  files : ∀ site ∈ sites, idx.ambiguousFile site.fileId = false

namespace SiteKeys

variable {st : Stream} {sites : List SiteRow}

section

variable (h : SiteKeys idx st sites)
include h

theorem reject : rejectAmbiguous idx st = .ok () := by
  apply rejectAmbiguous_ok
  intro _ hkey
  rw [h.keys] at hkey
  obtain ⟨site, hsite, rfl⟩ := List.mem_map.mp hkey
  exact h.files site hsite

/-- A stream whose keys are some of the sites, in any order. -/
theorem of_subset {limited : Bool} {part : List SiteRow}
    (hpart : ∀ site ∈ part, site ∈ sites) :
    SiteKeys idx { st with keys := part.map (·.key), limitInEffect := limited } part :=
  ⟨h.view, h.shape, h.ids, rfl, fun site hsite => h.exist site (hpart site hsite),
    fun site hsite => h.files site (hpart site hsite)⟩

theorem typedCells (fields : List String) {site : SiteRow}
    (hsite : site ∈ sites) :
    Exec.typedCells idx config.budgets st fields site.key = some (idx.siteCells fields site) := by
  unfold Exec.typedCells
  rw [h.view]
  exact idx.typedCells_site (h.exist site hsite)

/-- Keys are sorted by the cells of their sites. -/
theorem order (fields : List String) (hne : sites ≠ []) :
    applyOrder idx config.budgets st fields =
      .ok { st with keys := (sortByCells (idx.siteCells fields) (·.key) sites).map (·.key) } := by
  have hkeys : st.keys ≠ [] := by simp [h.keys, hne]
  have hrows : (sites.map (·.key)).mapM (fun key =>
      (Exec.typedCells idx config.budgets st fields key).map fun cells => (cells, key)) =
        some (sites.map fun site => (idx.siteCells fields site, site.key)) := by
    rw [mapM_map]
    apply mapM_eq_some_map
    intro _ hsite
    simp only [Function.comp_apply, h.typedCells fields hsite]
    rfl
  unfold applyOrder
  rw [if_pos h.shape, if_pos hkeys, h.keys]
  unfold orderNodes
  rw [hrows]
  simp only [sortByCells_map, List.map_map, Except.map]
  rfl

end

/-- Without keys, the fields are those of a symbol. -/
theorem order_nil (h : SiteKeys idx st []) (fields : List String) :
    applyOrder idx config.budgets st fields = (fields.mapM selectColumn).map fun _ => st := by
  have hkeys : ¬ st.keys ≠ [] := by simp [h.keys]
  unfold applyOrder symbolCells
  rw [if_pos h.shape, if_neg hkeys, h.ids]
  cases hcolumns : fields.mapM selectColumn with
  | error => rfl
  | ok columns =>
    have hsame : { st with ids := [] } = st := by
      rw [← h.ids]
    simp only [bind, Except.bind]
    cases columns.mapM id with
    | none | some => simp [orderNodes, pure, Except.pure, Except.map, hsame, sortByCells]

/-- The selection makes a row of every site. -/
theorem select (h : SiteKeys idx st sites) (fields : List String) :
    materialize idx config.budgets st fields = .ok { st with
      fields := fields, keys := [], rows := sites.map (siteResult idx fields) } := by
  have htyped : st.keys ≠ [] ∨ (!st.view.isNode) = true := Or.inr (by rw [h.view]; rfl)
  have hrows : st.keys.filterMap (fun key =>
      (Exec.typedCells idx config.budgets st fields key).map fun cells =>
        (cells, idx.rowId st.view key)) = sites.map (siteResult idx fields) := by
    rw [h.keys, h.view, filterMap_map]
    rw [← filterMap_eq_map]
    apply filterMap_congr
    intro _ hsite
    simp only [Function.comp_apply, h.typedCells fields hsite]
    rfl
  unfold materialize
  rw [h.reject]
  simp only [bind, Except.bind, htyped, if_true, hrows]
  rfl

end SiteKeys

variable {budgets : Budgets} {scan : FastScan} {normal stages : List Stage} {nodeLimit : Option ℕ}
  {plan : Plan} {e : PlanError} {st : Stream} {next walk : WalkState}

theorem runStages_error {stage : Stage} {rest : List Stage}
    (hreject : rejectAmbiguous idx st = .ok ())
    (hstage : runStage idx config nodeLimit stage st none = .error e) :
    runStages idx config nodeLimit (stage :: rest) st none = .error e := by
  rw [runStages, hreject]
  simp [bind, Except.bind, hstage]

/-- The stages behind the enumeration select what `replay` says. -/
theorem runStages_siteKeys
    (hwalk : walkStages stages walk = .ok (next, normal)) (hshape : walk.shape = .nodes)
    (hactive : walk.active = .site) (hsource : walk.codebaseUnenumerated = false)
    (hrows : next.shape = .rows) (hfast : ∀ stage ∈ normal, fastStage stage = true)
    {sites : List SiteRow} (hst : SiteKeys idx st sites) :
    SelectsRows idx next.selected (runStages idx config nodeLimit normal st none)
      (idx.replay normal sites) := by
  induction stages generalizing walk normal st sites with
  | nil =>
    cases hwalk
    exact absurd (hshape.symm.trans hrows) (by simp)
  | cons _ _ ih =>
    obtain ⟨middle, stage', rest', hstage, hrest, rfl⟩ := walkStages_cons hwalk
    obtain ⟨hpermits, hsource'⟩ := walkStage_permits hstage
    obtain ⟨hactive', hshape', hselected'⟩ := walkStage_moves hstage
    have hfast' := fun other hother => hfast other (mem_cons_of_mem _ hother)
    have hconsumed : middle.codebaseUnenumerated = false := by
      rw [hsource', hsource]
      cases stage' <;> rfl
    cases stage' with
    | nodes => exact absurd (hsource.symm.trans hpermits) (by simp)
    | changeView level =>
      have hlevel : level = .site := by
        rcases hpermits.2 with hcodebase | hsame | hnodes
        · exact absurd (hsource.symm.trans hcodebase) (by simp)
        · exact hsame.trans hactive
        · rw [hactive] at hnodes
          exact absurd hnodes.1 (by simp [View.isNode])
      subst hlevel
      have hempty : runStage idx config nodeLimit (.changeView .site) st none =
          .ok { st with ids := [], keys := [], view := .site } := rfl
      rw [runStages_cons hst.reject hempty (by simp [hst.shape]), replay]
      exact ih hrest (hshape'.trans hshape) hactive' hconsumed hfast'
        ⟨rfl, hst.shape, rfl, rfl, by simp, by simp⟩
    | orderBy fields =>
      rw [replay]
      by_cases hnone : sites = []
      · subst hnone
        have horder : runStage idx config nodeLimit (.orderBy fields) st none = _ :=
          hst.order_nil fields
        cases hcolumns : fields.mapM selectColumn with
        | error e =>
          rw [hcolumns] at horder
          simp only [Except.toOption, and_self, if_true]
          exact ⟨e, runStages_error hst.reject horder⟩
        | ok =>
          rw [hcolumns] at horder
          simp only [Except.toOption, reduceCtorEq, and_false, if_false]
          rw [runStages_cons hst.reject horder (by simp [hst.shape])]
          exact ih hrest (hshape'.trans hshape) (hactive'.trans hactive) hconsumed hfast'
            (by simpa [sortByCells] using hst)
      · have horder : runStage idx config nodeLimit (.orderBy fields) st none = .ok _ :=
          hst.order fields hnone
        rw [if_neg (by simp [hnone]), runStages_cons hst.reject horder (by simp [hst.shape])]
        exact ih hrest (hshape'.trans hshape) (hactive'.trans hactive) hconsumed hfast'
          (hst.of_subset fun site hsite => mem_sortByCells.mp hsite)
    | limit n =>
      have hlimit : runStage idx config nodeLimit (.limit n) st none =
          .ok { st with limitInEffect := true, keys := (sites.take n.toNat).map (·.key) } := by
        have happly := applyLimit_nodes hst.shape hst.ids n
        rw [hst.keys, ← map_take] at happly
        exact congrArg ok happly
      rw [runStages_cons hst.reject hlimit (by simp [hst.shape]), replay]
      exact ih hrest (hshape'.trans hshape) (hactive'.trans hactive) hconsumed hfast'
        (hst.of_subset fun site hsite => mem_of_mem_take hsite)
    | select fields =>
      have hselect : runStage idx config nodeLimit (.select fields) st none =
          .ok { st with fields := fields, keys := [], shape := .rows
                        rows := sites.map (siteResult idx fields) } := by
        show (materialize idx config.budgets st fields).map (fun st =>
          { st with shape := .rows }) = _
        rw [hst.select fields]
        rfl
      rw [runStages_cons hst.reject hselect (by simp), replay]
      have hselects : _ ∧ SelectsRows idx fields (runStages idx config nodeLimit rest'
          { st with fields := fields, keys := [], shape := .rows
                    rows := sites.map (siteResult idx fields) } none) _ :=
        runStages_siteRows hrest hshape' hconsumed hfast' hselected' rfl rfl rfl rfl
      rw [hselects.1]
      exact hselects.2
    | _ => exact absurd (hfast _ mem_cons_self) (by simp)

/-- A stream with a key in an ambiguous file is rejected before the next stage. -/
theorem runStages_rejected (hreject : rejectAmbiguous idx st = .error e) :
    runStages idx config nodeLimit stages st none = .error e := by
  cases stages with
  | nil | cons => rw [runStages, hreject]; rfl

theorem changeView_empty {st : Stream} (hids : st.ids = []) (hkeys : st.keys = []) (level : View) :
    (changeView idx st level).ids = [] ∧ (changeView idx st level).keys = [] := by
  have hnil : sortUnique ([] : List ℤ) = [] := sortUnique_of_pairwise .nil
  unfold changeView
  cases level.isNode <;> cases st.view.isNode <;> simp [hids, hkeys, hnil]

theorem runStage_edgeSites {nodeLimit : Option ℕ} {pred : Option Pred} {unknown : UnknownPolicy}
    {edgeId : ℤ} (hpred : intEquality pred = some ("edge_id", edgeId)) {st : Stream}
    (hview : st.view = .site) (hkeys : st.keys = [])
    (hwithin : config.budgets.traverseNode.exceeded (idx.edgeSites edgeId).length = false) :
    runStage idx config nodeLimit (.nodes pred unknown) st none = .ok { st with
      keys := (cut nodeLimit (idx.edgeSites edgeId)).map (·.key), limitInEffect := false } := by
  have hcut : cut (nodeLimit.or config.budgets.traverseNode) (sitesOf idx edgeId) =
      (cut nodeLimit (idx.edgeSites edgeId)).map (·.key) := by
    have hsites : sitesOf idx edgeId = (idx.edgeSites edgeId).map (·.key) := rfl
    rw [hsites]
    cases nodeLimit with
    | some => simp [cut]
    | none =>
      simp only [none_or]
      rw [cut_eq_self (by simpa using hwithin)]
      rfl
  show (enumerate idx config.budgets st pred unknown none nodeLimit).map _ = _
  unfold enumerate
  rw [hview, hpred]
  simp [and_self, hcut, hkeys, Except.map]

/-- The stages of a plan over the sites of one edge, from the change of view on. -/
theorem runStages_edgeSites
    (hwalk : walkStages stages walk = .ok (next, normal)) (hshape : walk.shape = .nodes)
    (hsource : walk.codebaseUnenumerated = true) (hrows : next.shape = .rows)
    (hsite : next.active = .site) (hfast : ∀ stage ∈ normal, fastStage stage = true)
    (hview : st.view = walk.active) (hst : st.shape = .nodes) (hids : st.ids = [])
    (hkeys : st.keys = []) {edgeId : ℤ}
    (hedge : (normal.foldl step scan).edgeId = some edgeId)
    (hwithin : config.budgets.traverseNode.exceeded (idx.edgeSites edgeId).length = false) :
    SelectsRows idx next.selected (runStages idx config nodeLimit normal st none)
      (if (cut nodeLimit (idx.edgeSites edgeId)).any fun site =>
          idx.ambiguousFile site.fileId then none
        else idx.replay (stagesAfterNodes normal) (cut nodeLimit (idx.edgeSites edgeId))) := by
  induction stages generalizing walk normal st scan with
  | nil =>
    cases hwalk
    exact absurd (hshape.symm.trans hrows) (by simp)
  | cons stage rest ih =>
    obtain ⟨middle, stage', rest', hstage, hrest, rfl⟩ := walkStages_cons hwalk
    obtain ⟨hpermits, hconsumed⟩ := walkStage_permits hstage
    obtain ⟨hactive', hshape', _⟩ := walkStage_moves hstage
    have hfast' := fun other hother => hfast other (mem_cons_of_mem _ hother)
    have hreject := @rejectAmbiguous_nil idx _ hkeys
    cases stage' with
    | changeView level =>
      have hchanged : runStage idx config nodeLimit (.changeView level) st none =
          .ok (changeView idx st level) := rfl
      obtain ⟨hshape₂, _⟩ := shape_runStage hchanged
      have hempty := @changeView_empty idx st hids hkeys level
      rw [runStages_cons hreject hchanged (by simp [hshape₂, Stage.shapeAfter, hst])]
      refine ih hrest (hshape'.trans hshape) (hconsumed.trans hsource) hfast' ?_
        (hshape₂.trans hst) hempty.1 hempty.2 hedge
      rw [view_changeView, hactive']
      rfl
    | nodes pred unknown =>
      have hpred : ∃ value, intEquality pred = some ("edge_id", value) := by
        have hsupported := hfast _ mem_cons_self
        simp only [fastStage, Option.any_eq_true, decide_eq_true_eq] at hsupported
        obtain ⟨⟨_, value⟩, heq, rfl⟩ := hsupported
        exact ⟨value, heq⟩
      obtain ⟨value, hpred⟩ := hpred
      obtain ⟨hstays, hsame⟩ := enumerated_walkStages hrest hfast' hconsumed
        (scan.step (.nodes pred unknown))
      obtain rfl : value = edgeId := by
        rw [foldl_cons, hsame] at hedge
        simpa [step, hpred] using hedge
      have hmiddle : middle.active = .site :=
        (hstays (by simp [hsite, View.isNode])).trans hsite
      have hsiteView : st.view = .site := by
        rw [hview, ← hmiddle, hactive']
        rfl
      have henumerated := @runStage_edgeSites idx config nodeLimit pred unknown value hpred st
        hsiteView hkeys hwithin
      rw [runStages_cons hreject henumerated (by simp [hst])]
      split
      · rename_i hambiguous
        obtain ⟨site, hmem, hfile⟩ := List.any_eq_true.mp hambiguous
        refine ⟨_, runStages_rejected (if_pos ⟨?_, List.any_eq_true.mpr ⟨site.key,
          List.mem_map_of_mem hmem, ?_⟩⟩)⟩
        · simp [hsiteView]
        · simpa [hsiteView, SiteRow.key] using hfile
      · rename_i hclear
        simp only [List.any_eq_true, not_exists, not_and, Bool.not_eq_true] at hclear
        apply runStages_siteKeys hrest (hshape'.trans hshape) hmiddle hconsumed hrows hfast'
        refine ⟨hsiteView, hst, hids, rfl, ?_, hclear⟩
        intro _ hmem
        exact (mem_filter.mp (mem_of_mem_cut hmem)).1
    | select | orderBy => exact absurd (hpermits.1.symm.trans hsource) (by simp)
    | limit => exact absurd (hpermits.symm.trans hsource) (by simp)
    | _ => exact absurd (hfast _ mem_cons_self) (by simp)

/-- Supported stages do not count. -/
theorem not_scalar_of_fast
    (hwalk : walkStages stages walk = .ok (next, normal)) (hshape : walk.shape ≠ .scalar)
    (hfast : ∀ stage ∈ normal, fastStage stage = true) : next.shape ≠ .scalar := by
  induction stages generalizing walk normal with
  | nil =>
    cases hwalk
    exact hshape
  | cons _ _ ih =>
    obtain ⟨_, stage', _, hstage, hrest, rfl⟩ := walkStages_cons hwalk
    refine ih hrest ?_ fun other hother => hfast other (mem_cons_of_mem _ hother)
    rw [(walkStage_moves hstage).shape]
    cases stage' with
    | select => simp [Stage.shapeAfter]
    | nodes pred unknown | changeView level | orderBy fields | limit n => exact hshape
    | _ => exact absurd (hfast _ mem_cons_self) (by simp)

/-- What the executor makes of a plan that `run_fast` answers itself. -/
theorem runPlan_edgeSites (hwithin : idx.WithinFastPaths budgets)
    {normal : Plan} (hvalid : validateWalk plan = .ok (walk, normal))
    (hshape : walk.shape = .rows ∨ walk.shape = .scalar) (hscan : normal.fast? = some scan) :
    SelectsRows idx scan.fields (runPlan idx { budgets := budgets } normal none)
      (idx.selectedSites normal.stages (scan.edgeId.getD 0)) := by
  obtain ⟨source, stages⟩ := plan
  rw [validateWalk] at hvalid
  obtain ⟨first, hstart, hvalid⟩ := ok_of_bind hvalid
  obtain ⟨⟨_, _⟩, hstages, hvalid⟩ := ok_of_bind hvalid
  obtain ⟨_, _, hvalid⟩ := ok_of_bind hvalid
  cases hvalid
  obtain ⟨hcodebase, hanswers, rfl⟩ := fast?_eq_some hscan
  simp only [Plan.source, Plan.stages] at hcodebase hanswers ⊢
  simp only [answers, Bool.and_eq_true, decide_eq_true_eq] at hanswers
  obtain ⟨⟨⟨⟨⟨hsupported, hview⟩, hedge⟩, _⟩, _⟩, _⟩ := hanswers
  obtain ⟨edgeId, hedge⟩ := isSome_iff_exists.mp hedge
  obtain ⟨_, hfast⟩ := fastStage_of_supported hsupported
  have hfirst : first = { active := .symbol, codebaseUnenumerated := true } := by
    unfold WalkState.start at hstart
    simp only [hcodebase, ne_eq, not_true_eq_false, false_and, if_false, Source.view, decide_true,
      reduceCtorEq, ok.injEq] at hstart
    exact hstart.symm
  subst hfirst
  obtain ⟨hactive, hfields⟩ := @scan_walkStages _ _ _ _ hstages hfast {} rfl rfl
  have hrows : walk.shape = .rows :=
    hshape.resolve_right (not_scalar_of_fast hstages (by simp) hfast)
  have hsites := hwithin .site (some (.cmp .eq "edge_id" [] (some edgeId))) none
    (sitesOf idx edgeId) rfl
  rw [hfields, hedge, runPlan]
  refine runStages_edgeSites hstages rfl rfl hrows (hactive.symm.trans hview) hfast ?_ rfl ?_ rfl
    hedge ?_
  · simp [initial, Source.view, hcodebase]
  · simp [initial, hcodebase]
  · simpa [sitesOf, edgeSites, Budgets.ofFastPath] using hsites

/-- A plan over the sites of one edge is answered alike exactly when its stages select the sites that
the fixed order selects. -/
theorem runFast_edgeSites {paths : FilePaths idx}
    (hwithin : idx.WithinFastPaths budgets) {normal : Plan}
    (hvalid : validateWalk plan = .ok (walk, normal))
    (hshape : walk.shape = .rows ∨ walk.shape = .scalar) {cap : ℤ}
    (hcap : ∀ st, runPlan idx { budgets := budgets } normal none = .ok st →
      (st.rows.length : ℤ) < cap) {scan : FastScan} (hscan : normal.fast? = some scan) :
    (runFast idx { budgets := budgets } paths normal none).map Result.content =
        (run idx { budgets := budgets } normal none (some cap)).map Result.content ↔
      SameSelection idx paths normal.stages scan := by
  have hselects := runPlan_edgeSites hwithin hvalid hshape hscan
  unfold SameSelection
  cases hsites : idx.selectedSites normal.stages (scan.edgeId.getD 0) with
  | none =>
    rw [hsites] at hselects
    obtain ⟨_, he⟩ := hselects
    unfold runFast run
    rw [hscan, he]
    simp [bind, Except.bind, Except.map]
  | some =>
    rw [hsites] at hselects
    obtain ⟨out, hout, hrows, hfields, hresult⟩ := hselects
    obtain ⟨_, _, hreject, _⟩ := runPlan_spec hvalid hout
    have hrun : (run idx { budgets := budgets } normal none (some cap)).map Result.content =
        .ok (unfinished out).content := by
      unfold run
      rw [hout]
      exact finish_rows hreject hrows (hcap out hout)
    rw [hrun]
    unfold runFast
    rw [hscan]
    simp only [Except.map, Result.content, unfinished, hrows, hfields, hresult, List.map_map,
      ok.injEq, Prod.mk.injEq, true_and, reduceCtorEq, if_false, and_true,
      map_some, some.injEq]
    exact eq_comm

theorem twoSites_symbols_sorted :
    (([⟨1, fun _ => none⟩, ⟨2, fun _ => none⟩] : List SymbolRow).map (·.id)).Pairwise (· < ·) := by
  decide

/-- One edge with a site in each of two files. -/
def twoSites : Db where
  symbols := [⟨1, fun _ => none⟩, ⟨2, fun _ => none⟩]
  symbols_sorted := twoSites_symbols_sorted
  edges := [⟨1, 1, 2, 1, 2⟩]
  sites := [⟨1, 1, 5, 0, 0⟩, ⟨1, 2, 3, 0, 0⟩]

def twoPaths (fileId : ℤ) : String := if fileId = 1 then "/b.cpp" else "/a.cpp"

def twoSitesIndex : Index :=
  { Index.ofDb twoSites with
    otherCell := fun _ key field => if field = "file" then some (.text (twoPaths key.b)) else none }

def twoSitesPaths : FilePaths twoSitesIndex where
  absPath fileId := some (twoPaths fileId)
  file_cell _ _ := rfl

/-- `view("site").nodes(edge_id = 1).select(file, line).order_by(<fields>)`. -/
def orderedSites (fields : List String) : Plan :=
  .mk { kind := .codebase }
    [.changeView .site, .nodes (some (.cmp .eq "edge_id" [] (some 1))) .exclude,
      .select ["file", "line"], .orderBy fields]

/-- Where validation of these plans ends. -/
def orderedSitesWalk : WalkState :=
  { active := .site, shape := .rows, codebaseUnenumerated := false, selected := ["file", "line"] }

theorem withinFastPaths_twoSites : twoSitesIndex.WithinFastPaths .code :=
  withinFastPaths_of_small (by decide) (by decide)

theorem mergeSort_pair {α : Type} (le : α → α → Bool) (x y : α) :
    [x, y].mergeSort le = if le x y then [x, y] else [y, x] := by
  simp [List.mergeSort, List.merge]

theorem selectedSites_orderedSites (fields : List String) :
    twoSitesIndex.selectedSites (orderedSites fields).stages 1 = some (sortByCells
      (twoSitesIndex.siteCells fields) (fun site => twoSitesIndex.rowId .site site.key)
      twoSites.sites) := by
  have hlimit : typedNodeLimit (orderedSites fields).stages = none := by
    simp [typedNodeLimit, orderedSites, Plan.stages]
  have hsites : twoSitesIndex.edgeSites 1 = twoSites.sites := by decide
  unfold selectedSites
  rw [hlimit, hsites]
  rfl

/-- The executor returns two rows. -/
theorem length_orderedSites {fields : List String} {scan : FastScan}
    (hvalid : validateWalk (orderedSites fields) = .ok (orderedSitesWalk, orderedSites fields))
    (hscan : (orderedSites fields).fast? = some scan) (hedge : scan.edgeId = some 1) {st : Stream}
    (hst : runPlan twoSitesIndex { budgets := .code } (orderedSites fields) none = .ok st) :
    (st.rows.length : ℤ) < 1000 := by
  have hselects := runPlan_edgeSites withinFastPaths_twoSites hvalid (Or.inl rfl) hscan
  rw [hedge, getD_some, selectedSites_orderedSites] at hselects
  obtain ⟨_, hout, _, _, hrows⟩ := hselects
  rw [hst] at hout
  cases hout
  simp [hrows, sortByCells, twoSites]

end Exec

end CppIndexer.Query
