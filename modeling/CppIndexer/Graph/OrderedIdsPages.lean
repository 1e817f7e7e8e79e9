/-
# Enumerations over several pages

An enumeration of the code base that is only narrowed afterwards moves on with its cursor. Each
page is cut first and narrowed then, so that a page whose nodes are all rejected ends the loop.
-/

import CppIndexer.Graph.OrderedIdsExact

namespace CppIndexer.Graph

open Query Paging List Exec PagedPlan Config Budgets Except SortUnique

variable {idx : Index}

def viewOf (views : List Stage) : View := views.foldl Stage.viewAfter .symbol

/-- An enumeration of the code base that later stages only narrow. -/
structure PagedPlan.Enumerates (paged : PagedPlan) (views : List Stage) (pred : Option Pred)
    (unknown : UnknownPolicy) (filters : List Stage) : Prop where
  source : paged.source.kind = .codebase
  nodes : paged.nodes = views ++ .nodes pred unknown :: filters
  changesView : ∀ stage ∈ views, Exec.isChangeView stage = true
  narrows : ∀ stage ∈ filters, Exec.isNarrowing stage = true
  isNode : (viewOf views).isNode = true
  unlimited : paged.order = [] → paged.limit = none

/-- The enumerated nodes of one page. -/
def pageStream (config : Config) (view : View) (afterId : Option ℤ) (ids : List ℤ) : Stream :=
  { view := view, ids := config.budgets.enumerate.cut (afterCursor afterId ids)
    truncated := config.budgets.enumerate.exceeded (afterCursor afterId ids).length }

section Enumeration

variable {paged : PagedPlan} {first middle rows : WalkState} {views filters : List Stage}
  {pred : Option Pred} {unknown : UnknownPolicy}
  {paths : FilePaths idx} {ids : List ℤ} {afterId : Option ℤ} {plan : Plan} {st : Stream}
  {walk : WalkState}

theorem areSymbols_pageStream {config : Config} {view : View} (h : Exec.AreSymbols idx.db ids) :
    Exec.AreSymbols idx.db (pageStream config view afterId ids).ids := by
  have hcut : (config.budgets.enumerate.cut (afterCursor afterId ids)).Sublist
      (afterCursor afterId ids) := by
    cases config.budgets.enumerate with
    | none => exact List.Sublist.refl _
    | some => exact take_sublist _ _
  exact h.sublist (hcut.trans filter_sublist)

/-- The nodes of every page are those of the enumeration that no later stage rejects. -/
theorem Walked.enumeration (h : Walked paged first middle rows)
    (henum : paged.Enumerates views pred unknown filters) :
    ∃ verdict : Exec.Verdict, ∀ (config : Config) (nodeLimit : Option ℕ) (afterId : Option ℤ),
      match enumeratedIds idx (viewOf views) pred unknown with
      | .error e => runStages idx config nodeLimit paged.nodes (initial idx paged.source)
          afterId = .error e
      | .ok ids => verdict.Leaves (pageStream config (viewOf views) afterId ids) middle.active
          (runStages idx config nodeLimit paged.nodes (initial idx paged.source) afterId) := by
  have hinitial : initial idx paged.source = { view := .symbol } := by
    unfold initial
    simp [Source.view, henum.source]
  have hwalk := h.nodes
  rw [henum.nodes] at hwalk
  obtain ⟨before, hviews, hrest⟩ := walkStages_split hwalk
  obtain ⟨after, _, _, hnodes, hfilters, hcons⟩ := walkStages_cons hrest
  cases hcons
  have hfollows : Exec.Follows first { view := .symbol } := hinitial ▸ follows_initial h.start
  have hbefore : before.active = viewOf views := by
    rw [active_walkStages hviews, ← hfollows.view]
    rfl
  have hafter : after.active = viewOf views := by
    rw [(walkStage_moves hnodes).active, hbefore]
    rfl
  have hshape : before.shape ≠ .scalar := by
    have hrun := @Exec.runStages_views idx { budgets := .code } views henum.changesView .symbol none none
    have hfollows' := follows_runStages hviews hfollows hrun
    rw [← hfollows'.shape]
    simp
  obtain ⟨verdict, hverdict⟩ := @Exec.runStages_leaves _ _ idx filters henum.narrows hfilters
    (by rw [hafter]; exact henum.isNode)
  refine ⟨verdict, ?_⟩
  intro config nodeLimit afterId
  have hsplit : runStages idx config nodeLimit paged.nodes (initial idx paged.source) afterId =
      runStages idx config nodeLimit (.nodes pred unknown :: filters) { view := viewOf views }
        (cursorAfter afterId views) := by
    rw [hinitial, henum.nodes, runStages_append hviews hshape hfollows, runStages_views henum.changesView]
    rfl
  have hcursor : cursorAfter afterId views = afterId := by
    apply foldl_unchanged
    intro stage hmem _
    have hstage := henum.changesView stage hmem
    cases stage with
    | changeView => rfl
    | _ => cases hstage
  have hstage := @Exec.runStage_nodes idx config unknown pred (viewOf views) henum.isNode nodeLimit
    afterId
  rw [hsplit, hcursor]
  cases hids : enumeratedIds idx (viewOf views) pred unknown with
  | error =>
    rw [hids] at hstage
    rw [runStages, rejectAmbiguous_nil rfl, hstage]
    rfl
  | ok =>
    rw [hids] at hstage
    rw [runStages_cons (rejectAmbiguous_nil rfl) hstage (by simp)]
    apply hverdict
    exact ⟨hafter.symm, rfl, rfl, areSymbols_pageStream (areSymbols_enumeratedIds hids)⟩

theorem projected_of_nil (h : st.keys = []) : projected st = st.ids := if_pos h

theorem pageTail_nil (henum : paged.Enumerates views pred unknown filters) : paged.pageTail = [] := by
  unfold pageTail PagedPlan.tail
  by_cases horder : paged.order = []
  · simp [henum.unlimited horder]
  · simp [horder]

section

variable (h : Walked paged first middle rows)
include h

theorem Walked.pageFields_subset : ∀ field ∈ paged.pageFields, field = "id" ∨ field ∈ paged.fields := by
  unfold pageFields
  split
  · exact fun field hmem => Or.inr hmem
  · exact h.collectionFields_subset

section

variable (hnode : middle.active.isNode = true)
include hnode

section

variable (hreadable : paged.Readable)
include hreadable

section

variable (henum : paged.Enumerates views pred unknown filters)
include henum

/-- A page of an enumeration, once its nodes are found. -/
theorem Walked.page_of_nodes
    (hvalid : validateWalk plan = .ok (walk, paged.plan))
    (hst : runStages idx { budgets := .code }
      (nodeLimit { budgets := .code } paged.pagePlan.stages) paged.nodes
      (initial idx paged.source) afterId = .ok st)
    (hkeys : st.keys = []) {cells : ℤ → Option (List Cell)}
    (hcells : idx.symbolCells st.ids paged.pageFields = .ok cells) :
    page idx paths (if paged.order = [] then plan else paged.pagePlan) afterId =
      .ok ((present idx st.ids).map (candidateAt idx paged.pageFields.tail), st.truncated) := by
  have hview : st.view.isNode = true := by
    rw [h.view_nodes hst]
    exact hnode
  obtain ⟨_, hfound⟩ := @Exec.materialize_of_symbolCells idx st paged.pageFields _ code
    hview hkeys hcells
  obtain ⟨ids, rfl⟩ := materialize_nodes hview hfound
  let out : Stream := { st with shape := .rows, fields := paged.pageFields, keys := [], ids := ids
                                rows := nodeRows idx (projected st) paged.pageFields }
  have hselect : ∀ nodeLimit cursor, runStage idx { budgets := .code } nodeLimit
      (.select paged.pageFields) st cursor = .ok out := by
    intro _ _
    show (materialize idx code st paged.pageFields).map _ = _
    rw [hfound]
    rfl
  have hrun : runPlan idx { budgets := .code } paged.pagePlan afterId = .ok out := by
    rw [pagePlan_eq] at hst ⊢
    rw [runPlan, h.runStages_nodes]
    refine bind_eq_ok.mpr ⟨st, hst, ?_⟩
    rw [runStages_cons (rejectAmbiguous_nil hkeys) (hselect _ _) (by simp), pageTail_nil henum]
    exact runStages_nil (rejectAmbiguous_nil rfl)
  have hrows : out.rows = nodeRows idx st.ids paged.pageFields := by
    rw [← projected_of_nil hkeys]
  exact page_of_rows hreadable (h.validate_read hvalid) hrun hrows

/-- What the pages of an enumeration hold. -/
theorem Walked.page_items
    (hvalid : validateWalk plan = .ok (walk, paged.plan))
    (hids : Exec.AreSymbols idx.db ids) {verdict : Exec.Verdict}
    (hleaves : verdict.Leaves (pageStream { budgets := .code } (viewOf views) afterId ids)
      middle.active (runStages idx { budgets := .code }
        (nodeLimit { budgets := .code } paged.pagePlan.stages) paged.nodes
        (initial idx paged.source) afterId)) {items : List Candidate} {more : Bool}
    (hpage : page idx paths (if paged.order = [] then plan else paged.pagePlan) afterId =
      .ok (items, more)) :
    items = (((behind afterId ids).take kEnumerateBudget).filter verdict.keeps).map
      (candidateAt idx paged.pageFields.tail) := by
  cases hrun : runPlan idx { budgets := .code } paged.pagePlan afterId with
  | error =>
    rw [page_eq hreadable (h.validate_read hvalid), hrun] at hpage
    cases hpage
  | ok =>
    obtain ⟨st, hst, _, hrows⟩ := h.page_rows hnode hrun
    rw [hst] at hleaves
    unfold Exec.Verdict.Leaves at hleaves
    split at hleaves
    · obtain ⟨_, he⟩ := hleaves
      cases he
    · cases hleaves
      have hkept : Exec.AreSymbols idx.db
          ((pageStream { budgets := .code } (viewOf views) afterId ids).ids.filter verdict.keeps) :=
        (areSymbols_pageStream hids).sublist filter_sublist
      rw [projected_of_nil rfl] at hrows
      have hnodes : (if paged.order = [] then cutAt paged.limit (present idx
          ((pageStream { budgets := .code } (viewOf views) afterId ids).ids.filter verdict.keeps))
          else (pageStream { budgets := .code } (viewOf views) afterId ids).ids.filter
            verdict.keeps) =
          (pageStream { budgets := .code } (viewOf views) afterId ids).ids.filter verdict.keeps := by
        split
        · rename_i horder
          rw [henum.unlimited horder]
          exact present_eq_self hkept
        · rfl
      rw [hnodes] at hrows
      rw [page_of_rows hreadable (h.validate_read hvalid) hrun hrows] at hpage
      cases hpage
      rw [present_eq_self hkept]
      rfl

/-- The loop over an enumeration ends. -/
theorem Walked.enumeration_ends (hvalid : validateWalk plan = .ok (walk, paged.plan)) :
    ∃ fuel outcome, adapterOrderedIds idx paths fuel plan = some outcome := by
  have hcollect : ∃ fuel outcome, collect Candidate.id
      (page idx paths (if paged.order = [] then plan else paged.pagePlan)) fuel none [] =
        some outcome := by
    obtain ⟨_, hverdict⟩ := @Walked.enumeration idx _ _ _ _ _ _ _ _ h henum
    cases hids : enumeratedIds idx (viewOf views) pred unknown with
    | error e =>
      have herror := hverdict { budgets := .code }
        (nodeLimit { budgets := .code } paged.pagePlan.stages) none
      rw [hids] at herror
      have hrun : runPlan idx { budgets := .code } paged.pagePlan none = .error e := by
        rw [pagePlan_eq] at herror ⊢
        rw [runPlan, h.runStages_nodes]
        exact congrArg (fun found => found >>= _) herror
      have hpage : page idx paths (if paged.order = [] then plan else paged.pagePlan) none =
          .error (.plan e) := by
        rw [page_eq hreadable (h.validate_read hvalid), hrun]
        rfl
      exact ⟨1, _, collect_error hpage 0⟩
    | ok ids =>
      refine ⟨(behind none ids).length + 1, ?_⟩
      refine collect_ends ?_ _ none [] (Nat.lt_succ_self _)
      intro cursor _ _ hpage _ hitem
      have hleaves := hverdict { budgets := .code }
        (nodeLimit { budgets := .code } paged.pagePlan.stages) cursor
      rw [hids] at hleaves
      have hitems := h.page_items hnode hreadable henum hvalid
        (areSymbols_enumeratedIds hids) hleaves hpage
      rw [hitems] at hitem
      obtain ⟨_, hid, rfl⟩ := mem_map.mp hitem
      exact take_subset _ _ (mem_filter.mp hid).1
  obtain ⟨fuel, _, hcollect⟩ := hcollect
  refine ⟨fuel, ?_⟩
  rw [adapterOrderedIds_eq hvalid, hcollect]
  exact ⟨_, rfl⟩

variable {paths : FilePaths idx} {walk : WalkState}

/-- The pages of an enumeration that denotes something. -/
theorem Walked.reads_filtered
    {plan : Plan}
    (hvalid : validateWalk plan = .ok (walk, paged.plan)) {st out : Stream}
    (hst : paged.nodeStream idx = .ok st)
    (hout : materialize idx .unbounded st paged.fields = .ok out) :
    ∃ ids keeps, enumeratedIds idx (viewOf views) pred unknown = .ok ids ∧
      st.ids = ids.filter keeps ∧ st.keys = [] ∧
      ReadsFiltered Candidate.id kEnumerateBudget keeps ids
        (page idx paths (if paged.order = [] then plan else paged.pagePlan))
        (candidateAt idx paged.pageFields.tail) := by
  obtain ⟨verdict, hverdict⟩ := @Walked.enumeration idx _ _ _ _ _ _ _ _ h henum
  have hfree := hverdict { budgets := .unbounded, pushDown := false } none none
  cases hids : enumeratedIds idx (viewOf views) pred unknown with
  | error =>
    rw [hids] at hfree
    exact absurd (hst.symm.trans hfree) (by simp)
  | ok ids =>
    rw [hids] at hfree
    dsimp only at hfree
    unfold Exec.Verdict.Leaves at hfree
    have hall : (pageStream { budgets := .unbounded, pushDown := false } (viewOf views) none ids).ids =
        ids := afterCursor_none ids
    rw [hall] at hfree
    have hrun : runStages idx { budgets := .unbounded, pushDown := false } none paged.nodes
        (initial idx paged.source) none = .ok st := hst
    rw [hrun] at hfree
    split at hfree
    · obtain ⟨_, he⟩ := hfree
      cases he
    · rename_i hfails
      cases hfree
      refine ⟨ids, verdict.keeps, rfl, rfl, rfl, fun id _ => rfl, ?_⟩
      intro cursor
      have hsymbols := areSymbols_enumeratedIds hids
      have hleaves := hverdict { budgets := .code }
        (nodeLimit { budgets := .code } paged.pagePlan.stages) cursor
      rw [hids] at hleaves
      dsimp only at hleaves
      unfold Exec.Verdict.Leaves at hleaves
      have hsub : (pageStream { budgets := .code } (viewOf views) cursor ids).ids ⊆ ids :=
        fun id hid => filter_sublist.subset (take_subset _ _ hid)
      have hnone : ¬ (pageStream { budgets := .code } (viewOf views) cursor ids).ids.any
          verdict.fails = true := by
        intro hany
        obtain ⟨id, hid, hid'⟩ := any_eq_true.mp hany
        exact hfails (any_eq_true.mpr ⟨id, hsub hid, hid'⟩)
      rw [if_neg hnone] at hleaves
      obtain ⟨_, hcells⟩ := symbolCells_of_materialize (by exact hnode) rfl hout
      obtain ⟨_, hcells'⟩ := @Exec.symbolCells_of_subset idx _ paged.pageFields _ _
        ((pageStream { budgets := .code } (viewOf views) cursor ids).ids.filter verdict.keeps)
        hcells (by
          intro hempty
          apply filter_eq_nil_iff.mpr
          intro id hid
          exact filter_eq_nil_iff.mp hempty id (hsub hid)) h.pageFields_subset
      rw [h.page_of_nodes hnode hreadable henum hvalid hleaves rfl hcells',
        present_eq_self ((areSymbols_pageStream hsymbols).sublist filter_sublist)]
      rfl

/-- An enumeration returns what it denotes where no page of rejected nodes hides a kept one, and,
unless a limit cuts the rows, nowhere else. -/
theorem Walked.enumeration_exact
    {plan : Plan}
    (hvalid : validateWalk plan = .ok (walk, paged.plan)) {ids found : List ℤ}
    {st : Stream} (hids : Denotes idx paged.plan ids)
    (hfound : enumeratedIds idx (viewOf views) pred unknown = .ok found)
    (hst : paged.nodeStream idx = .ok st) :
    (NoneHidden kEnumerateBudget (fun id => decide (id ∈ st.ids)) found →
      ∃ fuel, adapterOrderedIds idx paths fuel plan = some (.ok ids)) ∧
    (paged.limit = none → (∃ fuel, adapterOrderedIds idx paths fuel plan = some (.ok ids)) →
      NoneHidden kEnumerateBudget (fun id => decide (id ∈ st.ids)) found) := by
  obtain ⟨st', hst', rfl, out, hout⟩ := h.denotes hnode hids
  obtain rfl : st' = st := ok.inj (hst'.symm.trans hst)
  obtain ⟨found', keeps, hfound', hkept, hkeys, hreads⟩ :=
    @Walked.reads_filtered idx _ _ _ _ _ _ _ _ h hnode hreadable henum paths _ _ hvalid _ _ hst hout
  obtain rfl : found' = found := ok.inj (hfound'.symm.trans hfound)
  have hsymbols := areSymbols_enumeratedIds hfound
  have hsorted := hsymbols.pairwise
  have hall : behind none found' = found' := afterCursor_none found'
  have hlength : (behind none found').length < found'.length + 1 := by
    rw [hall]
    exact Nat.lt_succ_self _
  obtain ⟨kept, hcollect, hfirst, hiff⟩ :=
    collect_filtered hsorted hreads (found'.length + 1) none [] hlength
  rw [hall, ← hkept] at hfirst
  rw [hall, ← hkept] at hiff
  have hhidden : NoneHidden kEnumerateBudget (fun id => decide (id ∈ st'.ids)) found' ↔
      kept = st'.ids := by
    rw [hiff]
    apply noneHidden_congr
    intro _ hid
    rw [hkept, Bool.eq_iff_iff, decide_eq_true_eq, mem_filter]
    exact and_iff_right hid
  have hpresent : present idx (projected st') = st'.ids := by
    rw [projected_of_nil hkeys]
    apply present_eq_self
    rw [hkept]
    exact hsymbols.sublist filter_sublist
  have hreturned : adapterOrderedIds idx paths (found'.length + 1) plan =
      some (.ok (if paged.order = [] then kept else cutAt paged.limit (orderedBy idx paged.order kept))) := by
    rw [adapterOrderedIds_eq hvalid, hcollect]
    simp only [nil_append, Option.map_some, Except.map, ids_collected hreadable]
  have hdenoted : paged.idsOf idx (projected st') = if paged.order = [] then st'.ids
      else cutAt paged.limit (orderedBy idx paged.order st'.ids) := by
    unfold idsOf
    rw [hpresent]
    split
    · rename_i horder
      rw [henum.unlimited horder]
      rfl
    · rfl
  rw [hhidden, hdenoted]
  constructor
  · rintro rfl
    exact ⟨_, hreturned⟩
  · rintro hlimit ⟨_, hfuel⟩
    have hsame : (if paged.order = [] then kept
        else cutAt paged.limit (orderedBy idx paged.order kept)) =
        if paged.order = [] then st'.ids
          else cutAt paged.limit (orderedBy idx paged.order st'.ids) := by
      rw [adapterOrderedIds_eq hvalid] at hfuel hreturned
      obtain ⟨_, houtcome, hmap⟩ := Option.map_eq_some_iff.mp hfuel
      rw [collect_unique houtcome hcollect] at hmap
      rw [hcollect] at hreturned
      exact ok.inj (Option.some.inj (hreturned.symm.trans (congrArg some hmap)))
    apply hfirst.eq_of_length
    split at hsame
    · rw [hsame]
    · rw [hlimit] at hsame
      have hperm := (perm_orderedBy paged.order kept).symm.trans
        ((List.Perm.of_eq hsame).trans (perm_orderedBy paged.order st'.ids))
      exact hperm.length_eq

end

end

end

end

end Enumeration

/-! ## The whole statement -/

variable (aliases : ℕ)

def aliasDb : Db where
  symbols := ⟨0, fun column => if column = .usr then some (.text "T") else none⟩ ::
    (List.range aliases).map fun i : ℕ => ⟨i + 1, fun column =>
      if column = .usr then some (.text ("alias" ++ toString i))
      else if column = .kind then some (.int 20) else none⟩
  symbols_sorted := by
    rw [map_cons, map_map, pairwise_cons, pairwise_map]
    refine ⟨?_, pairwise_lt_range.imp ?_⟩
    · intro _ hid
      obtain ⟨_, _, rfl⟩ := mem_map.mp hid
      simp only [Function.comp]
      omega
    · intro _ _ _
      simp only [Function.comp]
      omega
  edges := (List.range aliases).map fun i : ℕ => ⟨i + 1, i + 1, 0, 19, 1⟩
  edges_sorted := by
    rw [map_map, pairwise_map]
    refine pairwise_lt_range.imp ?_
    intro _ _ _
    simp only [Function.comp]
    omega
  edges_unique := by
    rw [map_map]
    refine List.Nodup.map ?_ nodup_range
    intro _ _ h
    simp only [Function.comp, Prod.mk.injEq] at h
    omega
  edges_closed := by
    intro _ hedge
    obtain ⟨i, hi, rfl⟩ := mem_map.mp hedge
    refine ⟨?_, by simp⟩
    rw [map_cons, map_map]
    exact mem_cons_of_mem _ (mem_map.mpr ⟨i, hi, rfl⟩)

/-- `symbol(T) | in(alias_of) | where(kind in {typedef, type-alias})`, as `aliased_by` asks for it. -/
def aliasedBy (limit : ℤ) : PagedPlan where
  source := { kind := .symbol, ref := "T" }
  nodes := [.traverse true ⟨some .symbol, "alias_of"⟩ .static 1 1,
    .where_ (.cmp .inList "kind" ["typedef", "type-alias"] none) .exclude]
  fields := ["id", "name_length", "name"]
  order := ["name_length", "name"]
  limit := some limit

theorem validate_aliasedBy : ∃ walk, validateWalk (aliasedBy 50).plan = .ok (walk, (aliasedBy 50).plan) :=
  ⟨_, rfl⟩

def aliasIds : List ℤ := (List.range aliases).map fun i : ℕ => (i : ℤ) + 1

theorem pairwise_aliasIds : (aliasIds aliases).Pairwise (· < ·) := by
  unfold aliasIds
  rw [pairwise_map]
  refine pairwise_lt_range.imp ?_
  intro _ _ _
  omega

variable {aliases bound : ℕ}

theorem take_aliasIds (h : bound ≤ aliases) : (aliasIds aliases).take bound = aliasIds bound := by
  unfold aliasIds
  rw [← map_take, take_range, min_eq_left h]

theorem initial_aliasedBy (aliases : ℕ) (limit : ℤ) :
    initial (.ofDb (aliasDb aliases)) (aliasedBy limit).source = { view := .symbol, ids := [0] } := by
  have hnone : ((List.range aliases).map fun i : ℕ => (⟨i + 1, fun column =>
      if column = .usr then some (.text ("alias" ++ toString i))
      else if column = .kind then some (.int 20) else none⟩ : SymbolRow)).filter
        (fun row => row.column .usr = some (.text "T")) = [] := by
    rw [filter_eq_nil_iff]
    intro _ hrow
    obtain ⟨_, _, rfl⟩ := mem_map.mp hrow
    simp only [if_true, Option.some.injEq, SqlValue.text.injEq, decide_eq_true_eq]
    intro heq
    have hchars := congrArg String.toList heq
    simp at hchars
  have hnamed : (((aliasDb aliases).symbols.filter fun row => row.column .usr = some (.text "T")).map
      (·.id)) = [0] := by
    show ((List.filter _ (_ :: _)).map _) = _
    rw [filter_cons_of_pos (by simp), hnone]
    rfl
  have hsource : resolveSource (.ofDb (aliasDb aliases)) (aliasedBy limit).source = [0] := by
    unfold resolveSource
    rw [if_neg (show ¬ (aliasedBy limit).source.kind = .entity by simp [aliasedBy])]
    have hne : ((aliasDb aliases).symbols.filter fun row => row.column .usr = some (.text "T")).map
        (·.id) ≠ [] := by
      rw [hnamed]
      simp
    exact (if_pos hne).trans hnamed
  unfold initial
  rw [hsource]
  rfl

theorem nextNodes_aliasDb (aliases : ℕ) :
    nextNodes (.ofDb (aliasDb aliases)) ⟨"alias_of", .symbol, 19, "complete", false, .symbol⟩ true
      [0] = aliasIds aliases := by
  have hrows : ((((aliasDb aliases).endpoints .edge).filter fun edge =>
      edge.kind = 19 && edge.source true ∈ ([0] : List ℤ)).map fun edge => edge.target true) =
      aliasIds aliases := by
    unfold Db.endpoints aliasDb aliasIds
    dsimp only
    rw [map_map, filter_eq_self.mpr, map_map]
    · rfl
    · intro _ hedge
      obtain ⟨_, _, rfl⟩ := mem_map.mp hedge
      rfl
  show sortUnique ((((aliasDb aliases).endpoints .edge).filter fun edge =>
    edge.kind = 19 && edge.source true ∈ ([0] : List ℤ)).map fun edge => edge.target true) = _
  rw [hrows, sortUnique_of_pairwise (pairwise_aliasIds aliases)]

theorem aliasRows_sublist (h : bound ≤ aliases) :
    ∃ rows : List SymbolRow, rows.Sublist (aliasDb aliases).symbols ∧
      aliasIds bound = rows.map (·.id) ∧ ∀ row ∈ rows, row.column .kind = some (.int 20) := by
  refine ⟨(List.range bound).map fun i : ℕ => ⟨i + 1, fun column =>
      if column = .usr then some (.text ("alias" ++ toString i))
      else if column = .kind then some (.int 20) else none⟩, ?_, ?_, ?_⟩
  · refine List.Sublist.trans (List.Sublist.map _ ?_) (sublist_cons_self _ _)
    have htake : List.range bound = (List.range aliases).take bound := by
      rw [take_range, min_eq_left h]
    rw [htake]
    exact take_sublist _ _
  · rw [map_map]
    rfl
  · intro _ hrow
    obtain ⟨_, _, rfl⟩ := mem_map.mp hrow
    rfl

theorem filterNodes_aliasIds (h : bound ≤ aliases) :
    filterNodes (fun pattern value => pattern = value) (aliasDb aliases) .symbol
      (.cmp .inList "kind" ["typedef", "type-alias"] none) .exclude (aliasIds bound) =
      .ok (aliasIds bound) := by
  obtain ⟨rows, hrows, hids, hkind⟩ := aliasRows_sublist h
  have hchunks := @filterChunks_eq (fun pattern value => decide (pattern = value)) (aliasDb aliases)
    _ (.cmp .inList "kind" ["typedef", "type-alias"] none) .symbol rfl rfl .exclude rows.length rows
    hrows le_rfl
  have hall : ∀ row ∈ rows, filterSelects (fun pattern value => decide (pattern = value))
      (aliasDb aliases) .symbol (.cmp .inList "kind" ["typedef", "type-alias"] none) .true row =
      true := by
    intro row hrow
    unfold filterSelects
    rw [kleene]
    simp only [show colExpr "kind" = .ok (.stored .kind) from rfl, Column.value, hkind row hrow]
    rfl
  rw [filterNodes, hids, length_map, hchunks, selectWithPolicy, if_neg (by simp)]
  show ok (sortUnique ((rows.filter (filterSelects _ _ _ _ .true)).map _)) = _
  rw [filter_eq_self.mpr hall, ← hids, sortUnique_of_pairwise (pairwise_aliasIds bound)]

/-- The first stage finds the first aliases, and more are left. -/
theorem traverse_aliasDb (hbound : code.traverseNode = some bound) (h : bound < aliases) :
    Exec.traverse (.ofDb (aliasDb aliases)) .code { view := .symbol, ids := [0] } true
      ⟨some .symbol, "alias_of"⟩ 1 1 =
      .ok { view := .symbol, ids := aliasIds bound, truncated := true } := by
  have hlevels : Budget.levels (some bound) (nextNodes (.ofDb (aliasDb aliases))
      ⟨"alias_of", .symbol, 19, "complete", false, .symbol⟩ true) 1 1 1 [0] 0 false =
      (aliasIds bound, true) := by
    have hlength : (aliasIds aliases).length = aliases := by simp [aliasIds]
    simp [Budget.levels, nextNodes_aliasDb, hlength, Budget.exceeded,
      h, decide_true, Bool.or_true, Budget.cutAfter, take_aliasIds h.le]
  unfold Exec.traverse
  rw [show resolveRelation ⟨some .symbol, "alias_of"⟩ .symbol true =
    some ⟨"alias_of", .symbol, 19, "complete", false, .symbol⟩ from rfl]
  dsimp only
  rw [if_neg (by decide), sortUnique_of_pairwise (pairwise_singleton _ _), hbound,
    show (1 : ℤ).toNat = 1 from rfl, hlevels,
    sortUnique_of_pairwise (pairwise_aliasIds bound)]

/-- One page holds the first aliases, and more are left. -/
theorem runPlan_aliasedBy (hbound : code.traverseNode = some bound)
    (hpos : 0 < bound) (h : bound < aliases) (limit : ℤ) :
    ∃ st, runPlan (.ofDb (aliasDb aliases)) { budgets := .code } (aliasedBy limit).pagePlan none =
      .ok st ∧ st.truncated = true ∧ st.rows ≠ [] := by
  let idx : Index := .ofDb (aliasDb aliases)
  let found : Stream := { view := .symbol, ids := aliasIds bound, truncated := true }
  have htraverse : ∀ nodeLimit, runStage idx { budgets := .code } nodeLimit
      (.traverse true ⟨some .symbol, "alias_of"⟩ .static 1 1) { view := .symbol, ids := [0] } none =
      .ok found := by
    intro _
    simp only [runStage, plainStage, idx, traverse_aliasDb hbound h]
    rfl
  have hwhere : ∀ nodeLimit, runStage idx { budgets := .code } nodeLimit
      (.where_ (.cmp .inList "kind" ["typedef", "type-alias"] none) .exclude) found none = .ok found := by
    intro _
    simp only [runStage, plainStage]
    exact congrArg (Except.map _) (filterNodes_aliasIds h.le)
  obtain ⟨cells, hcells⟩ : ∃ cells, idx.symbolCells found.ids (aliasedBy limit).pageFields = .ok cells :=
    ⟨_, rfl⟩
  obtain ⟨out, hout⟩ := @Exec.materialize_of_symbolCells idx found _ _ .code rfl rfl hcells
  obtain ⟨_, hrows⟩ := materialize_nodes rfl hout
  have hselect : ∀ nodeLimit, runStage idx { budgets := .code } nodeLimit
      (.select (aliasedBy limit).pageFields) found none = .ok { out with shape := .rows } := by
    intro _
    simp only [runStage, plainStage, hout]
    rfl
  have hne : nodeRows idx (projected found) (aliasedBy limit).pageFields ≠ [] := by
    obtain ⟨rows, hsub, hids, _⟩ := aliasRows_sublist h.le
    rw [nodeRows_eq, projected_of_nil rfl, present_eq_self ⟨rows, hsub, hids⟩]
    simp only [ne_eq, map_eq_nil_iff, aliasIds, range_eq_nil]
    exact hpos.ne'
  refine ⟨{ out with shape := .rows }, ?_, by rw [hrows], by rw [hrows]; exact hne⟩
  rw [pagePlan_eq, runPlan, initial_aliasedBy]
  refine (runStages_cons (rejectAmbiguous_nil rfl) (htraverse _) (by simp)).trans ?_
  refine (runStages_cons (rejectAmbiguous_nil rfl) (hwhere _) (by simp)).trans ?_
  refine (runStages_cons (rejectAmbiguous_nil rfl) (hselect _) (by simp)).trans ?_
  exact runStages_nil (rejectAmbiguous_nil (by rw [hrows]))

end CppIndexer.Graph
