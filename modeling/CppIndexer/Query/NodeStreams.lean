/-
# Streams of symbols and entities

What the stages of a plan leave of a stream in the symbol or entity view: its ids stay ascending,
a projection reads the cells of each symbol on its own, and filters judge every node on its own.
Stages without a cursor of their own do not see it.
-/

import CppIndexer.Query.RunFastSites
import CppIndexer.Query.Normalization

namespace CppIndexer.Query

open SortUnique List Stage Except Index

/-! ## Stages one after the other -/

variable {walk next : WalkState}

theorem length_walkStages {stages normal : List Stage}
    (h : walkStages stages walk = .ok (next, normal)) : normal.length = stages.length := by
  induction stages generalizing walk normal with
  | nil =>
    cases h
    rfl
  | cons _ _ ih =>
    obtain ⟨_, _, _, _, hrest, rfl⟩ := walkStages_cons h
    simp [ih hrest]

/-- Validated stages are validated in two parts. -/
theorem walkStages_split {xs ys : List Stage}
    (h : walkStages (xs ++ ys) walk = .ok (next, xs ++ ys)) :
    ∃ middle, walkStages xs walk = .ok (middle, xs) ∧ walkStages ys middle = .ok (next, ys) := by
  obtain ⟨middle, _, _, hxs, hys, heq⟩ := walkStages_append h
  obtain ⟨rfl, rfl⟩ := append_inj heq (length_walkStages hxs).symm
  exact ⟨middle, hxs, hys⟩

theorem walkStages_join {xs ys xs' ys' : List Stage} {walk middle next : WalkState}
    (hxs : walkStages xs walk = .ok (middle, xs')) (hys : walkStages ys middle = .ok (next, ys')) :
    walkStages (xs ++ ys) walk = .ok (next, xs' ++ ys') := by
  induction xs generalizing walk xs' with
  | nil =>
    cases hxs
    exact hys
  | cons _ _ ih =>
    obtain ⟨_, _, _, hstage, hrest, rfl⟩ := walkStages_cons hxs
    rw [cons_append, walkStages]
    exact bind_eq_ok.mpr ⟨_, hstage, bind_eq_ok.mpr ⟨_, ih hrest, rfl⟩⟩

namespace Exec

variable {idx : Index} {config : Config}

def cursorAfter (afterId : Option ℤ) (stages : List Stage) : Option ℤ :=
  stages.foldl Stage.cursorAfter afterId

variable {nodeLimit : Option ℕ} {afterId : Option ℤ} {st : Stream}

/-- Stages run in two parts, unless the first part ends in a count. -/
theorem runStages_append {xs ys : List Stage}
    (hwalk : walkStages xs walk = .ok (next, xs)) (hshape : next.shape ≠ .scalar)
    (hfollows : Follows walk st) :
    runStages idx config nodeLimit (xs ++ ys) st afterId = (do
      let st ← runStages idx config nodeLimit xs st afterId
      runStages idx config nodeLimit ys st (cursorAfter afterId xs)) := by
  induction xs generalizing walk st afterId with
  | nil =>
    show runStages idx config nodeLimit ys st afterId = _
    rw [runStages]
    cases hreject : rejectAmbiguous idx st with
    | error =>
      cases ys with
      | nil | cons => rw [runStages, hreject]; rfl
    | ok => rfl
  | cons stage _ ih =>
    obtain ⟨_, _, _, hstage, hrest, hcons⟩ := walkStages_cons hwalk
    cases hcons
    rw [cons_append, runStages, runStages]
    cases hreject : rejectAmbiguous idx st with
    | error => rfl
    | ok =>
      cases hout : runStage idx config nodeLimit stage st afterId with
      | error => rfl
      | ok out =>
        have hfollows' := follows_runStage hfollows hstage hout
        have hout : out.shape ≠ .scalar := by
          intro hscalar
          have hmiddle := hfollows'.shape.symm.trans hscalar
          obtain rfl := walkStages_scalar hmiddle hrest
          cases hrest
          exact hshape hmiddle
        simp only [bind, Except.bind, if_neg hout]
        exact ih hrest hfollows'

def readsCursor : Stage → Bool
  | .nodes .. => true
  | _ => false

variable {stage : Stage}

theorem runStage_cursor (h : readsCursor stage = false) (afterId afterId' : Option ℤ) :
    runStage idx config nodeLimit stage st afterId = runStage idx config nodeLimit stage st afterId' := by
  cases stage with
  | nodes => cases h
  | _ => rfl

variable {stages : List Stage}

theorem runStages_cursor (h : ∀ stage ∈ stages, readsCursor stage = false)
    (afterId afterId' : Option ℤ) : runStages idx config nodeLimit stages st afterId =
      runStages idx config nodeLimit stages st afterId' := by
  induction stages generalizing st afterId afterId' with
  | nil => rw [runStages, runStages]
  | cons stage _ ih =>
    rw [runStages, runStages, runStage_cursor (h stage mem_cons_self) afterId afterId']
    simp [ih (fun other hmem => h other (mem_cons_of_mem _ hmem)) (stage.cursorAfter afterId)
      (stage.cursorAfter afterId')]

/-- A plan that does not start from the code base enumerates nothing. -/
theorem readsCursor_of_walkStages
    (h : walkStages stages walk = .ok (next, stages)) (hsource : walk.codebaseUnenumerated = false) :
    ∀ stage ∈ stages, readsCursor stage = false := by
  induction stages generalizing walk with
  | nil => simp
  | cons stage _ ih =>
    obtain ⟨middle, _, _, hstage, hrest, hcons⟩ := walkStages_cons h
    cases hcons
    obtain ⟨hpermits, hnext⟩ := walkStage_permits hstage
    have hmiddle : middle.codebaseUnenumerated = false := by
      rw [hnext, hsource]
      cases stage <;> rfl
    intro other hmem
    rcases mem_cons.mp hmem with rfl | hmem
    · cases other with
      | nodes => exact absurd (hsource.symm.trans hpermits) (by simp)
      | _ => rfl
    · exact ih hrest hmiddle other hmem

/-! ## Ascending ids -/

variable {ids : List ℤ}

theorem pairwise_cut {budget : Budget} (h : ids.Pairwise (· < ·)) :
    (budget.cut ids).Pairwise (· < ·) := by
  cases budget with
  | none => exact h
  | some => exact h.sublist (take_sublist _ _)

/-- The ids of symbols, in their order. -/
def AreSymbols (db : Db) (ids : List ℤ) : Prop :=
  ∃ rows : List SymbolRow, rows.Sublist db.symbols ∧ ids = rows.map (·.id)

theorem AreSymbols.sublist {db : Db} {ids part : List ℤ} (h : AreSymbols db ids)
    (hpart : part.Sublist ids) : AreSymbols db part := by
  obtain ⟨_, hrows, rfl⟩ := h
  obtain ⟨rows', hsub, rfl⟩ := sublist_map_iff.mp hpart
  exact ⟨rows', hsub.trans hrows, rfl⟩

theorem AreSymbols.pairwise {db : Db} (h : AreSymbols db ids) :
    ids.Pairwise (· < ·) := by
  obtain ⟨_, hrows, rfl⟩ := h
  exact db.symbols_sorted.sublist (hrows.map _)

/-- The ids `nodes(pred)` enumerates, without cursor and budget. -/
def enumeratedIds (idx : Index) (view : View) (pred : Option Pred) (unknown : UnknownPolicy) :
    Except PlanError (List ℤ) :=
  (enumerateNodes idx.glob idx.db none view pred unknown none).map Prod.fst

variable {unknown : UnknownPolicy} {pred : Option Pred}

theorem enumerateNodes_eq {view : View}
    {budget : Budget} :
    enumerateNodes idx.glob idx.db budget view pred unknown afterId =
      (enumeratedIds idx view pred unknown).map fun ids =>
        (budget.cut (afterCursor afterId ids), budget.exceeded (afterCursor afterId ids).length) := by
  unfold enumeratedIds enumerateNodes
  cases pred with
  | none => simp [bind, Except.bind, pure, Except.pure, Except.map]
  | some pred =>
    dsimp only
    cases hout : predSql pred view .s .en 0 with
    | error => rfl
    | ok out =>
      simp only [bind, Except.bind]
      cases fetchWithPolicy idx.glob idx.db (idx.db.nodes view) out.tokens out.args unknown with
      | error => rfl
      | ok => simp [pure, Except.pure, Except.map]

theorem areSymbols_enumeratedIds {view : View}
    (h : enumeratedIds idx view pred unknown = .ok ids) : AreSymbols idx.db ids := by
  have hfetch : ∀ {condition : List Token} {args : List SqlValue} {ids : List ℤ},
      fetchIds idx.glob idx.db (idx.db.nodes view) condition args = .ok ids →
        AreSymbols idx.db ids := by
    intro _ _ _ h
    unfold fetchIds at h
    split at h
    · cases h
      exact ⟨_, filter_sublist.trans (idx.db.nodes_sublist view), rfl⟩
    · cases h
  obtain ⟨⟨_, _⟩, hfound, rfl⟩ := map_eq_ok.mp h
  cases pred with
  | none =>
    cases hfound
    simp only [afterCursor_none, Budget.cut]
    exact ⟨_, idx.db.nodes_sublist view, rfl⟩
  | some =>
    obtain ⟨_, _, hfound⟩ := ok_of_bind hfound
    obtain ⟨_, hall, hfound⟩ := ok_of_bind hfound
    cases hfound
    simp only [afterCursor_none, Budget.cut]
    unfold fetchWithPolicy at hall
    split at hall
    · obtain ⟨_, _, hall⟩ := ok_of_bind hall
      split at hall
      · cases hall
      · exact hfetch hall
    · exact hfetch hall

theorem pairwise_afterCursor (h : ids.Pairwise (· < ·)) : (afterCursor afterId ids).Pairwise (· < ·) :=
  h.sublist filter_sublist

theorem pairwise_filterNodes {view : View} {pred : Pred}
    {ids kept : List ℤ} (h : filterNodes idx.glob idx.db view pred unknown ids = .ok kept) :
    kept.Pairwise (· < ·) := by
  obtain ⟨_, _, rfl⟩ := map_eq_ok.mp h
  exact pairwise_sortUnique _

def Ascending (st : Stream) : Prop := st.ids.Pairwise (· < ·)

theorem ascending_initial (source : Source) : Ascending (initial idx source) := by
  have hnamed : ∀ (rows : List SymbolRow) (p : SymbolRow → Bool), rows.Sublist idx.db.symbols →
      ((rows.filter p).map (·.id)).Pairwise (· < ·) := by
    intro _ _ hrows
    exact idx.db.symbols_sorted.sublist ((filter_sublist.trans hrows).map _)
  have hnodes : (if source.kind = .entity then
      idx.db.symbols.filter fun row => row.id ∈ idx.db.entityNodes.map Prod.fst
      else idx.db.symbols).Sublist idx.db.symbols := by
    split
    · exact filter_sublist
    · exact List.Sublist.refl _
  unfold Ascending initial resolveSource
  generalize (if source.kind = .entity then
      idx.db.symbols.filter fun row => row.id ∈ idx.db.entityNodes.map Prod.fst
      else idx.db.symbols) = nodes at hnodes ⊢
  dsimp only
  split
  · exact List.Pairwise.nil
  · split
    · exact hnamed _ _ hnodes
    · split
      · exact hnamed _ _ hnodes
      · exact hnamed _ _ hnodes

variable {st out : Stream}

theorem ascending_filter {pred : Pred}
    (h : Ascending st) (hout : filter idx config.budgets st pred unknown = .ok out) :
    Ascending out := by
  unfold filter at hout
  split at hout
  · obtain ⟨_, hids, rfl⟩ := map_eq_ok.mp hout
    exact pairwise_filterNodes hids
  · cases hout
    exact h

theorem ascending_enumerate (h : Ascending st)
    (hout : enumerate idx config.budgets st pred unknown afterId nodeLimit = .ok out) :
    Ascending out := by
  have hall : ∀ {out}, enumerateAll idx config.budgets st pred unknown afterId = .ok out →
      Ascending out := by
    intro _ hout
    unfold enumerateAll at hout
    split at hout
    · obtain ⟨_, hfound, rfl⟩ := map_eq_ok.mp hout
      rw [enumerateNodes_eq] at hfound
      obtain ⟨_, hids, rfl⟩ := map_eq_ok.mp hfound
      exact pairwise_cut (pairwise_afterCursor ((areSymbols_enumeratedIds hids).pairwise))
    · split at hout
      · cases hout
      · cases pred with
        | none =>
          cases hout
          exact h
        | some => exact ascending_filter (by exact h) hout
  unfold enumerate at hout
  split at hout
  · split at hout
    · cases hout
      exact h
    · exact hall hout
  · split at hout
    · cases hout
      exact h
    · exact hall hout
  · exact hall hout

theorem ascending_moveTo (st : Stream) (target : View) (found : TypedReads) :
    Ascending (moveTo config.budgets st target found) := by
  unfold moveTo Ascending
  split
  · exact pairwise_cut (pairwise_sortUnique _)
  · exact List.Pairwise.nil

theorem ascending_traverse {inbound : Bool} {relation : RelationName}
    {minDepth maxDepth : ℤ}
    (hout : traverse idx config.budgets st inbound relation minDepth maxDepth = .ok out) :
    Ascending out := by
  unfold traverse at hout
  split at hout
  · cases hout
  · split at hout
    · cases hout
      exact ascending_moveTo st _ _
    · cases hout
      exact pairwise_sortUnique _

theorem nodes_changeView {level : View} (hlevel : level.isNode = true) :
    (changeView idx st level).ids = if level = .entity ∧ st.view ≠ .entity then
        sortUnique (st.ids.filter fun id => id ∈ idx.db.entityNodes.map Prod.fst ++
          idx.db.entityEdges.map (·.src) ++ idx.db.entityEdges.map (·.dst))
      else st.ids := by
  unfold changeView
  rw [if_neg (by simp [hlevel])]
  cases hnode : st.view.isNode <;> rfl

theorem ascending_changeView (h : Ascending st) (level : View) : Ascending (changeView idx st level) := by
  by_cases hlevel : level.isNode = true
  · rw [Ascending, nodes_changeView hlevel]
    split
    · exact pairwise_sortUnique _
    · exact h
  · have hnone : (changeView idx st level).ids = [] := by
      unfold changeView
      rw [if_pos (by simpa using hlevel)]
    rw [Ascending, hnone]
    exact List.Pairwise.nil

theorem ascending_setOpStage (op : SetOp) (st sub : Stream) :
    Ascending (setOpStage config op st sub) := by
  have hop : Ascending (setOp config.budgets st sub op) := by
    unfold setOp Ascending
    dsimp only
    split
    · cases op with
      | union => exact pairwise_sortUnique _
      | intersect | except => exact (pairwise_sortUnique _).sublist filter_sublist
    · exact List.Pairwise.nil
  unfold setOpStage
  split <;> exact hop

/-- Stages that select the columns, the order or the number of the rows. -/
def isProjection : Stage → Bool
  | .select _ | .orderBy _ | .limit _ => true
  | _ => false

/-- Before the projection every stage keeps the ids ascending. -/
theorem ascending_runStage (hstage : isProjection stage = false)
    (h : Ascending st) (hout : runStage idx config nodeLimit stage st afterId = .ok out) :
    Ascending out := by
  cases stage with
  | nodes =>
    obtain ⟨_, hfound, rfl⟩ := map_eq_ok.mp hout
    have hids := ascending_enumerate h hfound
    exact hids
  | changeView level =>
    cases hout
    exact ascending_changeView h level
  | where_ => exact ascending_filter h hout
  | traverse _ _ mode =>
    cases mode with
    | static =>
      obtain ⟨_, hfound, rfl⟩ := map_eq_ok.mp hout
      have hids := ascending_traverse hfound
      exact hids
    | devirtualized =>
      cases hout
      exact pairwise_sortUnique _
  | sites | reverseTypeUse =>
    cases hout
    exact List.Pairwise.nil
  | setOp op =>
    obtain ⟨sub, _, hout⟩ := ok_of_bind hout
    cases hout
    exact ascending_setOpStage op st sub
  | select | orderBy | limit => cases hstage
  | count | rank =>
    cases hout
    exact h
  | distinct =>
    cases hout
    unfold applyDistinct Ascending
    split
    · exact h
    · split
      · exact h
      · exact pairwise_sortUnique _
    · exact h
  | path =>
    obtain ⟨_, _, hout⟩ := ok_of_bind hout
    unfold pathStage at hout
    split at hout
    · cases hout
    · cases hout
      exact List.Pairwise.nil

theorem ascending_runStages (hstages : ∀ stage ∈ stages, isProjection stage = false) (h : Ascending st)
    (hout : runStages idx config nodeLimit stages st afterId = .ok out) : Ascending out := by
  induction stages generalizing st afterId with
  | nil =>
    obtain ⟨_, _, hout⟩ := ok_of_bind hout
    cases hout
    exact h
  | cons stage _ ih =>
    obtain ⟨_, _, hout⟩ := ok_of_bind hout
    obtain ⟨found, hfound, hout⟩ := ok_of_bind hout
    have hnext := ascending_runStage (hstages stage mem_cons_self) h hfound
    by_cases hscalar : found.shape = .scalar
    · rw [if_pos hscalar] at hout
      obtain ⟨_, _, hout⟩ := ok_of_bind hout
      cases hout
      exact hnext
    · rw [if_neg hscalar] at hout
      exact ih (fun other hmem => hstages other (mem_cons_of_mem _ hmem)) hnext hout

/-! ## Projections -/

def nodeCell (idx : Index) (row : SymbolRow) (field : String) : Cell :=
  match Index.selectColumn field with
  | .ok (some column) =>
    (column.value idx.db row (idx.db.entityKind row.id)).bind fun value =>
      if field = "id" then some value else idx.shown field value
  | _ => none

def nodeRows (idx : Index) (ids : List ℤ) (fields : List String) : List (List Cell × ℤ) :=
  ids.filterMap fun id => (idx.db.symbols.find? fun row => row.id = id).map fun row =>
    (fields.map (nodeCell idx row), id)

variable {fields : List String} {columns : List (Option Column)}

theorem mapM_selectColumn_iff : fields.mapM selectColumn = .ok columns ↔
      List.Forall₂ (fun field column => selectColumn field = .ok column) fields columns := by
  induction fields generalizing columns with
  | nil =>
    rw [forall₂_nil_left_iff]
    exact ⟨fun h => by cases h; rfl, fun h => by rw [h]; rfl⟩
  | cons _ _ ih =>
    rw [mapM_cons, forall₂_cons_left_iff]
    constructor
    · intro h
      obtain ⟨column, hcolumn, h⟩ := ok_of_bind h
      obtain ⟨columns', hcolumns, h⟩ := ok_of_bind h
      cases h
      exact ⟨column, columns', hcolumn, ih.mp hcolumns, rfl⟩
    · rintro ⟨_, _, hcolumn, hcolumns, rfl⟩
      rw [hcolumn, ih.mpr hcolumns]
      rfl

variable {fields fields' : List String}

/-- Every field has a column or, of a count of edges, none. -/
theorem exists_columns (h : fields.mapM selectColumn = .ok columns)
    (hsub : ∀ field ∈ fields', field = "id" ∨ field ∈ fields) :
    ∃ columns', fields'.mapM selectColumn = .ok columns' ∧
      ∀ column ∈ columns', column = some .id ∨ column ∈ columns := by
  have hcolumns := mapM_selectColumn_iff.mp h
  induction fields' with
  | nil => exact ⟨[], rfl, by simp⟩
  | cons field _ ih =>
    obtain ⟨columns', hrest, hmem⟩ := ih fun other hother => hsub other (mem_cons_of_mem _ hother)
    have hfield : ∃ column, selectColumn field = .ok column ∧
        (column = some .id ∨ column ∈ columns) := by
      rcases hsub field mem_cons_self with rfl | hfield
      · exact ⟨some .id, rfl, Or.inl rfl⟩
      · obtain ⟨i, hi, hget⟩ := mem_iff_getElem.mp hfield
        have hi' : i < columns.length := hcolumns.length_eq ▸ hi
        have hat := hcolumns.get hi hi'
        simp only [get_eq_getElem, hget] at hat
        exact ⟨_, hat, Or.inr (getElem_mem hi')⟩
    obtain ⟨column, hcolumn, hselected⟩ := hfield
    refine ⟨column :: columns', ?_, ?_⟩
    · rw [mapM_cons, hcolumn, hrest]
      rfl
    · intro other hother
      rcases mem_cons.mp hother with rfl | hother
      · exact hselected
      · exact hmem other hother

theorem mapM_id_eq_some {found : List Column}
    (h : columns.mapM id = some found) : columns = found.map some := by
  induction columns generalizing found with
  | nil =>
    cases h
    rfl
  | cons column rest ih =>
    rw [mapM_cons] at h
    cases column with
    | none => cases h
    | some =>
      cases hrest : rest.mapM id with
      | none =>
        rw [hrest] at h
        cases h
      | some =>
        rw [hrest] at h
        cases h
        rw [ih hrest]
        rfl

theorem cells_of_columns {columns : List Column}
    (h : List.Forall₂ (fun field column => selectColumn field = .ok column) fields
      (columns.map some)) (row : SymbolRow) :
    ((fields.zip columns).map fun (field, column) =>
        (column.value idx.db row (idx.db.entityKind row.id)).bind fun value =>
          if field = "id" then some value else idx.shown field value) =
      fields.map (nodeCell idx row) := by
  induction fields generalizing columns with
  | nil => rfl
  | cons _ _ ih =>
    cases columns with
    | nil => cases h
    | cons =>
      obtain ⟨hfield, hrest⟩ := forall₂_cons.mp h
      rw [zip_cons_cons, map_cons, map_cons, ih hrest]
      simp [nodeCell, hfield]

variable {cells : ℤ → Option (List Cell)}

theorem symbolCells_eq (h : idx.symbolCells ids fields = .ok cells) (hne : ids ≠ []) (id : ℤ) :
    cells id = (idx.db.symbols.find? fun row => row.id = id).map fun row =>
      fields.map (nodeCell idx row) := by
  obtain ⟨columns, hcolumns, h⟩ := ok_of_bind h
  split at h
  · rename_i found hfound
    cases h
    have hforall := mapM_selectColumn_iff.mp hcolumns
    rw [mapM_id_eq_some hfound] at hforall
    simp [cells_of_columns hforall]
  · rw [if_neg hne] at h
    cases h

/-- Cells can be fetched for fewer nodes and fields. -/
theorem symbolCells_of_subset {ids ids' : List ℤ}
    (h : idx.symbolCells ids fields = .ok cells)
    (hids : ids = [] → ids' = []) (hsub : ∀ field ∈ fields', field = "id" ∨ field ∈ fields) :
    ∃ cells', idx.symbolCells ids' fields' = .ok cells' := by
  unfold symbolCells at h ⊢
  obtain ⟨columns, hcolumns, h⟩ := ok_of_bind h
  obtain ⟨columns', hcolumns', hmem⟩ := exists_columns hcolumns hsub
  rw [hcolumns']
  simp only [bind, Except.bind]
  split at h
  · rename_i found hfound
    have hsome : ∀ column ∈ columns', column.isSome := by
      intro column hcolumn
      rcases hmem column hcolumn with rfl | hcolumn
      · rfl
      · rw [mapM_id_eq_some hfound] at hcolumn
        obtain ⟨_, _, rfl⟩ := mem_map.mp hcolumn
        rfl
    split
    · exact ⟨_, rfl⟩
    · rename_i hnone
      rw [mapM_id_of_isSome hsome] at hnone
      cases hnone
  · split at h
    · rename_i hempty
      split
      · exact ⟨_, rfl⟩
      · rw [if_pos (hids hempty)]
        exact ⟨_, rfl⟩
    · cases h

/-- The nodes a projection reads; left over keys of another view have no row. -/
def projected (st : Stream) : List ℤ := if st.keys = [] then st.ids else []

variable {budgets : Budgets}

/-- A projection of symbols or entities. -/
theorem materialize_nodes
    (hview : st.view.isNode = true) (h : materialize idx budgets st fields = .ok out) :
    ∃ ids, out = { st with fields := fields, keys := [], ids := ids,
                           rows := nodeRows idx (projected st) fields } := by
  obtain ⟨_, _, h⟩ := ok_of_bind h
  split at h
  · rename_i hkeys
    cases h
    have hkeys : st.keys ≠ [] := hkeys.resolve_right (by simp [hview])
    have hnone : ∀ key, typedCells idx budgets st fields key = none := by
      intro _
      unfold typedCells Index.typedCells
      cases hkind : st.view with
      | symbol => simp [keysOf]
      | entity => simp [keysOf]
      | _ => simp [hkind, View.isNode] at hview
    refine ⟨st.ids, ?_⟩
    simp [hnone, projected, if_neg hkeys, nodeRows]
  · rename_i hkeys
    obtain ⟨cells, hcells, h⟩ := ok_of_bind h
    cases h
    have hkeys : st.keys = [] := by
      by_contra hne
      exact hkeys (Or.inl hne)
    refine ⟨[], ?_⟩
    have hrows : (st.ids.filterMap fun id => (cells id).map fun cells => (cells, id)) =
        nodeRows idx (projected st) fields := by
      rw [projected, if_pos hkeys, nodeRows]
      by_cases hne : st.ids = []
      · rw [hne]
        rfl
      · apply filterMap_congr
        intro _ _
        rw [symbolCells_eq hcells hne, Option.map_map]
        rfl
    rw [hrows]
    simp [hkeys]

theorem symbolCells_of_materialize (hview : st.view.isNode = true) (hkeys : st.keys = [])
    (h : materialize idx budgets st fields = .ok out) :
    ∃ cells, idx.symbolCells st.ids fields = .ok cells := by
  obtain ⟨_, _, h⟩ := ok_of_bind h
  rw [if_neg (by simp [hkeys, hview])] at h
  obtain ⟨cells, hcells, _⟩ := ok_of_bind h
  exact ⟨cells, hcells⟩

/-- A projection succeeds where the cells can be fetched. -/
theorem materialize_of_symbolCells (hview : st.view.isNode = true) (hkeys : st.keys = [])
    (h : idx.symbolCells st.ids fields = .ok cells) :
    ∃ out, materialize idx budgets st fields = .ok out := by
  unfold materialize
  rw [rejectAmbiguous_nil hkeys, if_neg (by simp [hkeys, hview]), h]
  exact ⟨_, rfl⟩

/-! ## Filters -/

/-- Stages that judge every node on its own. -/
def isNarrowing : Stage → Bool
  | .where_ .. | .distinct => true
  | .changeView level => level.isNode
  | _ => false

def rowTest (db : Db) (test : SymbolRow → Bool) (id : ℤ) : Bool :=
  (db.symbols.find? fun row => row.id = id).any test

theorem rowTest_id {db : Db} {row : SymbolRow} (h : row ∈ db.symbols) (test : SymbolRow → Bool) :
    rowTest db test row.id = test row := by
  rw [rowTest, find?_of_nodup_keys db.nodup_ids h]
  rfl

/-- What a stage does to nodes: it fails on some, and otherwise keeps some. -/
structure Verdict where
  fails : ℤ → Bool
  keeps : ℤ → Bool

def Verdict.Gives (verdict : Verdict) (ids : List ℤ) (outcome : Except PlanError (List ℤ)) : Prop :=
  if ids.any verdict.fails then ∃ e, outcome = .error e
  else outcome = .ok (ids.filter verdict.keeps)

theorem selectWithPolicy_gives {db : Db} (selects : IsTest → SymbolRow → Bool)
    (unknown : UnknownPolicy) {rows : List SymbolRow} (hrows : rows.Sublist db.symbols) :
    Verdict.Gives ⟨fun id => decide (unknown = .error) && rowTest db (selects .null) id,
      rowTest db (selects unknown.test)⟩ (rows.map (·.id))
      (selectWithPolicy rows selects unknown) := by
  have htest : ∀ test : SymbolRow → Bool, ∀ row ∈ rows, rowTest db test row.id = test row :=
    fun test row hmem => rowTest_id (hrows.subset hmem) test
  have hany : ((rows.map (·.id)).any fun id =>
      decide (unknown = .error) && rowTest db (selects .null) id) =
      (decide (unknown = .error) && rows.any (selects .null)) := by
    rw [any_map]
    cases unknown with
    | error =>
      simp only [decide_true, Bool.true_and, Function.comp_def]
      rw [Bool.eq_iff_iff, any_eq_true, any_eq_true]
      exact exists_congr fun row => and_congr_right fun hmem => by rw [htest _ row hmem]
    | _ => simp
  have hfilter : (rows.map (·.id)).filter (rowTest db (selects unknown.test)) =
      (rows.filter (selects unknown.test)).map (·.id) := by
    rw [filter_map]
    exact congrArg _ (filter_congr fun row hmem => htest _ row hmem)
  unfold Verdict.Gives selectWithPolicy
  rw [hany, hfilter]
  by_cases herror : unknown = .error ∧ rows.any (selects .null) = true
  · rw [if_pos (by simp [herror]), if_pos herror]
    exact ⟨_, rfl⟩
  · rw [if_neg (by simpa using herror), if_neg herror]

/-- `where` judges every node on its own. -/
theorem filterNodes_gives {view : View} {pred : Pred} (hvalid : Valid pred view)
    (unknown : UnknownPolicy) : ∃ verdict : Verdict, ∀ ids, AreSymbols idx.db ids →
      verdict.Gives ids (filterNodes idx.glob idx.db view pred unknown ids) := by
  cases hout : predSql pred view .s .en 0 with
  | error e =>
    refine ⟨⟨fun _ => true, fun _ => true⟩, ?_⟩
    intro ids _
    cases ids with
    | nil =>
      show _ = _
      simp [filterNodes, filterChunks, Except.map, sortUnique]
    | cons =>
      unfold Verdict.Gives
      rw [if_pos (by simp)]
      refine ⟨e, ?_⟩
      simp [filterNodes, filterChunks, filterChunk, hout, bind, Except.bind, Except.map]
  | ok =>
    let selects := filterSelects idx.glob idx.db view pred
    refine ⟨⟨fun id => decide (unknown = .error) && rowTest idx.db (selects .null) id,
      rowTest idx.db (selects unknown.test)⟩, ?_⟩
    rintro ids ⟨rows, hrows, rfl⟩
    have hchunks := filterChunks_eq idx.glob idx.db hvalid hout unknown rows.length rows hrows le_rfl
    have hgives := selectWithPolicy_gives selects unknown hrows
    rw [filterNodes, length_map, hchunks]
    unfold Verdict.Gives at hgives ⊢
    split at hgives
    · rename_i hany
      obtain ⟨e, he⟩ := hgives
      rw [if_pos hany, he]
      exact ⟨e, rfl⟩
    · rename_i hany
      have hkept : AreSymbols idx.db ((rows.map (·.id)).filter (rowTest idx.db (selects unknown.test))) :=
        AreSymbols.sublist ⟨rows, hrows, rfl⟩ filter_sublist
      rw [if_neg hany, hgives, Except.map, sortUnique_of_pairwise hkept.pairwise]

/-- A stream of nodes that no typed view has been through. -/
structure NodeStream (idx : Index) (view : View) (st : Stream) : Prop where
  view : st.view = view
  keys : st.keys = []
  shape : st.shape = .nodes
  ids : AreSymbols idx.db st.ids

def Verdict.Leaves (verdict : Verdict) (st : Stream) (view : View)
    (outcome : Except PlanError Stream) : Prop :=
  if st.ids.any verdict.fails then ∃ e, outcome = .error e
  else outcome = .ok { st with view := view, ids := st.ids.filter verdict.keeps }

/-- A narrowing stage judges every node on its own. -/
theorem runStage_leaves (hstage : isNarrowing stage = true) {view : View}
    (hnode : view.isNode = true)
    (hvalid : ∀ pred unknown, stage = .where_ pred unknown → Valid pred view) :
    ∃ verdict : Verdict, ∀ (config : Config) (nodeLimit : Option ℕ) (afterId : Option ℤ) (st : Stream),
      NodeStream idx view st →
        verdict.Leaves st (stage.viewAfter view) (runStage idx config nodeLimit stage st afterId) := by
  cases stage with
  | where_ pred unknown =>
    obtain ⟨verdict, hverdict⟩ := @filterNodes_gives idx view pred (hvalid pred unknown rfl) unknown
    refine ⟨verdict, ?_⟩
    intro config nodeLimit afterId st hst
    have hgives := hverdict st.ids hst.ids
    have hrun : runStage idx config nodeLimit (.where_ pred unknown) st afterId =
        (filterNodes idx.glob idx.db view pred unknown st.ids).map fun ids => { st with ids := ids } := by
      show filter idx config.budgets st pred unknown = _
      rw [filter, hst.view, if_pos hnode]
    rw [hrun]
    unfold Verdict.Gives at hgives
    unfold Verdict.Leaves
    split at hgives
    · rename_i hany
      obtain ⟨e, he⟩ := hgives
      rw [if_pos hany, he]
      exact ⟨e, rfl⟩
    · rename_i hany
      rw [if_neg hany, hgives, Except.map]
      simp [viewAfter, ← hst.view]
  | distinct =>
    refine ⟨⟨fun _ => false, fun _ => true⟩, ?_⟩
    intro _ _ _ st hst
    show (if _ then _ else ok (applyDistinct st) = _)
    rw [if_neg (by simp)]
    unfold applyDistinct
    simp only [hst.shape, hst.keys, ne_eq, not_true_eq_false, if_false,
      sortUnique_of_pairwise hst.ids.pairwise]
    simp [viewAfter, ← hst.view]
  | changeView level =>
    have hlevel : level.isNode = true := hstage
    refine ⟨⟨fun _ => false, fun id => !(decide (level = .entity ∧ view ≠ .entity)) ||
      decide (id ∈ idx.db.entityNodes.map Prod.fst ++ idx.db.entityEdges.map (·.src) ++
        idx.db.entityEdges.map (·.dst))⟩, ?_⟩
    intro _ _ _ st hst
    show (if _ then _ else ok (changeView idx st level) = _)
    rw [if_neg (by simp)]
    unfold changeView
    rw [if_neg (by simp [hlevel])]
    simp only [hst.view, hnode, if_true, viewAfter]
    by_cases hentity : level = .entity ∧ view ≠ .entity
    · have hkept := (hst.ids.sublist (@List.filter_sublist _ (fun id =>
        decide (id ∈ idx.db.entityNodes.map Prod.fst ++ idx.db.entityEdges.map (·.src) ++
          idx.db.entityEdges.map (·.dst))) st.ids)).pairwise
      rw [if_pos hentity, sortUnique_of_pairwise hkept]
      simp [hentity]
    · rw [if_neg hentity]
      simp [hentity]
  | _ => cases hstage


theorem valid_of_walkStage {pred : Pred}
    (h : walkStage (.where_ pred unknown) walk = .ok (next, .where_ pred unknown)) :
    Valid pred walk.active := by
  rw [walkStage_plain rfl] at h
  obtain ⟨_, _, _, h⟩ := ok_of_three_binds h
  obtain ⟨_, hnormal, h⟩ := ok_of_bind h
  cases h
  exact valid_normPred pred walk.active pred hnormal

theorem isNode_viewAfter (hstage : isNarrowing stage = true) {view : View}
    (hnode : view.isNode = true) : (stage.viewAfter view).isNode = true := by
  cases stage with
  | where_ => exact hnode
  | distinct => exact hnode
  | changeView => exact hstage
  | _ => cases hstage

/-- One verdict after another. -/
def Verdict.andThen (first second : Verdict) : Verdict where
  fails id := first.fails id || (first.keeps id && second.fails id)
  keeps id := first.keeps id && second.keeps id

theorem Verdict.any_andThen (first second : Verdict) (ids : List ℤ) :
    ids.any (first.andThen second).fails =
      (ids.any first.fails || (ids.filter first.keeps).any second.fails) := by
  rw [any_filter, Bool.eq_iff_iff]
  simp only [any_eq_true, Verdict.andThen, Bool.or_eq_true, Bool.and_eq_true]
  constructor
  · rintro ⟨id, hmem, h | h⟩
    · exact Or.inl ⟨id, hmem, h⟩
    · exact Or.inr ⟨id, hmem, h⟩
  · rintro (⟨id, hmem, h⟩ | ⟨id, hmem, h⟩)
    · exact ⟨id, hmem, Or.inl h⟩
    · exact ⟨id, hmem, Or.inr h⟩

/-- Narrowing stages judge every node on its own. -/
theorem runStages_leaves (hstages : ∀ stage ∈ stages, isNarrowing stage = true)
    (hwalk : walkStages stages walk = .ok (next, stages)) (hnode : walk.active.isNode = true) :
    ∃ verdict : Verdict, ∀ (config : Config) (nodeLimit : Option ℕ) (afterId : Option ℤ) (st : Stream),
      NodeStream idx walk.active st →
        verdict.Leaves st next.active (runStages idx config nodeLimit stages st afterId) := by
  induction stages generalizing walk with
  | nil =>
    cases hwalk
    refine ⟨⟨fun _ => false, fun _ => true⟩, ?_⟩
    intro _ _ _ _ hst
    unfold Verdict.Leaves
    rw [if_neg (by simp), runStages_nil (rejectAmbiguous_nil hst.keys)]
    simp [← hst.view]
  | cons stage _ ih =>
    obtain ⟨middle, _, _, hstage, hrest, hcons⟩ := walkStages_cons hwalk
    cases hcons
    have hnarrow := hstages stage mem_cons_self
    have hactive : middle.active = stage.viewAfter walk.active := (walkStage_moves hstage).active
    have hmiddle : middle.active.isNode = true := by
      rw [hactive]
      exact isNode_viewAfter hnarrow hnode
    obtain ⟨first, hfirst⟩ := @runStage_leaves idx stage hnarrow walk.active hnode
      (by rintro pred unknown rfl; exact valid_of_walkStage hstage)
    obtain ⟨second, hsecond⟩ := ih (fun other hmem => hstages other (mem_cons_of_mem _ hmem))
      hrest hmiddle
    refine ⟨first.andThen second, ?_⟩
    intro config nodeLimit afterId st hst
    have hone := hfirst config nodeLimit afterId st hst
    unfold Verdict.Leaves at hone ⊢
    rw [Verdict.any_andThen, runStages, rejectAmbiguous_nil hst.keys]
    by_cases hfails : st.ids.any first.fails = true
    · rw [if_pos hfails] at hone
      obtain ⟨e, he⟩ := hone
      rw [if_pos (by simp [hfails]), he]
      exact ⟨e, rfl⟩
    · rw [if_neg hfails] at hone
      let kept : Stream := { st with view := middle.active, ids := st.ids.filter first.keeps }
      have hkept : NodeStream idx middle.active kept :=
        ⟨rfl, hst.keys, hst.shape, hst.ids.sublist filter_sublist⟩
      have htwo := hsecond config nodeLimit (stage.cursorAfter afterId) kept hkept
      have hshape : kept.shape ≠ .scalar := by simp [hkept.shape]
      rw [← hactive] at hone
      simp only [hone, bind, Except.bind]
      rw [if_neg hshape]
      unfold Verdict.Leaves at htwo
      by_cases hlast : kept.ids.any second.fails = true
      · rw [if_pos hlast] at htwo
        rw [if_pos (by simp only [Bool.or_eq_true]; exact Or.inr hlast)]
        exact htwo
      · rw [if_neg hlast] at htwo
        rw [if_neg (by simp only [Bool.or_eq_true]; exact not_or_intro hfails hlast), htwo]
        simp [kept, Verdict.andThen, Bool.and_comm]

/-! ## Enumerations of the code base -/

def isChangeView : Stage → Bool
  | .changeView _ => true
  | _ => false

/-- Before the enumeration only the view changes. -/
theorem runStages_views (hstages : ∀ stage ∈ stages, isChangeView stage = true)
    {view : View} (nodeLimit : Option ℕ) (afterId : Option ℤ) :
    runStages idx config nodeLimit stages { view := view } afterId =
      .ok { view := stages.foldl viewAfter view } := by
  induction stages generalizing view with
  | nil => exact runStages_nil (rejectAmbiguous_nil rfl)
  | cons stage _ ih =>
    cases stage with
    | changeView level =>
      have hstage : runStage idx config nodeLimit (.changeView level) { view := view } afterId =
          .ok { view := level } := by
        show ok (changeView idx { view := view } level) = _
        unfold changeView
        split
        · rfl
        · simp [sortUnique]
      rw [runStages_cons (rejectAmbiguous_nil rfl) hstage (by simp)]
      exact ih fun other hmem => hstages other (mem_cons_of_mem _ hmem)
    | _ => cases hstages _ mem_cons_self

/-- The enumeration of nodes behind a cursor. -/
theorem runStage_nodes {view : View} (hnode : view.isNode = true)
    (nodeLimit : Option ℕ) (afterId : Option ℤ) :
    runStage idx config nodeLimit (.nodes pred unknown) { view := view } afterId =
      (enumeratedIds idx view pred unknown).map fun ids =>
        { view := view, ids := config.budgets.enumerate.cut (afterCursor afterId ids)
          truncated := config.budgets.enumerate.exceeded (afterCursor afterId ids).length } := by
  have hfast : enumerate idx config.budgets { view := view } pred unknown afterId nodeLimit =
      enumerateAll idx config.budgets { view := view } pred unknown afterId := by
    apply enumerate_of_not_hasFastPath _ rfl
    cases view with
    | symbol => rfl
    | entity => rfl
    | _ => cases hnode
  show (enumerate idx config.budgets { view := view } pred unknown afterId nodeLimit).map _ = _
  rw [hfast, enumerateAll]
  simp only [hnode, if_true]
  rw [enumerateNodes_eq]
  cases enumeratedIds idx view pred unknown with
  | error => rfl
  | ok => rfl

end Exec

end CppIndexer.Query
