/-
# Pushing a limit into an enumeration

`run_plan` hands the bound of the last `limit` stage to the enumeration at the head of the plan,
below every stage in between. This module says when that changes nothing.

A limit commutes with projection, with larger limits, and with stages that leave an enumeration as
it is. Behind a filter, a set operation or a change of order, the first rows of the result need
not come from the first rows of the enumeration.
-/

import CppIndexer.Query.Executor

namespace CppIndexer.Query

open SortUnique List Option Stream Except Budget

def Stream.setFlag (st : Stream) (flag : Bool) : Stream := { st with truncated := flag }

/-- Streams that differ at most in their flag. -/
def Stream.Same (st st' : Stream) : Prop := st.setFlag false = st'.setFlag false

/-- Executions with the same outcome up to the flag. -/
def SameUpToFlag (x y : Except PlanError Stream) : Prop :=
  x.map (·.setFlag false) = y.map (·.setFlag false)

def Config.noPush (config : Config) : Config := { config with pushDown := false }

/-- The rows a fast path of `enumerate` selects before it is cut. -/
def Index.pushed (idx : Index) (view : View) (pred : Option Pred) (afterId : Option ℤ) :
    Option (List LogicalKey) :=
  match view, Exec.intEquality pred with
  | .edge, some (field, value) =>
    if field ∈ ["edge_id", "src_id", "dst_id"] then
      some (((Exec.edgesWith idx field value).filter fun edge =>
        afterId.all fun id => id < edge.id).map fun edge => { a := edge.id })
    else none
  | .site, some (field, value) =>
    if field = "edge_id" ∧ afterId = none then some (Exec.sitesOf idx value) else none
  | _, _ => none

/-- The budget of a fast path that no limit takes over. -/
def Budgets.ofFastPath (budgets : Budgets) (view : View) : Budget :=
  if view = .edge then budgets.enumerate else budgets.traverseNode

/-- The order of the rows that a fast path selects. -/
def inKeyOrder (view : View) (fields : List String) : Bool :=
  match view with
  | .edge => fields.head? = some "edge_id"
  | .site => fields.isPrefixOf ["file_id", "line", "col"]
  | _ => false

/-- A limit of `n` may be taken before the stages: up to the first limit of at most `n` rows they
only project, take more rows, or repeat the order and distinctness of an enumeration. -/
def commutesWithLimit (n : ℕ) (view : View) : Shape → List Stage → Bool
  | shape, .limit k :: rest =>
    k.toNat ≤ n || commutesWithLimit n view shape rest
  | .nodes, .select _ :: rest => commutesWithLimit n view .rows rest
  | .nodes, .distinct :: rest => commutesWithLimit n view .nodes rest
  | .nodes, .orderBy fields :: rest =>
    inKeyOrder view fields && commutesWithLimit n view .nodes rest
  | _, _ => false

/-- A push-down of the limit into an enumeration that changes nothing but the flag: there is
none, or no more rows are selected than it allows, or it commutes with the stages that follow. -/
def HarmlessPush (idx : Index) (limit : Option ℕ) (view : View) (pred : Option Pred)
    (afterId : Option ℤ) (rest : List Stage) : Prop :=
  ∀ n keys, limit = some n → idx.pushed view pred afterId = some keys → keys.length ≤ n ∨
    commutesWithLimit n view .nodes rest ∧ ∀ key ∈ keys, view = .site → idx.ambiguousFile key.b = false

namespace Exec

variable {idx : Index} {config : Config}

/-! ## The flag -/

/-- The stages that neither enumerate nor follow relations. -/
def isPlain : Stage → Bool
  | .changeView _ | .where_ .. | .select _ | .count | .distinct | .orderBy _ | .limit _ => true
  | _ => false

variable {budgets : Budgets} {stage : Stage} {s t : Stream}

theorem filter_setFlag (st : Stream) (flag : Bool) (pred : Pred)
    (unknown : UnknownPolicy) : filter idx budgets (st.setFlag flag) pred unknown =
      (filter idx budgets st pred unknown).map (·.setFlag flag) := by
  unfold filter setFlag
  split
  · cases filterNodes idx.glob idx.db st.view pred unknown st.ids with
    | error => rfl
    | ok => rfl
  · rfl

theorem materialize_setFlag (st : Stream) (flag : Bool)
    (fields : List String) : materialize idx budgets (st.setFlag flag) fields =
      (materialize idx budgets st fields).map (·.setFlag flag) := by
  unfold materialize
  rw [show rejectAmbiguous idx (st.setFlag flag) = rejectAmbiguous idx st from rfl]
  cases rejectAmbiguous idx st with
  | error => rfl
  | ok =>
    simp only [bind, Except.bind]
    unfold setFlag
    split
    · rfl
    · cases idx.symbolCells st.ids fields with
      | error => rfl
      | ok => rfl

theorem applyOrder_setFlag (st : Stream) (flag : Bool)
    (fields : List String) : applyOrder idx budgets (st.setFlag flag) fields =
      (applyOrder idx budgets st fields).map (·.setFlag flag) := by
  unfold applyOrder
  rw [show typedCells idx budgets (st.setFlag flag) fields = typedCells idx budgets st fields from
    rfl]
  unfold setFlag
  split
  · split
    · cases orderNodes (typedCells idx budgets st fields) st.keys with
      | error => rfl
      | ok => rfl
    · cases idx.symbolCells st.ids fields with
      | error => rfl
      | ok cells =>
        simp only [bind, Except.bind]
        cases orderNodes cells st.ids with
        | error => rfl
        | ok => rfl
  · rfl

theorem applyDistinct_setFlag (st : Stream) (flag : Bool) :
    applyDistinct (st.setFlag flag) = (applyDistinct st).setFlag flag := by
  unfold applyDistinct setFlag
  dsimp only
  split
  · rfl
  · split <;> rfl
  · rfl

theorem applyLimit_setFlag (st : Stream) (flag : Bool) (n : ℤ) :
    applyLimit (st.setFlag flag) n = (applyLimit st n).setFlag flag := by
  unfold applyLimit setFlag
  dsimp only
  split
  · rfl
  · split <;> rfl
  · rfl

theorem changeView_setFlag (st : Stream) (flag : Bool) (level : View) :
    changeView idx (st.setFlag flag) level = (changeView idx st level).setFlag flag := by
  unfold changeView setFlag
  split
  · rfl
  · split <;> rfl

theorem plainStage_setFlag (hplain : isPlain stage = true)
    (nodeLimit nodeLimit' : Option ℕ) (st : Stream) (flag : Bool) (afterId : Option ℤ) :
    plainStage idx config nodeLimit stage (st.setFlag flag) afterId =
      (plainStage idx config nodeLimit' stage st afterId).map (·.setFlag flag) := by
  cases stage with
  | changeView level => exact congrArg ok (changeView_setFlag st flag level)
  | where_ pred unknown => exact filter_setFlag st flag pred unknown
  | select fields =>
    show (materialize idx config.budgets (st.setFlag flag) fields).map _ =
      ((materialize idx config.budgets st fields).map _).map _
    rw [materialize_setFlag]
    cases materialize idx config.budgets st fields with
    | error => rfl
    | ok => rfl
  | count => rfl
  | distinct => exact congrArg ok (applyDistinct_setFlag st flag)
  | orderBy fields => exact applyOrder_setFlag st flag fields
  | limit n => exact congrArg ok (applyLimit_setFlag st flag n)
  | _ => cases hplain

theorem SameUpToFlag.of_same (h : s.Same t) : SameUpToFlag (.ok s) (.ok t) :=
  congrArg ok h

/-- Equal outcomes are equal errors or streams that differ in their flag. -/
theorem SameUpToFlag.cases {x y : Except PlanError Stream} (h : SameUpToFlag x y) :
    (∃ e, x = .error e ∧ y = .error e) ∨ ∃ s t, x = .ok s ∧ y = .ok t ∧ s.Same t := by
  cases x with
  | error e =>
    cases y with
    | error =>
      cases h
      exact Or.inl ⟨e, rfl, rfl⟩
    | ok => cases h
  | ok s =>
    cases y with
    | error => cases h
    | ok t => exact Or.inr ⟨s, t, rfl, rfl, ok.inj h⟩

theorem Same.rejectAmbiguous_eq (h : s.Same t) : rejectAmbiguous idx s = rejectAmbiguous idx t :=
  show rejectAmbiguous idx (s.setFlag false) = rejectAmbiguous idx (t.setFlag false) by rw [h]

theorem Same.shape_eq (h : s.Same t) : s.shape = t.shape :=
  show (s.setFlag false).shape = (t.setFlag false).shape by rw [h]

theorem plainStage_same (hplain : isPlain stage = true)
    (h : s.Same t) (nodeLimit nodeLimit' : Option ℕ) (afterId : Option ℤ) :
    SameUpToFlag (plainStage idx config nodeLimit stage s afterId)
      (plainStage idx config.noPush nodeLimit' stage t afterId) := by
  have hs := @plainStage_setFlag idx config stage hplain nodeLimit nodeLimit s false afterId
  have ht := @plainStage_setFlag idx config stage hplain nodeLimit nodeLimit' t false afterId
  rw [SameUpToFlag, ← hs, h]
  exact ht

theorem setOpStage_setFlag (op : SetOp) (st sub : Stream) :
    (setOpStage config op (st.setFlag false) (sub.setFlag false)).setFlag false =
      (setOpStage config op st sub).setFlag false := by
  unfold setOpStage setOp withKeys setFlag
  cases op with
  | union | intersect | except => cases hnode : st.view.isNode <;> simp [hnode]

theorem setOpStage_same (op : SetOp) {sub sub' : Stream} (h : s.Same t) (hsub : sub.Same sub') :
    (setOpStage config op s sub).Same (setOpStage config.noPush op t sub') := by
  have hleft := @setOpStage_setFlag config op s sub
  have hright := @setOpStage_setFlag config op t sub'
  rw [h, hsub] at hleft
  exact hleft.symm.trans hright

/-- The stages the push-down passes over: plain ones, and set operations whose operands run the
same. -/
def Passes (idx : Index) (config : Config) (stage : Stage) : Prop :=
  isPlain stage = true ∨ ∃ op operand, stage = .setOp op operand ∧
    SameUpToFlag (runPlan idx config operand none) (runPlan idx config.noPush operand none)

theorem runStage_same (hstage : Passes idx config stage)
    (h : s.Same t) (nodeLimit nodeLimit' : Option ℕ) (afterId : Option ℤ) :
    SameUpToFlag (runStage idx config nodeLimit stage s afterId)
      (runStage idx config.noPush nodeLimit' stage t afterId) := by
  obtain hplain | ⟨op, operand, rfl, hoperand⟩ := hstage
  · have hrun : ∀ (config : Config) nodeLimit st, runStage idx config nodeLimit stage st afterId =
        plainStage idx config nodeLimit stage st afterId := by
      intro _ _ _
      cases stage with
      | setOp => cases hplain
      | path => cases hplain
      | _ => rfl
    rw [hrun, hrun]
    exact plainStage_same hplain h nodeLimit nodeLimit' afterId
  · have hrun : ∀ (config : Config) nodeLimit st,
        runStage idx config nodeLimit (.setOp op operand) st afterId =
          (runPlan idx config operand none).map (setOpStage config op st) := by
      intro config _ st
      show (runPlan idx config operand none >>= fun sub => pure (setOpStage config op st sub)) = _
      cases runPlan idx config operand none with
      | error => rfl
      | ok => rfl
    rw [hrun, hrun]
    obtain ⟨_, hleft, hright⟩ | ⟨_, _, hleft, hright, hsub⟩ := SameUpToFlag.cases hoperand
    · rw [hleft, hright]
      rfl
    · rw [hleft, hright]
      exact SameUpToFlag.of_same (setOpStage_same op h hsub)

variable {stages : List Stage}

/-- Stages that pass give the same outcome from streams that differ in their flag. -/
theorem runStages_same (hstages : ∀ stage ∈ stages, Passes idx config stage)
    (h : s.Same t) (nodeLimit nodeLimit' : Option ℕ) (afterId : Option ℤ) :
    SameUpToFlag (runStages idx config nodeLimit stages s afterId)
      (runStages idx config.noPush nodeLimit' stages t afterId) := by
  induction stages generalizing s t afterId with
  | nil =>
    rw [runStages, runStages, Same.rejectAmbiguous_eq h]
    cases rejectAmbiguous idx t with
    | error => rfl
    | ok => exact SameUpToFlag.of_same h
  | cons stage _ ih =>
    have hstage := runStage_same (hstages stage mem_cons_self) h nodeLimit nodeLimit' afterId
    rw [runStages, runStages, Same.rejectAmbiguous_eq h]
    cases rejectAmbiguous idx t with
    | error => rfl
    | ok _ =>
      simp only [bind, Except.bind]
      obtain ⟨_, hleft, hright⟩ | ⟨_, out', hleft, hright, hout⟩ := SameUpToFlag.cases hstage
      · rw [hleft, hright]
        rfl
      · rw [hleft, hright]
        dsimp only
        rw [Same.shape_eq hout, Same.rejectAmbiguous_eq hout]
        split
        · cases rejectAmbiguous idx out' with
          | error => rfl
          | ok => exact SameUpToFlag.of_same hout
        · exact ih (fun stage hmem => hstages stage (mem_cons_of_mem _ hmem)) hout _

/-! ## Enumerated rows -/

/-- Rows as a fast path selects them: existing edges by id, or sites of one edge in file order. -/
inductive Enumerated (idx : Index) : View → List LogicalKey → Prop
  | edges {keys : List LogicalKey} (hsorted : keys.Pairwise (· < ·))
      (hrows : ∀ key ∈ keys, ∃ edge ∈ idx.db.edges, key = { a := edge.id }) :
      Enumerated idx .edge keys
  | sites {keys : List LogicalKey} {edgeId : ℤ} (hsorted : keys.Pairwise (· < ·))
      (hrows : ∀ key ∈ keys, ∃ site ∈ idx.db.sites, site.edgeId = edgeId ∧ key = site.key) :
      Enumerated idx .site keys

namespace Enumerated

variable {view : View} {keys : List LogicalKey}

section

variable (h : Enumerated idx view keys)
include h

theorem sorted : keys.Pairwise (· < ·) := by
  cases h with
  | edges hsorted => exact hsorted
  | sites hsorted => exact hsorted

theorem sublist {part : List LogicalKey} (hpart : part.Sublist keys) :
    Enumerated idx view part := by
  cases h with
  | edges hsorted hrows =>
    exact .edges (hsorted.sublist hpart) fun key hmem => hrows key (hpart.subset hmem)
  | sites hsorted hrows =>
    exact .sites (hsorted.sublist hpart) fun key hmem => hrows key (hpart.subset hmem)

theorem isTyped : view.isNode = false := by
  cases h with
  | edges => rfl
  | sites => rfl

/-- Enumerated rows exist. -/
theorem cells_isSome {graph : GraphReads} {fields : List String}
    {key : LogicalKey} (hkey : key ∈ keys) : (idx.typedCells graph view key fields).isSome := by
  cases h with
  | edges _ hrows =>
    obtain ⟨_, hedge, rfl⟩ := hrows key hkey
    simp [idx.typedCells_edge hedge]
  | sites _ hrows =>
    obtain ⟨_, hsite, _, rfl⟩ := hrows key hkey
    simp [idx.typedCells_site hsite]

end

end Enumerated

theorem cellEq_int (p q : ℤ) : cellEq (some (.int p)) (some (.int q)) = decide (p = q) := by
  simp only [cellEq, cellLess]
  by_cases h : p = q
  · simp [h]
  · simp only [h, decide_false, Bool.and_eq_false_iff, Bool.not_eq_false', decide_eq_true_eq]
    exact lt_or_gt_of_ne h

theorem cellsLess_int (p q : ℤ) (ps qs : List Cell) :
    cellsLess (some (.int p) :: ps) (some (.int q) :: qs) =
      if p = q then cellsLess ps qs else some (decide (p < q)) := by
  simp only [cellsLess, cellEq_int, decide_eq_true_eq]
  rfl

variable {keys : List LogicalKey} {fields : List String} {view : View}

/-- Cells in key order do not go down along enumerated rows. -/
theorem cellsLess_of_inKeyOrder
    (h : Enumerated idx view keys) (hfields : inKeyOrder view fields = true) {graph : GraphReads}
    {x y : LogicalKey} {xs ys : List Cell} (hx : x ∈ keys) (hy : y ∈ keys) (hlt : x < y)
    (hxs : idx.typedCells graph view x fields = some xs)
    (hys : idx.typedCells graph view y fields = some ys) :
    (cellsLess ys xs).getD (y < x) = false := by
  cases h with
  | edges _ hrows =>
    obtain ⟨edge, hedge, rfl⟩ := hrows x hx
    obtain ⟨edge', hedge', rfl⟩ := hrows y hy
    rw [idx.typedCells_edge hedge] at hxs
    rw [idx.typedCells_edge hedge'] at hys
    cases hxs
    cases hys
    have hid : edge.id < edge'.id := LogicalKey.ofId_lt_ofId.mp hlt
    cases fields with
    | nil => cases hfields
    | cons field =>
      have hfield : field = "edge_id" := by simpa [inKeyOrder] using hfields
      rw [hfield]
      simp [cellsLess, Index.edgeCell, cellEq_int, hid.ne', cellLess, hid.le]
  | sites _ hrows =>
    obtain ⟨site, hsite, hedge, rfl⟩ := hrows x hx
    obtain ⟨site', hsite', hedge', rfl⟩ := hrows y hy
    rw [idx.typedCells_site hsite] at hxs
    rw [idx.typedCells_site hsite'] at hys
    cases hxs
    cases hys
    have hnot : ¬ site'.key < site.key := hlt.asymm
    rw [SiteRow.key_lt_key (hedge.trans hedge'.symm)] at hlt
    have hcell : ∀ (row : SiteRow), idx.siteCell .site row "file_id" = some (.int row.fileId) ∧
        idx.siteCell .site row "line" = some (.int row.line) ∧
        idx.siteCell .site row "col" = some (.int row.col) := fun row => ⟨rfl, rfl, rfl⟩
    match fields, hfields with
    | [], _ => simpa [cellsLess] using hnot
    | [_], hprefix =>
      obtain rfl : _ = "file_id" := by simpa [inKeyOrder] using hprefix
      simp only [List.map, hcell, cellsLess_int]
      split_ifs
      · simpa [cellsLess] using hnot
      · simp only [getD_some, decide_eq_false_iff_not]
        omega
    | [_, _], hprefix =>
      obtain ⟨rfl, rfl⟩ : _ = "file_id" ∧ _ = "line" := by simpa [inKeyOrder] using hprefix
      simp only [List.map, hcell, cellsLess_int]
      split_ifs
      · simpa [cellsLess] using hnot
      all_goals
        simp only [getD_some, decide_eq_false_iff_not]
        omega
    | [_, _, _], hprefix =>
      obtain ⟨rfl, rfl, rfl⟩ : _ = "file_id" ∧ _ = "line" ∧ _ = "col" := by
        simpa [inKeyOrder] using hprefix
      simp only [List.map, hcell, cellsLess_int]
      split_ifs
      · simpa [cellsLess] using hnot
      all_goals
        simp only [getD_some, decide_eq_false_iff_not]
        omega
    | _ :: _ :: _ :: _ :: _, hprefix => simp [inKeyOrder] at hprefix

/-- An enumeration in key order is left as it is. -/
theorem orderNodes_of_inKeyOrder
    (h : Enumerated idx view keys) (hfields : inKeyOrder view fields = true) (graph : GraphReads) :
    orderNodes (fun key => idx.typedCells graph view key fields) keys = .ok keys := by
  let cellsOf (key : LogicalKey) : List Cell := (idx.typedCells graph view key fields).getD []
  have hcells : ∀ key ∈ keys, idx.typedCells graph view key fields = some (cellsOf key) := by
    intro key hkey
    have hsome : (idx.typedCells graph view key fields).isSome := h.cells_isSome hkey
    obtain ⟨_, hcells⟩ := isSome_iff_exists.mp hsome
    simp [cellsOf, hcells]
  have hrows : keys.mapM (fun key => (idx.typedCells graph view key fields).map
      fun cells => (cells, key)) = some (keys.map fun key => (cellsOf key, key)) := by
    apply mapM_eq_some_map
    intro key hkey
    rw [hcells key hkey]
    rfl
  have hsorted : sortByCells Prod.fst Prod.snd (keys.map fun key => (cellsOf key, key)) =
      keys.map fun key => (cellsOf key, key) := by
    apply mergeSort_of_pairwise
    rw [pairwise_map]
    apply h.sorted.imp_of_mem
    intro x y hx hy hlt
    rw [cellsLess_of_inKeyOrder h hfields hx hy hlt (hcells x hx) (hcells y hy)]
    rfl
  unfold orderNodes
  rw [hrows]
  dsimp only
  rw [hsorted, List.map_map]
  simp [Function.comp_def]

/-! ## The first rows of a stream -/

/-- The first stream holds the first `n` of what the second one holds: enumerated keys, or the rows
made from them. -/
inductive FirstOf (idx : Index) (n : ℕ) (view : View) : Shape → Stream → Stream → Prop
  | nodes {t : Stream} {flag : Bool} (hview : t.view = view) (hshape : t.shape = .nodes)
      (hids : t.ids = []) (hkeys : Enumerated idx view t.keys)
      (hfiles : ∀ key ∈ t.keys, view = .site → idx.ambiguousFile key.b = false) :
      FirstOf idx n view .nodes { t with keys := t.keys.take n, truncated := flag } t
  | rows {t : Stream} {flag : Bool} (hshape : t.shape = .rows) (hkeys : t.keys = []) :
      FirstOf idx n view .rows { t with rows := t.rows.take n, truncated := flag } t

section NodeStream

variable {view : View} {st : Stream}

theorem rejectAmbiguous_enumerated (hview : st.view = view) (hkeys : Enumerated idx view st.keys)
    (hfiles : ∀ key ∈ st.keys, view = .site → idx.ambiguousFile key.b = false) :
    rejectAmbiguous idx st = .ok () := by
  cases hkeys with
  | edges => simp [rejectAmbiguous, hview]
  | sites => exact rejectAmbiguous_ok fun key hkey => hfiles key hkey rfl

theorem applyLimit_nodes (hshape : st.shape = .nodes) (hids : st.ids = []) (k : ℤ) :
    applyLimit st k = { st with limitInEffect := true, keys := st.keys.take k.toNat } := by
  unfold applyLimit
  simp only [hshape]
  split
  · rfl
  · rename_i hempty
    simp only [ne_eq, not_not] at hempty
    simp [hempty, hids]

theorem applyDistinct_nodes (hshape : st.shape = .nodes) (hids : st.ids = [])
    (hkeys : Enumerated idx view st.keys) : applyDistinct st = st := by
  have hempty : sortUnique st.ids = st.ids := by
    rw [hids]
    exact sortUnique_of_pairwise List.Pairwise.nil
  have hsorted := sortUnique_of_pairwise hkeys.sorted
  cases st
  subst hshape
  unfold applyDistinct
  dsimp only at hempty hsorted ⊢
  rw [hsorted, hempty]
  split <;> rfl

theorem applyOrder_nodes {fields : List String} (hview : st.view = view)
    (hshape : st.shape = .nodes) (hne : st.keys ≠ []) (hkeys : Enumerated idx view st.keys)
    (hfields : inKeyOrder view fields = true) :
    applyOrder idx config.budgets st fields = .ok st := by
  have horder : orderNodes (typedCells idx config.budgets st fields) st.keys = .ok st.keys := by
    have h := orderNodes_of_inKeyOrder hkeys hfields (idx.graph config.budgets)
    rw [← hview] at h
    exact h
  unfold applyOrder
  rw [if_pos hshape, if_pos hne, horder]
  rfl

theorem materialize_typed {fields : List String} (hview : st.view = view)
    (hkeys : Enumerated idx view st.keys)
    (hfiles : ∀ key ∈ st.keys, view = .site → idx.ambiguousFile key.b = false) :
    materialize idx config.budgets st fields = .ok { st with
      fields := fields, keys := [], rows := st.keys.filterMap fun key =>
        (idx.typedCells (idx.graph config.budgets) view key fields).map fun cells =>
          (cells, idx.rowId view key) } := by
  have htyped : st.keys ≠ [] ∨ (!st.view.isNode) = true := Or.inr (by rw [hview, hkeys.isTyped]; rfl)
  unfold materialize
  rw [rejectAmbiguous_enumerated hview hkeys hfiles]
  simp only [bind, Except.bind, htyped, if_true]
  rw [← hview]
  rfl

end NodeStream

variable {rest : List Stage} {shape : Shape} {st t s : Stream} {α : Type} {view : View} {n : ℕ}

theorem filterMap_take_of_isSome {β : Type} {f : α → Option β} {xs : List α}
    (h : ∀ x ∈ xs, (f x).isSome) (n : ℕ) : (xs.take n).filterMap f = (xs.filterMap f).take n := by
  induction xs generalizing n with
  | nil => simp
  | cons x _ ih =>
    obtain ⟨_, hy⟩ := isSome_iff_exists.mp (h x mem_cons_self)
    cases n with
    | zero => simp
    | succ =>
      rw [take_succ_cons, filterMap_cons_some hy, filterMap_cons_some hy,
        take_succ_cons, ih fun z hz => h z (mem_cons_of_mem _ hz)]

/-- One stage on either side. -/
theorem runStages_cons_same {stage : Stage} {out out' : Stream}
    {nodeLimit nodeLimit' : Option ℕ} {afterId : Option ℤ}
    (hs : rejectAmbiguous idx s = .ok ()) (ht : rejectAmbiguous idx t = .ok ())
    (hout : runStage idx config nodeLimit stage s afterId = .ok out)
    (hout' : runStage idx config.noPush nodeLimit' stage t afterId = .ok out')
    (hshape : out.shape ≠ .scalar) (hshape' : out'.shape ≠ .scalar)
    (h : SameUpToFlag (runStages idx config nodeLimit rest out (stage.cursorAfter afterId))
      (runStages idx config.noPush nodeLimit' rest out' (stage.cursorAfter afterId))) :
    SameUpToFlag (runStages idx config nodeLimit (stage :: rest) s afterId)
      (runStages idx config.noPush nodeLimit' (stage :: rest) t afterId) := by
  rw [runStages_cons hs hout hshape, runStages_cons ht hout' hshape']
  exact h

/-- Streams without keys have none in an ambiguous file. -/
theorem rejectAmbiguous_nil (hkeys : st.keys = []) : rejectAmbiguous idx st = .ok () :=
  rejectAmbiguous_ok fun key hmem => by simp [hkeys] at hmem

theorem applyLimit_rows (hshape : st.shape = .rows) (k : ℤ) :
    applyLimit st k = { st with limitInEffect := true, rows := st.rows.take k.toNat } := by
  unfold applyLimit
  simp [hshape]

/-- A limit of `k` rows of the first `n`, and of all rows: the same, or again the first `n`. -/
theorem take_take_cases (xs : List α) (n k : ℕ) : k ≤ n ∧ (xs.take n).take k = xs.take k ∨
      n < k ∧ (xs.take n).take k = (xs.take k).take n := by
  rw [take_take, take_take]
  rcases le_or_gt k n with h | h
  · exact Or.inl ⟨h, by rw [min_eq_left h]⟩
  · exact Or.inr ⟨h, by rw [min_comm]⟩

theorem commutesWithLimit_of_lt {k : ℤ}
    (hlt : n < k.toNat) (h : commutesWithLimit n view shape (.limit k :: rest) = true) :
    commutesWithLimit n view shape rest = true := by
  simp only [commutesWithLimit, Bool.or_eq_true, decide_eq_true_eq] at h
  exact h.resolve_left (not_le.mpr hlt)

attribute [local simp] commutesWithLimit

/-- Up to the first limit that is as small, the stages keep the first rows first. From there on
the streams differ in their flag only. -/
theorem runStages_first (hn : 0 < n) (hstages : ∀ stage ∈ stages, Passes idx config stage)
    (hcommutes : commutesWithLimit n view shape stages = true)
    (h : FirstOf idx n view shape s t) (nodeLimit nodeLimit' : Option ℕ) (afterId : Option ℤ) :
    SameUpToFlag (runStages idx config nodeLimit stages s afterId)
      (runStages idx config.noPush nodeLimit' stages t afterId) := by
  induction stages generalizing shape s t afterId with
  | nil => simp at hcommutes
  | cons stage rest ih =>
    have hrest : ∀ stage ∈ rest, Passes idx config stage :=
      fun stage hmem => hstages stage (mem_cons_of_mem _ hmem)
    cases h with
    | @nodes _ flag hview hshape hids hkeys hfiles =>
      have hfirst : Enumerated idx view (t.keys.take n) := hkeys.sublist (take_sublist n _)
      have hfirstFiles : ∀ key ∈ t.keys.take n, view = .site → idx.ambiguousFile key.b = false :=
        fun key hmem => hfiles key (mem_of_mem_take hmem)
      let first : Stream := { t with keys := t.keys.take n, truncated := flag }
      have hs : rejectAmbiguous idx first = .ok () :=
        rejectAmbiguous_enumerated hview hfirst hfirstFiles
      have ht : rejectAmbiguous idx t = .ok () := rejectAmbiguous_enumerated hview hkeys hfiles
      have hnodes : first.shape ≠ .scalar := by simp [first, hshape]
      have hnodes' : t.shape ≠ .scalar := by simp [hshape]
      cases stage with
      | limit k =>
        let out : Stream :=
          { first with limitInEffect := true, keys := first.keys.take k.toNat }
        let out' : Stream := { t with limitInEffect := true, keys := t.keys.take k.toNat }
        have hout : runStage idx config nodeLimit (.limit k) first afterId = .ok out :=
          congrArg ok (@applyLimit_nodes first hshape hids k)
        have hout' : runStage idx config.noPush nodeLimit' (.limit k) t afterId = .ok out' :=
          congrArg ok (applyLimit_nodes hshape hids k)
        refine runStages_cons_same hs ht hout hout' hnodes hnodes' ?_
        obtain ⟨_, htake⟩ | ⟨hlt, htake⟩ := take_take_cases t.keys n k.toNat
        · have hsame : out.Same out' := by
            simp [out, out', first, Stream.Same, setFlag, htake]
          exact runStages_same hrest hsame nodeLimit nodeLimit' _
        · have hfirstOf : FirstOf idx n view .nodes out out' := by
            have hout : out = { out' with keys := out'.keys.take n, truncated := flag } := by
              simp [out, out', first, htake]
            rw [hout]
            exact .nodes hview hshape hids (hkeys.sublist (take_sublist _ _))
              fun key hmem => hfiles key (mem_of_mem_take hmem)
          exact ih hrest (commutesWithLimit_of_lt hlt hcommutes) hfirstOf _
      | select fields =>
        have hout := @materialize_typed idx config view first fields hview hfirst hfirstFiles
        have hout' := @materialize_typed idx config view t fields hview hkeys hfiles
        have hcells : ∀ key ∈ t.keys, ((idx.typedCells (idx.graph config.budgets) view key
            fields).map fun cells => (cells, idx.rowId view key)).isSome := by
          intro _ hmem
          rw [isSome_map]
          exact hkeys.cells_isSome hmem
        let toRows (st : Stream) : Stream := { st with shape := .rows }
        have hstep : runStage idx config nodeLimit (.select fields) first afterId =
            (ok _).map toRows := congrArg (Except.map toRows) hout
        have hstep' : runStage idx config.noPush nodeLimit' (.select fields) t afterId =
            (ok _).map toRows := congrArg (Except.map toRows) hout'
        refine runStages_cons_same hs ht hstep hstep' (by simp) (by simp) ?_
        refine ih hrest hcommutes ?_ _
        rw [filterMap_take_of_isSome hcells]
        let made : Stream := { t with
          shape := .rows, fields := fields, keys := [], rows := t.keys.filterMap fun key =>
            (idx.typedCells (idx.graph config.budgets) view key fields).map fun cells =>
              (cells, idx.rowId view key) }
        exact @FirstOf.rows idx n view made flag rfl rfl
      | distinct =>
        have hout : runStage idx config nodeLimit .distinct first afterId = .ok first :=
          congrArg ok (@applyDistinct_nodes idx view first hshape hids hfirst)
        have hout' : runStage idx config.noPush nodeLimit' .distinct t afterId = .ok t :=
          congrArg ok (applyDistinct_nodes hshape hids hkeys)
        refine runStages_cons_same hs ht hout hout' hnodes hnodes' ?_
        exact ih hrest hcommutes (.nodes hview hshape hids hkeys hfiles) _
      | orderBy fields =>
        by_cases hempty : t.keys = []
        · have hsame : first.Same t := by
            cases t
            simp_all [first, Stream.Same, setFlag]
          exact runStages_same hstages hsame nodeLimit nodeLimit' afterId
        · have hsome : first.keys ≠ [] := by
            simp only [first, ne_eq, take_eq_nil_iff, not_or]
            exact ⟨hn.ne', hempty⟩
          simp only [commutesWithLimit, Bool.and_eq_true] at hcommutes
          have hout : runStage idx config nodeLimit (.orderBy fields) first afterId =
              .ok first :=
            @applyOrder_nodes idx config view first fields hview hshape hsome hfirst
              hcommutes.1
          have hout' : runStage idx config.noPush nodeLimit' (.orderBy fields) t afterId =
              .ok t :=
            @applyOrder_nodes idx config view t fields hview hshape hempty hkeys hcommutes.1
          refine runStages_cons_same hs ht hout hout' hnodes hnodes' ?_
          exact ih hrest hcommutes.2 (.nodes hview hshape hids hkeys hfiles) _
      | _ => simp at hcommutes
    | @rows _ flag hshape hkeys =>
      let first : Stream := { t with rows := t.rows.take n, truncated := flag }
      cases stage with
      | limit k =>
        let out : Stream :=
          { first with limitInEffect := true, rows := first.rows.take k.toNat }
        let out' : Stream := { t with limitInEffect := true, rows := t.rows.take k.toNat }
        have hout : runStage idx config nodeLimit (.limit k) first afterId = .ok out :=
          congrArg ok (@applyLimit_rows first hshape k)
        have hout' : runStage idx config.noPush nodeLimit' (.limit k) t afterId = .ok out' :=
          congrArg ok (applyLimit_rows hshape k)
        refine runStages_cons_same (rejectAmbiguous_nil hkeys) (rejectAmbiguous_nil hkeys)
          hout hout' (by simp [out, first, hshape]) (by simp [out', hshape]) ?_
        obtain ⟨_, htake⟩ | ⟨hlt, htake⟩ := take_take_cases t.rows n k.toNat
        · have hsame : out.Same out' := by
            simp [out, out', first, Stream.Same, setFlag, htake]
          exact runStages_same hrest hsame nodeLimit nodeLimit' _
        · have hfirstOf : FirstOf idx n view .rows out out' := by
            have hout : out = { out' with rows := out'.rows.take n, truncated := flag } := by
              simp [out, out', first, htake]
            rw [hout]
            exact .rows hshape hkeys
          exact ih hrest (commutesWithLimit_of_lt hlt hcommutes) hfirstOf _
      | _ => simp at hcommutes

/-! ## Plans -/

/-- An enumeration that a fast path may answer. -/
def hasFastPath (view : View) (pred : Option Pred) : Bool :=
  match view, intEquality pred with
  | .edge, some (field, _) => field ∈ ["edge_id", "src_id", "dst_id"]
  | .site, some (field, _) => field = "edge_id"
  | _, _ => false

end Exec

mutual

/-- A plan that pushes no limit down, and neither do its operands. -/
def Plan.pushless : Plan → Bool
  | .mk source stages => stagesPushless (typedNodeLimit stages) source.view stages

def stagesPushless (limit : Option ℕ) : View → List Stage → Bool
  | _, [] => true
  | view, stage :: rest =>
    stagePushless limit view stage && stagesPushless limit (stage.viewAfter view) rest

def stagePushless (limit : Option ℕ) (view : View) : Stage → Bool
  | .nodes pred _ => limit.isNone || !Exec.hasFastPath view pred
  | .setOp _ operand => operand.pushless
  | .path operand .. => operand.pushless
  | _ => true

end

/-- No fast path selects more rows than its own budget. -/
def Index.WithinFastPaths (idx : Index) (budgets : Budgets) : Prop :=
  ∀ view pred afterId keys, idx.pushed view pred afterId = some keys →
    (budgets.ofFastPath view).exceeded keys.length = false

/-- Plans in which every push-down is harmless: those without any, and enumerations of the edge or
site view whose push-down changes nothing, with operands of the same kind. -/
inductive PushesHarmlessly (idx : Index) : Plan → Option ℤ → Prop
  | pushless {plan : Plan} {afterId : Option ℤ} (h : plan.pushless = true) :
      PushesHarmlessly idx plan afterId
  | enumeration {source : Source} {view : View} {pred : Option Pred} {unknown : UnknownPolicy}
      {rest : List Stage} {afterId : Option ℤ} (hview : view = .edge ∨ view = .site)
      (hpush : HarmlessPush idx
        (typedNodeLimit (.changeView view :: .nodes pred unknown :: rest)) view pred afterId rest)
      (hrest : ∀ stage ∈ rest, Exec.isPlain stage = true ∨ ∃ op operand, stage = .setOp op operand)
      (hoperands : ∀ op operand, .setOp op operand ∈ rest → PushesHarmlessly idx operand none) :
      PushesHarmlessly idx (.mk source (.changeView view :: .nodes pred unknown :: rest)) afterId

/-- What a result says, without the flag. -/
def Result.answer (result : Result) : Result := { result with truncated := false }

namespace Exec

variable {idx : Index} {config : Config}

theorem nodeLimit_noPush (stages : List Stage) : config.noPush.nodeLimit stages = none := rfl

variable {budgets : Budgets}

/-- Without a fast path the limit is not read. -/
theorem enumerate_of_not_hasFastPath {view : View} {pred : Option Pred}
    (h : hasFastPath view pred = false) {st : Stream} (hview : st.view = view)
    (unknown : UnknownPolicy) (afterId : Option ℤ) (nodeLimit : Option ℕ) :
    enumerate idx budgets st pred unknown afterId nodeLimit =
      enumerateAll idx budgets st pred unknown afterId := by
  subst hview
  unfold enumerate
  split
  · rename_i field value hview heq
    rw [if_neg]
    intro hfield
    simp [hasFastPath, hview, heq, hfield, decide_true] at h
  · rename_i field value hview heq
    rw [if_neg]
    rintro ⟨hfield, -⟩
    simp [hasFastPath, hview, heq, hfield, decide_true] at h
  · rfl

variable {stages : List Stage}

theorem plainStage_pushless {stage : Stage} {st : Stream}
    (h : stagePushless (typedNodeLimit stages) st.view stage = true) (afterId : Option ℤ) :
    plainStage idx config (config.nodeLimit stages) stage st afterId =
      plainStage idx config.noPush none stage st afterId := by
  cases stage with
  | nodes pred unknown =>
    have henumerate : enumerate idx config.budgets st pred unknown afterId
        (config.nodeLimit stages) = enumerate idx config.budgets st pred unknown afterId none := by
      simp only [stagePushless, Bool.or_eq_true, Bool.not_eq_true', isNone_iff_eq_none] at h
      obtain hnone | hslow := h
      · unfold Config.nodeLimit
        rw [hnone, ite_self]
      · rw [enumerate_of_not_hasFastPath hslow rfl, enumerate_of_not_hasFastPath hslow rfl]
    exact congrArg (Except.map _) henumerate
  | _ => rfl

mutual

theorem runPlan_pushless : ∀ (plan : Plan) (afterId : Option ℤ), plan.pushless = true →
    runPlan idx config plan afterId = runPlan idx config.noPush plan afterId
  | .mk source stages, afterId, h => runStages_pushless stages stages (initial idx source) afterId h

theorem runStages_pushless (all : List Stage) : ∀ (stages : List Stage) (st : Stream)
    (afterId : Option ℤ), stagesPushless (typedNodeLimit all) st.view stages = true →
      runStages idx config (config.nodeLimit all) stages st afterId =
        runStages idx config.noPush none stages st afterId
  | [], _, _, _ => rfl
  | stage :: rest, st, afterId, h => by
      obtain ⟨hstage, hrest⟩ := Bool.and_eq_true_iff.mp h
      have hrun := runStage_pushless all stage st afterId hstage
      rw [runStages, runStages, hrun]
      cases rejectAmbiguous idx st with
      | error => rfl
      | ok _ =>
        simp only [bind, Except.bind]
        cases hout : runStage idx config.noPush none stage st afterId with
        | error => rfl
        | ok out =>
          dsimp only
          split
          · rfl
          · have hview := view_runStage idx config.noPush hout
            exact runStages_pushless all rest out _ (by rw [hview]; exact hrest)

theorem runStage_pushless (all : List Stage) : ∀ (stage : Stage) (st : Stream)
    (afterId : Option ℤ), stagePushless (typedNodeLimit all) st.view stage = true →
      runStage idx config (config.nodeLimit all) stage st afterId =
        runStage idx config.noPush none stage st afterId
  | .setOp op operand, st, _, h
  | .path operand relation minDepth maxDepth shortest inbound, st, _, h => by
      rw [runStage, runStage, runPlan_pushless operand none h]
      rfl
  | .nodes .., _, id, h | .changeView .., _, id, h | .where_ .., _, id, h | .traverse .., _, id, h
  | .sites, _, id, h | .select .., _, id, h | .count, _, id, h | .distinct, _, id, h
  | .orderBy .., _, id, h | .limit .., _, id, h | .rank .., _, id, h | .reverseTypeUse .., _, id, h =>
    @plainStage_pushless idx config all _ _ h id

end

/-! ## Enumerations with a limit -/

variable {keys : List LogicalKey} {stages : List Stage} {pred : Option Pred} {afterId : Option ℤ}
  {view : View}

theorem pushed_edge (h : idx.pushed .edge pred afterId = some keys) :
    ∃ field value, intEquality pred = some (field, value) ∧
      field ∈ ["edge_id", "src_id", "dst_id"] ∧
      keys = ((edgesWith idx field value).filter fun edge =>
        afterId.all fun id => id < edge.id).map fun edge => { a := edge.id } := by
  unfold Index.pushed at h
  cases heq : intEquality pred with
  | none => simp [heq] at h
  | some found =>
    simp only [heq] at h
    split at h
    · rename_i hfield
      exact ⟨found.1, found.2, rfl, hfield, (some.inj h).symm⟩
    · cases h

theorem pushed_site (h : idx.pushed .site pred afterId = some keys) :
    ∃ value, intEquality pred = some ("edge_id", value) ∧ afterId = none ∧ keys = sitesOf idx value := by
  unfold Index.pushed at h
  cases heq : intEquality pred with
  | none => simp [heq] at h
  | some found =>
    obtain ⟨field, value⟩ := found
    simp only [heq] at h
    split at h
    · rename_i hfield
      exact ⟨value, by rw [hfield.1], hfield.2, (some.inj h).symm⟩
    · cases h

/-- Fast paths select enumerated rows. -/
theorem enumerated_of_pushed (hview : view = .edge ∨ view = .site)
    (h : idx.pushed view pred afterId = some keys) : Enumerated idx view keys := by
  obtain rfl | rfl := hview
  · obtain ⟨_, _, _, _, rfl⟩ := pushed_edge h
    apply Enumerated.edges
    · rw [pairwise_map]
      have hall := pairwise_map.mp idx.db.edges_sorted
      refine List.Pairwise.imp (fun hlt => LogicalKey.ofId_lt_ofId.mpr hlt) ?_
      exact hall.sublist (filter_sublist.trans filter_sublist)
    · intro _ hkey
      obtain ⟨edge, hedge, rfl⟩ := List.mem_map.mp hkey
      exact ⟨edge, mem_of_mem_filter (mem_of_mem_filter hedge), rfl⟩
  · obtain ⟨_, _, _, rfl⟩ := pushed_site h
    apply Enumerated.sites
    · exact idx.db.sites_sorted.sublist (filter_sublist.map _)
    · intro _ hkey
      obtain ⟨site, hsite, rfl⟩ := List.mem_map.mp hkey
      obtain ⟨hmem, hedge⟩ := mem_filter.mp hsite
      exact ⟨site, hmem, by simpa using hedge, rfl⟩

/-- A fast path cuts what it selects at the limit, or at its budget. -/
theorem enumerate_of_pushed {st : Stream} {view : View} {pred : Option Pred}
    {afterId : Option ℤ} {keys : List LogicalKey} (hview : st.view = view)
    (htyped : view = .edge ∨ view = .site) (hempty : st.keys = [])
    (h : idx.pushed view pred afterId = some keys) (unknown : UnknownPolicy)
    (nodeLimit : Option ℕ) :
    ∃ flag, enumerate idx budgets st pred unknown afterId nodeLimit =
      .ok { st with keys := cut (nodeLimit.or (budgets.ofFastPath view)) keys,
                    truncated := flag } := by
  obtain rfl | rfl := htyped
  · obtain ⟨_, _, heq, hfield, hrows⟩ := pushed_edge h
    have hkeys : enumerate idx budgets st pred unknown afterId nodeLimit =
        .ok (withKeys st (nodeLimit.or budgets.enumerate) keys) := by
      unfold enumerate
      simp only [hview, heq, if_pos hfield, hrows]
    exact ⟨_, hkeys⟩
  · obtain ⟨value, heq, rfl, rfl⟩ := pushed_site h
    have hkeys : enumerate idx budgets st pred unknown none nodeLimit = .ok { st with
        keys := st.keys ++ cut (nodeLimit.or budgets.traverseNode) (sitesOf idx value) } := by
      unfold enumerate
      simp [hview, heq]
    rw [hempty, nil_append] at hkeys
    exact ⟨_, hkeys⟩

/-- Other enumerations do not read the limit. -/
theorem enumerate_of_not_pushed {st : Stream} {pred : Option Pred}
    {afterId : Option ℤ} (h : idx.pushed st.view pred afterId = none) (unknown : UnknownPolicy)
    (nodeLimit nodeLimit' : Option ℕ) :
    enumerate idx budgets st pred unknown afterId nodeLimit =
      enumerate idx budgets st pred unknown afterId nodeLimit' := by
  unfold enumerate
  unfold Index.pushed at h
  split
  · rename_i field value hview heq
    simp only [hview, heq] at h
    split at h
    · cases h
    · rename_i hfield
      rw [if_neg hfield, if_neg hfield]
  · rename_i field value hview heq
    simp only [hview, heq] at h
    split at h
    · cases h
    · rename_i hfield
      rw [if_neg hfield, if_neg hfield]
  · rfl

theorem typedNodeLimit_pos {n : ℕ} (h : typedNodeLimit stages = some n) : 0 < n := by
  unfold typedNodeLimit at h
  split at h
  · cases h
  · refine List.foldlRecOn stages _ (motive := fun last => ∀ m, last = some m → 0 < m) ?_ ?_ n h
    · intro _ hm
      cases hm
    · intro _ hlast _ _ m hm
      split at hm
      · split at hm
        · cases hm
          omega
        · exact hlast m hm
      · exact hlast m hm

/-- The stages behind an enumeration run the same whether or not it is given the limit. -/
theorem runStages_of_harmless {unknown : UnknownPolicy} {rest : List Stage} {st : Stream}
    (hview : st.view = view) (htyped : view = .edge ∨ view = .site) (hshape : st.shape = .nodes)
    (hids : st.ids = []) (hempty : st.keys = []) (hwithin : idx.WithinFastPaths config.budgets)
    (hpush : HarmlessPush idx (typedNodeLimit stages) view pred afterId rest)
    (hrest : ∀ stage ∈ rest, Passes idx config stage) :
    SameUpToFlag
      (runStages idx config (config.nodeLimit stages) (.nodes pred unknown :: rest) st afterId)
      (runStages idx config.noPush none (.nodes pred unknown :: rest) st afterId) := by
  have hok : rejectAmbiguous idx st = .ok () := rejectAmbiguous_nil hempty
  let noLimit (st : Stream) : Stream := { st with limitInEffect := false }
  have hrun : ∀ (config : Config) nodeLimit, runStage idx config nodeLimit (.nodes pred unknown) st
      afterId = (enumerate idx config.budgets st pred unknown afterId nodeLimit).map noLimit :=
    fun _ _ => rfl
  cases hkeys : idx.pushed view pred afterId with
  | none =>
    have hsame := @enumerate_of_not_pushed idx config.budgets st pred afterId
      (by rw [hview]; exact hkeys) unknown (config.nodeLimit stages) none
    rw [runStages, runStages, hok, hrun, hrun, hsame]
    simp only [bind, Except.bind]
    cases hout : enumerate idx config.budgets st pred unknown afterId none with
    | error e =>
      have hout' : enumerate idx config.noPush.budgets st pred unknown afterId none =
        .error e := hout
      rw [hout']
      rfl
    | ok out =>
      have hout' : enumerate idx config.noPush.budgets st pred unknown afterId none =
        .ok out := hout
      rw [hout']
      simp only [Except.map]
      split
      · cases rejectAmbiguous idx (noLimit out) with
        | error => rfl
        | ok => rfl
      · exact runStages_same hrest rfl _ _ _
  | some keys =>
    have hfits := hwithin view pred afterId keys hkeys
    obtain ⟨flag, hleft⟩ := @enumerate_of_pushed idx config.budgets st view pred afterId keys hview
      htyped hempty hkeys unknown (config.nodeLimit stages)
    obtain ⟨flag', hright⟩ := @enumerate_of_pushed idx config.budgets st view pred afterId keys
      hview htyped hempty hkeys unknown none
    rw [none_or, cut_eq_self hfits] at hright
    have hstep := hrun config (config.nodeLimit stages)
    have hstep' := hrun config.noPush none
    rw [hleft] at hstep
    rw [show config.noPush.budgets = config.budgets from rfl, hright] at hstep'
    refine runStages_cons_same hok hok hstep hstep' (by simp [hshape])
      (by simp [hshape]) ?_
    let out : Stream := { st with keys := keys, truncated := flag', limitInEffect := false }
    cases hlimit : config.nodeLimit stages with
    | none =>
      have hsame : (noLimit { st with keys := keys, truncated := flag }).Same out := rfl
      rw [none_or, cut_eq_self hfits]
      exact runStages_same hrest hsame _ _ _
    | some n =>
      have htyped' : typedNodeLimit stages = some n := by
        unfold Config.nodeLimit at hlimit
        split at hlimit
        · exact hlimit
        · cases hlimit
      show SameUpToFlag (runStages idx config _ rest
        (noLimit { st with keys := keys.take n, truncated := flag }) _) _
      obtain hfew | ⟨hcommutes, hfiles⟩ := hpush n keys htyped' hkeys
      · have hsame : (noLimit { st with keys := keys.take n, truncated := flag }).Same out := by
          rw [take_of_length_le hfew]
          rfl
        exact runStages_same hrest hsame _ _ _
      · have hfirst : FirstOf idx n view .nodes { out with keys := out.keys.take n, truncated := flag } out :=
          .nodes hview hshape hids (enumerated_of_pushed htyped hkeys) hfiles
        exact runStages_first (typedNodeLimit_pos htyped') hrest hcommutes hfirst _ _ _

/-- A plan whose push-downs are harmless runs the same without them. -/
theorem runPlan_of_harmless (hwithin : idx.WithinFastPaths config.budgets) {plan : Plan}
    {afterId : Option ℤ} (hplan : PushesHarmlessly idx plan afterId) :
    SameUpToFlag (runPlan idx config plan afterId) (runPlan idx config.noPush plan afterId) := by
  induction hplan with
  | pushless h =>
    rw [runPlan_pushless _ _ h]
    rfl
  | @enumeration source view pred unknown rest afterId hview hpush hrest _ ih =>
    have hpasses : ∀ stage ∈ rest, Passes idx config stage := by
      intro stage hmem
      obtain hplain | ⟨op, operand, rfl⟩ := hrest stage hmem
      · exact Or.inl hplain
      · exact Or.inr ⟨op, operand, rfl, ih op operand hmem⟩
    have hchanged : changeView idx (initial idx source) view =
        { initial idx source with ids := [], keys := [], view := view } := by
      obtain rfl | rfl := hview <;> rfl
    have hstart : rejectAmbiguous idx (initial idx source) = .ok () := rejectAmbiguous_nil rfl
    have hstep : ∀ (config : Config) nodeLimit, runStage idx config nodeLimit (.changeView view)
        (initial idx source) afterId =
          .ok { initial idx source with ids := [], keys := [], view := view } :=
      fun _ _ => congrArg ok hchanged
    rw [runPlan, runPlan]
    refine runStages_cons_same hstart hstart (hstep config _) (hstep config.noPush _) (by simp [initial])
      (by simp [initial]) ?_
    exact runStages_of_harmless rfl hview rfl rfl rfl hwithin hpush hpasses

/-- Tables within the budgets keep every fast path within them. -/
theorem withinFastPaths_of_small (hedges : budgets.enumerate.exceeded idx.db.edges.length = false)
    (hsites : budgets.traverseNode.exceeded idx.db.sites.length = false) :
    idx.WithinFastPaths budgets := by
  intro view _ _ _ hkeys
  cases view with
  | edge =>
    obtain ⟨_, _, _, _, rfl⟩ := pushed_edge hkeys
    refine exceeded_of_le ?_ hedges
    rw [length_map]
    exact (length_filter_le _ _).trans (length_filter_le _ _)
  | site =>
    obtain ⟨_, _, _, rfl⟩ := pushed_site hkeys
    refine exceeded_of_le ?_ hsites
    rw [sitesOf, length_map]
    exact length_filter_le _ _
  | _ => cases hkeys

/-- The flag changes nothing else in the result. -/
theorem finish_setFlag (st : Stream) (flag : Bool) (resultCap : Option ℤ) :
    (finish idx config (st.setFlag flag) resultCap).map Result.answer =
      (finish idx config st resultCap).map Result.answer := by
  have hdefault : defaultRows idx config (st.setFlag flag) =
      (defaultRows idx config st).map (·.setFlag flag) := by
    unfold defaultRows
    rw [materialize_setFlag, materialize_setFlag]
    unfold setFlag
    split
    · split <;> rfl
    · rfl
  unfold finish
  rw [hdefault, show rejectAmbiguous idx (st.setFlag flag) = rejectAmbiguous idx st from rfl,
    show (st.setFlag flag).shape = st.shape from rfl]
  cases rejectAmbiguous idx st with
  | error => rfl
  | ok =>
    simp only [bind, Except.bind]
    split
    · rfl
    · split
      · rfl
      · rfl
      · cases defaultRows idx config st with
        | error => rfl
        | ok => rfl

end Exec

/-! ## The whole statement -/

def twoEdges : Db where
  symbols := [⟨1, fun _ => none⟩, ⟨2, fun _ => none⟩, ⟨3, fun _ => none⟩]
  edges := [⟨1, 1, 2, 1, 1⟩, ⟨2, 1, 3, 1, 1⟩]

/-- `view("edge").nodes(src_id = 1).<rest>`. -/
def edgesFromOne (rest : List Stage) : Plan :=
  .mk { kind := .codebase }
    (.changeView .edge :: .nodes (some (.cmp .eq "src_id" [] (some 1))) .exclude :: rest)

end CppIndexer.Query
