/-
# Ordered ids through the query executor

`GraphQuery::adapter_ordered_ids` collects the ids of a plan page by page with `run_fast` and an
`after_id` cursor. The order and the limit of the plan are taken off first and applied to all
candidates at the end.
-/

import CppIndexer.Lib.Paging
import CppIndexer.Query.NodeStreams

namespace CppIndexer.Graph

open Query Paging List Exec

/-- What stops a graph read: an error of the plan, or a cell of another type than the one read. -/
inductive ReadError
  | plan (error : PlanError)
  | badVariantAccess
  deriving DecidableEq

/-- `std::get<int64_t>`. -/
def intOf : Cell → Except ReadError ℤ
  | some (.int value) => .ok value
  | _ => .error .badVariantAccess

/-- An id with the cells it is ordered by. -/
structure Candidate where
  id : ℤ
  orderValues : List Cell

def candidateOf (row : List Cell) : Except ReadError Candidate :=
  (intOf row.head?.join).map fun id => ⟨id, row.tail⟩

/-- The fields of the last `order_by`. -/
def orderFields (stages : List Stage) : List String :=
  stages.foldl (fun last stage => match stage with
    | .orderBy fields => fields
    | _ => last) []

/-- The bound of the last `limit`. -/
def resultLimit (stages : List Stage) : Option ℤ :=
  stages.foldl (fun last stage => match stage with
    | .limit n => some n
    | _ => last) none

/-- The id, and the fields to order by that are not there yet. -/
def collectionFields (order : List String) : List String :=
  order.foldl (fun fields field => if field ∈ fields then fields else fields ++ [field]) ["id"]

def collection (plan : Plan) : Plan :=
  .mk plan.source (plan.stages.filter (fun stage => !Exec.isProjection stage) ++
    [.select (collectionFields (orderFields plan.stages))])

/-- The candidates in order, ties by id. -/
def inOrder (candidates : List Candidate) : List Candidate :=
  sortByCells Candidate.orderValues Candidate.id candidates

/-- At most as many as the limit. -/
def cutAt {α : Type} (limit : Option ℤ) (xs : List α) : List α :=
  match limit with
  | some n => xs.take n.toNat
  | none => xs

section Adapter

variable (idx : Index) (paths : FilePaths idx)

/-- One call of `run_fast`: the candidates it returns, and whether there are more. -/
def page (plan : Plan) (afterId : Option ℤ) : Except ReadError (List Candidate × Bool) := do
  let normal ← (validate plan).mapError .plan
  let result ← (Exec.runFast idx { budgets := .code } paths normal afterId).mapError .plan
  let candidates ← (result.rows.filter (· ≠ [])).mapM candidateOf
  pure (candidates, result.truncated)

/-- `adapter_ordered_ids`, where its loop ends within the fuel. -/
def adapterOrderedIds (fuel : ℕ) (plan : Plan) : Option (Except ReadError (List ℤ)) :=
  match validate plan with
  | .error e => some (.error (.plan e))
  | .ok normal =>
    if orderFields normal.stages ≠ [] then
      (collect Candidate.id (page idx paths (collection normal)) fuel none []).map <|
        Except.map fun candidates =>
          (cutAt (resultLimit normal.stages) (inOrder candidates)).map Candidate.id
    else
      (collect Candidate.id (page idx paths plan) fuel none []).map <|
        Except.map fun candidates => candidates.map Candidate.id

end Adapter

/-! ## Plans that select ids -/

/-- Nodes, their projection, and at most one order and one limit of the rows. -/
structure PagedPlan where
  source : Source
  nodes : List Stage
  fields : List String
  order : List String := []
  limit : Option ℤ := none
  unprojected : ∀ stage ∈ nodes, Exec.isProjection stage = false := by simp [Exec.isProjection]

namespace PagedPlan

variable (paged : PagedPlan)

/-- The stages after the projection. -/
def tail : List Stage :=
  (if paged.order = [] then [] else [.orderBy paged.order]) ++ paged.limit.toList.map .limit

def plan : Plan := .mk paged.source (paged.nodes ++ .select paged.fields :: paged.tail)

/-- The plan whose pages are read. -/
def pagePlan : Plan :=
  if paged.order = [] then paged.plan
  else .mk paged.source (paged.nodes ++ [.select (collectionFields paged.order)])

end PagedPlan

/-- After `id` an order names only fields that it has named before. -/
def idEndsOrder (seen : List String) : List String → Bool
  | [] => true
  | field :: rest =>
    if field = "id" then rest.all fun other => other = "id" || seen.contains other
    else idEndsOrder (field :: seen) rest

/-- The ids are read from the first column, and fields behind the id do not matter for the
order. -/
structure PagedPlan.Readable (paged : PagedPlan) : Prop where
  idFirst : paged.order = [] → paged.fields.head? = some "id"
  idLast : idEndsOrder [] paged.order = true

/-- The ids a plan denotes: those of its rows, without budgets and with every limit in its
place. -/
def Denotes (idx : Index) (plan : Plan) (ids : List ℤ) : Prop :=
  ∃ st, Exec.runPlan idx { budgets := .unbounded, pushDown := false } plan none = .ok st ∧
    ids = st.rows.map Prod.snd

/-- The loop ends with these ids, each once, and in ascending order unless the plan has its own. -/
def ReturnsExactly (idx : Index) (paths : FilePaths idx) (plan : Plan) (ordered : Bool)
    (ids : List ℤ) : Prop :=
  (∃ fuel, adapterOrderedIds idx paths fuel plan = some (.ok ids)) ∧ ids.Nodup ∧
    (ordered = false → ids.Pairwise (· < ·))

/-! ## The stages of a paged plan -/

namespace PagedPlan

variable (paged : PagedPlan)

theorem foldl_unchanged {α β : Type} {f : β → α → β} {xs : List α}
    (h : ∀ x ∈ xs, ∀ b, f b x = b) (b : β) : xs.foldl f b = b := by
  induction xs generalizing b with
  | nil => rfl
  | cons x _ ih =>
    rw [foldl_cons, h x mem_cons_self]
    exact ih (fun y hy => h y (mem_cons_of_mem _ hy)) b

variable {xs : List Stage}

theorem orderFields_append (h : ∀ stage ∈ xs, isProjection stage = false)
    (ys : List Stage) : orderFields (xs ++ ys) = orderFields ys := by
  unfold orderFields
  rw [foldl_append]
  refine congrArg (fun last => ys.foldl _ last) (foldl_unchanged ?_ _)
  intro stage hmem _
  have hstage := h stage hmem
  cases stage with
  | orderBy => cases hstage
  | _ => rfl

theorem resultLimit_append (h : ∀ stage ∈ xs, isProjection stage = false)
    (ys : List Stage) : resultLimit (xs ++ ys) = resultLimit ys := by
  unfold resultLimit
  rw [foldl_append]
  refine congrArg (fun last => ys.foldl _ last) (foldl_unchanged ?_ _)
  intro stage hmem _
  have hstage := h stage hmem
  cases stage with
  | limit => cases hstage
  | _ => rfl

theorem orderFields_plan : orderFields paged.plan.stages = paged.order := by
  show orderFields (paged.nodes ++ _) = _
  rw [orderFields_append paged.unprojected]
  unfold tail
  by_cases horder : paged.order = []
  all_goals
    cases hlimit : paged.limit <;> simp [orderFields, horder]

theorem resultLimit_plan : resultLimit paged.plan.stages = paged.limit := by
  show resultLimit (paged.nodes ++ _) = _
  rw [resultLimit_append paged.unprojected]
  unfold tail
  by_cases horder : paged.order = []
  all_goals
    cases hlimit : paged.limit <;> simp [resultLimit, horder]

theorem collection_plan (h : paged.order ≠ []) : collection paged.plan = paged.pagePlan := by
  have hnodes : paged.nodes.filter (fun stage => !isProjection stage) = paged.nodes :=
    filter_eq_self.mpr fun stage hmem => by simp [paged.unprojected stage hmem]
  have htail : (Stage.select paged.fields :: paged.tail).filter
      (fun stage => !isProjection stage) = [] := by
    unfold tail
    cases hlimit : paged.limit <;> simp [isProjection]
  unfold collection pagePlan
  rw [if_neg h, paged.orderFields_plan]
  show Plan.mk paged.source ((paged.nodes ++ Stage.select paged.fields :: paged.tail).filter _ ++ _) = _
  rw [filter_append, hnodes, htail, append_nil]

end PagedPlan

/-! ## Ordering by the collected fields -/

/-- The fields of an order that are not there yet. -/
def newFields : List String → List String → List String
  | _, [] => []
  | seen, field :: rest =>
    if field ∈ seen then newFields seen rest else field :: newFields (seen ++ [field]) rest

theorem collectionFields_eq (order : List String) :
    collectionFields order = "id" :: newFields ["id"] order := by
  have hfold : ∀ seen : List String,
      order.foldl (fun fields field => if field ∈ fields then fields else fields ++ [field]) seen =
        seen ++ newFields seen order := by
    induction order with
    | nil => simp [newFields]
    | cons _ _ ih =>
      intro _
      rw [foldl_cons, ih, newFields]
      split
      · rfl
      · simp
  exact hfold ["id"]

variable {seen order : List String}

theorem newFields_subset : newFields seen order ⊆ order := by
  induction order generalizing seen with
  | nil => simp [newFields]
  | cons _ _ ih =>
    rw [newFields]
    split
    · exact subset_cons_of_subset _ ih
    · exact cons_subset_cons _ ih

theorem newFields_of_subset (h : order ⊆ seen) : newFields seen order = [] := by
  induction order with
  | nil => rfl
  | cons _ _ ih =>
    rw [newFields, if_pos (h mem_cons_self)]
    exact ih fun other hmem => h (mem_cons_of_mem _ hmem)

theorem cellEq_self (cell : Cell) : cellEq cell cell = true := by
  match cell with
  | some (.int value) | some (.text value) => simp [cellEq, cellLess]
  | none => rfl

theorem cellsLess_self (cells : List Cell) : cellsLess cells cells = none := by
  induction cells with
  | nil => rfl
  | cons cell _ ih => rw [cellsLess, if_pos (cellEq_self cell), ih]

theorem cellsLess_newFields {u v : String → Cell} {x y : ℤ} (hu : u "id" = some (.int x))
    (hv : v "id" = some (.int y)) (hsame : x = y → u = v) {order seen named : List String}
    (hid : "id" ∈ seen) (hnamed : named ⊆ seen) (hends : idEndsOrder named order = true)
    (hequal : ∀ field ∈ seen, field ≠ "id" → cellEq (u field) (v field) = true) :
    (cellsLess (order.map u) (order.map v)).getD (x < y) =
      (cellsLess ((newFields seen order).map u) ((newFields seen order).map v)).getD (x < y) := by
  induction order generalizing seen named with
  | nil => rfl
  | cons field rest ih =>
    rw [idEndsOrder] at hends
    by_cases hfield : field = "id"
    · subst hfield
      rw [if_pos rfl] at hends
      have hrest : "id" :: rest ⊆ seen := by
        intro other hother
        rcases mem_cons.mp hother with rfl | hother
        · exact hid
        · have hother := all_eq_true.mp hends other hother
          simp only [Bool.or_eq_true, decide_eq_true_eq, contains_iff_mem] at hother
          exact hother.elim (fun heq => heq ▸ hid) fun hmem => hnamed hmem
      rw [newFields_of_subset hrest, map_cons, map_cons, hu, hv, cellsLess_int]
      by_cases heq : x = y
      · rw [if_pos heq, hsame heq, cellsLess_self]
        rfl
      · rw [if_neg heq]
        rfl
    · rw [if_neg hfield] at hends
      rw [newFields]
      by_cases hmem : field ∈ seen
      · rw [if_pos hmem, map_cons, map_cons, cellsLess, if_pos (hequal field hmem hfield)]
        apply ih hid _ hends hequal
        exact cons_subset.mpr ⟨hmem, hnamed⟩
      · rw [if_neg hmem, map_cons, map_cons, map_cons, map_cons, cellsLess, cellsLess]
        by_cases hcells : cellEq (u field) (v field) = true
        · rw [if_pos hcells, if_pos hcells]
          apply ih (mem_append_left _ hid) _ hends
          · intro other hother hne
            rcases mem_append.mp hother with hother | hother
            · exact hequal other hother hne
            · rw [mem_singleton.mp hother]
              exact hcells
          · intro _ hother
            rcases mem_cons.mp hother with rfl | hother
            · simp
            · exact mem_append_left _ (hnamed hother)
        · rw [if_neg hcells, if_neg hcells]

end CppIndexer.Graph
