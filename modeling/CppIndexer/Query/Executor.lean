/-
# Running a plan

`Exec::run_plan`, `Exec::finish` and `Executor::run` over plans that `validate` has returned. The
budgets are a parameter, so that the bounded execution can be compared with the unbounded one,
and so is the push-down of limits into enumerations.
-/

import CppIndexer.Query.Witness

namespace CppIndexer.Query

/-- How plans are executed. -/
structure Config where
  budgets : Budgets
  /-- Enumerations are given the limit of the plan. -/
  pushDown : Bool := true

/-- The result of `Executor::run`. -/
structure Result where
  shape : Shape
  view : View
  fields : List String := []
  rows : List (List Cell) := []
  paths : List PathWitness := []
  scalar : ℕ := 0
  truncated : Bool
  deriving DecidableEq

/-- The limit given to the enumeration of a plan. -/
def Config.nodeLimit (config : Config) (stages : List Stage) : Option ℕ :=
  if config.pushDown then typedNodeLimit stages else none

/-- The view after a stage, as `validate` tracks it. -/
def Stage.viewAfter (view : View) : Stage → View
  | .changeView level => level
  | .traverse _ _ .devirtualized _ _ => .symbol
  | .traverse inbound relation .static _ _ =>
    match resolveRelation relation view inbound with
    | none => view
    | some relation =>
      if relation.isTyped view && !inbound then relation.targetView else relation.layer
  | .sites => .site
  | _ => view

/-- The cursor after a stage: only the first enumeration starts behind it. -/
def Stage.cursorAfter (afterId : Option ℤ) : Stage → Option ℤ
  | .nodes .. => none
  | _ => afterId

/-- The view a plan starts in. -/
def Source.view (source : Source) : View := if source.kind = .entity then .entity else .symbol

namespace Exec

variable (idx : Index) (config : Config)

/-- The stream a plan starts with. -/
def initial (source : Source) : Stream :=
  { view := source.view
    ids := if source.kind = .codebase then [] else resolveSource idx source }

def plainStage (nodeLimit : Option ℕ) (stage : Stage) (st : Stream) (afterId : Option ℤ) :
    Except PlanError Stream :=
  let noLimit (st : Stream) : Stream := { st with limitInEffect := false }
  match stage with
  | .nodes pred unknown =>
    (enumerate idx config.budgets st pred unknown afterId nodeLimit).map noLimit
  | .changeView level => .ok (changeView idx st level)
  | .where_ pred unknown => filter idx config.budgets st pred unknown
  | .traverse inbound relation mode minDepth maxDepth =>
    match mode with
    | .devirtualized =>
      .ok (noLimit (traverseDevirtualized idx config.budgets st minDepth maxDepth))
    | .static =>
      (traverse idx config.budgets st inbound relation minDepth maxDepth).map noLimit
  | .sites => .ok (noLimit (expandSites idx config.budgets st))
  | .select fields =>
    (materialize idx config.budgets st fields).map fun st => { st with shape := .rows }
  | .count => .ok { st with shape := .scalar }
  | .distinct => .ok (applyDistinct st)
  | .orderBy fields => applyOrder idx config.budgets st fields
  | .limit n => .ok (applyLimit st n)
  | .rank topN => .ok (rankStage config.budgets st topN)
  | .reverseTypeUse maxDepth => .ok (reverseTypeUseStage idx config.budgets st maxDepth)
  -- `runStage` runs the operand of these first.
  | .setOp .. | .path .. => .ok st

/-- A set operation, given the stream of its operand. -/
def setOpStage (op : SortUnique.SetOp) (st sub : Stream) : Stream :=
  let out := setOp config.budgets st sub op
  if op = .union then { out with limitInEffect := false } else out

mutual

/-- `run_plan`. -/
def runPlan : Plan → Option ℤ → Except PlanError Stream
  | .mk source stages, afterId =>
    runStages (config.nodeLimit stages) stages (initial idx source) afterId

/-- The loop of `run_plan`. A count is the last stage. -/
def runStages (nodeLimit : Option ℕ) : List Stage → Stream → Option ℤ → Except PlanError Stream
  | [], st, _ => do
      rejectAmbiguous idx st
      pure st
  | stage :: rest, st, afterId => do
      rejectAmbiguous idx st
      let st ← runStage nodeLimit stage st afterId
      if st.shape = .scalar then
        rejectAmbiguous idx st
        pure st
      else
        runStages nodeLimit rest st (stage.cursorAfter afterId)

def runStage (nodeLimit : Option ℕ) : Stage → Stream → Option ℤ → Except PlanError Stream
  | .setOp op operand, st, _ => do
      let sub ← runPlan operand none
      pure (setOpStage config op st sub)
  | .path operand relation minDepth maxDepth shortest inbound, st, _ => do
      let sub ← runPlan operand none
      pathStage idx config.budgets st sub relation minDepth maxDepth shortest inbound
  | stage, st, afterId => plainStage idx config nodeLimit stage st afterId

end

/-- The cap on the number of results: the caller's own, or the default one unless the plan has
its own limit. -/
def finalCap (st : Stream) (resultCap : Option ℤ) : Budget :=
  match resultCap with
  | some cap => some cap.toNat
  | none => if st.limitInEffect then none else config.budgets.resultCap

/-- The number `count` returns. -/
def scalarOf (st : Stream) : ℕ :=
  if st.paths ≠ [] then st.paths.length
  else if st.rows ≠ [] then st.rows.length
  else if st.keys ≠ [] then st.keys.length
  else st.ids.length

/-- The rows of a node stream that ends a plan. -/
def defaultRows (st : Stream) : Except PlanError Stream :=
  if st.shape = .nodes then
    if st.keys ≠ [] then materialize idx config.budgets st ["id", "identity_key"]
    else materialize idx config.budgets st
      ["id", "usr", "semantic_universe", "identity_key", "name", "kind"]
  else .ok st

/-- `finish`. -/
def finish (st : Stream) (resultCap : Option ℤ) : Except PlanError Result := do
  rejectAmbiguous idx st
  if resultCap.any fun cap => cap < 1 then
    throw ⟨.budget, "max_results must be positive"⟩
  let cap := finalCap config st resultCap
  match st.shape with
  | .scalar =>
    pure { shape := .scalar, view := st.view, scalar := scalarOf st, truncated := st.truncated }
  | .path =>
    pure { shape := .path, view := st.view, paths := cap.cut st.paths,
           truncated := st.truncated || cap.exceeded st.paths.length }
  | _ =>
    let st ← defaultRows idx config st
    pure { shape := st.shape, view := st.view, fields := st.fields,
           rows := (cap.cut st.rows).map Prod.fst,
           truncated := st.truncated || cap.exceeded st.rows.length }

/-- `Executor::run` of a validated plan. -/
def run (plan : Plan) (afterId resultCap : Option ℤ) : Except PlanError Result := do
  let st ← runPlan idx config plan afterId
  finish idx config st resultCap

/-! ## Stages one after the other -/

variable {idx config} in
theorem rejectAmbiguous_ok {st : Stream}
    (h : ∀ key ∈ st.keys, idx.ambiguousFile key.b = false) : rejectAmbiguous idx st = .ok () := by
  unfold rejectAmbiguous
  rw [if_neg]
  intro hreject
  obtain ⟨key, hmem, hkey⟩ := List.any_eq_true.mp hreject.2
  simp [h key hmem] at hkey

variable {nodeLimit : Option ℕ} {afterId : Option ℤ} {rest : List Stage}

variable {idx config} in
theorem runStages_cons {stage : Stage}
    {st out : Stream} (hok : rejectAmbiguous idx st = .ok ())
    (hstage : runStage idx config nodeLimit stage st afterId = .ok out)
    (hshape : out.shape ≠ .scalar) :
    runStages idx config nodeLimit (stage :: rest) st afterId =
      runStages idx config nodeLimit rest out (stage.cursorAfter afterId) := by
  rw [runStages, hok]
  simp [bind, Except.bind, hstage, hshape]

variable {idx config} in
theorem runStages_nil {st : Stream}
    (hok : rejectAmbiguous idx st = .ok ()) :
    runStages idx config nodeLimit [] st afterId = .ok st := by
  rw [runStages, hok]
  rfl

variable {fields : List String} {pred : Option Pred} {nodeLimit : Option ℕ} {afterId : Option ℤ}
  {st out : Stream} {unknown : UnknownPolicy}

variable {idx config} in
theorem runStages_count (hok : rejectAmbiguous idx st = .ok ()) :
    runStages idx config nodeLimit (.count :: rest) st afterId =
      .ok { st with shape := .scalar } := by
  have hlast : rejectAmbiguous idx { st with shape := .scalar } = .ok () := hok
  rw [runStages, hok]
  show (rejectAmbiguous idx { st with shape := .scalar } >>= fun _ => _) = _
  rw [hlast]
  rfl

/-! ## Views -/

theorem view_filter {pred : Pred}
    (h : filter idx config.budgets st pred unknown = .ok out) : out.view = st.view := by
  unfold filter at h
  split at h
  · obtain ⟨_, _, rfl⟩ := map_eq_ok.mp h
    rfl
  · cases h
    rfl

theorem view_filterWith
    (h : filterWith idx config.budgets st pred unknown = .ok out) : out.view = st.view := by
  cases pred with
  | none =>
    cases h
    rfl
  | some => exact view_filter idx config h

theorem view_enumerateAll (h : enumerateAll idx config.budgets st pred unknown afterId = .ok out) :
    out.view = st.view := by
  unfold enumerateAll at h
  split at h
  · obtain ⟨_, _, rfl⟩ := map_eq_ok.mp h
    rfl
  · split at h
    · cases h
    · have hview := view_filterWith idx config h
      exact hview

theorem view_enumerate (h : enumerate idx config.budgets st pred unknown afterId nodeLimit = .ok out) :
    out.view = st.view := by
  unfold enumerate at h
  split at h
  · split at h
    · cases h
      rfl
    · exact view_enumerateAll idx config h
  · split at h
    · cases h
      rfl
    · exact view_enumerateAll idx config h
  · exact view_enumerateAll idx config h

theorem view_moveTo (budgets : Budgets) (st : Stream) (target : View) (found : TypedReads) :
    (moveTo budgets st target found).view = target := by
  unfold moveTo
  split <;> rfl

theorem view_traverse {inbound : Bool} {relation : RelationName} {minDepth maxDepth : ℤ}
    (h : traverse idx config.budgets st inbound relation minDepth maxDepth = .ok out) :
    out.view = Stage.viewAfter st.view (.traverse inbound relation .static minDepth maxDepth) := by
  unfold traverse at h
  unfold Stage.viewAfter
  split at h
  · cases h
  · rename_i desc hdesc
    simp only [hdesc]
    split at h
    · rename_i htyped
      cases h
      rw [traverseTyped, view_moveTo, htyped]
      cases inbound with
      | true => rfl
      | false => rfl
    · rename_i htyped
      cases h
      simp only [htyped, Bool.false_and]
      rfl

theorem view_materialize
    (h : materialize idx config.budgets st fields = .ok out) : out.view = st.view := by
  obtain ⟨_, _, hrest⟩ := ok_of_bind h
  split at hrest
  · cases hrest
    rfl
  · obtain ⟨_, _, hout⟩ := ok_of_bind hrest
    cases hout
    rfl

theorem view_applyOrder (h : applyOrder idx config.budgets st fields = .ok out) : out.view = st.view := by
  unfold applyOrder at h
  split at h
  · split at h
    · obtain ⟨_, _, rfl⟩ := map_eq_ok.mp h
      rfl
    · obtain ⟨_, _, hrest⟩ := ok_of_bind h
      obtain ⟨_, _, hout⟩ := ok_of_bind hrest
      cases hout
      rfl
  · cases h
    rfl

theorem view_applyDistinct (st : Stream) : (applyDistinct st).view = st.view := by
  unfold applyDistinct
  split
  · rfl
  · split <;> rfl
  · rfl

theorem view_applyLimit (st : Stream) (n : ℤ) : (applyLimit st n).view = st.view := by
  unfold applyLimit
  dsimp only
  split
  · rfl
  · split <;> rfl
  · rfl

theorem view_setOpStage (op : SortUnique.SetOp) (st sub : Stream) :
    (setOpStage config op st sub).view = st.view := by
  unfold setOpStage setOp withKeys
  cases op with
  | union | intersect | except => cases hnode : st.view.isNode <;> simp [hnode]

theorem view_changeView (st : Stream) (level : View) : (changeView idx st level).view = level := by
  unfold changeView
  split <;> rfl

theorem view_runStage {stage : Stage}
    (h : runStage idx config nodeLimit stage st afterId = .ok out) :
    out.view = stage.viewAfter st.view := by
  cases stage with
  | nodes =>
    obtain ⟨_, hfound, rfl⟩ := map_eq_ok.mp h
    have hview := view_enumerate idx config hfound
    exact hview
  | changeView level =>
    cases h
    exact view_changeView idx st level
  | where_ => exact view_filter idx config h
  | traverse _ _ mode =>
    cases mode with
    | static =>
      obtain ⟨_, hfound, rfl⟩ := map_eq_ok.mp h
      have hview := view_traverse idx config hfound
      exact hview
    | devirtualized =>
      cases h
      rfl
  | sites | count | rank | reverseTypeUse =>
    cases h
    rfl
  | setOp op =>
    obtain ⟨sub, _, hout⟩ := ok_of_bind h
    cases hout
    exact view_setOpStage config op st sub
  | select =>
    obtain ⟨_, hfound, rfl⟩ := map_eq_ok.mp h
    have hview := view_materialize idx config hfound
    exact hview
  | distinct =>
    cases h
    exact view_applyDistinct st
  | orderBy => exact view_applyOrder idx config h
  | limit n =>
    cases h
    exact view_applyLimit st n
  | path =>
    obtain ⟨_, _, hout⟩ := ok_of_bind h
    unfold pathStage at hout
    split at hout
    · cases hout
    · cases hout
      rfl

end Exec

end CppIndexer.Query
