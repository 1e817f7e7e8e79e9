/-
# Validation of plans

`validate_walk` of `query/plan.cpp`: one walk over the stages that tracks the active view and
shape, checks every stage against them, and returns the plan with normalized predicates and
qualified relation names.

The executor walks over the stages on its own. A stream has the view and the shape that
validation has tracked, after every stage.
-/

import CppIndexer.Query.Executor

namespace CppIndexer.Query

/-- `WalkState`. -/
structure WalkState where
  active : View := .symbol
  shape : Shape := .nodes
  /-- `codebase()` with only `view()` so far. -/
  codebaseUnenumerated : Bool := false
  /-- The fields of the last `select()`. -/
  selected : List String := []

def failIf (condition : Prop) [Decidable condition] (code : ErrorCode) (message : String) :
    Except PlanError Unit :=
  if condition then .error ⟨code, message⟩ else .ok ()

variable {u : Unit} {message : String}

theorem failIf_eq_ok {condition : Prop} [Decidable condition] {code : ErrorCode}
    : failIf condition code message = .ok u ↔ ¬ condition := by
  unfold failIf
  split <;> simp_all

theorem forM_eq_ok {check : String → Except PlanError Unit} {fields : List String}
    (h : fields.forM check = .ok u) : ∀ field ∈ fields, check field = .ok () := by
  induction fields with
  | nil => simp
  | cons field rest ih =>
    have hsteps : (check field >>= fun _ => rest.forM check) = .ok u := h
    obtain ⟨_, hfield, hrest⟩ := ok_of_bind hsteps
    intro other hmem
    cases hmem with
    | head => exact hfield
    | tail _ hmem => exact ih hrest other hmem

namespace WalkState

def start (source : Source) : Except PlanError WalkState :=
  if source.kind ≠ .codebase ∧ source.ref = "" then .error ⟨.source, "empty source ref"⟩
  else .ok { active := source.view, codebaseUnenumerated := source.kind = .codebase }

variable (walk : WalkState)

/-- `consume`: a code base must be enumerated first. -/
def consume : Except PlanError Unit :=
  failIf walk.codebaseUnenumerated .stage "codebase() must be enumerated with nodes() first"

/-- A stage for one shape only. -/
def requireShape (shape : Shape) (message : String) : Except PlanError Unit :=
  failIf (walk.shape ≠ shape) .stage message

/-- A field of the active view. -/
def requireField (field : String) : Except PlanError Unit :=
  failIf (!fieldAvailable walk.active field) .field
    ("field '" ++ field ++ "' is unavailable in " ++ viewName walk.active ++ " view")

/-- A field to order by: of the active view, and among the selected ones of rows. -/
def requireOrderField (field : String) : Except PlanError Unit := do
  walk.requireField field
  failIf (walk.shape = .rows ∧ field ∉ walk.selected) .field
    ("order_by field '" ++ field ++ "' is not selected")

/-- The bounds of a traversal. -/
def requireDepth (minDepth maxDepth : ℤ) : Except PlanError Unit :=
  failIf (minDepth < 1 ∨ maxDepth < minDepth ∨ 32 < maxDepth) .depth
    "depth bounds must satisfy 1 <= min <= max <= 32"

def relation (name : RelationName) (inbound : Bool) : Except PlanError RelationDesc :=
  match resolveRelation name walk.active inbound with
  | some desc => .ok desc
  | none => .error ⟨.relation, "unknown relation '" ++ name.text ++ "' in " ++ viewName walk.active ++
      " view"⟩

end WalkState

open WalkState

/-- The checks of `view()`. -/
def checkChangeView (walk : WalkState) (level : View) : Except PlanError Unit := do
  walk.requireShape .nodes "view() applies to a node stream"
  failIf (!walk.codebaseUnenumerated ∧ level ≠ walk.active ∧ !(walk.active.isNode && level.isNode)) .view
    ("cannot change view from " ++ viewName walk.active ++ " to " ++ viewName level)

/-- The checks of `out()` and `in()`. -/
def checkTraverse (walk : WalkState) (inbound : Bool) (relation : RelationName)
    (mode : TraversalMode) (minDepth maxDepth : ℤ) : Except PlanError RelationDesc := do
  walk.consume
  walk.requireShape .nodes "traversal applies to a node stream"
  let desc ← walk.relation relation inbound
  requireDepth minDepth maxDepth
  failIf (desc.isTyped walk.active ∧ ¬ (minDepth = 1 ∧ maxDepth = 1)) .depth
    "typed traversal currently supports only depth 1..1"
  failIf (mode = .devirtualized ∧ (inbound ∨ desc.layer ≠ .symbol ∨ desc.name ≠ "calls")) .stage
    "devirtualized mode requires an outbound symbol.calls traversal"
  pure desc

/-- The checks of `path()` up to its operand. -/
def checkPath (walk : WalkState) (relation : RelationName) (minDepth maxDepth shortest : ℤ)
    (inbound : Bool) : Except PlanError RelationDesc := do
  walk.consume
  walk.requireShape .nodes "path() applies to a node stream"
  failIf (!walk.active.isNode) .view "path() requires a symbol or entity node stream"
  let desc ← walk.relation relation inbound
  failIf (desc.virtualRelation ∨ !desc.targetView.isNode) .relation
    "path() requires a non-typed symbol/entity relation"
  requireDepth minDepth maxDepth
  failIf (shortest < 0) .limit "path() shortest cap must be >= 0"
  pure desc

/-- The operand of a set operation or a path: nodes of the same view. -/
def checkOperand (walk sub : WalkState) (what : String) : Except PlanError Unit := do
  failIf (sub.shape ≠ .nodes) .setop (what ++ "operand must yield a node stream")
  failIf (sub.active ≠ walk.active) .setop (what ++ "operand view mismatch")

/-- A stage without an operand. -/
def walkPlain (walk : WalkState) : Stage → Except PlanError (WalkState × Stage)
  | .nodes pred unknown => do
      failIf (!walk.codebaseUnenumerated) .stage
        "nodes() requires an unenumerated codebase() source"
      let pred ← normTarget pred walk.active
      pure ({ walk with codebaseUnenumerated := false }, .nodes pred unknown)
  | .changeView level => do
      checkChangeView walk level
      pure ({ walk with active := level }, .changeView level)
  | .where_ pred unknown => do
      walk.requireShape .nodes "where() applies to a node stream"
      walk.consume
      let pred ← normPred pred walk.active
      pure (walk, .where_ pred unknown)
  | .traverse inbound relation mode minDepth maxDepth => do
      let desc ← checkTraverse walk inbound relation mode minDepth maxDepth
      pure ({ walk with active := if inbound then desc.layer else desc.targetView },
        .traverse inbound ⟨some desc.layer, desc.name⟩ mode minDepth maxDepth)
  | .sites => do
      walk.consume
      walk.requireShape .nodes "sites() applies to a node stream"
      failIf (walk.active ≠ .edge) .view "sites() requires an edge node stream"
      pure ({ walk with active := .site }, .sites)
  | .select fields => do
      walk.consume
      walk.requireShape .nodes "select() applies to a node stream"
      failIf (fields = []) .field "select() requires at least one field"
      fields.forM walk.requireField
      pure ({ walk with shape := .rows, selected := fields }, .select fields)
  | .count => do
      walk.consume
      pure ({ walk with shape := .scalar }, .count)
  | .distinct => do
      walk.consume
      pure (walk, .distinct)
  | .orderBy fields => do
      walk.consume
      failIf (walk.shape = .path) .stage "order_by() does not apply to a path stream; use rank()"
      failIf (fields = []) .field "order_by() requires at least one field"
      fields.forM walk.requireOrderField
      pure (walk, .orderBy fields)
  | .limit n => do
      walk.consume
      failIf (n < 1) .limit "limit must be >= 1"
      pure (walk, .limit n)
  | .rank topN => do
      walk.consume
      walk.requireShape .path "rank() applies to a path stream"
      failIf (topN < 0) .limit "rank() top_n must be >= 0"
      pure (walk, .rank topN)
  | .reverseTypeUse maxDepth => do
      walk.consume
      walk.requireShape .nodes "reverse_type_use() applies to a node stream"
      failIf (walk.active ≠ .type ∧ walk.active ≠ .typeLayer) .view
        "reverse_type_use() requires a type or type_layer node stream"
      failIf (maxDepth < 1 ∨ 32 < maxDepth) .depth "max_depth must satisfy 1 <= max_depth <= 32"
      pure ({ walk with shape := .path }, .reverseTypeUse maxDepth)
  -- `walkStage` checks these.
  | .setOp op operand => .ok (walk, .setOp op operand)
  | .path operand relation minDepth maxDepth shortest inbound =>
    .ok (walk, .path operand relation minDepth maxDepth shortest inbound)

mutual

/-- `validate_walk`: where the walk ends, and the normalized plan. -/
def validateWalk : Plan → Except PlanError (WalkState × Plan)
  | .mk source stages => do
      let walk ← start source
      let (walk, stages) ← walkStages stages walk
      walk.consume
      pure (walk, .mk source stages)

/-- The loop over the stages. -/
def walkStages : List Stage → WalkState → Except PlanError (WalkState × List Stage)
  | [], walk => .ok (walk, [])
  | stage :: rest, walk => do
      let (walk, stage) ← walkStage stage walk
      let (walk, rest) ← walkStages rest walk
      pure (walk, stage :: rest)

def walkStage : Stage → WalkState → Except PlanError (WalkState × Stage)
  | .setOp op operand, walk => do
      failIf (walk.shape = .scalar) .stage "no stage may follow count()"
      walk.consume
      walk.requireShape .nodes "set operations apply to node streams"
      let (sub, operand) ← validateWalk operand
      checkOperand walk sub ""
      pure (walk, .setOp op operand)
  | .path operand relation minDepth maxDepth shortest inbound, walk => do
      failIf (walk.shape = .scalar) .stage "no stage may follow count()"
      let desc ← checkPath walk relation minDepth maxDepth shortest inbound
      let (sub, operand) ← validateWalk operand
      checkOperand walk sub "path() "
      pure ({ walk with shape := .path },
        .path operand ⟨some desc.layer, desc.name⟩ minDepth maxDepth shortest inbound)
  | stage, walk => do
      failIf (walk.shape = .scalar) .stage "no stage may follow count()"
      walkPlain walk stage

end

/-- `validate`. -/
def validate (plan : Plan) : Except PlanError Plan := (validateWalk plan).map Prod.snd

theorem walkStages_cons {stage : Stage} {rest normal : List Stage} {walk last : WalkState}
    (h : walkStages (stage :: rest) walk = .ok (last, normal)) :
    ∃ next stage' rest', walkStage stage walk = .ok (next, stage') ∧
      walkStages rest next = .ok (last, rest') ∧ stage' :: rest' = normal := by
  rw [walkStages] at h
  obtain ⟨⟨next, stage'⟩, hstage, h⟩ := ok_of_bind h
  obtain ⟨⟨_, rest'⟩, hrest, h⟩ := ok_of_bind h
  cases h
  exact ⟨next, stage', rest', hstage, hrest, rfl⟩

/-! ## Relations under their qualified names -/

variable {inbound : Bool} {operand : Plan} {desc : RelationDesc} {name relation : RelationName}
  {stage normal : Stage} {mode : TraversalMode} {active : View} {walk next : WalkState}
  {minDepth maxDepth shortest : ℤ}

theorem mem_relationCatalog_of_resolveRelation
    (h : resolveRelation name active inbound = some desc) : desc ∈ relationCatalog :=
  List.mem_of_find?_eq_some h

/-- A resolved relation is found again under its qualified name. -/
theorem resolveRelation_requalified (h : resolveRelation name active inbound = some desc) :
    resolveRelation ⟨some desc.layer, desc.name⟩ active inbound = some desc := by
  cases inbound with
  | false => exact resolveRelation_qualified h active
  | true =>
    have hmem := mem_relationCatalog_of_resolveRelation h
    have hmatch := List.find?_some h
    have htarget : desc.targetView = active := by
      cases hview : name.view with
      | none => simpa [hview] using (Bool.and_eq_true_iff.mp hmatch).1
      | some =>
        simp only [hview, Bool.and_eq_true, decide_eq_true_eq] at hmatch
        exact hmatch.1.2
    -- No two relations of a layer share their name and target.
    have hunique : ∀ desc ∈ relationCatalog, relationCatalog.find? (fun relation =>
        (relation.layer = desc.layer && relation.targetView = desc.targetView) &&
          relation.name = desc.name) = some desc := by decide +kernel
    rw [← htarget]
    exact hunique desc hmem

theorem targetView_of_not_isTyped (hmem : desc ∈ relationCatalog) {view : View}
    (h : desc.isTyped view = false) : desc.targetView = desc.layer := by
  have hcatalog : ∀ desc ∈ relationCatalog, desc.virtualRelation = false →
      desc.targetView.isNode = true → desc.targetView = desc.layer := by decide +kernel
  simp only [RelationDesc.isTyped, Bool.or_eq_false_iff, Bool.not_eq_false'] at h
  exact hcatalog desc hmem h.1.1 h.1.2

theorem targetView_calls (hmem : desc ∈ relationCatalog)
    (hlayer : desc.layer = .symbol) (hname : desc.name = "calls") : desc.targetView = .symbol := by
  have hcatalog : ∀ desc ∈ relationCatalog, desc.layer = .symbol → desc.name = "calls" →
      desc.targetView = .symbol := by decide +kernel
  exact hcatalog desc hmem hlayer hname

/-! ## What a stage does to the walk -/

def Stage.shapeAfter (shape : Shape) : Stage → Shape
  | .select _ => .rows
  | .count => .scalar
  | .path .. => .path
  | .reverseTypeUse _ => .path
  | _ => shape

def Stage.fieldsAfter (fields : List String) : Stage → List String
  | .select fields => fields
  | _ => fields

/-- The walk after a stage, as far as the executor follows it. -/
structure WalkState.Moves (walk next : WalkState) (stage : Stage) : Prop where
  active : next.active = stage.viewAfter walk.active
  shape : next.shape = stage.shapeAfter walk.shape
  selected : next.selected = stage.fieldsAfter walk.selected

theorem requireShape_eq_ok {shape : Shape}
    (h : walk.requireShape shape message = .ok u) : walk.shape = shape :=
  not_not.mp (failIf_eq_ok.mp h)

theorem relation_eq_ok (h : walk.relation name inbound = .ok desc) :
    resolveRelation name walk.active inbound = some desc := by
  unfold WalkState.relation at h
  split at h
  · rename_i found hfound
    cases h
    exact hfound
  · cases h

section

variable (h : checkTraverse walk inbound relation mode minDepth maxDepth = .ok desc)
include h

theorem checkTraverse_eq_ok :
    resolveRelation relation walk.active inbound = some desc ∧ walk.shape = .nodes ∧
      (mode = .devirtualized → inbound = false ∧ desc.layer = .symbol ∧ desc.name = "calls") := by
  obtain ⟨_, _, h⟩ := ok_of_bind h
  obtain ⟨_, hshape, h⟩ := ok_of_bind h
  obtain ⟨_, hfound, h⟩ := ok_of_bind h
  obtain ⟨_, _, h⟩ := ok_of_two_binds h
  obtain ⟨_, hmode, h⟩ := ok_of_bind h
  cases h
  rw [failIf_eq_ok] at hmode
  refine ⟨relation_eq_ok hfound, requireShape_eq_ok hshape, ?_⟩
  intro hdevirtualized
  simp only [hdevirtualized, true_and, not_or, not_not, Bool.not_eq_true] at hmode
  exact hmode

theorem viewAfter_traverse : (if inbound then desc.layer else desc.targetView) =
      Stage.viewAfter walk.active
        (.traverse inbound ⟨some desc.layer, desc.name⟩ mode minDepth maxDepth) := by
  obtain ⟨hdesc, _, hmode⟩ := checkTraverse_eq_ok h
  have hmem := mem_relationCatalog_of_resolveRelation hdesc
  cases mode with
  | devirtualized =>
    obtain ⟨rfl, hlayer, hname⟩ := hmode rfl
    exact targetView_calls hmem hlayer hname
  | static =>
    simp only [Stage.viewAfter, resolveRelation_requalified hdesc]
    cases inbound with
    | true => simp
    | false =>
      cases htyped : desc.isTyped walk.active with
      | true => simp
      | false => simpa using targetView_of_not_isTyped hmem htyped

end

theorem checkPath_eq_ok (h : checkPath walk relation minDepth maxDepth shortest inbound = .ok desc) :
    resolveRelation relation walk.active inbound = some desc := by
  obtain ⟨_, _, _, h⟩ := ok_of_three_binds h
  obtain ⟨_, hfound, h⟩ := ok_of_bind h
  obtain ⟨_, _, _, h⟩ := ok_of_three_binds h
  cases h
  exact relation_eq_ok hfound

theorem walkPlain_moves
    (h : walkPlain walk stage = .ok (next, normal)) (hset : ∀ op operand, stage ≠ .setOp op operand)
    (hpath : ∀ operand relation minDepth maxDepth shortest inbound,
      stage ≠ .path operand relation minDepth maxDepth shortest inbound) : walk.Moves next normal := by
  cases stage with
  | nodes | limit =>
    obtain ⟨_, _, h⟩ := ok_of_two_binds h
    cases h
    exact ⟨rfl, rfl, rfl⟩
  | where_ | sites | rank topN =>
    obtain ⟨_, _, _, h⟩ := ok_of_three_binds h
    cases h
    exact ⟨rfl, rfl, rfl⟩
  | traverse =>
    obtain ⟨_, hdesc, h⟩ := ok_of_bind h
    cases h
    exact ⟨viewAfter_traverse hdesc, rfl, rfl⟩
  | select fields | orderBy fields | reverseTypeUse maxDepth =>
    obtain ⟨_, _, h⟩ := ok_of_two_binds h
    obtain ⟨_, _, h⟩ := ok_of_two_binds h
    cases h
    exact ⟨rfl, rfl, rfl⟩
  | changeView level | count | distinct =>
    obtain ⟨_, _, h⟩ := ok_of_bind h
    cases h
    exact ⟨rfl, rfl, rfl⟩
  | setOp op operand => exact absurd rfl (hset op operand)
  | path operand relation minDepth maxDepth shortest inbound =>
    exact absurd rfl (hpath operand relation minDepth maxDepth shortest inbound)

theorem walkStage_setOp {op : SortUnique.SetOp}
    (h : walkStage (.setOp op operand) walk = .ok (next, normal)) :
    ∃ sub operand', validateWalk operand = .ok (sub, operand') ∧ sub.shape = .nodes ∧
      sub.active = walk.active ∧ walk.shape = .nodes ∧ next = walk ∧ normal = .setOp op operand' := by
  rw [walkStage] at h
  obtain ⟨_, _, h⟩ := ok_of_two_binds h
  obtain ⟨_, hshape, h⟩ := ok_of_bind h
  obtain ⟨⟨sub, operand'⟩, hsub, h⟩ := ok_of_bind h
  obtain ⟨_, hcheck, h⟩ := ok_of_bind h
  obtain ⟨_, hnodes, hview⟩ := ok_of_bind hcheck
  rw [failIf_eq_ok, not_not] at hnodes hview
  cases h
  exact ⟨sub, operand', hsub, hnodes, hview, requireShape_eq_ok hshape, rfl, rfl⟩

/-- What validation of a path says. -/
theorem walkStage_path
    (h : walkStage (.path operand relation minDepth maxDepth shortest inbound) walk =
      .ok (next, normal)) :
    ∃ sub operand' desc, validateWalk operand = .ok (sub, operand') ∧ sub.shape = .nodes ∧
      sub.active = walk.active ∧ resolveRelation relation walk.active inbound = some desc ∧
      next = { walk with shape := .path } ∧
      normal = .path operand' ⟨some desc.layer, desc.name⟩ minDepth maxDepth shortest inbound := by
  rw [walkStage] at h
  obtain ⟨_, _, h⟩ := ok_of_bind h
  obtain ⟨desc, hdesc, h⟩ := ok_of_bind h
  obtain ⟨⟨sub, operand'⟩, hsub, h⟩ := ok_of_bind h
  obtain ⟨_, hcheck, h⟩ := ok_of_bind h
  obtain ⟨_, hnodes, hview⟩ := ok_of_bind hcheck
  rw [failIf_eq_ok, not_not] at hnodes hview
  cases h
  exact ⟨sub, operand', desc, hsub, hnodes, hview, checkPath_eq_ok hdesc, rfl, rfl⟩

/-- A validated stage moves the walk as the executor moves a stream. -/
theorem walkStage_moves (h : walkStage stage walk = .ok (next, normal)) : walk.Moves next normal := by
  cases stage with
  | setOp =>
    obtain ⟨_, _, _, _, _, _, rfl, rfl⟩ := walkStage_setOp h
    exact ⟨rfl, rfl, rfl⟩
  | path =>
    obtain ⟨_, _, _, _, _, _, _, rfl, rfl⟩ := walkStage_path h
    exact ⟨rfl, rfl, rfl⟩
  | _ =>
    rw [walkStage] at h
    · obtain ⟨_, _, h⟩ := ok_of_bind h
      exact walkPlain_moves h (by simp) (by simp)
    · simp
    · simp

/-! ## What a stage does to a stream -/

/-- The part of a stream that stages over nodes leave alone. -/
def Stream.frame (st : Stream) : Shape × List String × List (List Cell × ℤ) × List PathWitness × Bool :=
  (st.shape, st.fields, st.rows, st.paths, st.pathStream)

/-- Stages are checked in two parts. -/
theorem walkStages_append {before after normal : List Stage} {last : WalkState}
    (h : walkStages (before ++ after) walk = .ok (last, normal)) :
    ∃ middle before' after', walkStages before walk = .ok (middle, before') ∧
      walkStages after middle = .ok (last, after') ∧ normal = before' ++ after' := by
  induction before generalizing walk normal with
  | nil => exact ⟨walk, [], normal, rfl, h, rfl⟩
  | cons _ _ ih =>
    rw [List.cons_append, walkStages] at h
    obtain ⟨⟨_, stage'⟩, hstage, h⟩ := ok_of_bind h
    obtain ⟨⟨_, _⟩, hrest, h⟩ := ok_of_bind h
    cases h
    obtain ⟨middle, before', after', hbefore, hafter, rfl⟩ := ih hrest
    refine ⟨middle, stage' :: before', after', ?_, hafter, rfl⟩
    rw [walkStages]
    exact bind_eq_ok.mpr ⟨_, hstage, bind_eq_ok.mpr ⟨_, hbefore, rfl⟩⟩

namespace Exec

variable {idx : Index} {config : Config}
  {budgets : Budgets} {stages : List Stage} {fields : List String} {pred : Option Pred}
  {nodeLimit : Option ℕ} {afterId : Option ℤ} {stage : Stage} {st out : Stream}
  {unknown : UnknownPolicy} {walk next : WalkState}

theorem frame_filter {pred : Pred}
    (h : filter idx budgets st pred unknown = .ok out) : out.frame = st.frame := by
  unfold filter at h
  split at h
  · obtain ⟨_, _, rfl⟩ := map_eq_ok.mp h
    rfl
  · cases h
    rfl

theorem frame_enumerateAll
    (h : enumerateAll idx budgets st pred unknown afterId = .ok out) : out.frame = st.frame := by
  unfold enumerateAll at h
  split at h
  · obtain ⟨_, _, rfl⟩ := map_eq_ok.mp h
    rfl
  · split at h
    · cases h
    · cases pred with
      | none =>
        cases h
        rfl
      | some =>
        have hframe := frame_filter h
        exact hframe

theorem frame_enumerate (h : enumerate idx budgets st pred unknown afterId nodeLimit = .ok out) :
    out.frame = st.frame := by
  unfold enumerate at h
  split at h
  · split at h
    · cases h
      rfl
    · exact frame_enumerateAll h
  · split at h
    · cases h
      rfl
    · exact frame_enumerateAll h
  · exact frame_enumerateAll h

theorem frame_changeView (st : Stream) (level : View) : (changeView idx st level).frame = st.frame := by
  unfold changeView
  split
  · rfl
  · dsimp only
    split <;> rfl

theorem frame_moveTo (budgets : Budgets) (st : Stream) (target : View) (found : TypedReads) :
    (moveTo budgets st target found).frame = st.frame := by
  unfold moveTo
  split <;> rfl

theorem frame_traverse {inbound : Bool} {relation : RelationName} {minDepth maxDepth : ℤ}
    (h : traverse idx budgets st inbound relation minDepth maxDepth = .ok out) :
    out.frame = st.frame := by
  unfold traverse at h
  split at h
  · cases h
  · split at h
    · cases h
      exact frame_moveTo budgets st _ _
    · cases h
      rfl

theorem frame_setOpStage (op : SortUnique.SetOp) (st sub : Stream) :
    (setOpStage config op st sub).frame = st.frame := by
  unfold setOpStage setOp withKeys Stream.frame
  cases op with
  | union | intersect | except => cases hnode : st.view.isNode <;> simp [hnode]

/-- The stages that leave the frame of a stream alone. -/
def keepsFrame : Stage → Bool
  | .nodes .. | .changeView _ | .where_ .. | .traverse .. | .sites | .setOp .. => true
  | _ => false

theorem frame_runStage (hstage : keepsFrame stage = true)
    (h : runStage idx config nodeLimit stage st afterId = .ok out) : out.frame = st.frame := by
  cases stage with
  | nodes =>
    obtain ⟨_, hfound, rfl⟩ := map_eq_ok.mp h
    have hframe := frame_enumerate hfound
    exact hframe
  | changeView level =>
    cases h
    exact frame_changeView st level
  | where_ => exact frame_filter h
  | traverse _ _ mode =>
    cases mode with
    | static =>
      obtain ⟨_, hfound, rfl⟩ := map_eq_ok.mp h
      have hframe := frame_traverse hfound
      exact hframe
    | devirtualized =>
      cases h
      rfl
  | sites =>
    cases h
    rfl
  | setOp op =>
    obtain ⟨sub, _, hout⟩ := ok_of_bind h
    cases hout
    exact frame_setOpStage op st sub
  | _ => cases hstage

theorem shape_applyOrder (h : applyOrder idx budgets st fields = .ok out) :
    out.shape = st.shape ∧ out.fields = st.fields := by
  unfold applyOrder at h
  split at h
  · split at h
    · obtain ⟨_, _, rfl⟩ := map_eq_ok.mp h
      exact ⟨rfl, rfl⟩
    · obtain ⟨_, _, hrest⟩ := ok_of_bind h
      obtain ⟨_, _, hout⟩ := ok_of_bind hrest
      cases hout
      exact ⟨rfl, rfl⟩
  · cases h
    exact ⟨rfl, rfl⟩

theorem shape_applyDistinct (st : Stream) :
    (applyDistinct st).shape = st.shape ∧ (applyDistinct st).fields = st.fields := by
  unfold applyDistinct
  split
  · exact ⟨rfl, rfl⟩
  · split <;> exact ⟨rfl, rfl⟩
  · exact ⟨rfl, rfl⟩

theorem shape_applyLimit (st : Stream) (n : ℤ) :
    (applyLimit st n).shape = st.shape ∧ (applyLimit st n).fields = st.fields := by
  unfold applyLimit
  dsimp only
  split
  · exact ⟨rfl, rfl⟩
  · split <;> exact ⟨rfl, rfl⟩
  · exact ⟨rfl, rfl⟩

theorem fields_materialize (h : materialize idx budgets st fields = .ok out) : out.fields = fields := by
  obtain ⟨_, _, hrest⟩ := ok_of_bind h
  split at hrest
  · cases hrest
    rfl
  · obtain ⟨_, _, hout⟩ := ok_of_bind hrest
    cases hout
    rfl

/-- The shape and the fields of a stream are the ones `validate` tracks. -/
theorem shape_runStage (h : runStage idx config nodeLimit stage st afterId = .ok out) :
    out.shape = stage.shapeAfter st.shape ∧ out.fields = stage.fieldsAfter st.fields := by
  have hkeeps : ∀ stage, keepsFrame stage = true →
      runStage idx config nodeLimit stage st afterId = .ok out →
        out.shape = st.shape ∧ out.fields = st.fields := by
    intro _ hstage h
    have hframe := frame_runStage hstage h
    exact ⟨congrArg Prod.fst hframe, congrArg (·.2.1) hframe⟩
  cases stage with
  | nodes | changeView | where_ | traverse | sites | setOp => exact hkeeps _ rfl h
  | select =>
    obtain ⟨_, hfound, rfl⟩ := map_eq_ok.mp h
    have hfields := fields_materialize hfound
    exact ⟨rfl, hfields⟩
  | count | rank | reverseTypeUse =>
    cases h
    exact ⟨rfl, rfl⟩
  | distinct =>
    cases h
    exact shape_applyDistinct st
  | orderBy => exact shape_applyOrder h
  | limit n =>
    cases h
    exact shape_applyLimit st n
  | path =>
    obtain ⟨_, _, hout⟩ := ok_of_bind h
    unfold pathStage at hout
    split at hout
    · cases hout
    · cases hout
      exact ⟨rfl, rfl⟩

/-! ## The stream follows the walk -/

/-- A stream with the view, the shape and the fields of the walk. -/
structure Follows (walk : WalkState) (st : Stream) : Prop where
  view : st.view = walk.active
  shape : st.shape = walk.shape
  fields : st.fields = walk.selected

theorem follows_initial {source : Source}
    (h : WalkState.start source = .ok walk) : Follows walk (initial idx source) := by
  unfold WalkState.start at h
  split at h
  · cases h
  · cases h
    exact ⟨rfl, rfl, rfl⟩

theorem follows_runStage {normal : Stage}
    (hfollows : Follows walk st) (hwalk : walkStage stage walk = .ok (next, normal))
    (h : runStage idx config nodeLimit normal st afterId = .ok out) : Follows next out := by
  have hmoves := walkStage_moves hwalk
  obtain ⟨hshape, hfields⟩ := shape_runStage h
  constructor
  · rw [view_runStage idx config h, hfollows.view, hmoves.active]
  · rw [hshape, hfollows.shape, hmoves.shape]
  · rw [hfields, hfollows.fields, hmoves.selected]

theorem walkStage_shape_ne_scalar {moved : WalkState × Stage}
    (h : walkStage stage walk = .ok moved) : walk.shape ≠ .scalar := by
  cases stage with
  | setOp | path =>
    rw [walkStage] at h
    obtain ⟨_, hcheck, _⟩ := ok_of_bind h
    exact failIf_eq_ok.mp hcheck
  | _ =>
    rw [walkStage] at h
    · obtain ⟨_, hcheck, _⟩ := ok_of_bind h
      exact failIf_eq_ok.mp hcheck
    · simp
    · simp

theorem walkStages_scalar (hscalar : walk.shape = .scalar)
    {moved : WalkState × List Stage} (h : walkStages stages walk = .ok moved) : stages = [] := by
  cases stages with
  | nil => rfl
  | cons =>
    rw [walkStages] at h
    obtain ⟨_, hstage, _⟩ := ok_of_bind h
    exact absurd hscalar (walkStage_shape_ne_scalar hstage)

/-- After the stages of a validated plan, and after any first few of them, the stream has the view
and the shape of the walk. -/
theorem follows_runStages {normal : List Stage}
    (hwalk : walkStages stages walk = .ok (next, normal)) (hfollows : Follows walk st)
    (h : runStages idx config nodeLimit normal st afterId = .ok out) : Follows next out := by
  induction stages generalizing walk normal st afterId with
  | nil =>
    cases hwalk
    obtain ⟨_, _, hout⟩ := ok_of_bind h
    cases hout
    exact hfollows
  | cons _ _ ih =>
    obtain ⟨_, _, _, hstage, hrest, rfl⟩ := walkStages_cons hwalk
    obtain ⟨_, _, h⟩ := ok_of_bind h
    obtain ⟨found, hfound, h⟩ := ok_of_bind h
    have hfollows' := follows_runStage hfollows hstage hfound
    by_cases hscalar : found.shape = .scalar
    · rw [if_pos hscalar] at h
      obtain ⟨_, _, hout⟩ := ok_of_bind h
      cases hout
      obtain rfl := walkStages_scalar (hfollows'.shape.symm.trans hscalar) hrest
      cases hrest
      exact hfollows'
    · rw [if_neg hscalar] at h
      exact ih hrest hfollows' h

end Exec

end CppIndexer.Query
