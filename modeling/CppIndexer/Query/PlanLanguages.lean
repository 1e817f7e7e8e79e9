/-
# The two plan languages

Both validators return the same normalized plan, or fail with the same code, for every plan that is not
disputed, and no disputed plan is accepted by both. A plan that both accept is written as the same text
when no text in it has a delete character, which only the Python writer escapes.
-/

import CppIndexer.Query.PlanDisputes

namespace CppIndexer.Query

open Except (Twins)
open Python

/-! ## Predicates -/

theorem python_resolveRelation (name : RelationName) (active : View) (inbound : Bool) :
    Python.resolveRelation name active inbound = resolveRelation name active inbound := by
  unfold Python.resolveRelation resolveRelation
  congr 1
  funext row
  cases inbound <;> cases name.view <;> simp [Bool.and_comm]

theorem not_depth_iff {minDepth maxDepth : ℤ} :
    ¬(1 ≤ minDepth ∧ minDepth ≤ maxDepth ∧ maxDepth ≤ 32) ↔
      minDepth < 1 ∨ maxDepth < minDepth ∨ 32 < maxDepth := by
  omega

mutual

/-- Predicates are normalized to the same, or refused with the same code. -/
theorem same_normPred : ∀ (pred : Pred) (active : View),
    Same (pred.disputed active) (normPred pred active) (Python.normPred pred active)
  | .junction op kids, active => by
      rw [normPred, Python.normPred, Pred.disputed]
      cases kids with
      | nil => exact Twins.refl _
      | cons kid rest => exact (same_normKids op (kid :: rest) active).map
  | .not [], active | .not (kid :: kid' :: rest), active => by
      exact Twins.refl _
  | .not [kid], active => by
      rw [normPred, Python.normPred, Pred.disputed]
      exact (same_normPred kid active).map
  | .cmp op field strValues intValue, active => by
      rw [normPred, Python.normPred, Pred.disputed]
      exact (same_checkCmp op field strValues intValue active).map
  | .quantified op relation target minDepth maxDepth threshold inbound, active => by
      rw [normPred, Python.normPred, Pred.disputed, python_resolveRelation]
      cases resolveRelation relation active with
      | none => exact Twins.refl _
      | some desc =>
        simp only [not_depth_iff]
        split
        · exact Twins.error
        · split
          · exact Twins.error
          · exact (same_normTarget target desc.layer).map

theorem same_normKids : ∀ (op : Junction) (kids : List Pred) (active : View),
    Same (kidsDisputed kids active) (normKids op kids active) (Python.normKids op kids active)
  | _, [], _ => Twins.refl _
  | op, kid :: rest, active => by
      rw [normKids, Python.normKids, kidsDisputed]
      exact (same_normPred kid active).bind fun kid _ _ => (same_normKids op rest active).before

theorem same_normTarget : ∀ (target : Option Pred) (active : View),
    Same (targetDisputed target active) (normTarget target active) (Python.normTarget target active)
  | none, _ => Twins.refl _
  | some target, active => by
      rw [normTarget, Python.normTarget, targetDisputed]
      exact (same_normPred target active).map

end

/-! ## Stages -/

theorem python_fails : fails = failIf := rfl

variable (walk : WalkState)

theorem python_consume : consume walk = walk.consume := by
  rfl

theorem python_requireDepth (minDepth maxDepth : ℤ) :
    requireDepth minDepth maxDepth = WalkState.requireDepth minDepth maxDepth := by
  rw [requireDepth, WalkState.requireDepth, python_fails]
  simp only [not_depth_iff]

theorem python_relation (name : RelationName) (inbound : Bool) :
    relation walk name inbound = walk.relation name inbound := by
  rw [relation, WalkState.relation, python_resolveRelation] <;> rfl

theorem failIf_congr {p q : Prop} [Decidable p] [Decidable q] (h : p ↔ q) (code : ErrorCode)
    (message : String) : failIf p code message = failIf q code message := by
  simp [h]

theorem python_checkTraverse (inbound : Bool) (name : RelationName)
    (mode : TraversalMode) (minDepth maxDepth : ℤ) :
    Python.checkTraverse walk inbound name mode minDepth maxDepth =
      checkTraverse walk inbound name mode minDepth maxDepth := by
  unfold Python.checkTraverse checkTraverse
  simp only [python_consume, python_relation, python_requireDepth, python_fails]
  refine bind_congr fun _ => bind_congr fun _ => bind_congr fun row => bind_congr fun _ => ?_
  have htyped : (row.virtualRelation || !walk.active.isNode || !row.targetView.isNode) =
      row.isTyped walk.active := by
    rw [RelationDesc.isTyped, Bool.or_assoc, Bool.or_assoc, Bool.or_comm (!walk.active.isNode)]
  have hdepth : (row.virtualRelation || !walk.active.isNode || !row.targetView.isNode) = true ∧
      (minDepth ≠ 1 ∨ maxDepth ≠ 1) ↔
      row.isTyped walk.active = true ∧ ¬(minDepth = 1 ∧ maxDepth = 1) := by
    rw [htyped, not_and_or]
  have hmode : mode = .devirtualized ∧ ¬(inbound = false ∧ row.layer = .symbol ∧ row.name = "calls") ↔
      mode = .devirtualized ∧ (inbound = true ∨ row.layer ≠ .symbol ∨ row.name ≠ "calls") := by
    rw [not_and_or, not_and_or, Bool.not_eq_false]
  rw [failIf_congr hdepth, failIf_congr hmode]

theorem python_checkPath (name : RelationName) (minDepth maxDepth shortest : ℤ)
    (inbound : Bool) : Python.checkPath walk name minDepth maxDepth shortest inbound =
      checkPath walk name minDepth maxDepth shortest inbound := by
  unfold Python.checkPath checkPath
  simp only [python_consume, python_relation, python_requireDepth, python_fails]
  rfl

theorem same_requireField (field : String) :
    Same (fieldDisputed walk.active field) (walk.requireField field) (requireField walk field) := by
  rw [WalkState.requireField, requireField, python_fails, python_fieldAvailable]
  cases hd : fieldDisputed walk.active field with
  | false =>
    rw [Bool.or_false]
    exact Twins.refl _
  | true =>
    rw [fieldAvailable_of_disputed hd]
    exact ⟨fun hfalse => (nomatch hfalse), fun _ _ h => (nomatch h)⟩

theorem same_requireOrderField (field : String) :
    Same (fieldDisputed walk.active field) (walk.requireOrderField field)
      (requireOrderField walk field) :=
  (same_requireField walk field).before

/-- A stage without an operand. -/
theorem same_walkPlain (stage : Stage) (hplain : ∀ op operand, stage ≠ .setOp op operand)
    (hpath : ∀ operand name minDepth maxDepth shortest inbound,
      stage ≠ .path operand name minDepth maxDepth shortest inbound) :
    Same (stage.disputed walk.active) (walkPlain walk stage) (Python.walkPlain walk stage) := by
  cases stage with
  | nodes pred =>
    exact Twins.after fun _ _ => (same_normTarget pred walk.active).before
  | changeView | sites | count | distinct | limit | rank => exact Twins.refl _
  | where_ pred =>
    exact Twins.after fun _ _ => Twins.after fun _ _ => (same_normPred pred walk.active).before
  | traverse =>
    rw [walkPlain, Python.walkPlain, python_checkTraverse]
    exact Twins.refl _
  | select =>
    refine Twins.after fun _ _ => Twins.after fun _ _ => Twins.after fun _ _ => ?_
    exact (Twins.forM fun field _ => same_requireField walk field).before
  | orderBy =>
    refine Twins.after fun _ _ => Twins.after fun _ _ => Twins.after fun _ _ => ?_
    exact (Twins.forM fun field _ => same_requireOrderField walk field).before
  | reverseTypeUse maxDepth =>
    have hview : ¬(walk.active = .type ∨ walk.active = .typeLayer) ↔
        walk.active ≠ .type ∧ walk.active ≠ .typeLayer := not_or
    have hdepth : ¬(1 ≤ maxDepth ∧ maxDepth ≤ 32) ↔ maxDepth < 1 ∨ 32 < maxDepth := by omega
    rw [walkPlain, Python.walkPlain, python_fails, failIf_congr hview, failIf_congr hdepth]
    exact Twins.refl _
  | setOp op operand => exact absurd rfl (hplain op operand)
  | path operand name minDepth maxDepth shortest inbound =>
    exact absurd rfl (hpath operand name minDepth maxDepth shortest inbound)

variable {stage normal : Stage} {next walk : WalkState}

/-- A stage and its normal form lead to the same view. -/
theorem walkPlain_viewAfter (h : walkPlain walk stage = .ok (next, normal)) :
    normal.viewAfter walk.active = stage.viewAfter walk.active := by
  cases stage with
  | nodes | limit =>
    obtain ⟨_, _, h⟩ := ok_of_two_binds h
    cases h
    rfl
  | where_ | sites | rank topN =>
    obtain ⟨_, _, _, h⟩ := ok_of_three_binds h
    cases h
    rfl
  | traverse _ _ mode =>
    obtain ⟨_, hdesc, h⟩ := ok_of_bind h
    cases h
    have hfound := (checkTraverse_eq_ok hdesc).1
    cases mode with
    | devirtualized => rfl
    | static => simp [Stage.viewAfter, resolveRelation_requalified hfound, hfound]
  | select fields | orderBy fields | reverseTypeUse maxDepth =>
    obtain ⟨_, _, h⟩ := ok_of_two_binds h
    obtain ⟨_, _, h⟩ := ok_of_two_binds h
    cases h
    rfl
  | changeView level | count | distinct =>
    obtain ⟨_, _, h⟩ := ok_of_bind h
    cases h
    rfl
  | setOp =>
    cases h
    rfl
  | path =>
    cases h
    rfl

theorem walkStage_viewAfter (h : walkStage stage walk = .ok (next, normal)) :
    normal.viewAfter walk.active = stage.viewAfter walk.active := by
  cases stage with
  | setOp =>
    obtain ⟨_, _, _, _, _, _, rfl, rfl⟩ := walkStage_setOp h
    rfl
  | path =>
    obtain ⟨_, _, _, _, _, _, _, rfl, rfl⟩ := walkStage_path h
    rfl
  | _ =>
    rw [walkStage] at h
    · obtain ⟨_, _, h⟩ := ok_of_bind h
      exact walkPlain_viewAfter h
    · simp
    · simp

theorem python_start (source : Source) : start source = WalkState.start source := by
  unfold start WalkState.start Source.view
  cases hkind : source.kind with
  | codebase => simp
  | symbol => simp
  | entity => simp

theorem active_start {source : Source} (h : WalkState.start source = .ok walk) :
    walk.active = source.view := by
  unfold WalkState.start at h
  split at h
  · cases h
  · cases h
    rfl

mutual

/-- The walks over a plan end in the same state with the same plan. -/
theorem same_validateWalk : ∀ plan : Plan,
    Same plan.disputed (validateWalk plan) (Python.validateWalk plan)
  | .mk source stages => by
      rw [validateWalk, Python.validateWalk, Plan.disputed, python_start]
      refine Twins.after fun walk hwalk => ?_
      rw [← active_start hwalk]
      exact (same_walkStages stages walk).before

theorem same_walkStages : ∀ (stages : List Stage) (walk : WalkState),
    Same (stagesDisputed stages walk.active) (walkStages stages walk) (Python.walkStages stages walk)
  | [], walk => Twins.refl _
  | stage :: rest, walk => by
      rw [walkStages, Python.walkStages, stagesDisputed]
      refine (same_walkStage stage walk).bind fun moved hmoved _ => ?_
      obtain ⟨next, _⟩ := moved
      have hactive := (walkStage_moves hmoved).active
      rw [walkStage_viewAfter hmoved] at hactive
      rw [← hactive]
      exact (same_walkStages rest next).before

theorem same_walkStage : ∀ (stage : Stage) (walk : WalkState),
    Same (stage.disputed walk.active) (walkStage stage walk) (Python.walkStage stage walk)
  | .setOp op operand, walk => by
      rw [walkStage, Python.walkStage, Stage.disputed]
      refine Twins.after fun _ _ => Twins.after fun _ _ => Twins.after fun _ _ => ?_
      exact (same_validateWalk operand).before
  | .path operand name minDepth maxDepth shortest inbound, walk => by
      rw [walkStage, Python.walkStage, Stage.disputed, python_checkPath]
      refine Twins.after fun _ _ => Twins.after fun _ _ => ?_
      exact (same_validateWalk operand).before
  | .nodes pred unknown, walk =>
    Twins.after fun _ _ => same_walkPlain walk (.nodes pred unknown) (by simp) (by simp)
  | .changeView level, walk =>
    Twins.after fun _ _ => same_walkPlain walk (.changeView level) (by simp) (by simp)
  | .where_ pred unknown, walk =>
    Twins.after fun _ _ => same_walkPlain walk (.where_ pred unknown) (by simp) (by simp)
  | .traverse inbound name mode minDepth maxDepth, walk =>
    Twins.after fun _ _ => same_walkPlain walk (.traverse inbound name mode minDepth maxDepth)
      (by simp) (by simp)
  | .sites, walk => Twins.after fun _ _ => same_walkPlain walk .sites (by simp) (by simp)
  | .select fields, walk =>
    Twins.after fun _ _ => same_walkPlain walk (.select fields) (by simp) (by simp)
  | .count, walk => Twins.after fun _ _ => same_walkPlain walk .count (by simp) (by simp)
  | .distinct, walk => Twins.after fun _ _ => same_walkPlain walk .distinct (by simp) (by simp)
  | .orderBy fields, walk =>
    Twins.after fun _ _ => same_walkPlain walk (.orderBy fields) (by simp) (by simp)
  | .limit n, walk => Twins.after fun _ _ => same_walkPlain walk (.limit n) (by simp) (by simp)
  | .rank topN, walk => Twins.after fun _ _ => same_walkPlain walk (.rank topN) (by simp) (by simp)
  | .reverseTypeUse maxDepth, walk =>
    Twins.after fun _ _ => same_walkPlain walk (.reverseTypeUse maxDepth) (by simp) (by simp)

end

end CppIndexer.Query
