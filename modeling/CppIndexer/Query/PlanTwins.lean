/-
# One plan language or two

Both sides validate a plan and write the normalized one. They agree on a plan that reads no disputed field
and names no text with a delete character, and a plan that one of them accepts gets the same text from the
other exactly if it is such a plan.
-/

import CppIndexer.Query.CanonicalTexts
import CppIndexer.Query.PlanLanguages

namespace CppIndexer.Query

open Util (Bytes)
open Query Stage Pred Python Except

/-! ## Delete characters in plans -/

mutual

/-- The delete characters of the names and values that a predicate is written with. -/
def Pred.deletes : Pred → ℕ
  | .junction _ kids => kidsDeletes kids
  | .not kids => firstDeletes kids
  | .cmp op field strValues intValue =>
    Query.deletes field +
      if op = .inList then (strValues.map Query.deletes).sum
      else if intValue.isSome then 0 else Query.deletes (strValues.headD "")
  | .quantified _ relation target _ _ _ _ => Query.deletes relation.name + targetDeletes target

def kidsDeletes : List Pred → ℕ
  | [] => 0
  | kid :: rest => kid.deletes + kidsDeletes rest

def firstDeletes : List Pred → ℕ
  | [] => 0
  | kid :: _ => kid.deletes

def targetDeletes : Option Pred → ℕ
  | none => 0
  | some target => target.deletes

end

mutual

def Stage.deletes : Stage → ℕ
  | .nodes pred _ => targetDeletes pred
  | .where_ pred _ => pred.deletes
  | .traverse _ relation _ _ _ => Query.deletes relation.name
  | .setOp _ operand => operand.deletes
  | .select fields | .orderBy fields => (fields.map Query.deletes).sum
  | .path operand relation _ _ _ _ => Query.deletes relation.name + operand.deletes
  | _ => 0

def stagesDeletes : List Stage → ℕ
  | [] => 0
  | stage :: rest => stage.deletes + stagesDeletes rest

/-- The delete characters of the names and values of a plan. -/
def Plan.deletes : Plan → ℕ
  | .mk source stages =>
    (if source.kind = .codebase then 0 else Query.deletes source.ref) + stagesDeletes stages

end

/-! ## Delete characters in documents -/

/-- No key has a delete character. -/
theorem deletes_keys : deletes "op" = 0 ∧ deletes "preds" = 0 ∧ deletes "pred" = 0 ∧
    deletes "field" = 0 ∧ deletes "value" = 0 ∧ deletes "values" = 0 ∧ deletes "relation" = 0 ∧
    deletes "direction" = 0 ∧ deletes "min_depth" = 0 ∧ deletes "max_depth" = 0 ∧
    deletes "threshold" = 0 ∧ deletes "cxq" = 0 ∧ deletes "source" = 0 ∧ deletes "kind" = 0 ∧
    deletes "ref" = 0 ∧ deletes "stages" = 0 ∧ deletes "unknown" = 0 ∧ deletes "level" = 0 ∧
    deletes "mode" = 0 ∧ deletes "plan" = 0 ∧ deletes "fields" = 0 ∧ deletes "n" = 0 ∧
    deletes "shortest" = 0 ∧ deletes "to" = 0 ∧ deletes "top_n" = 0 ∧ deletes "not" = 0 ∧
    deletes "in" = 0 := by decide +kernel

theorem deletes_opNames : (∀ op : Junction, deletes op.text = 0) ∧ (∀ op : CmpOp, deletes op.text = 0) ∧
    (∀ op : QuantOp, deletes op.text = 0) ∧ (∀ kind : SourceKind, deletes kind.text = 0) ∧
    (∀ unknown, deletes (unknownPolicyName unknown) = 0) ∧
    (∀ mode, deletes (traversalModeName mode) = 0) ∧ (∀ view, deletes (viewName view) = 0) ∧
    ∀ op, deletes (setOpName op) = 0 := by
  refine ⟨?_, ?_, ?_, ?_, ?_, ?_, ?_, ?_⟩ <;> (intro x; cases x <;> decide +kernel)

theorem deletes_opName (stage : Stage) : deletes stage.opName = 0 := by
  have hall : ∀ name ∈ ["nodes", "view", "where", "in", "out", "sites", "select", "count", "distinct",
      "order_by", "limit", "path", "rank", "reverse_type_use"], deletes name = 0 := by decide +kernel
  cases stage with
  | traverse inbound =>
    cases inbound with
    | true => exact hall "in" (by simp)
    | false => exact hall "out" (by simp)
  | setOp op => exact deletes_opNames.2.2.2.2.2.2.2 op
  | _ =>
    apply hall
    simp [Stage.opName]

theorem deletes_append (a b : String) : deletes (a ++ b) = deletes a + deletes b := by
  rw [deletes, String.toList_append, List.countP_append]
  rfl

@[simp]
theorem deletes_relation (relation : RelationName) : deletes relation.text = deletes relation.name := by
  unfold RelationName.text
  cases relation.view with
  | none => rfl
  | some view =>
    rw [deletes_append, deletes_append, deletes_opNames.2.2.2.2.2.2.1 view]
    simp [show deletes "." = 0 by decide +kernel]

attribute [local simp] membersDeletes Doc.deletes deletes_keys deletes_opNames Stage.deletes itemsDeletes predToJson

theorem itemsDeletes_texts (values : List String) :
    itemsDeletes (values.map .text) = (values.map deletes).sum := by
  induction values with
  | nil => rfl
  | cons _ _ ih => simp [ih]

theorem membersDeletes_append (members later : List (String × Doc)) :
    membersDeletes (members ++ later) = membersDeletes members + membersDeletes later := by
  induction members with
  | nil => simp
  | cons _ _ ih => simp [ih, Nat.add_assoc]

theorem membersDeletes_memberUnless {absent : Prop} [Decidable absent] {key : String} {value : Doc}
    (h : deletes key = 0) :
    membersDeletes (memberUnless absent key value) = if absent then 0 else value.deletes := by
  unfold memberUnless
  by_cases habsent : absent
  · simp [habsent]
  · simp [habsent, h]

attribute [local simp] membersDeletes_append membersDeletes_memberUnless itemsDeletes_texts
  Pred.deletes

mutual

theorem deletes_predToJson : ∀ pred : Pred, (predToJson pred).deletes = pred.deletes
  | .junction op kids => by
      simp [deletes_kidsToJson kids]
  | .not kids => by
      simp [deletes_firstToJson kids]
  | .cmp op field strValues intValue => by
      by_cases hop : op = .inList
      · simp [hop]
      · cases intValue with
        | none | some =>
          simp [hop]
  | .quantified op relation target minDepth maxDepth threshold inbound => by
      simp [deletes_targetToJson target]

theorem deletes_kidsToJson : ∀ kids : List Pred, itemsDeletes (kidsToJson kids) = kidsDeletes kids
  | [] => rfl
  | kid :: rest => by
      rw [kidsToJson, itemsDeletes, kidsDeletes, deletes_predToJson kid, deletes_kidsToJson rest]

theorem deletes_firstToJson : ∀ kids : List Pred, membersDeletes (firstToJson kids) = firstDeletes kids
  | [] => rfl
  | kid :: _ => by
      simp [firstToJson, firstDeletes, deletes_predToJson kid]

theorem deletes_targetToJson : ∀ target : Option Pred,
    membersDeletes (targetToJson target) = targetDeletes target
  | none => rfl
  | some target => by
      simp [targetToJson, targetDeletes, deletes_predToJson target]

end

mutual

theorem deletes_planToJson : ∀ plan : Plan, (planToJson plan).deletes = plan.deletes
  | .mk source stages => by
      simp [planToJson, Plan.deletes, deletes_stagesToJson stages]

theorem deletes_stagesToJson : ∀ stages : List Stage,
    itemsDeletes (stagesToJson stages) = stagesDeletes stages
  | [] => rfl
  | stage :: rest => by
      simp [stagesToJson, stagesDeletes, deletes_opName, deletes_stageToJson stage,
        deletes_stagesToJson rest]

theorem deletes_stageToJson : ∀ stage : Stage, membersDeletes (stageToJson stage) = stage.deletes
  | .nodes pred unknown => by
      simp [stageToJson, deletes_targetToJson pred]
  | .where_ pred unknown => by
      simp [stageToJson, deletes_predToJson pred]
  | .traverse _ relation mode minDepth maxDepth | .rank topN | .select fields | .orderBy fields
  | .changeView _ | .limit _ | .reverseTypeUse _ => by
      simp [stageToJson]
  | .setOp _ operand | .path operand relation minDepth maxDepth shortest inbound => by
      simp [stageToJson, deletes_planToJson operand]
  | .sites | .count | .distinct => rfl

end

/-! ## Normalization -/

attribute [local simp] kidsDeletes

theorem kidsDeletes_append (kids later : List Pred) :
    kidsDeletes (kids ++ later) = kidsDeletes kids + kidsDeletes later := by
  induction kids with
  | nil => simp
  | cons _ _ ih => simp [ih, Nat.add_assoc]

theorem kidsDeletes_spliceKid (op : Junction) (kid : Pred) :
    kidsDeletes (spliceKid op kid) = kid.deletes := by
  unfold spliceKid
  split
  · split
    · rw [Pred.deletes]
    · simp
  · simp

theorem deletes_collapseJunction (op : Junction) (kids : List Pred) :
    (collapseJunction op kids).deletes = kidsDeletes kids := by
  unfold collapseJunction
  split
  · simp
  · rw [Pred.deletes]

theorem deletes_negate (kid : Pred) : (negate kid).deletes = kid.deletes := by
  unfold negate
  split <;> rw [Pred.deletes, firstDeletes]

theorem name_of_resolveRelation {relation : RelationName} {active : View} {inbound : Bool}
    {desc : RelationDesc} (h : resolveRelation relation active inbound = some desc) :
    desc.name = relation.name := by
  have hfound := List.find?_some h
  simp only [Bool.and_eq_true, decide_eq_true_eq] at hfound
  exact hfound.2

mutual

theorem deletes_normPred : ∀ {pred : Pred} {active : View} {normal : Pred},
    normPred pred active = .ok normal → normal.deletes = pred.deletes
  | .junction op kids, active, normal, h => by
      rw [normPred] at h
      split at h
      · cases h
      · obtain ⟨_, hflat, rfl⟩ := map_eq_ok.mp h
        rw [deletes_collapseJunction, deletes_normKids hflat, Pred.deletes]
  | .not [kid], active, normal, h => by
      rw [normPred] at h
      obtain ⟨_, hinner, rfl⟩ := map_eq_ok.mp h
      rw [deletes_negate, deletes_normPred hinner, Pred.deletes, firstDeletes]
  | .not [], active, normal, h | .not (_ :: _ :: _), active, normal, h => by
      rw [normPred] at h
      · cases h
      · simp
  | .cmp op field strValues intValue, active, normal, h => by
      rw [normPred] at h
      obtain ⟨_, _, rfl⟩ := map_eq_ok.mp h
      rfl
  | .quantified op relation target minDepth maxDepth threshold inbound, active, normal, h => by
      rw [normPred] at h
      split at h
      · cases h
      · rename_i desc hdesc
        split at h
        · cases h
        · split at h
          · cases h
          · obtain ⟨_, hinner, rfl⟩ := map_eq_ok.mp h
            rw [Pred.deletes, Pred.deletes, deletes_normTarget hinner, name_of_resolveRelation hdesc]

theorem deletes_normKids : ∀ {kids : List Pred} {op : Junction} {active : View} {flat : List Pred},
    normKids op kids active = .ok flat → kidsDeletes flat = kidsDeletes kids
  | [], op, active, flat, h => by
      rw [normKids] at h
      cases h
      rfl
  | kid :: rest, op, active, flat, h => by
      rw [normKids] at h
      obtain ⟨_, hfirst, h⟩ := ok_of_bind h
      obtain ⟨_, hlater, h⟩ := ok_of_bind h
      cases h
      rw [kidsDeletes_append, kidsDeletes_spliceKid, deletes_normPred hfirst, deletes_normKids hlater,
        kidsDeletes]

theorem deletes_normTarget : ∀ {target : Option Pred} {active : View} {normal : Option Pred},
    normTarget target active = .ok normal → targetDeletes normal = targetDeletes target
  | none, active, normal, h => by
      rw [normTarget] at h
      cases h
      rfl
  | some target, active, normal, h => by
      rw [normTarget] at h
      obtain ⟨_, hinner, rfl⟩ := map_eq_ok.mp h
      rw [targetDeletes, targetDeletes, deletes_normPred hinner]

end

theorem deletes_walkPlain {walk next : WalkState} {stage normal : Stage}
    (h : walkPlain walk stage = .ok (next, normal)) : normal.deletes = stage.deletes := by
  cases stage with
  | nodes =>
    obtain ⟨_, _, h⟩ := ok_of_bind h
    obtain ⟨_, hpred, h⟩ := ok_of_bind h
    cases h
    rw [Stage.deletes, Stage.deletes, deletes_normTarget hpred]
  | where_ =>
    obtain ⟨_, _, h⟩ := ok_of_two_binds h
    obtain ⟨_, hpred, h⟩ := ok_of_bind h
    cases h
    rw [Stage.deletes, Stage.deletes, deletes_normPred hpred]
  | traverse =>
    obtain ⟨_, hdesc, h⟩ := ok_of_bind h
    cases h
    rw [Stage.deletes, Stage.deletes, name_of_resolveRelation (checkTraverse_eq_ok hdesc).1]
  | sites | rank topN =>
    obtain ⟨_, _, _, h⟩ := ok_of_three_binds h
    cases h
    rfl
  | select fields | orderBy fields | reverseTypeUse maxDepth =>
    obtain ⟨_, _, h⟩ := ok_of_two_binds h
    obtain ⟨_, _, h⟩ := ok_of_two_binds h
    cases h
    rfl
  | changeView level | count | distinct =>
    obtain ⟨_, _, h⟩ := ok_of_bind h
    cases h
    rfl
  | limit =>
    obtain ⟨_, _, h⟩ := ok_of_two_binds h
    cases h
    rfl
  | setOp =>
    cases h
    rfl
  | path =>
    cases h
    rfl

mutual

theorem deletes_validateWalk : ∀ {plan : Plan} {walk : WalkState} {normal : Plan},
    validateWalk plan = .ok (walk, normal) → normal.deletes = plan.deletes
  | .mk source stages, walk, normal, h => by
      rw [validateWalk] at h
      obtain ⟨_, _, h⟩ := ok_of_bind h
      obtain ⟨⟨_, _⟩, hstages, h⟩ := ok_of_bind h
      obtain ⟨_, _, h⟩ := ok_of_bind h
      cases h
      rw [Plan.deletes, Plan.deletes, deletes_walkStages hstages]

theorem deletes_walkStages : ∀ {stages : List Stage} {walk last : WalkState} {normal : List Stage},
    walkStages stages walk = .ok (last, normal) → stagesDeletes normal = stagesDeletes stages
  | [], walk, last, normal, h => by
      cases h
      rfl
  | stage :: rest, walk, last, normal, h => by
      obtain ⟨_, _, _, hstage, hrest, rfl⟩ := walkStages_cons h
      rw [stagesDeletes, stagesDeletes, deletes_walkStage hstage, deletes_walkStages hrest]

theorem deletes_walkStage : ∀ {stage : Stage} {walk next : WalkState} {normal : Stage},
    walkStage stage walk = .ok (next, normal) → normal.deletes = stage.deletes
  | .setOp op operand, walk, next, normal, h => by
      obtain ⟨_, _, hoperand, _, _, _, _, rfl⟩ := walkStage_setOp h
      rw [Stage.deletes, Stage.deletes, deletes_validateWalk hoperand]
  | .path operand relation minDepth maxDepth shortest inbound, walk, next, normal, h => by
      obtain ⟨_, _, _, hoperand, _, _, hdesc, _, rfl⟩ := walkStage_path h
      rw [Stage.deletes, Stage.deletes, deletes_validateWalk hoperand, name_of_resolveRelation hdesc]
  | .nodes _ _, walk, next, normal, h | .changeView _, walk, next, normal, h
  | .where_ _ _, walk, next, normal, h | .traverse _ _ _ _ _, walk, next, normal, h
  | .sites, walk, next, normal, h | .select _, walk, next, normal, h | .count, walk, next, normal, h
  | .distinct, walk, next, normal, h | .orderBy _, walk, next, normal, h
  | .limit _, walk, next, normal, h | .rank _, walk, next, normal, h
  | .reverseTypeUse _, walk, next, normal, h => by
      rw [walkStage] at h
      · obtain ⟨_, _, h⟩ := ok_of_bind h
        exact deletes_walkPlain h
      · simp
      · simp

end

theorem deletes_validate {plan normal : Plan} (h : validate plan = .ok normal) :
    normal.deletes = plan.deletes := by
  obtain ⟨⟨_, _⟩, hwalk, rfl⟩ := map_eq_ok.mp h
  exact deletes_validateWalk hwalk

/-! ## The canonical texts -/

variable (plan : Plan)

theorem same_validate : Same plan.disputed (validate plan) (Python.validate plan) :=
  (same_validateWalk plan).map

/-- The two texts of a normalized plan. -/
theorem grown_canonical : Grown plan.deletes ((planToJson plan).emit 0) (encode 0 (planToDict plan)) := by
  rw [planToDict_eq, ← deletes_planToJson plan]
  exact grown_emit (planToJson plan) 0

/-- Both sides refuse a plan with one code, or write one text of it. -/
def Plan.Agrees : Prop :=
  (canonicalJson plan).mapError PlanError.code = (Python.canonicalJson plan).mapError PlanError.code

def Plan.Accepted : Prop :=
  (∃ normal, validate plan = .ok normal) ∨ ∃ normal, Python.validate plan = .ok normal

theorem agrees_of_undisputed {plan : Plan} (hdisputed : plan.disputed = false)
    (hdeletes : plan.deletes = 0) : plan.Agrees := by
  have hagree := (same_validate plan).agree hdisputed
  unfold Plan.Agrees canonicalJson Python.canonicalJson
  cases hcpp : validate plan with
  | error =>
    cases hpython : Python.validate plan with
    | error =>
      rw [hcpp, hpython] at hagree
      exact congrArg error (error.inj hagree)
    | ok =>
      rw [hcpp, hpython] at hagree
      cases hagree
  | ok normal =>
    cases hpython : Python.validate plan with
    | error =>
      rw [hcpp, hpython] at hagree
      cases hagree
    | ok normal' =>
      rw [hcpp, hpython] at hagree
      obtain rfl : normal = normal' := ok.inj hagree
      have hnone : normal.deletes = 0 := (deletes_validate hcpp).trans hdeletes
      exact congrArg ok ((grown_canonical normal).same hnone)

/-- A plan that both sides accept and write the same. -/
theorem undisputed_of_agrees {plan : Plan} (haccepted : plan.Accepted) (h : plan.Agrees) :
    plan.disputed = false ∧ plan.deletes = 0 := by
  unfold Plan.Agrees canonicalJson Python.canonicalJson at h
  obtain ⟨normal, normal', hcpp, hpython⟩ :
      ∃ normal normal', validate plan = .ok normal ∧ Python.validate plan = .ok normal' := by
    cases hcpp : validate plan with
    | error =>
      cases hpython : Python.validate plan with
      | error =>
        unfold Plan.Accepted at haccepted
        rw [hcpp, hpython] at haccepted
        cases haccepted with
        | inl hok | inr hok => cases hok.choose_spec
      | ok =>
        rw [hcpp, hpython] at h
        cases h
    | ok normal =>
      cases hpython : Python.validate plan with
      | error =>
        rw [hcpp, hpython] at h
        cases h
      | ok normal' => exact ⟨normal, normal', rfl, rfl⟩
  obtain rfl := (same_validate plan).eq_of_ok hcpp hpython
  rw [hcpp, hpython] at h
  have htexts := ok.inj h
  rw [← deletes_validate hcpp]
  exact ⟨(same_validate plan).settled normal normal hcpp hpython,
    (grown_canonical normal).eq_iff.mp htexts⟩

/-- The classes of the code base. -/
def classCount : Plan :=
  .mk ⟨.codebase, ""⟩ [.nodes (some (.cmp .eq "kind" ["class"] none)) .exclude, .count]

/-- A field of symbols that only Python has. -/
def instantiations : Plan :=
  .mk ⟨.codebase, ""⟩ [.nodes (some (.cmp .eq "is_instantiation" [] (some 1))) .exclude]

/-- A field of edges that only C++ compares as a string. -/
def edgesFrom : Plan :=
  .mk ⟨.codebase, ""⟩ [.changeView .edge, .nodes (some (.cmp .eq "source" ["f"] none)) .exclude]

def deletedEntity : Plan := .mk ⟨.entity, String.singleton (Char.ofNat 127)⟩ [.count]

end CppIndexer.Query
