/-
# What the canonical text identifies

`canonical_json` leaves out what no stage reads: the reference of a source that is the code base, the
texts of a comparison with an integer, the threshold of a quantifier that has none. Everything else of a
validated plan is in its document, and the document is read back from the text. So validated plans with
the same canonical text agree in every field that is read, and they are executed alike on every index.

The writer takes texts to be in UTF-8. Of other bytes it keeps no trace: each of them becomes the
replacement character.
-/

import CppIndexer.Query.CanonicalReading
import CppIndexer.Query.CxqStages
import CppIndexer.Query.Normalization

namespace CppIndexer.Query

open Util (Bytes)
open Cxq (relationName_text)
open List Pred Stage Doc Util.Json

/-! ## The fields that are read -/

mutual

/-- A predicate without what `pred_sql` and `predicate_matches` do not read. -/
def Pred.asRead : Pred → Pred
  | .junction op kids => .junction op (kidsAsRead kids)
  | .not kids => .not (kidsAsRead kids)
  | .cmp op field strValues intValue =>
    .cmp op field (if (op = .eq ∨ op = .ne) ∧ intValue.isSome then [] else strValues) intValue
  | .quantified op relation target minDepth maxDepth threshold inbound =>
    .quantified op relation (targetAsRead target) minDepth maxDepth
      (if op = .atLeast ∨ op = .exactly then threshold else 0) inbound

def kidsAsRead : List Pred → List Pred
  | [] => []
  | kid :: rest => kid.asRead :: kidsAsRead rest

def targetAsRead : Option Pred → Option Pred
  | none => none
  | some target => some target.asRead

end

/-- The code base has no reference. -/
def Source.asRead (source : Source) : Source :=
  if source.kind = .codebase then { kind := .codebase } else source

mutual

/-- A stage without what its execution does not read. -/
def Stage.asRead : Stage → Stage
  | .nodes pred unknown => .nodes (targetAsRead pred) unknown
  | .where_ pred unknown => .where_ pred.asRead unknown
  | .setOp op operand => .setOp op operand.asRead
  | .path operand relation minDepth maxDepth shortest inbound =>
    .path operand.asRead relation minDepth maxDepth shortest inbound
  | stage => stage

def Plan.asRead : Plan → Plan
  | .mk source stages => .mk source.asRead (stagesAsRead stages)

def stagesAsRead : List Stage → List Stage
  | [] => []
  | stage :: rest => stage.asRead :: stagesAsRead rest

end

/-! ## Names -/

theorem Junction.text_injective {op op' : Junction} (h : op.text = op'.text) : op = op' := by
  cases op <;> cases op' <;> first | rfl | exact absurd h (by decide)

variable {op : CmpOp} {strValues : List String} {intValue : Option ℤ}
  {relation' relation : RelationName} {field : String} {active : View}

theorem CmpOp.text_injective {op' : CmpOp} (h : op.text = op'.text) : op = op' := by
  cases op <;> cases op' <;> first | rfl | exact absurd h (by decide)

theorem QuantOp.text_injective {op op' : QuantOp} (h : op.text = op'.text) : op = op' := by
  cases op <;> cases op' <;> first | rfl | exact absurd h (by decide)

theorem SourceKind.text_injective {kind kind' : SourceKind} (h : kind.text = kind'.text) :
    kind = kind' := by
  cases kind <;> cases kind' <;> first | rfl | exact absurd h (by decide)

theorem viewName_injective {view view' : View} (h : viewName view = viewName view') :
    view = view' := by
  cases view <;> cases view' <;> first | rfl | exact absurd h (by decide)

/-- Qualified relations are told apart by their texts. -/
theorem relationText_injective (hview : relation.view.isSome)
    (hview' : relation'.view.isSome) (h : relation.text = relation'.text) : relation = relation' := by
  obtain ⟨_ | view, name⟩ := relation
  · cases hview
  obtain ⟨_ | view', name'⟩ := relation'
  · cases hview'
  rw [← relationName_text view name, ← relationName_text view' name', h]

/-! ## Predicates -/

theorem checkValues_values {isString : Bool} (hglob : isString = false → op ≠ .glob)
    (h : checkValues op field strValues intValue isString = .ok ()) :
    (intValue.isSome → op = .eq ∨ op = .ne) ∧
      (intValue = none → op ≠ .inList → ∃ value, strValues = [value]) := by
  unfold checkValues at h
  split_ifs at h with hstring hint hlist hempty hlength hlist hnone
  · exact ⟨fun hsome => absurd hsome hint, fun _ hop => absurd hlist hop⟩
  · refine ⟨fun hsome => absurd hsome hint, fun _ _ => ?_⟩
    apply length_eq_one_iff.mp
    simpa using hlength
  · constructor
    · intro _
      cases op with
      | eq => exact .inl rfl
      | ne => exact .inr rfl
      | glob => exact absurd rfl (hglob (by simpa using hstring))
      | inList => exact absurd rfl hlist
    · intro hint
      exact absurd (by rw [hint]; rfl) hnone

/-- A comparison with an integer is an equality or its negation, and one with a text has just one text
unless it is a list. -/
theorem checkCmp_values (h : checkCmp op field strValues intValue active = .ok ()) :
    (intValue.isSome → op = .eq ∨ op = .ne) ∧
      (intValue = none → op ≠ .inList → ∃ value, strValues = [value]) := by
  unfold checkCmp at h
  split_ifs at h with havailable hnode hglob
  · unfold checkNodeCmp at h
    cases hdesc : fieldDesc field with
    | none => rw [hdesc] at h; cases h
    | some =>
      rw [hdesc] at h
      dsimp only at h
      split_ifs at h with hfilter hstring
      all_goals
        obtain ⟨_, hcheck, _⟩ := ok_of_bind h
        refine checkValues_values ?_ hcheck
        intro hnot hop
        exact hstring (by simp [hnot, hop])
  · exact checkValues_values (fun _ => hglob) h

def Pred.opName : Pred → String
  | .junction op _ => op.text
  | .not _ => "not"
  | .cmp op _ _ _ => op.text
  | .quantified op _ _ _ _ _ _ => op.text

/-- The members of a predicate behind its op. -/
def Pred.members : Pred → List (String × Doc)
  | .junction _ kids => [("preds", .arr (kidsToJson kids))]
  | .not kids => firstToJson kids
  | .cmp op field strValues intValue =>
    if op = .inList then [("field", .text field), ("values", .arr (strValues.map .text))]
    else
      [("field", .text field), ("value", match intValue with
        | some value => .int value
        | none => .text (strValues.headD ""))]
  | .quantified op relation target minDepth maxDepth threshold inbound =>
    ("relation", .text relation.text) :: memberUnless (inbound = false) "direction" (.text "in") ++
      [("min_depth", .int minDepth), ("max_depth", .int maxDepth)] ++
      memberUnless (¬(op = .atLeast ∨ op = .exactly)) "threshold" (.int threshold) ++
      targetToJson target

theorem predToJson_eq (pred : Pred) : predToJson pred = .obj (("op", .text pred.opName) :: pred.members) := by
  cases pred with
  | junction | not => rw [predToJson, Pred.opName, members]
  | cmp op => cases op <;> rfl
  | quantified =>
    rw [predToJson, Pred.opName, members]
    simp

theorem memberUnless_append_inj {absent absent' : Prop} [Decidable absent] [Decidable absent']
    {key : String} {value value' : Doc} {rest rest' : List (String × Doc)}
    (hkey : ∀ member ∈ rest.head?, member.1 ≠ key) (hkey' : ∀ member ∈ rest'.head?, member.1 ≠ key)
    (h : memberUnless absent key value ++ rest = memberUnless absent' key value' ++ rest') :
    (absent ↔ absent') ∧ (¬ absent → value = value') ∧ rest = rest' := by
  unfold memberUnless at h
  split_ifs at h with habsent habsent' habsent'
  · exact ⟨iff_of_true habsent habsent', fun hnot => absurd habsent hnot, h⟩
  · rw [nil_append] at h
    exact absurd rfl (hkey (key, value') (by rw [h]; rfl))
  · rw [nil_append] at h
    exact absurd rfl (hkey' (key, value) (by rw [← h]; rfl))
  · simp only [cons_append, nil_append, cons.injEq, Prod.mk.injEq, true_and] at h
    exact ⟨iff_of_false habsent habsent', fun _ => h.1, h.2⟩

def predIndex (op : String) : ℕ :=
  if op = "all_of" ∨ op = "any_of" then 0
  else if op = "not" then 1
  else if op ∈ ["eq", "ne", "glob", "in"] then 2
  else 3

theorem predIndex_opName (pred : Pred) : predIndex pred.opName = pred.ctorIdx := by
  cases pred with
  | junction op | cmp op | quantified op => cases op <;> rfl
  | not => rfl

/-- Documents of the same text are of predicates with the same op and the same members. -/
theorem predToJson_parts {p q : Pred} (h : predToJson p = predToJson q) :
    p.opName = q.opName ∧ p.ctorIdx = q.ctorIdx ∧ p.members = q.members := by
  rw [predToJson_eq, predToJson_eq, obj.injEq, cons.injEq, Prod.mk.injEq, text.injEq] at h
  obtain ⟨⟨-, hop⟩, hmembers⟩ := h
  have hidx := congrArg predIndex hop
  rw [predIndex_opName, predIndex_opName] at hidx
  exact ⟨hop, hidx, hmembers⟩

/-- A validated relation is qualified. -/
theorem isSome_view {desc : RelationDesc}
    (h : relation = ⟨some desc.layer, desc.name⟩) : relation.view.isSome := by
  rw [h]
  rfl

theorem cmp_members {field' : String} {strValues' : List String}
    {intValue' : Option ℤ} {active' : View}
    (hcheck : checkCmp op field strValues intValue active = .ok ())
    (hcheck' : checkCmp op field' strValues' intValue' active' = .ok ())
    (h : (Pred.cmp op field strValues intValue).members =
      (Pred.cmp op field' strValues' intValue').members) :
    (Pred.cmp op field strValues intValue).asRead = (Pred.cmp op field' strValues' intValue').asRead := by
  obtain ⟨hint, htext⟩ := checkCmp_values hcheck
  obtain ⟨hint', htext'⟩ := checkCmp_values hcheck'
  simp only [members] at h
  by_cases hlist : op = .inList
  · have hnone : intValue = none := by
      cases intValue with
      | none => rfl
      | some => simp [hlist] at hint
    have hnone' : intValue' = none := by
      cases intValue' with
      | none => rfl
      | some => simp [hlist] at hint'
    rw [if_pos hlist, if_pos hlist] at h
    simp only [cons.injEq, Prod.mk.injEq, text.injEq, arr.injEq, true_and, and_true] at h
    obtain ⟨rfl, hvalues⟩ := h
    have hstr : strValues = strValues' :=
      map_injective_iff.mpr (fun a b heq => text.inj heq) hvalues
    rw [hnone, hnone', hstr]
  · rw [if_neg hlist, if_neg hlist] at h
    simp only [cons.injEq, Prod.mk.injEq, text.injEq, true_and, and_true] at h
    obtain ⟨rfl, hvalue⟩ := h
    cases intValue with
    | none =>
      obtain ⟨value, rfl⟩ := htext rfl hlist
      cases intValue' with
      | none =>
        obtain ⟨value', rfl⟩ := htext' rfl hlist
        have hsame : value = value' := text.inj hvalue
        rw [hsame]
      | some => cases hvalue
    | some =>
      cases intValue' with
      | none => cases hvalue
      | some =>
        rw [int.inj hvalue, Pred.asRead, Pred.asRead, if_pos ⟨hint rfl, rfl⟩, if_pos ⟨hint rfl, rfl⟩]

variable {target target' : Option Pred}

/-- What a quantifier writes besides its target. -/
theorem quantified_members {op : QuantOp}
    {minDepth minDepth' maxDepth maxDepth' threshold threshold' : ℤ}
    {inbound inbound' : Bool} (hview : relation.view.isSome) (hview' : relation'.view.isSome)
    (h : (quantified op relation target minDepth maxDepth threshold inbound).members =
      (quantified op relation' target' minDepth' maxDepth' threshold' inbound').members) :
    relation = relation' ∧ minDepth = minDepth' ∧ maxDepth = maxDepth' ∧ inbound = inbound' ∧
      (op = .atLeast ∨ op = .exactly → threshold = threshold') ∧
        targetToJson target = targetToJson target' := by
  have hpred : ∀ target : Option Pred, ∀ member ∈ (targetToJson target).head?, member.1 ≠ "threshold" := by
    intro target _ hmember
    cases target with
    | none => cases hmember
    | some =>
      cases hmember
      show "pred" ≠ "threshold"
      decide
  simp only [members, cons_append, append_assoc, cons.injEq, Prod.mk.injEq, text.injEq, true_and] at h
  obtain ⟨htext, hrest⟩ := h
  obtain ⟨_, -, hdepths⟩ := memberUnless_append_inj (by simp) (by simp) hrest
  simp only [nil_append, cons.injEq, Prod.mk.injEq, int.injEq, true_and] at hdepths
  obtain ⟨rfl, rfl, hlast⟩ := hdepths
  obtain ⟨-, hthreshold, htarget⟩ := memberUnless_append_inj (hpred target) (hpred target') hlast
  refine ⟨relationText_injective hview hview' htext, rfl, rfl, ?_, ?_, htarget⟩
  · cases inbound <;> cases inbound' <;> simp_all
  · intro hop
    exact int.inj (hthreshold (not_not.mpr hop))

mutual

/-- Validated predicates with the same document agree in what is read of them. -/
theorem predToJson_read : ∀ (p q : Pred) (active active' : View),
    Normalized relationCatalog p active → Normalized relationCatalog q active' →
    predToJson p = predToJson q → p.asRead = q.asRead
  | .junction op kids, q, active, active', hp, hq, h => by
      obtain ⟨hop, hidx, hmembers⟩ := predToJson_parts h
      cases q with
      | junction op' kids' =>
        rw [Normalized] at hp hq
        rw [members, members] at hmembers
        simp only [cons.injEq, Prod.mk.injEq, arr.injEq, true_and, and_true] at hmembers
        rw [Pred.asRead, Pred.asRead, Junction.text_injective hop,
          kidsToJson_read op op' kids kids' active active' hp.2 hq.2 hmembers]
      | _ => cases hidx
  | .not [kid], q, active, active', hp, hq, h => by
      obtain ⟨_, hidx, hmembers⟩ := predToJson_parts h
      match q with
      | .not [kid'] =>
        simp only [members, firstToJson, cons.injEq, Prod.mk.injEq, true_and, and_true] at hmembers
        rw [Pred.asRead, Pred.asRead, kidsAsRead, kidsAsRead,
          predToJson_read kid kid' active active' hp.2 hq.2 hmembers]
        rfl
      | .not [] => exact hq.elim
      | .not (_ :: _ :: _) => exact hq.elim
      | .junction .. | .cmp .. | .quantified .. => cases hidx
  | .not [], q, active, active', hp, hq, h => hp.elim
  | .not (_ :: _ :: _), q, active, active', hp, hq, h => hp.elim
  | .cmp op field strValues intValue, q, active, active', hp, hq, h => by
      obtain ⟨hop, hidx, hmembers⟩ := predToJson_parts h
      cases q with
      | cmp =>
        obtain rfl := CmpOp.text_injective hop
        exact cmp_members hp hq hmembers
      | _ => cases hidx
  | .quantified op relation target minDepth maxDepth threshold inbound, q, active, active', hp, hq, h => by
      obtain ⟨hop, hidx, hmembers⟩ := predToJson_parts h
      cases q with
      | quantified _ _ target' =>
        obtain rfl := QuantOp.text_injective hop
        rw [Normalized] at hp hq
        obtain ⟨-, -, desc, hrelation, -, htarget⟩ := hp
        obtain ⟨-, -, desc', hrelation', -, htarget'⟩ := hq
        obtain ⟨rfl, rfl, rfl, rfl, hthreshold, hdocs⟩ :=
          quantified_members (isSome_view hrelation) (isSome_view hrelation') hmembers
        rw [Pred.asRead, Pred.asRead,
          targetToJson_read target target' desc.layer desc'.layer htarget htarget' hdocs]
        by_cases hbound : op = .atLeast ∨ op = .exactly
        · rw [if_pos hbound, if_pos hbound, hthreshold hbound]
        · rw [if_neg hbound, if_neg hbound]
      | _ => cases hidx

theorem kidsToJson_read : ∀ (op op' : Junction) (kids kids' : List Pred) (active active' : View),
    NormalizedKids relationCatalog op kids active → NormalizedKids relationCatalog op' kids' active' →
    kidsToJson kids = kidsToJson kids' → kidsAsRead kids = kidsAsRead kids'
  | _, _, [], [], _, _, _, _, _ => rfl
  | _, _, [], _ :: _, _, _, _, _, h => nomatch h
  | _, _, _ :: _, [], _, _, _, _, h => nomatch h
  | op, op', kid :: rest, kid' :: rest', active, active', hp, hq, h => by
      rw [NormalizedKids] at hp hq
      rw [kidsToJson, kidsToJson, cons.injEq] at h
      rw [kidsAsRead, kidsAsRead, predToJson_read kid kid' active active' hp.1.2 hq.1.2 h.1,
        kidsToJson_read op op' rest rest' active active' hp.2 hq.2 h.2]

theorem targetToJson_read : ∀ (target target' : Option Pred) (active active' : View),
    NormalizedTarget relationCatalog target active → NormalizedTarget relationCatalog target' active' →
    targetToJson target = targetToJson target' → targetAsRead target = targetAsRead target'
  | none, none, _, _, _, _, _ => rfl
  | none, some _, _, _, _, _, h => nomatch h
  | some _, none, _, _, _, _, h => nomatch h
  | some target, some target', active, active', hp, hq, h => by
      simp only [targetToJson, cons.injEq, Prod.mk.injEq, true_and, and_true] at h
      rw [targetAsRead, targetAsRead, predToJson_read target target' active active' hp hq h]

end

/-! ## Plans -/

mutual

/-- What validation leaves in a stage: normalized predicates, qualified relations and validated
operands. -/
def Stage.Written : Stage → Prop
  | .nodes pred _ => ∃ active, NormalizedTarget relationCatalog pred active
  | .where_ pred _ => ∃ active, Normalized relationCatalog pred active
  | .traverse _ relation _ _ _ => relation.view.isSome
  | .setOp _ operand => operand.Written
  | .path operand relation _ _ _ _ => relation.view.isSome ∧ operand.Written
  | _ => True

def Plan.Written : Plan → Prop
  | .mk _ stages => StagesWritten stages

def StagesWritten : List Stage → Prop
  | [] => True
  | stage :: rest => stage.Written ∧ StagesWritten rest

end

mutual

theorem written_of_validateWalkIn : ∀ (plan : Plan) (walk : WalkState),
    validateWalkIn relationCatalog plan = .ok (walk, plan) → plan.Written
  | .mk source stages, walk, h => by
      rw [validateWalkIn] at h
      obtain ⟨first, _, h⟩ := ok_of_bind h
      obtain ⟨⟨_, _⟩, hstages, h⟩ := ok_of_bind h
      obtain ⟨_, _, h⟩ := ok_of_bind h
      cases h
      exact written_of_walkStagesIn stages first _ hstages

theorem written_of_walkStagesIn : ∀ (stages : List Stage) (walk next : WalkState),
    walkStagesIn relationCatalog stages walk = .ok (next, stages) → StagesWritten stages
  | [], walk, next, h => trivial
  | stage :: rest, walk, next, h => by
      rw [walkStagesIn] at h
      obtain ⟨⟨middle, _⟩, hstage, h⟩ := ok_of_bind h
      obtain ⟨⟨_, _⟩, hrest, h⟩ := ok_of_bind h
      cases h
      exact ⟨written_of_walkStageIn stage walk _ hstage, written_of_walkStagesIn rest middle _ hrest⟩

theorem written_of_walkStageIn : ∀ (stage : Stage) (walk next : WalkState),
    walkStageIn relationCatalog stage walk = .ok (next, stage) → stage.Written
  | .setOp op operand, walk, next, h => by
      rw [walkStageIn] at h
      obtain ⟨_, _, _, h⟩ := ok_of_three_binds h
      obtain ⟨⟨_, _⟩, hsub, h⟩ := ok_of_bind h
      obtain ⟨_, _, h⟩ := ok_of_bind h
      cases h
      exact written_of_validateWalkIn operand _ hsub
  | .path operand relation minDepth maxDepth shortest inbound, walk, next, h => by
      rw [walkStageIn] at h
      obtain ⟨_, _, h⟩ := ok_of_bind h
      obtain ⟨_, _, h⟩ := ok_of_bind h
      obtain ⟨⟨_, _⟩, hsub, h⟩ := ok_of_bind h
      obtain ⟨_, _, h⟩ := ok_of_bind h
      cases h
      exact ⟨rfl, written_of_validateWalkIn operand _ hsub⟩
  | .nodes pred unknown, walk, next, h => by
      rw [walkStageIn_plain rfl] at h
      obtain ⟨_, _, h⟩ := ok_of_two_binds h
      obtain ⟨_, hpred, h⟩ := ok_of_bind h
      cases h
      exact ⟨walk.active, normalizedTarget_normTargetIn _ _ _ hpred⟩
  | .where_ pred unknown, walk, next, h => by
      rw [walkStageIn_plain rfl] at h
      obtain ⟨_, _, _, h⟩ := ok_of_three_binds h
      obtain ⟨_, hpred, h⟩ := ok_of_bind h
      cases h
      exact ⟨walk.active, normalized_normPredIn _ _ _ hpred⟩
  | .traverse inbound relation mode minDepth maxDepth, walk, next, h => by
      rw [walkStageIn_plain rfl] at h
      obtain ⟨_, _, h⟩ := ok_of_bind h
      obtain ⟨_, _, h⟩ := ok_of_bind h
      cases h
      rfl
  | .changeView _, _, _, _ | .sites, _, _, _ | .select _, _, _, _ | .count, _, _, _
  | .distinct, _, _, _ | .orderBy _, _, _, _ | .limit _, _, _, _ | .rank _, _, _, _
  | .reverseTypeUse _, _, _, _ => trivial

end

variable {plan normal : Plan}

theorem written_of_validate (h : validate plan = .ok normal) : normal.Written := by
  obtain ⟨⟨walk, found⟩, hwalk, rfl⟩ := map_eq_ok.mp h
  rw [← validateWalkIn_relationCatalog] at hwalk
  exact written_of_validateWalkIn found walk (validateWalkIn_again plan found walk hwalk)

def stageIndex (name : String) : ℕ :=
  if name = "nodes" then 0
  else if name = "view" then 1
  else if name = "where" then 2
  else if name = "in" ∨ name = "out" then 3
  else if name = "sites" then 4
  else if name ∈ ["union", "intersect", "except"] then 5
  else if name = "select" then 6
  else if name = "count" then 7
  else if name = "distinct" then 8
  else if name = "order_by" then 9
  else if name = "limit" then 10
  else if name = "path" then 11
  else if name = "rank" then 12
  else 13

theorem stageIndex_opName (stage : Stage) : stageIndex stage.opName = stage.ctorIdx := by
  cases stage with
  | traverse inbound => cases inbound <;> rfl
  | setOp op => cases op <;> rfl
  | _ => rfl

/-- Stages of the same name are made by the same constructor. -/
theorem ctorIdx_of_opName {stage stage' : Stage} (h : stage.opName = stage'.opName) :
    stage.ctorIdx = stage'.ctorIdx := by
  rw [← stageIndex_opName, ← stageIndex_opName, h]

theorem setOpName_injective {op op' : SortUnique.SetOp} (h : setOpName op = setOpName op') :
    op = op' := by
  cases op <;> cases op' <;> first | rfl | exact absurd h (by decide)

theorem texts_injective {fields fields' : List String} (h : fields.map text = fields'.map text) :
    fields = fields' :=
  map_injective_iff.mpr (fun _ _ heq => text.inj heq) h

variable {inbound inbound' : Bool} {rest' rest : List (String × Doc)}
  {relation' relation : RelationName} {mode mode' : TraversalMode} {unknown : UnknownPolicy}
  {maxDepth minDepth maxDepth' minDepth' : ℤ}

/-- A policy is left out if it is the default. -/
theorem unknownMember_injective {unknown' : UnknownPolicy}
    (h : memberUnless (unknown = .exclude) "unknown" (.text (unknownPolicyName unknown)) =
      memberUnless (unknown' = .exclude) "unknown" (.text (unknownPolicyName unknown'))) :
    unknown = unknown' := by
  cases unknown <;> cases unknown' <;>
    first
      | rfl
      | simp [memberUnless, unknownPolicyName] at h

/-- A number is left out if it is zero. -/
theorem zeroMember_injective {key : String} {n n' : ℤ}
    (h : memberUnless (n = 0) key (.int n) = memberUnless (n' = 0) key (.int n')) : n = n' := by
  unfold memberUnless at h
  split_ifs at h with hn hn' hn'
  · rw [hn, hn']
  · simpa using h

theorem targetToJson_append_inj
    (hkey : ∀ member ∈ rest.head?, member.1 ≠ "pred") (hkey' : ∀ member ∈ rest'.head?, member.1 ≠ "pred")
    (h : targetToJson target ++ rest = targetToJson target' ++ rest') :
    targetToJson target = targetToJson target' ∧ rest = rest' := by
  cases target with
  | none =>
    cases target' with
    | none => exact ⟨rfl, h⟩
    | some pred' => exact absurd rfl (hkey ("pred", predToJson pred') (by rw [show rest = _ from h]; rfl))
  | some pred =>
    cases target' with
    | none => exact absurd rfl (hkey' ("pred", predToJson pred) (by rw [show rest' = _ from h.symm]; rfl))
    | some =>
      simp only [targetToJson, cons_append, nil_append, cons.injEq] at h
      exact ⟨by simp only [targetToJson, h.1], h.2⟩

theorem mode_injective
    (hkey : ∀ member ∈ rest.head?, member.1 ≠ "mode") (hkey' : ∀ member ∈ rest'.head?, member.1 ≠ "mode")
    (h : memberUnless (mode = .static) "mode" (.text (traversalModeName mode)) ++ rest =
      memberUnless (mode' = .static) "mode" (.text (traversalModeName mode')) ++ rest') :
    mode = mode' ∧ rest = rest' := by
  obtain ⟨_, -, hrest⟩ := memberUnless_append_inj hkey hkey' h
  refine ⟨?_, hrest⟩
  cases mode <;> cases mode' <;> simp_all

theorem traverse_members (hview : relation.view.isSome) (hview' : relation'.view.isSome)
    (h : stageToJson (.traverse inbound relation mode minDepth maxDepth) =
      stageToJson (.traverse inbound' relation' mode' minDepth' maxDepth')) :
    relation = relation' ∧ mode = mode' ∧ minDepth = minDepth' ∧ maxDepth = maxDepth' := by
  simp only [stageToJson, cons_append, cons.injEq, Prod.mk.injEq, text.injEq, true_and] at h
  obtain ⟨htext, hrest⟩ := h
  obtain ⟨rfl, hdepths⟩ := mode_injective (by simp) (by simp) hrest
  simp only [cons.injEq, Prod.mk.injEq, int.injEq, true_and, and_true] at hdepths
  exact ⟨relationText_injective hview hview' htext, rfl, hdepths⟩

/-- What a path search writes. -/
theorem path_members {operand operand' : Plan} {shortest shortest' : ℤ}
    (hview : relation.view.isSome) (hview' : relation'.view.isSome)
    (h : stageToJson (.path operand relation minDepth maxDepth shortest inbound) =
      stageToJson (.path operand' relation' minDepth' maxDepth' shortest' inbound')) :
    relation = relation' ∧ inbound = inbound' ∧ minDepth = minDepth' ∧ maxDepth = maxDepth' ∧
      shortest = shortest' ∧ planToJson operand = planToJson operand' := by
  simp only [stageToJson, cons_append, append_assoc, cons.injEq, Prod.mk.injEq, text.injEq, true_and] at h
  obtain ⟨htext, hrest⟩ := h
  obtain ⟨_, -, hdepths⟩ := memberUnless_append_inj (by simp) (by simp) hrest
  simp only [nil_append, cons.injEq, Prod.mk.injEq, int.injEq, true_and] at hdepths
  obtain ⟨rfl, rfl, hlast⟩ := hdepths
  obtain ⟨hzero, hshortest, hoperand⟩ := memberUnless_append_inj (by simp) (by simp) hlast
  refine ⟨relationText_injective hview hview' htext, ?_, rfl, rfl, ?_, by simpa using hoperand⟩
  · cases inbound <;> cases inbound' <;> simp_all
  · by_cases habsent : shortest = 0
    · rw [habsent, hzero.mp habsent]
    · exact int.inj (hshortest habsent)

theorem unknown_head : ∀ member ∈
    (memberUnless (unknown = .exclude) "unknown" (.text (unknownPolicyName unknown))).head?,
    member.1 ≠ "pred" := by
  cases unknown <;> simp [memberUnless]

theorem source_members {source source' : Source}
    (h : ("kind", text source.kind.text) ::
        memberUnless (source.kind = .codebase) "ref" (.text source.ref) =
      ("kind", text source'.kind.text) ::
        memberUnless (source'.kind = .codebase) "ref" (.text source'.ref)) :
    source.asRead = source'.asRead := by
  obtain ⟨kind, _⟩ := source
  obtain ⟨_, _⟩ := source'
  simp only [cons.injEq, Prod.mk.injEq, text.injEq, true_and] at h
  obtain ⟨hkind, href⟩ := h
  obtain rfl := SourceKind.text_injective hkind
  cases kind with
  | codebase => rfl
  | symbol | entity => simpa [memberUnless, Source.asRead] using href

mutual

/-- Validated plans with the same document agree in what is read of them. -/
theorem planToJson_read : ∀ p q : Plan, p.Written → q.Written → planToJson p = planToJson q →
    p.asRead = q.asRead
  | .mk source stages, .mk source' stages', hp, hq, h => by
      simp only [planToJson, obj.injEq, arr.injEq, cons.injEq, Prod.mk.injEq, true_and, and_true] at h
      rw [Plan.asRead, Plan.asRead, source_members (by simpa using h.1),
        stagesToJson_read stages stages' hp hq h.2]

theorem stagesToJson_read : ∀ stages stages' : List Stage, StagesWritten stages →
    StagesWritten stages' → stagesToJson stages = stagesToJson stages' →
    stagesAsRead stages = stagesAsRead stages'
  | [], [], _, _, _ => rfl
  | [], _ :: _, _, _, h => nomatch h
  | _ :: _, [], _, _, h => nomatch h
  | stage :: rest, stage' :: rest', hp, hq, h => by
      simp only [stagesToJson, obj.injEq, cons.injEq, Prod.mk.injEq, text.injEq, true_and] at h
      rw [stagesAsRead, stagesAsRead, stageToJson_read stage stage' hp.1 hq.1 h.1.1 h.1.2,
        stagesToJson_read rest rest' hp.2 hq.2 h.2]

theorem stageToJson_read : ∀ stage stage' : Stage, stage.Written → stage'.Written →
    stage.opName = stage'.opName → stageToJson stage = stageToJson stage' → stage.asRead = stage'.asRead
  | .nodes pred unknown, stage', hp, hq, hop, h => by
      have hidx := ctorIdx_of_opName hop
      cases stage' with
      | nodes pred' =>
        rw [stageToJson, stageToJson] at h
        obtain ⟨htarget, hunknown⟩ := targetToJson_append_inj unknown_head unknown_head h
        obtain ⟨active, hp⟩ := hp
        obtain ⟨active', hq⟩ := hq
        rw [Stage.asRead, Stage.asRead, unknownMember_injective hunknown,
          targetToJson_read pred pred' active active' hp hq htarget]
      | _ => cases hidx
  | .changeView level, stage', hp, hq, hop, h => by
      have hidx := ctorIdx_of_opName hop
      cases stage' with
      | changeView =>
        simp only [stageToJson, cons.injEq, Prod.mk.injEq, text.injEq, true_and, and_true] at h
        rw [viewName_injective h]
      | _ => cases hidx
  | .where_ pred unknown, stage', hp, hq, hop, h => by
      have hidx := ctorIdx_of_opName hop
      cases stage' with
      | where_ pred' =>
        simp only [stageToJson, cons.injEq, Prod.mk.injEq, true_and] at h
        obtain ⟨active, hp⟩ := hp
        obtain ⟨active', hq⟩ := hq
        rw [Stage.asRead, Stage.asRead, unknownMember_injective h.2,
          predToJson_read pred pred' active active' hp hq h.1]
      | _ => cases hidx
  | .traverse inbound relation mode minDepth maxDepth, stage', hp, hq, hop, h => by
      have hidx := ctorIdx_of_opName hop
      cases stage' with
      | traverse inbound' =>
        obtain ⟨rfl, rfl, rfl, rfl⟩ := traverse_members hp hq h
        cases inbound <;> cases inbound' <;> first | rfl | simp [Stage.opName] at hop
      | _ => cases hidx
  | .setOp op operand, stage', hp, hq, hop, h => by
      have hidx := ctorIdx_of_opName hop
      cases stage' with
      | setOp _ operand' =>
        obtain rfl := setOpName_injective hop
        simp only [stageToJson, cons.injEq, Prod.mk.injEq, true_and, and_true] at h
        rw [Stage.asRead, Stage.asRead, planToJson_read operand operand' hp hq h]
      | _ => cases hidx
  | .sites, stage', hp, hq, hop, h | .count, stage', hp, hq, hop, h | .distinct, stage', hp, hq, hop, h => by
      have hidx := ctorIdx_of_opName hop
      cases stage' <;> first | rfl | cases hidx
  | .select fields, stage', hp, hq, hop, h => by
      have hidx := ctorIdx_of_opName hop
      cases stage' with
      | select =>
        simp only [stageToJson, cons.injEq, Prod.mk.injEq, arr.injEq, true_and, and_true] at h
        rw [texts_injective h]
      | _ => cases hidx
  | .orderBy fields, stage', hp, hq, hop, h => by
      have hidx := ctorIdx_of_opName hop
      cases stage' with
      | orderBy =>
        simp only [stageToJson, cons.injEq, Prod.mk.injEq, arr.injEq, true_and, and_true] at h
        rw [texts_injective h]
      | _ => cases hidx
  | .limit n, stage', hp, hq, hop, h => by
      have hidx := ctorIdx_of_opName hop
      cases stage' with
      | limit =>
        simp only [stageToJson, cons.injEq, Prod.mk.injEq, int.injEq, true_and, and_true] at h
        rw [h]
      | _ => cases hidx
  | .path operand relation minDepth maxDepth shortest inbound, stage', hp, hq, hop, h => by
      have hidx := ctorIdx_of_opName hop
      cases stage' with
      | path operand' =>
        obtain ⟨rfl, rfl, rfl, rfl, rfl, hoperand⟩ := path_members hp.1 hq.1 h
        rw [Stage.asRead, Stage.asRead, planToJson_read operand operand' hp.2 hq.2 hoperand]
      | _ => cases hidx
  | .rank topN, stage', hp, hq, hop, h => by
      have hidx := ctorIdx_of_opName hop
      cases stage' with
      | rank =>
        rw [stageToJson, stageToJson] at h
        rw [zeroMember_injective h]
      | _ => cases hidx
  | .reverseTypeUse maxDepth, stage', hp, hq, hop, h => by
      have hidx := ctorIdx_of_opName hop
      cases stage' with
      | reverseTypeUse =>
        simp only [stageToJson, cons.injEq, Prod.mk.injEq, int.injEq, true_and, and_true] at h
        rw [h]
      | _ => cases hidx

end

/-! ## Execution -/

theorem isSome_targetAsRead (target : Option Pred) : (targetAsRead target).isSome = target.isSome := by
  cases target <;> rfl

theorem cmpSql_asRead (op : CmpOp) (field : String) (strValues : List String) (intValue : Option ℤ)
    (column : Token) (next : ℕ) :
    cmpSql op field (if (op = .eq ∨ op = .ne) ∧ intValue.isSome then [] else strValues) intValue column next =
      cmpSql op field strValues intValue column next := by
  split
  · rename_i hint
    obtain ⟨hop, hsome⟩ := hint
    obtain ⟨_, rfl⟩ := Option.isSome_iff_exists.mp hsome
    cases hop with
    | inl heq => rw [heq]; rfl
    | inr hne => rw [hne]; rfl
  · rfl

theorem quantifierSql_asRead (op : QuantOp) (complete : Bool) (threshold : ℤ) :
    quantifierSql op complete (if op = .atLeast ∨ op = .exactly then threshold else 0) =
      quantifierSql op complete threshold := by
  cases op <;> rfl

mutual

theorem predSql_asRead : ∀ (pred : Pred) (active : View) (symbolAlias entityAlias : Alias) (next : ℕ),
    predSql pred.asRead active symbolAlias entityAlias next =
      predSql pred active symbolAlias entityAlias next
  | .junction op [], active, symbolAlias, entityAlias, next => rfl
  | .junction op (kid :: rest), active, symbolAlias, entityAlias, next => by
      rw [Pred.asRead, kidsAsRead, predSql, predSql, predSql_asRead kid]
      simp [moreKidsSql_asRead op rest]
  | .not [], active, symbolAlias, entityAlias, next => rfl
  | .not (kid :: rest), active, symbolAlias, entityAlias, next => by
      rw [Pred.asRead, kidsAsRead, predSql, predSql, predSql_asRead kid]
  | .cmp op field strValues intValue, active, symbolAlias, entityAlias, next => by
      rw [Pred.asRead, predSql, predSql]
      simp [cmpSql_asRead]
  | .quantified op relation target minDepth maxDepth threshold inbound, active, symbolAlias, entityAlias,
      next => by
      rw [Pred.asRead, predSql, predSql]
      cases resolveRelation relation active with
      | none => rfl
      | some desc =>
        have htarget : targetSql (targetAsRead target) desc.layer = targetSql target desc.layer := by
          funext symbolAlias entityAlias next
          exact targetSql_asRead target desc.layer symbolAlias entityAlias next
        dsimp only
        rw [htarget, isSome_targetAsRead, quantifierSql_asRead]

theorem moreKidsSql_asRead : ∀ (op : Junction) (kids : List Pred) (active : View)
    (symbolAlias entityAlias : Alias) (out : Emitted),
    moreKidsSql op (kidsAsRead kids) active symbolAlias entityAlias out =
      moreKidsSql op kids active symbolAlias entityAlias out
  | op, [], active, symbolAlias, entityAlias, out => rfl
  | op, kid :: rest, active, symbolAlias, entityAlias, out => by
      rw [kidsAsRead, moreKidsSql, moreKidsSql, predSql_asRead kid]
      simp [moreKidsSql_asRead op rest]

theorem targetSql_asRead : ∀ (target : Option Pred) (active : View) (symbolAlias entityAlias : Alias)
    (next : ℕ), targetSql (targetAsRead target) active symbolAlias entityAlias next =
      targetSql target active symbolAlias entityAlias next
  | none, active, symbolAlias, entityAlias, next => rfl
  | some target, active, symbolAlias, entityAlias, next => by
      rw [targetAsRead, targetSql, targetSql, predSql_asRead target]

end

mutual

theorem predicateFields_asRead : ∀ pred : Pred, predicateFields pred.asRead = predicateFields pred
  | .junction op kids => by
      rw [Pred.asRead, predicateFields, predicateFields, predicateFieldsOf_asRead kids]
  | .not kids => by rw [Pred.asRead, predicateFields, predicateFields, predicateFieldsOf_asRead kids]
  | .cmp op field strValues intValue => rfl
  | .quantified op relation target minDepth maxDepth threshold inbound => rfl

theorem predicateFieldsOf_asRead : ∀ kids : List Pred,
    predicateFieldsOf (kidsAsRead kids) = predicateFieldsOf kids
  | [] => rfl
  | kid :: rest => by
      rw [kidsAsRead, predicateFieldsOf, predicateFieldsOf, predicateFields_asRead kid,
        predicateFieldsOf_asRead rest]

end

theorem compareCell_asRead (view : View) (op : CmpOp) (field : String) (strValues : List String)
    (intValue : Option ℤ) (value : Cell) :
    compareCell view op field (if (op = .eq ∨ op = .ne) ∧ intValue.isSome then [] else strValues) intValue
      value = compareCell view op field strValues intValue value := by
  cases intValue with
  | none => simp
  | some => cases op <;> rfl

mutual

theorem predicateMatches_asRead (view : View) (fields : List String) (cells : List Cell) :
    ∀ pred : Pred, predicateMatches view fields cells pred.asRead =
      predicateMatches view fields cells pred
  | .junction .allOf kids | .junction .anyOf kids | .not kids => by
      rw [Pred.asRead, predicateMatches, predicateMatches, matchesOf_asRead view fields cells kids]
  | .cmp op field strValues intValue => by
      rw [Pred.asRead, predicateMatches, predicateMatches]
      simp [compareCell_asRead]
  | .quantified op relation target minDepth maxDepth threshold inbound => rfl

theorem matchesOf_asRead (view : View) (fields : List String) (cells : List Cell) :
    ∀ kids : List Pred, matchesOf view fields cells (kidsAsRead kids) = matchesOf view fields cells kids
  | [] => rfl
  | kid :: rest => by
      rw [kidsAsRead, matchesOf, matchesOf, predicateMatches_asRead view fields cells kid,
        matchesOf_asRead view fields cells rest]

end

theorem intEquality_asRead (pred : Option Pred) :
    Exec.intEquality (targetAsRead pred) = Exec.intEquality pred := by
  match pred with
  | none => rfl
  | some (.junction op kids) => rfl
  | some (.not kids) => rfl
  | some (.quantified op relation target minDepth maxDepth threshold inbound) => rfl
  | some (.cmp op field strValues intValue) =>
    cases op <;> cases intValue <;> rfl

variable (glob : String → String → Bool)

theorem filterNodes_asRead (db : Db) (view : View) (pred : Pred)
    (unknown : UnknownPolicy) (ids : List ℤ) :
    filterNodes glob db view pred.asRead unknown ids = filterNodes glob db view pred unknown ids := by
  have hchunk : ∀ chunk, filterChunk glob db view pred.asRead unknown chunk =
      filterChunk glob db view pred unknown chunk := by
    intro _
    rw [filterChunk, filterChunk, predSql_asRead]
  have hchunks : ∀ left ids, filterChunks glob db view pred.asRead unknown left ids =
      filterChunks glob db view pred unknown left ids := by
    intro left
    induction left with
    | zero =>
      intro _
      rfl
    | succ _ ih =>
      intro ids
      cases ids with
      | nil => rfl
      | cons => simp [filterChunks, hchunk, ih]
  rw [filterNodes, filterNodes, hchunks]

theorem enumerateNodes_asRead (db : Db) (budget : Budget) (view : View)
    (pred : Option Pred) (unknown : UnknownPolicy) (afterId : Option ℤ) :
    enumerateNodes glob db budget view (targetAsRead pred) unknown afterId =
      enumerateNodes glob db budget view pred unknown afterId := by
  cases pred with
  | none => rfl
  | some => simp [targetAsRead, enumerateNodes, predSql_asRead]

namespace Exec

variable (idx : Index) (config : Config)

theorem filter_asRead (st : Stream) (pred : Pred) (unknown : UnknownPolicy) :
    filter idx config.budgets st pred.asRead unknown = filter idx config.budgets st pred unknown := by
  unfold filter
  simp [filterNodes_asRead, predicateFields_asRead, predicateMatches_asRead]

theorem enumerateAll_asRead (st : Stream) (pred : Option Pred) (unknown : UnknownPolicy)
    (afterId : Option ℤ) : enumerateAll idx config.budgets st (targetAsRead pred) unknown afterId =
      enumerateAll idx config.budgets st pred unknown afterId := by
  have hfilter : ∀ st, filterWith idx config.budgets st (targetAsRead pred) unknown =
      filterWith idx config.budgets st pred unknown := by
    intro st
    cases pred with
    | none => rfl
    | some pred => exact filter_asRead idx config st pred unknown
  unfold enumerateAll
  simp [enumerateNodes_asRead, hfilter]

theorem enumerate_asRead (st : Stream) (pred : Option Pred) (unknown : UnknownPolicy)
    (afterId : Option ℤ) (nodeLimit : Option ℕ) :
    enumerate idx config.budgets st (targetAsRead pred) unknown afterId nodeLimit =
      enumerate idx config.budgets st pred unknown afterId nodeLimit := by
  unfold enumerate
  rw [intEquality_asRead]
  simp [enumerateAll_asRead]

theorem initial_asRead (source : Source) : initial idx source.asRead = initial idx source := by
  obtain ⟨kind, _⟩ := source
  cases kind <;> rfl

theorem stagesAsRead_eq_map (stages : List Stage) : stagesAsRead stages = stages.map Stage.asRead := by
  induction stages with
  | nil => rfl
  | cons _ _ ih => rw [stagesAsRead, ih, map_cons]

/-- The limit of a plan is not one of the fields that go. -/
theorem nodeLimit_asRead (stages : List Stage) :
    config.nodeLimit (stagesAsRead stages) = config.nodeLimit stages := by
  unfold Config.nodeLimit typedNodeLimit
  rw [stagesAsRead_eq_map, any_map, foldl_map]
  congr 2
  · congr 2
    funext stage
    cases stage <;> rfl
  · congr 1
    funext last stage
    cases stage <;> rfl

theorem plainStage_asRead (nodeLimit : Option ℕ) (stage : Stage) (st : Stream) (afterId : Option ℤ) :
    plainStage idx config nodeLimit stage.asRead st afterId =
      plainStage idx config nodeLimit stage st afterId := by
  cases stage with
  | nodes => simp [Stage.asRead, plainStage, enumerate_asRead]
  | where_ => simp [Stage.asRead, plainStage, filter_asRead]
  | _ => rfl

mutual

/-- A plan runs like the plan without what is not read. -/
theorem runPlan_asRead : ∀ (plan : Plan) (afterId : Option ℤ),
    runPlan idx config plan.asRead afterId = runPlan idx config plan afterId
  | .mk source stages, afterId => by
      rw [Plan.asRead, runPlan, runPlan, nodeLimit_asRead, initial_asRead, runStages_asRead stages]

theorem runStages_asRead : ∀ (stages : List Stage) (nodeLimit : Option ℕ) (st : Stream)
    (afterId : Option ℤ), runStages idx config nodeLimit (stagesAsRead stages) st afterId =
      runStages idx config nodeLimit stages st afterId
  | [], nodeLimit, st, afterId => rfl
  | stage :: rest, nodeLimit, st, afterId => by
      have hcursor : stage.asRead.cursorAfter afterId = stage.cursorAfter afterId := by
        cases stage <;> rfl
      rw [stagesAsRead, runStages, runStages, runStage_asRead stage, hcursor]
      simp [runStages_asRead rest]

theorem runStage_asRead : ∀ (stage : Stage) (nodeLimit : Option ℕ) (st : Stream) (afterId : Option ℤ),
    runStage idx config nodeLimit stage.asRead st afterId = runStage idx config nodeLimit stage st afterId
  | .setOp op operand, nodeLimit, st, afterId
  | .path operand relation minDepth maxDepth shortest inbound, nodeLimit, st, afterId => by
      rw [Stage.asRead, runStage, runStage, runPlan_asRead operand]
  | .nodes pred unknown, nodeLimit, st, afterId =>
    plainStage_asRead idx config nodeLimit (.nodes pred unknown) st afterId
  | .where_ pred unknown, nodeLimit, st, afterId =>
    plainStage_asRead idx config nodeLimit (.where_ pred unknown) st afterId
  | .changeView _, _, _, _ | .traverse .., _, _, _ | .sites, _, _, _ | .select _, _, _, _
  | .count, _, _, _ | .distinct, _, _, _ | .orderBy _, _, _, _ | .limit _, _, _, _
  | .rank _, _, _, _ | .reverseTypeUse _, _, _, _ => rfl

end

end Exec

/-- Two plans that are accepted and have the same canonical text agree in every field that is read,
and they are executed alike on every index, under any budgets, from any cursor and with any cap. -/
theorem canonicalJson_identifies (p q p' q' : Plan) (hp : validate p = .ok p') (hq : validate q = .ok q')
    (h : canonicalJson p = canonicalJson q) :
    p'.asRead = q'.asRead ∧ ∀ (idx : Index) (config : Config) (afterId resultCap : Option ℤ),
      Exec.run idx config p' afterId resultCap = Exec.run idx config q' afterId resultCap := by
  have hdoc : planToJson p' = planToJson q' := by
    rw [canonicalJson, canonicalJson, hp, hq] at h
    exact emit_injective (Except.ok.inj h)
  have hread := planToJson_read p' q' (written_of_validate hp) (written_of_validate hq) hdoc
  refine ⟨hread, ?_⟩
  intro idx config _ _
  rw [Exec.run, Exec.run, ← Exec.runPlan_asRead idx config p', hread, Exec.runPlan_asRead]

/-- The same query with a needless conjunction, a double negation and an unqualified relation, and without
them. -/
theorem canonicalJson_identifies_nested : ∃ p' q' : Plan, p' ≠ q' ∧
    ∀ (idx : Index) (config : Config) (afterId resultCap : Option ℤ),
      Exec.run idx config p' afterId resultCap = Exec.run idx config q' afterId resultCap := by
  refine ⟨.mk ⟨.codebase, "main"⟩ [.nodes (some flatPredicate) .exclude],
    .mk ⟨.codebase, ""⟩ [.nodes (some flatPredicate) .exclude], by simp, ?_⟩
  exact (canonicalJson_identifies (.mk ⟨.codebase, "main"⟩ [.nodes (some nestedPredicate) .exclude])
    (.mk ⟨.codebase, ""⟩ [.nodes (some flatPredicate) .exclude]) _ _ rfl rfl rfl).2

/-! ## Texts of any bytes -/

/-- A text each of whose characters stands for one byte. -/
def rawBytes (value : String) : Bytes := value.toList.map fun c => UInt8.ofNat c.toNat

mutual

/-- A document as a value of `json_out`, whatever the bytes of its texts are. -/
def Doc.toValue (bytes : String → Bytes) : Doc → Util.Json.Value
  | .int value => .int (Int64.ofInt value)
  | .text value => .str (bytes value)
  | .arr items => .arr (itemsToValues bytes items)
  | .obj members => .obj (membersToValues bytes members)

def itemsToValues (bytes : String → Bytes) : List Doc → List Util.Json.Value
  | [] => []
  | item :: items => item.toValue bytes :: itemsToValues bytes items

def membersToValues (bytes : String → Bytes) : List (String × Doc) → List (Bytes × Util.Json.Value)
  | [] => []
  | (key, value) :: members => (bytes key, value.toValue bytes) :: membersToValues bytes members

end

mutual

/-- The integers of a document are those of `int64_t`. -/
def Doc.Fits : Doc → Prop
  | .int value => (Int64.ofInt value).toInt = value
  | .text _ => True
  | .arr items => ItemsFit items
  | .obj members => MembersFit members

def ItemsFit : List Doc → Prop
  | [] => True
  | item :: items => item.Fits ∧ ItemsFit items

def MembersFit : List (String × Doc) → Prop
  | [] => True
  | (_, value) :: members => value.Fits ∧ MembersFit members

end

mutual

/-- On texts in UTF-8 this is the writer of documents. -/
theorem emit_toValue : ∀ (doc : Doc) (depth : ℕ), doc.Fits →
    Util.Json.emit depth (doc.toValue textBytes) = doc.emit depth
  | .int value, depth, h => by
      rw [toValue, Util.Json.emit, Doc.emit, h]
  | .text value, depth, h => by rw [toValue, Util.Json.emit, Doc.emit]
  | .arr [], depth, h => rfl
  | .arr (item :: items), depth, h => by
      rw [toValue, itemsToValues, Util.Json.emit, Doc.emit, ← itemsToValues,
        emitItems_toValue (item :: items) (depth + 1) h]
  | .obj [], depth, h => rfl
  | .obj ((key, value) :: members), depth, h => by
      rw [toValue, membersToValues, Util.Json.emit, Doc.emit, ← membersToValues,
        emitMembers_toValue ((key, value) :: members) (depth + 1) h]

theorem emitItems_toValue : ∀ (items : List Doc) (depth : ℕ), ItemsFit items →
    Util.Json.emitItems depth (itemsToValues textBytes items) = emitItems depth items
  | [], depth, h => rfl
  | [item], depth, h => by
      rw [itemsToValues, itemsToValues, Util.Json.emitItems, emitItems, emit_toValue item depth h.1]
  | item :: next :: items, depth, h => by
      have hrest := emitItems_toValue (next :: items) depth h.2
      rw [itemsToValues] at hrest ⊢
      rw [itemsToValues, Util.Json.emitItems, emitItems, emit_toValue item depth h.1, hrest]
      · simp
      · simp

theorem emitMembers_toValue : ∀ (members : List (String × Doc)) (depth : ℕ), MembersFit members →
    Util.Json.emitMembers depth (membersToValues textBytes members) = emitMembers depth members
  | [], depth, h => rfl
  | [(key, value)], depth, h => by
      rw [membersToValues, membersToValues, Util.Json.emitMembers, emitMembers,
        emit_toValue value depth h.1]
  | (key, value) :: (key', value') :: members, depth, h => by
      have hrest := emitMembers_toValue ((key', value') :: members) depth h.2
      rw [membersToValues] at hrest ⊢
      rw [membersToValues, Util.Json.emitMembers, emitMembers, emit_toValue value depth h.1, hrest]
      · simp
      · simp

end

/-- `canonical_json` of a plan whose texts are given by their bytes. -/
def canonicalJsonOfBytes (bytes : String → Bytes) (plan : Plan) : Except PlanError Bytes :=
  (validate plan).map fun normal => Util.Json.dumpsIndent2 ((planToJson normal).toValue bytes)

theorem canonicalJsonOfBytes_textBytes (h : validate plan = .ok normal)
    (hfits : (planToJson normal).Fits) : canonicalJsonOfBytes textBytes plan = canonicalJson plan := by
  have htext := emit_toValue (planToJson normal) 0 hfits
  rw [canonicalJsonOfBytes, canonicalJson, h]
  exact congrArg Except.ok htext

def countOf (name : String) : Plan := .mk ⟨.symbol, name⟩ [.count]

/-- One symbol, whose name is the byte 255. -/
def latinNames : Db where
  symbols := [⟨1, fun column => if column = .usr then some (.text "\u00ff") else none⟩]

/-- The bytes 255 and 254 are no text in UTF-8: both are written as the replacement character, and the
two plans find different symbols. -/
theorem canonicalJson_not_identifies_bytes : ¬ ∀ p q p' q' : Plan, validate p = .ok p' →
    validate q = .ok q' → canonicalJsonOfBytes rawBytes p = canonicalJsonOfBytes rawBytes q →
    ∀ idx : Index, Exec.run idx { budgets := .code } p' none none =
      Exec.run idx { budgets := .code } q' none none := by
  intro h
  have htexts : canonicalJsonOfBytes rawBytes (countOf "\u00ff") =
      canonicalJsonOfBytes rawBytes (countOf "\u00fe") := by
    decide +kernel
  have hrun := h (countOf "\u00ff") (countOf "\u00fe") _ _ rfl rfl htexts (.ofDb latinNames)
  revert hrun
  decide +kernel

end CppIndexer.Query
