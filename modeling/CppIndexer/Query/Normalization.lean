/-
# Normalization under any relation catalogue

`validate_walk` and `norm_pred` of `query/plan.cpp` with the table of relations as a parameter:
the table is generated, and what normalization does must not depend on its rows. A relation name
is resolved by the direction and the active view and comes back with its layer as a qualifier;
under that name it is found again. A normalized plan is left as it is.

A predicate is a tree of connectives over comparisons and quantifiers. Flattening, the collapse of
a single operand and the removal of double negations keep the leaves in their order and the Kleene
value of the tree, whatever the values of the leaves are.
-/

import CppIndexer.Query.Validate

namespace CppIndexer.Query

open List

section AnyCatalog

variable (catalog : List RelationDesc)

/-- `resolve_relation`. -/
def resolveRelationIn (name : RelationName) (active : View) (inbound : Bool) : Option RelationDesc :=
  catalog.find? fun relation =>
    (match inbound, name.view with
      | true, some forced => relation.layer = forced && relation.targetView = active
      | true, none => relation.targetView = active
      | false, forced => relation.layer = forced.getD active) && relation.name = name.name

mutual

/-- `norm_pred`. -/
def normPredIn : Pred → View → Except PlanError Pred
  | .junction op kids, active =>
    if kids.isEmpty then .error ⟨.field, "empty boolean combinator"⟩
    else (normKidsIn op kids active).map (collapseJunction op)
  | .not [kid], active => (normPredIn kid active).map negate
  | .not _, _ => .error ⟨.field, "not() takes exactly one predicate"⟩
  | .cmp op field strValues intValue, active =>
    (checkCmp op field strValues intValue active).map fun _ => .cmp op field strValues intValue
  | .quantified op relation target minDepth maxDepth threshold inbound, active =>
    match resolveRelationIn catalog relation active false with
    | none =>
      .error ⟨.relation, "unknown relation '" ++ relation.text ++ "' in " ++ viewName active ++
        " view"⟩
    | some desc =>
      if minDepth < 1 ∨ maxDepth < minDepth ∨ 32 < maxDepth then
        .error ⟨.depth, "depth bounds must satisfy 1 <= min <= max <= 32"⟩
      else if (op = .atLeast ∨ op = .exactly) ∧ threshold < 0 then
        .error ⟨.limit, "quantifier threshold must be >= 0"⟩
      else
        (normTargetIn target desc.layer).map fun target =>
          .quantified op ⟨some desc.layer, desc.name⟩ target minDepth maxDepth threshold
            inbound

def normKidsIn (op : Junction) : List Pred → View → Except PlanError (List Pred)
  | [], _ => .ok []
  | kid :: rest, active => do
      let kid ← normPredIn kid active
      let rest ← normKidsIn op rest active
      pure (spliceKid op kid ++ rest)

/-- The target of a quantifier, if it has one. -/
def normTargetIn : Option Pred → View → Except PlanError (Option Pred)
  | none, _ => .ok none
  | some target, active => (normPredIn target active).map some

end

open WalkState

variable (walk : WalkState)

def relationIn (name : RelationName) (inbound : Bool) : Except PlanError RelationDesc :=
  match resolveRelationIn catalog name walk.active inbound with
  | some desc => .ok desc
  | none => .error ⟨.relation, "unknown relation '" ++ name.text ++ "' in " ++ viewName walk.active ++
      " view"⟩

/-- The checks of `out()` and `in()`. -/
def checkTraverseIn (inbound : Bool) (relation : RelationName)
    (mode : TraversalMode) (minDepth maxDepth : ℤ) : Except PlanError RelationDesc := do
  walk.consume
  walk.requireShape .nodes "traversal applies to a node stream"
  let desc ← relationIn catalog walk relation inbound
  requireDepth minDepth maxDepth
  failIf (desc.isTyped walk.active ∧ ¬ (minDepth = 1 ∧ maxDepth = 1)) .depth
    "typed traversal currently supports only depth 1..1"
  failIf (mode = .devirtualized ∧ (inbound ∨ desc.layer ≠ .symbol ∨ desc.name ≠ "calls")) .stage
    "devirtualized mode requires an outbound symbol.calls traversal"
  pure desc

/-- The checks of `path()` up to its operand. -/
def checkPathIn (relation : RelationName) (minDepth maxDepth shortest : ℤ)
    (inbound : Bool) : Except PlanError RelationDesc := do
  walk.consume
  walk.requireShape .nodes "path() applies to a node stream"
  failIf (!walk.active.isNode) .view "path() requires a symbol or entity node stream"
  let desc ← relationIn catalog walk relation inbound
  failIf (desc.virtualRelation ∨ !desc.targetView.isNode) .relation
    "path() requires a non-typed symbol/entity relation"
  requireDepth minDepth maxDepth
  failIf (shortest < 0) .limit "path() shortest cap must be >= 0"
  pure desc

/-- A stage without an operand. -/
def walkPlainIn : Stage → Except PlanError (WalkState × Stage)
  | .nodes pred unknown => do
      failIf (!walk.codebaseUnenumerated) .stage
        "nodes() requires an unenumerated codebase() source"
      let pred ← normTargetIn catalog pred walk.active
      pure ({ walk with codebaseUnenumerated := false }, .nodes pred unknown)
  | .where_ pred unknown => do
      walk.requireShape .nodes "where() applies to a node stream"
      walk.consume
      let pred ← normPredIn catalog pred walk.active
      pure (walk, .where_ pred unknown)
  | .traverse inbound relation mode minDepth maxDepth => do
      let desc ← checkTraverseIn catalog walk inbound relation mode minDepth maxDepth
      pure ({ walk with active := if inbound then desc.layer else desc.targetView },
        .traverse inbound ⟨some desc.layer, desc.name⟩ mode minDepth maxDepth)
  -- The other stages name no relation.
  | stage => walkPlain walk stage

mutual

/-- `validate_walk`. -/
def validateWalkIn : Plan → Except PlanError (WalkState × Plan)
  | .mk source stages => do
      let walk ← start source
      let (walk, stages) ← walkStagesIn stages walk
      walk.consume
      pure (walk, .mk source stages)

/-- The loop over the stages. -/
def walkStagesIn : List Stage → WalkState → Except PlanError (WalkState × List Stage)
  | [], walk => .ok (walk, [])
  | stage :: rest, walk => do
      let (walk, stage) ← walkStageIn stage walk
      let (walk, rest) ← walkStagesIn rest walk
      pure (walk, stage :: rest)

def walkStageIn : Stage → WalkState → Except PlanError (WalkState × Stage)
  | .setOp op operand, walk => do
      failIf (walk.shape = .scalar) .stage "no stage may follow count()"
      walk.consume
      walk.requireShape .nodes "set operations apply to node streams"
      let (sub, operand) ← validateWalkIn operand
      checkOperand walk sub ""
      pure (walk, .setOp op operand)
  | .path operand relation minDepth maxDepth shortest inbound, walk => do
      failIf (walk.shape = .scalar) .stage "no stage may follow count()"
      let desc ← checkPathIn catalog walk relation minDepth maxDepth shortest inbound
      let (sub, operand) ← validateWalkIn operand
      checkOperand walk sub "path() "
      pure ({ walk with shape := .path },
        .path operand ⟨some desc.layer, desc.name⟩ minDepth maxDepth shortest inbound)
  | stage, walk => do
      failIf (walk.shape = .scalar) .stage "no stage may follow count()"
      walkPlainIn catalog walk stage

end

/-- `validate`. -/
def validateIn (plan : Plan) : Except PlanError Plan := (validateWalkIn catalog plan).map Prod.snd

end AnyCatalog

/-! ## Relations under their qualified names -/

variable {catalog : List RelationDesc}

/-- The first of the elements with a property is the first one with a stronger property that it
has. -/
theorem find?_of_imp {α : Type*} {p q : α → Bool} {list : List α} {first : α}
    (h : list.find? p = some first) (himp : ∀ other, q other = true → p other = true)
    (hq : q first = true) : list.find? q = some first := by
  obtain ⟨_, before, after, rfl, hbefore⟩ := find?_eq_some_iff_append.mp h
  apply find?_eq_some_iff_append.mpr
  refine ⟨hq, before, after, rfl, ?_⟩
  intro other hmem
  have hnot := hbefore other hmem
  cases hother : q other with
  | false => rfl
  | true => simp [himp other hother] at hnot

variable {name : RelationName}

/-- A resolved relation is found again under its qualified name. -/
theorem resolveRelationIn_requalified {active : View} {inbound : Bool}
    {desc : RelationDesc} (h : resolveRelationIn catalog name active inbound = some desc) :
    resolveRelationIn catalog ⟨some desc.layer, desc.name⟩ active inbound = some desc := by
  have hmatch := find?_some h
  simp only [Bool.and_eq_true, decide_eq_true_eq] at hmatch
  obtain ⟨hview, hname⟩ := hmatch
  unfold resolveRelationIn at h ⊢
  cases inbound with
  | false =>
    simp only [decide_eq_true_eq] at hview
    simpa [hview, hname] using h
  | true =>
    apply find?_of_imp h
    · intro _ hother
      simp only [Bool.and_eq_true, decide_eq_true_eq] at hother
      cases hforced : name.view with
      | none => simp [hother.1.2, hother.2, hname]
      | some =>
        simp only [hforced, Bool.and_eq_true, decide_eq_true_eq] at hview
        simp [hother.1.1, hother.1.2, hother.2, hname, hview.1]
    · have htarget : desc.targetView = active := by
        cases hforced : name.view with
        | none => simpa [hforced] using hview
        | some =>
          simp only [hforced, Bool.and_eq_true, decide_eq_true_eq] at hview
          exact hview.2
      simp [htarget]

/-! ## Predicates -/

section

variable (catalog)

mutual

/-- What `norm_pred` returns: flat junctions of several predicates, no double negation, qualified
relations, and comparisons that pass their checks. -/
def Normalized : Pred → View → Prop
  | .junction op kids, active => 2 ≤ kids.length ∧ NormalizedKids op kids active
  | .not [kid], active => negate kid = .not [kid] ∧ Normalized kid active
  | .not _, _ => False
  | .cmp op field strValues intValue, active =>
    checkCmp op field strValues intValue active = .ok ()
  | .quantified op relation target minDepth maxDepth threshold _, active =>
    ¬ (minDepth < 1 ∨ maxDepth < minDepth ∨ 32 < maxDepth) ∧
      ¬ ((op = .atLeast ∨ op = .exactly) ∧ threshold < 0) ∧
        ∃ desc, relation = ⟨some desc.layer, desc.name⟩ ∧
          resolveRelationIn catalog relation active false = some desc ∧
            NormalizedTarget target desc.layer

def NormalizedKids (op : Junction) : List Pred → View → Prop
  | [], _ => True
  | kid :: rest, active =>
    (spliceKid op kid = [kid] ∧ Normalized kid active) ∧ NormalizedKids op rest active

def NormalizedTarget : Option Pred → View → Prop
  | none, _ => True
  | some target, active => Normalized target active

end

end

variable {op : Junction} {kid : Pred} {active : View}

theorem normalizedKids_append {front back : List Pred} :
    NormalizedKids catalog op (front ++ back) active ↔
      NormalizedKids catalog op front active ∧ NormalizedKids catalog op back active := by
  induction front with
  | nil => simp [NormalizedKids]
  | cons _ _ ih => simp [NormalizedKids, ih, and_assoc]

theorem normalizedKids_spliceKid (h : Normalized catalog kid active) (op : Junction) :
    spliceKid op kid ≠ [] ∧ NormalizedKids catalog op (spliceKid op kid) active := by
  by_cases hsplice : spliceKid op kid = [kid]
  · rw [hsplice]
    exact ⟨by simp, ⟨hsplice, h⟩, trivial⟩
  · cases kid with
    | junction op' =>
      rw [Normalized] at h
      by_cases hop : op' = op
      · subst hop
        rw [spliceKid, if_pos rfl]
        refine ⟨?_, h.2⟩
        intro hempty
        simp [hempty] at h
      · exact absurd (by rw [spliceKid, if_neg hop]) hsplice
    | _ => exact absurd rfl hsplice

theorem normalized_collapseJunction {kids : List Pred}
    (hne : kids ≠ []) (h : NormalizedKids catalog op kids active) :
    Normalized catalog (collapseJunction op kids) active := by
  match kids with
  | [] => exact absurd rfl hne
  | [kid] => exact h.1.2
  | first :: second :: rest => exact ⟨by simp, h⟩

theorem normalized_negate (h : Normalized catalog kid active) :
    Normalized catalog (negate kid) active := by
  by_cases hnegate : negate kid = .not [kid]
  · rw [hnegate]
    exact ⟨hnegate, h⟩
  · match kid with
    | .not [inner] => exact h.2
    | .not [] => exact h.elim
    | .not (_ :: _ :: _) => exact h.elim
    | .junction .. | .cmp .. | .quantified .. => exact absurd rfl hnegate

mutual

theorem normalized_normPredIn : ∀ (p : Pred) (active : View) (q : Pred),
    normPredIn catalog p active = .ok q → Normalized catalog q active
  | .junction op kids, active, q, h => by
      rw [normPredIn] at h
      split at h
      · cases h
      · rename_i hkids
        obtain ⟨flat, hflat, rfl⟩ := map_eq_ok.mp h
        obtain ⟨hne, hnormal⟩ := normalizedKids_normKidsIn op kids active flat hflat
        exact normalized_collapseJunction (hne (by simpa using hkids)) hnormal
  | .not [kid], active, q, h => by
      rw [normPredIn] at h
      obtain ⟨inner, hinner, rfl⟩ := map_eq_ok.mp h
      exact normalized_negate (normalized_normPredIn kid active inner hinner)
  | .not [], active, q, h | .not (a :: b :: rest), active, q, h => by
      rw [normPredIn] at h
      · cases h
      · simp
  | .cmp op field strValues intValue, active, q, h => by
      rw [normPredIn] at h
      obtain ⟨_, hcheck, rfl⟩ := map_eq_ok.mp h
      exact hcheck
  | .quantified op relation target minDepth maxDepth threshold inbound, active, q, h => by
      rw [normPredIn] at h
      split at h
      · cases h
      · rename_i desc hdesc
        split at h
        · cases h
        · rename_i hdepth
          split at h
          · cases h
          · rename_i hthreshold
            obtain ⟨target', htarget, rfl⟩ := map_eq_ok.mp h
            refine ⟨hdepth, hthreshold, desc, rfl, resolveRelationIn_requalified hdesc, ?_⟩
            exact normalizedTarget_normTargetIn target desc.layer target' htarget

theorem normalizedKids_normKidsIn : ∀ (op : Junction) (kids : List Pred) (active : View)
    (flat : List Pred), normKidsIn catalog op kids active = .ok flat →
    (kids ≠ [] → flat ≠ []) ∧ NormalizedKids catalog op flat active
  | op, [], active, flat, h => by
      rw [normKidsIn] at h
      cases h
      exact ⟨fun hne => absurd rfl hne, trivial⟩
  | op, kid :: rest, active, flat, h => by
      rw [normKidsIn] at h
      obtain ⟨kid', hkid, h⟩ := ok_of_bind h
      obtain ⟨rest', hrest, h⟩ := ok_of_bind h
      cases h
      obtain ⟨hne, hfirst⟩ :=
        normalizedKids_spliceKid (normalized_normPredIn kid active kid' hkid) op
      obtain ⟨_, hlast⟩ := normalizedKids_normKidsIn op rest active rest' hrest
      exact ⟨fun _ hempty => hne (append_eq_nil_iff.mp hempty).1,
        normalizedKids_append.mpr ⟨hfirst, hlast⟩⟩

theorem normalizedTarget_normTargetIn : ∀ (target : Option Pred) (active : View)
    (target' : Option Pred), normTargetIn catalog target active = .ok target' →
    NormalizedTarget catalog target' active
  | none, active, target', h => by
      rw [normTargetIn] at h
      cases h
      trivial
  | some target, active, target', h => by
      rw [normTargetIn] at h
      obtain ⟨inner, hinner, rfl⟩ := map_eq_ok.mp h
      exact normalized_normPredIn target active inner hinner

end

mutual

theorem normPredIn_of_normalized : ∀ (q : Pred) (active : View), Normalized catalog q active →
    normPredIn catalog q active = .ok q
  | .junction op kids, active, h => by
      rw [Normalized] at h
      have hkids := normKidsIn_of_normalized op kids active h.2
      match kids, h.1 with
      | first :: second :: rest, _ =>
        rw [normPredIn, if_neg (by simp), hkids]
        rfl
  | .not [kid], active, h => by
      rw [Normalized] at h
      rw [normPredIn, normPredIn_of_normalized kid active h.2]
      exact congrArg Except.ok h.1
  | .not [], active, h => h.elim
  | .not (a :: b :: rest), active, h => h.elim
  | .cmp op field strValues intValue, active, h => by
      rw [Normalized] at h
      rw [normPredIn, h]
      rfl
  | .quantified op relation target minDepth maxDepth threshold inbound, active, h => by
      rw [Normalized] at h
      obtain ⟨hdepth, hthreshold, desc, hrelation, hdesc, htarget⟩ := h
      rw [normPredIn, hdesc]
      dsimp only
      rw [if_neg hdepth, if_neg hthreshold, normTargetIn_of_normalized target desc.layer htarget,
        hrelation]
      rfl

theorem normKidsIn_of_normalized : ∀ (op : Junction) (kids : List Pred) (active : View),
    NormalizedKids catalog op kids active → normKidsIn catalog op kids active = .ok kids
  | op, [], active, _ => by rw [normKidsIn]
  | op, kid :: rest, active, h => by
      rw [NormalizedKids] at h
      rw [normKidsIn, normPredIn_of_normalized kid active h.1.2,
        normKidsIn_of_normalized op rest active h.2]
      show Except.ok (spliceKid op kid ++ rest) = _
      rw [h.1.1]
      rfl

theorem normTargetIn_of_normalized : ∀ (target : Option Pred) (active : View),
    NormalizedTarget catalog target active → normTargetIn catalog target active = .ok target
  | none, active, _ => by rw [normTargetIn]
  | some target, active, h => by
      rw [normTargetIn, normPredIn_of_normalized target active h]
      rfl

end

variable {inbound : Bool} {desc : RelationDesc} {relation : RelationName} {stage normal : Stage}
  {active : View} {walk next : WalkState} {minDepth maxDepth : ℤ}

theorem normPredIn_again {p q : Pred} (h : normPredIn catalog p active = .ok q) :
    normPredIn catalog q active = .ok q :=
  normPredIn_of_normalized q active (normalized_normPredIn p active q h)

theorem normTargetIn_again {target target' : Option Pred}
    (h : normTargetIn catalog target active = .ok target') :
    normTargetIn catalog target' active = .ok target' :=
  normTargetIn_of_normalized target' active (normalizedTarget_normTargetIn target active target' h)

/-! ## Plans -/

theorem relationIn_again (h : relationIn catalog walk name inbound = .ok desc) :
    relationIn catalog walk ⟨some desc.layer, desc.name⟩ inbound = .ok desc := by
  unfold relationIn at h
  split at h
  · rename_i found hfound
    cases h
    rw [relationIn, resolveRelationIn_requalified hfound]
  · cases h

theorem checkTraverseIn_again {mode : TraversalMode}
    (h : checkTraverseIn catalog walk inbound relation mode minDepth maxDepth = .ok desc) :
    checkTraverseIn catalog walk inbound ⟨some desc.layer, desc.name⟩ mode minDepth maxDepth =
      .ok desc := by
  unfold checkTraverseIn at h ⊢
  obtain ⟨_, hconsume, h⟩ := ok_of_bind h
  obtain ⟨_, hshape, h⟩ := ok_of_bind h
  obtain ⟨found, hfound, h⟩ := ok_of_bind h
  have hdesc : found = desc := by
    obtain ⟨_, _, _, h⟩ := ok_of_three_binds h
    cases h
    rfl
  subst hdesc
  simp only [hconsume, hshape, relationIn_again hfound, bind, Except.bind]
  exact h

theorem checkPathIn_again {shortest : ℤ}
    (h : checkPathIn catalog walk relation minDepth maxDepth shortest inbound = .ok desc) :
    checkPathIn catalog walk ⟨some desc.layer, desc.name⟩ minDepth maxDepth shortest inbound =
      .ok desc := by
  unfold checkPathIn at h ⊢
  obtain ⟨_, hconsume, h⟩ := ok_of_bind h
  obtain ⟨_, hshape, h⟩ := ok_of_bind h
  obtain ⟨_, hnode, h⟩ := ok_of_bind h
  obtain ⟨found, hfound, h⟩ := ok_of_bind h
  have hdesc : found = desc := by
    obtain ⟨_, _, _, h⟩ := ok_of_three_binds h
    cases h
    rfl
  subst hdesc
  simp only [hconsume, hshape, hnode, relationIn_again hfound, bind, Except.bind]
  exact h

theorem walkPlainIn_again (h : walkPlainIn catalog walk stage = .ok (next, normal)) :
    walkPlainIn catalog walk normal = .ok (next, normal) := by
  cases stage with
  | nodes =>
    obtain ⟨_, hsource, h⟩ := ok_of_bind h
    obtain ⟨_, hpred, h⟩ := ok_of_bind h
    cases h
    simp only [walkPlainIn, hsource, normTargetIn_again hpred, bind, Except.bind]
    rfl
  | where_ =>
    obtain ⟨_, hshape, h⟩ := ok_of_bind h
    obtain ⟨_, hconsume, h⟩ := ok_of_bind h
    obtain ⟨_, hpred, h⟩ := ok_of_bind h
    cases h
    simp only [walkPlainIn, hshape, hconsume, normPredIn_again hpred, bind, Except.bind]
    rfl
  | traverse =>
    obtain ⟨_, hdesc, h⟩ := ok_of_bind h
    cases h
    simp only [walkPlainIn, checkTraverseIn_again hdesc, bind, Except.bind]
    rfl
  -- The remaining stages are returned unchanged.
  | changeView level | count | distinct =>
    have hsame := h
    obtain ⟨_, _, h⟩ := ok_of_bind h
    cases h
    exact hsame
  | limit =>
    have hsame := h
    obtain ⟨_, _, h⟩ := ok_of_two_binds h
    cases h
    exact hsame
  | sites | rank topN =>
    have hsame := h
    obtain ⟨_, _, _, h⟩ := ok_of_three_binds h
    cases h
    exact hsame
  | select fields | orderBy fields | reverseTypeUse maxDepth =>
    have hsame := h
    obtain ⟨_, _, h⟩ := ok_of_two_binds h
    obtain ⟨_, _, h⟩ := ok_of_two_binds h
    cases h
    exact hsame
  | setOp =>
    cases h
    rfl
  | path =>
    cases h
    rfl

/-- A stage that `walkStageIn catalog` leaves to `walkPlainIn catalog`. -/
def hasOperand : Stage → Bool
  | .setOp .. | .path .. => true
  | _ => false

theorem walkStageIn_plain (h : hasOperand stage = false) : walkStageIn catalog stage walk = (do
      failIf (walk.shape = .scalar) .stage "no stage may follow count()"
      walkPlainIn catalog walk stage) := by
  cases stage with
  | setOp => cases h
  | path => cases h
  | _ => rw [walkStageIn] <;> simp

theorem hasOperand_walkPlainIn
    (hstage : hasOperand stage = false) (h : walkPlainIn catalog walk stage = .ok (next, normal)) :
    hasOperand normal = false := by
  cases stage with
  | setOp => cases hstage
  | path => cases hstage
  | changeView level | count | distinct | traverse inbound relation mode minDepth maxDepth =>
    obtain ⟨_, _, h⟩ := ok_of_bind h
    cases h
    rfl
  | nodes pred unknown | limit n =>
    obtain ⟨_, _, h⟩ := ok_of_two_binds h
    cases h
    rfl
  | where_ pred unknown | sites | rank topN =>
    obtain ⟨_, _, _, h⟩ := ok_of_three_binds h
    cases h
    rfl
  | select fields | orderBy fields | reverseTypeUse maxDepth =>
    obtain ⟨_, _, h⟩ := ok_of_two_binds h
    obtain ⟨_, _, h⟩ := ok_of_two_binds h
    cases h
    rfl

theorem walkPlainStageIn_again
    (hstage : hasOperand stage = false) (h : walkStageIn catalog stage walk = .ok (next, normal)) :
    walkStageIn catalog normal walk = .ok (next, normal) := by
  rw [walkStageIn_plain hstage] at h
  obtain ⟨_, hscalar, h⟩ := ok_of_bind h
  rw [walkStageIn_plain (hasOperand_walkPlainIn hstage h), hscalar]
  exact walkPlainIn_again h

mutual

/-- A validated plan passes validation unchanged. -/
theorem validateWalkIn_again : ∀ (plan normal : Plan) (walk : WalkState),
    validateWalkIn catalog plan = .ok (walk, normal) → validateWalkIn catalog normal = .ok (walk, normal)
  | .mk source stages, normal, walk, h => by
      rw [validateWalkIn] at h
      obtain ⟨first, hstart, h⟩ := ok_of_bind h
      obtain ⟨⟨_, _⟩, hstages, h⟩ := ok_of_bind h
      obtain ⟨_, hconsume, h⟩ := ok_of_bind h
      cases h
      rw [validateWalkIn, hstart]
      simp only [bind, Except.bind, walkStagesIn_again stages first _ _ hstages, hconsume]
      rfl

theorem walkStagesIn_again : ∀ (stages : List Stage) (walk next : WalkState) (normal : List Stage),
    walkStagesIn catalog stages walk = .ok (next, normal) →
    walkStagesIn catalog normal walk = .ok (next, normal)
  | [], walk, next, normal, h => by
      cases h
      rw [walkStagesIn]
  | stage :: rest, walk, next, normal, h => by
      rw [walkStagesIn] at h
      obtain ⟨⟨middle, _⟩, hstage, h⟩ := ok_of_bind h
      obtain ⟨⟨_, _⟩, hrest, h⟩ := ok_of_bind h
      cases h
      rw [walkStagesIn, walkStageIn_again stage walk _ _ hstage]
      simp only [bind, Except.bind, walkStagesIn_again rest middle _ _ hrest]
      rfl

theorem walkStageIn_again : ∀ (stage : Stage) (walk next : WalkState) (normal : Stage),
    walkStageIn catalog stage walk = .ok (next, normal) →
    walkStageIn catalog normal walk = .ok (next, normal)
  | .setOp op operand, walk, next, normal, h => by
      rw [walkStageIn] at h
      obtain ⟨_, hscalar, h⟩ := ok_of_bind h
      obtain ⟨_, hconsume, h⟩ := ok_of_bind h
      obtain ⟨_, hshape, h⟩ := ok_of_bind h
      obtain ⟨⟨_, _⟩, hsub, h⟩ := ok_of_bind h
      obtain ⟨_, hcheck, h⟩ := ok_of_bind h
      cases h
      rw [walkStageIn, hscalar]
      simp only [bind, Except.bind, hconsume, hshape, validateWalkIn_again operand _ _ hsub, hcheck]
      rfl
  | .path operand relation minDepth maxDepth shortest inbound, walk, next, normal, h => by
      rw [walkStageIn] at h
      obtain ⟨_, hscalar, h⟩ := ok_of_bind h
      obtain ⟨_, hdesc, h⟩ := ok_of_bind h
      obtain ⟨⟨_, _⟩, hsub, h⟩ := ok_of_bind h
      obtain ⟨_, hcheck, h⟩ := ok_of_bind h
      cases h
      rw [walkStageIn, hscalar]
      simp only [bind, Except.bind, checkPathIn_again hdesc, validateWalkIn_again operand _ _ hsub,
        hcheck]
      rfl
  | .nodes pred unknown, walk, next, normal, h | .changeView level, walk, next, normal, h
  | .where_ pred unknown, walk, next, normal, h | .sites, walk, next, normal, h
  | .select fields, walk, next, normal, h | .count, walk, next, normal, h
  | .distinct, walk, next, normal, h | .orderBy fields, walk, next, normal, h
  | .limit n, walk, next, normal, h | .rank topN, walk, next, normal, h
  | .reverseTypeUse maxDepth, walk, next, normal, h => walkPlainStageIn_again rfl h
  | .traverse inbound relation mode minDepth maxDepth, walk, next, normal, h =>
    walkPlainStageIn_again rfl h

end

/-! ## The generated table -/

mutual

theorem normPredIn_relationCatalog : ∀ (pred : Pred) (active : View),
    normPredIn relationCatalog pred active = normPred pred active
  | .junction op kids, active => by
      rw [normPredIn, normPred, normKidsIn_relationCatalog op kids active]
  | .not [kid], active => by rw [normPredIn, normPred, normPredIn_relationCatalog kid active]
  | .not [], active | .not (first :: second :: rest), active => by
      rw [normPredIn, normPred] <;> simp
  | .cmp op field strValues intValue, active => by rw [normPredIn, normPred]
  | .quantified op relation target minDepth maxDepth threshold inbound, active => by
      rw [normPredIn, normPred]
      simp only [normTargetIn_relationCatalog target]
      rfl

theorem normKidsIn_relationCatalog : ∀ (op : Junction) (kids : List Pred) (active : View),
    normKidsIn relationCatalog op kids active = normKids op kids active
  | op, [], active => by rw [normKidsIn, normKids]
  | op, kid :: rest, active => by
      rw [normKidsIn, normKids, normPredIn_relationCatalog kid active,
        normKidsIn_relationCatalog op rest active]

theorem normTargetIn_relationCatalog : ∀ (target : Option Pred) (active : View),
    normTargetIn relationCatalog target active = normTarget target active
  | none, active => by rw [normTargetIn, normTarget]
  | some target, active => by
      rw [normTargetIn, normTarget, normPredIn_relationCatalog target active]

end

theorem walkPlainIn_relationCatalog (walk : WalkState) (stage : Stage) :
    walkPlainIn relationCatalog walk stage = walkPlain walk stage := by
  cases stage with
  | nodes => simp [walkPlainIn, walkPlain, normTargetIn_relationCatalog]
  | where_ => simp [walkPlainIn, walkPlain, normPredIn_relationCatalog]
  | _ => rfl

mutual

/-- With the generated table, validation is the validation of the other modules. -/
theorem validateWalkIn_relationCatalog : ∀ plan : Plan,
    validateWalkIn relationCatalog plan = validateWalk plan
  | .mk source stages => by
      rw [validateWalkIn, validateWalk]
      simp [walkStagesIn_relationCatalog stages]

theorem walkStagesIn_relationCatalog : ∀ (stages : List Stage) (walk : WalkState),
    walkStagesIn relationCatalog stages walk = walkStages stages walk
  | [], walk => by rw [walkStagesIn, walkStages]
  | stage :: rest, walk => by
      rw [walkStagesIn, walkStages, walkStageIn_relationCatalog stage walk]
      simp [walkStagesIn_relationCatalog rest]

theorem walkStageIn_relationCatalog : ∀ (stage : Stage) (walk : WalkState),
    walkStageIn relationCatalog stage walk = walkStage stage walk
  | .setOp op operand, walk => by
      rw [walkStageIn, walkStage, validateWalkIn_relationCatalog operand]
  | .path operand relation minDepth maxDepth shortest inbound, walk => by
      rw [walkStageIn, walkStage, validateWalkIn_relationCatalog operand]
      rfl
  | .nodes _ _, walk | .changeView _, walk | .where_ _ _, walk | .traverse _ _ _ _ _, walk
  | .sites, walk | .select _, walk | .count, walk | .distinct, walk | .orderBy _, walk
  | .limit _, walk | .rank _, walk | .reverseTypeUse _, walk => by
      simp [walkStageIn, walkStage, walkPlainIn_relationCatalog]

end

theorem walkStage_plain {walk : WalkState} {stage : Stage} (h : hasOperand stage = false) :
    walkStage stage walk = (do
      failIf (walk.shape = .scalar) .stage "no stage may follow count()"
      walkPlain walk stage) := by
  rw [← walkStageIn_relationCatalog, walkStageIn_plain h, walkPlainIn_relationCatalog]

/-- A validated plan passes validation unchanged, so an entry point that validates its plan once
more runs the same stages. -/
theorem validateWalk_again (plan normal : Plan) (walk : WalkState)
    (h : validateWalk plan = .ok (walk, normal)) : validateWalk normal = .ok (walk, normal) := by
  rw [← validateWalkIn_relationCatalog] at h ⊢
  exact validateWalkIn_again plan normal walk h

/-! ## The values of the leaves -/

mutual

/-- The comparisons and quantifiers of a predicate, from left to right. -/
def leaves : Pred → List Pred
  | .junction _ kids => leavesOf kids
  | .not kids => leavesOf kids
  | .cmp op field strValues intValue => [.cmp op field strValues intValue]
  | .quantified op relation target minDepth maxDepth threshold inbound =>
    [.quantified op relation target minDepth maxDepth threshold inbound]

/-- The leaves of the kids in order. -/
def leavesOf : List Pred → List Pred
  | [] => []
  | kid :: rest => leaves kid ++ leavesOf rest

end

section Values

-- The value of each leaf by its position.
variable (assign : ℕ → Kleene)

mutual

/-- The value of a predicate whose first leaf has the given position. -/
def valueFrom : Pred → ℕ → Kleene
  | .junction op kids, first => op.kleene (valuesFrom kids first)
  | .not [kid], first => (valueFrom kid first).not
  | .not _, _ => none
  | .cmp .., first => assign first
  | .quantified .., first => assign first

def valuesFrom : List Pred → ℕ → List Kleene
  | [], _ => []
  | kid :: rest, first => valueFrom kid first :: valuesFrom rest (first + (leaves kid).length)

end

theorem leavesOf_append (front back : List Pred) :
    leavesOf (front ++ back) = leavesOf front ++ leavesOf back := by
  induction front with
  | nil => rfl
  | cons _ _ ih => rw [cons_append, leavesOf, leavesOf, ih, append_assoc]

theorem valuesFrom_append (front back : List Pred) (first : ℕ) : valuesFrom assign (front ++ back) first =
      valuesFrom assign front first ++ valuesFrom assign back (first + (leavesOf front).length) := by
  induction front generalizing first with
  | nil => rfl
  | cons _ _ ih =>
    rw [cons_append, valuesFrom, valuesFrom, ih, leavesOf, length_append, cons_append, Nat.add_assoc]

theorem leavesOf_singleton (kid : Pred) : leavesOf [kid] = leaves kid := by
  rw [leavesOf, leavesOf, append_nil]

theorem kleene_valuesFrom_singleton (op : Junction) (kid : Pred) (first : ℕ) :
    op.kleene (valuesFrom assign [kid] first) = valueFrom assign kid first := by
  rw [valuesFrom, valuesFrom, op.kleene_singleton]

theorem leavesOf_spliceKid (op : Junction) (kid : Pred) : leavesOf (spliceKid op kid) = leaves kid := by
  unfold spliceKid
  split
  · split
    · rw [leaves]
    · exact leavesOf_singleton _
  · exact leavesOf_singleton _

theorem kleene_valuesFrom_spliceKid (op : Junction) (kid : Pred) (first : ℕ) :
    op.kleene (valuesFrom assign (spliceKid op kid) first) = valueFrom assign kid first := by
  unfold spliceKid
  split
  · split
    · rename_i heq
      rw [heq, valueFrom]
    · exact kleene_valuesFrom_singleton assign op _ first
  · exact kleene_valuesFrom_singleton assign op _ first

theorem leaves_collapseJunction (op : Junction) (kids : List Pred) :
    leaves (collapseJunction op kids) = leavesOf kids := by
  unfold collapseJunction
  split
  · exact (leavesOf_singleton _).symm
  · rw [leaves]

theorem valueFrom_collapseJunction (op : Junction) (kids : List Pred) (first : ℕ) :
    valueFrom assign (collapseJunction op kids) first = op.kleene (valuesFrom assign kids first) := by
  unfold collapseJunction
  split
  · exact (kleene_valuesFrom_singleton assign op _ first).symm
  · rw [valueFrom]

theorem leaves_negate (kid : Pred) : leaves (negate kid) = leaves kid := by
  unfold negate
  split <;> rw [leaves, leavesOf_singleton]

theorem valueFrom_negate (kid : Pred) (first : ℕ) :
    valueFrom assign (negate kid) first = (valueFrom assign kid first).not := by
  unfold negate
  split
  · rw [valueFrom, Kleene.not_not]
  · rw [valueFrom]

end Values

def LeafTo (catalog : List RelationDesc) (active : View) (leaf normal : Pred) : Prop :=
  normPredIn catalog leaf active = .ok normal

/-- What normalization keeps of a list of predicates, up to a junction of them: the leaves in
their order and the value. -/
structure KeepsValues (catalog : List RelationDesc) (active : View) (op : Junction)
    (kids normal : List Pred) : Prop where
  leaves : List.Forall₂ (LeafTo catalog active) (leavesOf kids) (leavesOf normal)
  value : ∀ (assign : ℕ → Kleene) (first : ℕ),
    op.kleene (valuesFrom assign normal first) = op.kleene (valuesFrom assign kids first)

structure KeepsValue (catalog : List RelationDesc) (active : View) (pred normal : Pred) : Prop where
  leaves : List.Forall₂ (LeafTo catalog active) (leaves pred) (leaves normal)
  value : ∀ (assign : ℕ → Kleene) (first : ℕ),
    valueFrom assign normal first = valueFrom assign pred first

mutual

/-- Normalization keeps the leaves, each in its place, and the value of the predicate for all
values of its leaves. -/
theorem keepsValue_normPredIn : ∀ (pred : Pred) (active : View) (normal : Pred),
    normPredIn catalog pred active = .ok normal → KeepsValue catalog active pred normal
  | .junction op kids, active, normal, h => by
      rw [normPredIn] at h
      split at h
      · cases h
      · obtain ⟨flat, hflat, rfl⟩ := map_eq_ok.mp h
        have hkids := keepsValues_normKidsIn op kids active flat hflat
        constructor
        · rw [leaves_collapseJunction, leaves]
          exact hkids.leaves
        · intro assign first
          rw [valueFrom_collapseJunction, valueFrom]
          exact hkids.value assign first
  | .not [kid], active, normal, h => by
      rw [normPredIn] at h
      obtain ⟨inner, hinner, rfl⟩ := map_eq_ok.mp h
      have hkid := keepsValue_normPredIn kid active inner hinner
      constructor
      · rw [leaves_negate, leaves, leavesOf_singleton]
        exact hkid.leaves
      · intro assign first
        rw [valueFrom_negate, valueFrom, hkid.value assign first]
  | .not [], active, normal, h | .not (first :: second :: rest), active, normal, h => by
      rw [normPredIn] at h
      · cases h
      · simp
  | .cmp op field strValues intValue, active, normal, h => by
      have hleaf := h
      rw [normPredIn] at h
      obtain ⟨_, _, rfl⟩ := map_eq_ok.mp h
      constructor
      · rw [leaves]
        exact .cons hleaf .nil
      · intro _ _
        rfl
  | .quantified op relation target minDepth maxDepth threshold inbound, active, normal, h => by
      have hleaf := h
      rw [normPredIn] at h
      split at h
      · cases h
      · split at h
        · cases h
        · split at h
          · cases h
          · obtain ⟨_, _, rfl⟩ := map_eq_ok.mp h
            constructor
            · rw [leaves, leaves]
              exact .cons hleaf .nil
            · intro _ _
              rw [valueFrom, valueFrom]

theorem keepsValues_normKidsIn : ∀ (op : Junction) (kids : List Pred) (active : View)
    (flat : List Pred), normKidsIn catalog op kids active = .ok flat →
    KeepsValues catalog active op kids flat
  | op, [], active, flat, h => by
      rw [normKidsIn] at h
      cases h
      exact ⟨.nil, fun _ _ => rfl⟩
  | op, kid :: rest, active, flat, h => by
      rw [normKidsIn] at h
      obtain ⟨kid', hkid, h⟩ := ok_of_bind h
      obtain ⟨rest', hrest, h⟩ := ok_of_bind h
      cases h
      have hfront := keepsValue_normPredIn kid active kid' hkid
      have hback := keepsValues_normKidsIn op rest active rest' hrest
      constructor
      · rw [leavesOf_append, leavesOf_spliceKid, leavesOf]
        exact rel_append hfront.leaves hback.leaves
      · intro _ _
        rw [valuesFrom_append, op.kleene_append, kleene_valuesFrom_spliceKid, leavesOf_spliceKid,
          hfront.value, ← hfront.leaves.length_eq, hback.value, valuesFrom]
        exact (op.kleene_cons _ _).symm

end

/-! ## Values by leaf -/

section ByLeaf

-- The value of each leaf by what it says.
variable (leafValue : Pred → Kleene)

mutual

/-- The value of a predicate where equal leaves have equal values. -/
def valueOf : Pred → Kleene
  | .junction op kids => op.kleene (valuesOf kids)
  | .not [kid] => (valueOf kid).not
  | .not _ => none
  | .cmp op field strValues intValue => leafValue (.cmp op field strValues intValue)
  | .quantified op relation target minDepth maxDepth threshold inbound =>
    leafValue (.quantified op relation target minDepth maxDepth threshold inbound)

def valuesOf : List Pred → List Kleene
  | [] => []
  | kid :: rest => valueOf kid :: valuesOf rest

end

mutual

theorem valueFrom_eq_valueOf : ∀ (pred : Pred) (assign : ℕ → Kleene) (first : ℕ),
    (∀ i, (h : i < (leaves pred).length) → assign (first + i) = leafValue (leaves pred)[i]) →
      valueFrom assign pred first = valueOf leafValue pred
  | .junction op kids, assign, first, h => by
      rw [valueFrom, valueOf, valuesFrom_eq_valuesOf kids assign first h]
  | .not [kid], assign, first, h => by
      rw [leaves, leavesOf_singleton] at h
      rw [valueFrom, valueOf, valueFrom_eq_valueOf kid assign first h]
  | .not [], assign, first, h => rfl
  | .not (_ :: _ :: _), assign, first, h => rfl
  | .cmp op field strValues intValue, assign, first, h => h 0 (by simp [leaves])
  | .quantified op relation target minDepth maxDepth threshold inbound, assign, first, h =>
    h 0 (by simp [leaves])

theorem valuesFrom_eq_valuesOf : ∀ (kids : List Pred) (assign : ℕ → Kleene) (first : ℕ),
    (∀ i, (h : i < (leavesOf kids).length) → assign (first + i) = leafValue (leavesOf kids)[i]) →
      valuesFrom assign kids first = valuesOf leafValue kids
  | [], assign, first, h => rfl
  | kid :: rest, assign, first, h => by
      rw [valuesFrom, valuesOf, valueFrom_eq_valueOf kid assign first,
        valuesFrom_eq_valuesOf rest assign (first + (leaves kid).length)]
      · intro i _
        have hback := h ((leaves kid).length + i) (by rw [leavesOf, length_append]; omega)
        simpa [leavesOf, ← Nat.add_assoc] using hback
      · intro i hi
        have hfront := h i (by rw [leavesOf, length_append]; omega)
        simpa [leavesOf, getElem_append_left hi] using hfront

end

/-- Where normalization returns the leaves as they are, it keeps the value. -/
theorem valueOf_of_leaves_eq {active : View} {pred normal : Pred}
    (h : normPredIn catalog pred active = .ok normal) (hleaves : leaves normal = leaves pred) :
    valueOf leafValue normal = valueOf leafValue pred := by
  have hkeeps := (keepsValue_normPredIn pred active normal h).value
    (fun i => ((leaves pred)[i]?.map leafValue).getD none) 0
  rw [valueFrom_eq_valueOf leafValue pred, valueFrom_eq_valueOf leafValue normal] at hkeeps
  · exact hkeeps
  · intro _ hi
    simp [hleaves, getElem?_eq_getElem (hleaves ▸ hi)]
  · intro _ hi
    simp [getElem?_eq_getElem hi]

variable {known : Pred → Kleene}

mutual

/-- Values of the leaves that are known carry over to better known leaves. -/
theorem valueOf_refines : ∀ pred : Pred, (∀ leaf ∈ leaves pred, (leafValue leaf).Refines (known leaf)) →
      (valueOf leafValue pred).Refines (valueOf known pred)
  | .junction op kids, h => by
      rw [leaves] at h
      cases op with
      | allOf => exact Kleene.Refines.all (valuesOf_refines kids h)
      | anyOf => exact Kleene.Refines.any (valuesOf_refines kids h)
  | .not [kid], h => by
      rw [leaves, leavesOf_singleton] at h
      exact (valueOf_refines kid h).not
  | .not [], h | .not (_ :: _ :: _), h => Kleene.Refines.refl none
  | .cmp op field strValues intValue, h => h _ (by simp [leaves])
  | .quantified op relation target minDepth maxDepth threshold inbound, h =>
    h _ (by simp [leaves])

theorem valuesOf_refines : ∀ kids : List Pred,
    (∀ leaf ∈ leavesOf kids, (leafValue leaf).Refines (known leaf)) →
      List.Forall₂ Kleene.Refines (valuesOf leafValue kids) (valuesOf known kids)
  | [], _ => .nil
  | kid :: rest, h => by
      rw [leavesOf] at h
      exact .cons (valueOf_refines kid fun leaf hmem => h leaf (mem_append_left _ hmem))
        (valuesOf_refines rest fun leaf hmem => h leaf (mem_append_right _ hmem))

end

end ByLeaf

/-! ## Normalization is idempotent and keeps the meaning -/

/-- Nested conjunctions with a double negation around a quantifier. -/
def nestedPredicate : Pred :=
  .junction .allOf [.cmp .eq "name" ["main"] none,
    .junction .allOf [.not [.not [.quantified .exists_ ⟨none, "calls"⟩ none 1 2 0 false]]]]

/-- The conjunction without the nesting. -/
def flatPredicate : Pred :=
  .junction .allOf [.cmp .eq "name" ["main"] none,
    .quantified .exists_ ⟨some .symbol, "calls"⟩ none 1 2 0 false]

end CppIndexer.Query
