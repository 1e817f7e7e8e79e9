/-
# Two readers of CXQ

The two parsers cut a text at the same places with the same calls, and differ in the helpers they call and
in how they lower a negated comparison. A joint reading follows both and compares what the helpers make of
each piece. Where they never part, Python's plan is the one of C++ with each negated comparison of a string
written as a negation around an equality.
-/

import CppIndexer.Lib.JointRuns
import CppIndexer.Query.PythonCxq

namespace CppIndexer.Query

open Cxq (Text)
open Stop (Meets)
open List Pred PythonCxq Cxq.Written

/-! ## Negated comparisons -/

mutual

/-- A negated comparison of strings as Python lowers it. -/
def Pred.lowered : Pred → Pred
  | .junction op kids => .junction op (loweredKids kids)
  | .not kids => .not (loweredKids kids)
  | .cmp op field strValues intValue =>
    if op = .ne then .not [.cmp .eq field strValues intValue] else .cmp op field strValues intValue
  | .quantified op relation target minDepth maxDepth threshold inbound =>
    .quantified op relation target minDepth maxDepth threshold inbound

def loweredKids : List Pred → List Pred
  | [] => []
  | kid :: rest => kid.lowered :: loweredKids rest

end

mutual

/-- Some comparison is negated. -/
def Pred.negates : Pred → Bool
  | .junction _ kids => kidsNegate kids
  | .not kids => kidsNegate kids
  | .cmp op _ _ _ => op = .ne
  | .quantified .. => false

def kidsNegate : List Pred → Bool
  | [] => false
  | kid :: rest => kid.negates || kidsNegate rest

end

mutual

theorem lowered_of_not_negates : ∀ {pred : Pred}, pred.negates = false → pred.lowered = pred
  | .junction op kids, h | .not kids, h => by
      rw [negates] at h
      rw [lowered, loweredKids_of_not_negate h]
  | .cmp op field strValues intValue, h => by
      rw [negates, decide_eq_false_iff_not] at h
      rw [lowered, if_neg h]
  | .quantified .., _ => rfl

theorem loweredKids_of_not_negate : ∀ {kids : List Pred}, kidsNegate kids = false →
    loweredKids kids = kids
  | [], _ => rfl
  | kid :: rest, h => by
      rw [kidsNegate, Bool.or_eq_false_iff] at h
      rw [loweredKids, lowered_of_not_negates h.1, loweredKids_of_not_negate h.2]

end

mutual

theorem negates_lowered : ∀ pred : Pred, pred.lowered.negates = false
  | .junction op kids | .not kids => by rw [lowered, negates, kidsNegate_lowered kids]
  | .cmp op field strValues intValue => by
      rw [lowered]
      by_cases hop : op = .ne
      · rw [if_pos hop]
        rfl
      · rw [if_neg hop, negates, decide_eq_false hop]
  | .quantified .. => rfl

theorem kidsNegate_lowered : ∀ kids : List Pred, kidsNegate (loweredKids kids) = false
  | [] => rfl
  | kid :: rest => by
      rw [loweredKids, kidsNegate, negates_lowered kid, kidsNegate_lowered rest]
      rfl

end

mutual

def Stage.lowered : Stage → Stage
  | .nodes pred unknown => .nodes (pred.map Pred.lowered) unknown
  | .where_ pred unknown => .where_ pred.lowered unknown
  | .setOp op operand => .setOp op operand.lowered
  | stage => stage

def loweredStages : List Stage → List Stage
  | [] => []
  | stage :: rest => stage.lowered :: loweredStages rest

/-- A plan with its negated comparisons as Python lowers them. -/
def Plan.lowered : Plan → Plan
  | .mk source stages => .mk source (loweredStages stages)

end

mutual

def Stage.negates : Stage → Bool
  | .nodes pred _ => pred.any Pred.negates
  | .where_ pred _ => pred.negates
  | .setOp _ operand => operand.negates
  | _ => false

def stagesNegate : List Stage → Bool
  | [] => false
  | stage :: rest => stage.negates || stagesNegate rest

def Plan.negates : Plan → Bool
  | .mk _ stages => stagesNegate stages

end

mutual

theorem stageLowered_of_not_negates : ∀ {stage : Stage}, stage.negates = false → stage.lowered = stage
  | .nodes none unknown, _ => rfl
  | .nodes (some pred) unknown, h => by
      rw [Stage.lowered, Option.map_some, lowered_of_not_negates h]
  | .where_ pred unknown, h => by
      rw [Stage.negates] at h
      rw [Stage.lowered, lowered_of_not_negates h]
  | .setOp op operand, h => by
      rw [Stage.negates] at h
      rw [Stage.lowered, planLowered_of_not_negates h]
  | .changeView _, _ | .traverse .., _ | .sites, _ | .select _, _ | .count, _ | .distinct, _
  | .orderBy _, _ | .limit _, _ | .path .., _ | .rank _, _ | .reverseTypeUse _, _ => rfl

theorem loweredStages_of_not_negate : ∀ {stages : List Stage}, stagesNegate stages = false →
    loweredStages stages = stages
  | [], _ => rfl
  | stage :: rest, h => by
      rw [stagesNegate, Bool.or_eq_false_iff] at h
      rw [loweredStages, stageLowered_of_not_negates h.1, loweredStages_of_not_negate h.2]

theorem planLowered_of_not_negates : ∀ {plan : Plan}, plan.negates = false → plan.lowered = plan
  | .mk source stages, h => by
      rw [Plan.negates] at h
      rw [Plan.lowered, loweredStages_of_not_negate h]

end

mutual

theorem stageNegates_lowered : ∀ stage : Stage, stage.lowered.negates = false
  | .nodes none unknown => rfl
  | .nodes (some pred) unknown => negates_lowered pred
  | .where_ pred unknown => by rw [Stage.lowered, Stage.negates, negates_lowered pred]
  | .setOp op operand => by rw [Stage.lowered, Stage.negates, planNegates_lowered operand]
  | .changeView _ | .traverse .. | .sites | .select _ | .count | .distinct
  | .orderBy _ | .limit _ | .path .. | .rank _ | .reverseTypeUse _ => rfl

theorem stagesNegate_lowered : ∀ stages : List Stage, stagesNegate (loweredStages stages) = false
  | [] => rfl
  | stage :: rest => by
      rw [loweredStages, stagesNegate, stageNegates_lowered stage, stagesNegate_lowered rest]
      rfl

theorem planNegates_lowered : ∀ plan : Plan, plan.lowered.negates = false
  | .mk source stages => by rw [Plan.lowered, Plan.negates, stagesNegate_lowered stages]

end

theorem planLowered_eq_iff {plan : Plan} : plan.lowered = plan ↔ plan.negates = false := by
  constructor
  · intro heq
    rw [← heq]
    exact planNegates_lowered plan
  · exact planLowered_of_not_negates

namespace CxqJoint

/-! ## The joint reading -/

variable (op : CmpOp)

/-- The value of a comparison that is no list: whether it is a string that is compared for inequality. -/
def value (text : Text) : Except Stop Bool :=
  if op = .glob ∨ text = "true".toList ∨ text = "false".toList then .ok false
  else do
    let number ← Stop.same (Cxq.integer text) (PythonCxq.int text)
    pure (op = .ne && number.isNone)

/-- The text behind an operator, as each side takes it. -/
def compareText (text pythonText : Text) : Except Stop Bool :=
  if op = .inList then (Stop.both (Cxq.listValues text) (PythonCxq.list pythonText)).map fun _ => false
  else Stop.same (Cxq.atom text) (PythonCxq.atom pythonText) >>= value op

def comparison (text : Text) : Except Stop Bool :=
  match Cxq.comparisonOps.findSome? fun (sign, op) => (Cxq.find sign text).map fun i => (sign, op, i) with
  | none => .error .refused
  | some (sign, op, i) => do
      let field ← Stop.same (Cxq.trim (text.take i)) (PythonCxq.trim (text.take i))
      if field = [] then .error .refused
      else
        let rhs := text.drop (i + sign.length)
        compareText op rhs (PythonCxq.trim rhs)

/-- The two arguments of a comparison that is written as a call. -/
def callArgs : List Text → Except Stop Bool
  | [field, value] => do
      let _ ← Stop.same (Cxq.atom field) (PythonCxq.atom field)
      compareText op value value
  | _ => .error .refused

def simplePredicate (text : Text) : Except Stop Bool :=
  match Cxq.callOps.find? fun (name, _) => (name ++ ['(']).isPrefixOf text with
  | none => Stop.same (Cxq.trim text) text >>= comparison
  | some (name, op) => Stop.both (Cxq.callParts text name) (PythonCxq.call text name) >>= callArgs op

def partCount (x : Except String (List Text)) : Except String ℕ := x.map List.length

def stripParens (text : Text) : Except Stop Text :=
  if _h : 2 ≤ text.length ∧ text.head? = some '(' ∧ text.getLast? = some ')' then do
    let inside := (text.drop 1).dropLast
    let parts ← Stop.both (partCount (Cxq.splitTopLevel inside ',')) (partCount (PythonCxq.split inside ','))
    if parts ≠ 1 then pure text
    else do
      let _ ← Stop.same (Cxq.trim inside) (PythonCxq.trim inside)
      stripParens (Cxq.trim inside)
  else pure text
termination_by text.length
decreasing_by
  have hlength := Cxq.length_trim_le ((text.drop 1).dropLast)
  simp only [length_dropLast, length_drop] at hlength
  omega

/-- Trim, then strip. -/
def stripped (expression : Text) : Except Stop Text := do
  let _ ← Stop.same (Cxq.trim expression) (PythonCxq.trim expression)
  stripParens (Cxq.trim expression)

variable {keyword expression text out : Text}

theorem length_stripParens_le (h : stripParens text = .ok out) : out.length ≤ text.length := by
  fun_induction stripParens text with
  | case1 text hparens inside ih =>
    obtain ⟨_, _, h⟩ := ok_of_bind h
    split at h
    · cases h
      exact le_refl _
    · obtain ⟨_, _, h⟩ := ok_of_bind h
      have hinside := (ih h).trans (Cxq.length_trim_le inside)
      have hlength : inside.length ≤ text.length := by
        simp only [inside, length_dropLast, length_drop]
        omega
      exact hinside.trans hlength
  | case2 text hparens =>
    cases h
    exact le_refl _

theorem length_stripped_le (h : stripped expression = .ok out) : out.length ≤ expression.length := by
  obtain ⟨_, _, h⟩ := ok_of_bind h
  exact (length_stripParens_le h).trans (Cxq.length_trim_le expression)

/-- Where both sides find a keyword. -/
def findKeyword (text keyword : Text) : Except Stop (Option ℕ) :=
  Stop.same (Cxq.findTopLevelKeyword text keyword) (PythonCxq.findKeyword text keyword)

theorem findKeyword_lt {i : ℕ} (h : findKeyword text keyword = .ok (some i)) : i < text.length := by
  unfold findKeyword Stop.same at h
  split at h
  · exact Cxq.findFrom_lt (Except.ok.inj h)
  · cases h

/-- The joint reading of a predicate: whether it negates a comparison of strings. -/
def predicate (expression : Text) : Except Stop Bool :=
  match _hstrip : stripped expression with
  | .error stop => .error stop
  | .ok text =>
    if _hnot : "not ".toList.isPrefixOf text then predicate (text.drop 4)
    else
      match _hor : findKeyword text "or".toList with
      | .error stop => .error stop
      | .ok (some i) => do
          let left ← predicate (text.take i)
          let right ← predicate (text.drop (i + 2))
          pure (left || right)
      | .ok none =>
        match _hand : findKeyword text "and".toList with
        | .error stop => .error stop
        | .ok (some i) => do
            let left ← predicate (text.take i)
            let right ← predicate (text.drop (i + 3))
            pure (left || right)
        | .ok none => simplePredicate text
termination_by expression.length
decreasing_by
  all_goals
    have hlength := length_stripped_le _hstrip
    simp only [length_take, length_drop]
  · have hfront := ( isPrefixOf_iff_prefix.mp _hnot).length_le
    simp at hfront
    omega
  · have := findKeyword_lt _hor
    omega
  · have := findKeyword_lt _hor
    omega
  · have := findKeyword_lt _hand
    omega
  · have := findKeyword_lt _hand
    omega

variable (negates : Bool)

def Lowers (pred pred' : Pred) : Prop := pred' = pred.lowered ∧ pred.negates = negates

theorem Lowers.of_not_negates {pred : Pred} (h : pred.negates = false) : Lowers false pred pred :=
  ⟨(lowered_of_not_negates h).symm, h⟩

/-! ## Predicates -/

theorem meets_value (hop : op ≠ .inList) (field text : Text) :
    Meets Lowers (value op text) (.ok (Cxq.compareValue op field text) : Except String Pred)
      (.ok (PythonCxq.compareValue op field text)) := by
  unfold value Cxq.compareValue PythonCxq.compareValue
  by_cases hglob : op = .glob
  · subst hglob
    exact Meets.pure (Lowers.of_not_negates rfl)
  by_cases htruth : text = "true".toList ∨ text = "false".toList
  · rw [if_pos (Or.inr htruth)]
    simp only [hglob, htruth, if_true, if_false]
    cases op with
    | eq => exact Meets.pure (Lowers.of_not_negates rfl)
    | ne => exact Meets.pure (Lowers.of_not_negates rfl)
    | glob => exact absurd rfl hglob
    | inList => exact absurd rfl hop
  · rw [if_neg (not_or.mpr ⟨hglob, htruth⟩)]
    simp only [hglob, htruth, if_false]
    refine Meets.same fun hnumber => ?_
    rw [← hnumber]
    cases Cxq.integer text with
    | none =>
      cases op with
      | eq => exact Meets.pure (Lowers.of_not_negates rfl)
      | ne => exact Meets.pure ⟨rfl, rfl⟩
      | glob => exact absurd rfl hglob
      | inList => exact absurd rfl hop
    | some =>
      cases op with
      | eq | ne => exact Meets.pure (Lowers.of_not_negates rfl)
      | glob => exact absurd rfl hglob
      | inList => exact absurd rfl hop

theorem meets_compareText (field text pythonText : Text) :
    Meets Lowers (compareText op text pythonText) (Cxq.compareText op field text)
      (PythonCxq.compareText op field pythonText) := by
  unfold compareText Cxq.compareText PythonCxq.compareText
  by_cases hop : op = .inList
  · simp only [hop, if_true]
    refine (Meets.both _ _).map ?_
    rintro _ _ _ ⟨rfl, rfl⟩
    exact Lowers.of_not_negates rfl
  · simp only [hop, if_false]
    refine Meets.same fun hatom => ?_
    rw [← hatom]
    exact meets_value op hop field (Cxq.atom text)

theorem meets_comparison (htrim : Cxq.trim text = text) :
    Meets Lowers (comparison text) (Cxq.comparison text) (PythonCxq.comparison text) := by
  unfold comparison Cxq.comparison PythonCxq.comparison
  rw [htrim]
  dsimp only
  cases hfind : Cxq.comparisonOps.findSome? fun (sign, op) =>
      (Cxq.find sign text).map fun i => (sign, op, i) with
  | none => exact Meets.refuse
  | some found =>
    obtain ⟨_, op, i⟩ := found
    dsimp only
    refine Meets.same fun hfield => ?_
    rw [← hfield]
    by_cases hempty : Cxq.trim (text.take i) = []
    · simp only [hempty, if_true]
      exact Meets.refuse
    · simp only [hempty, if_false]
      exact meets_compareText op _ _ _

theorem meets_simplePredicate (text : Text) :
    Meets Lowers (simplePredicate text) (Cxq.simplePredicate text) (simplePred text) := by
  unfold simplePredicate Cxq.simplePredicate simplePred
  cases hcall : Cxq.callOps.find? fun (name, _) => (name ++ ['(']).isPrefixOf text with
  | none => exact Meets.same fun htrim => by rw [htrim]; exact meets_comparison htrim
  | some found =>
    obtain ⟨_, op⟩ := found
    dsimp only
    refine (Meets.both _ _).bind ?_
    intro args _ _ hparts
    rw [hparts.1, hparts.2]
    match args with
    | [field, value] =>
      refine Meets.same fun hfield => ?_
      have hcompare := meets_compareText op (Cxq.atom field) value value
      dsimp only
      rw [← hfield]
      by_cases hop : op = .inList
      · rw [if_pos hop, if_pos hop]
        exact hcompare
      · unfold Cxq.compareText PythonCxq.compareText at hcompare
        rw [if_neg hop, if_neg hop] at hcompare ⊢
        exact hcompare
    | [] | [_] | _ :: _ :: _ :: _ => exact Meets.refuse

/-- Both sides count the same parts. -/
theorem meets_partCount (x y : Except String (List Text)) :
    Meets (fun n parts parts' => parts.length = n ∧ parts'.length = n)
      (Stop.both (partCount x) (partCount y)) x y := by
  cases x with
  | error =>
    cases y with
    | error => exact Meets.refuse
    | ok => exact Meets.parted
  | ok parts =>
    cases y with
    | error => exact Meets.parted
    | ok parts' =>
      by_cases hlength : parts.length = parts'.length
      · have hboth : Stop.both (partCount (.ok parts)) (partCount (.ok parts')) = .ok parts.length :=
          if_pos hlength
        rw [hboth]
        exact Meets.pure ⟨rfl, hlength.symm⟩
      · have hboth : Stop.both (partCount (.ok parts)) (partCount (.ok parts')) = .error .parted :=
          if_neg hlength
        rw [hboth]
        exact Meets.parted

theorem meets_stripParens (text : Text) : Meets (fun b a a' => a = b ∧ a' = b) (stripParens text)
    (Cxq.stripParens text) (PythonCxq.stripParens text) := by
  fun_induction stripParens text with
  | case1 text hparens inside ih =>
    rw [Cxq.stripParens, PythonCxq.stripParens, dif_pos hparens, dif_pos hparens]
    refine (meets_partCount _ _).bind ?_
    intro count _ _ hparts
    rw [hparts.1, hparts.2]
    by_cases hone : count = 1
    · rw [if_neg (not_not.mpr hone), if_neg (not_not.mpr hone), if_neg (not_not.mpr hone)]
      refine Meets.same fun htrim => ?_
      rw [← htrim]
      exact ih
    · rw [if_pos hone, if_pos hone, if_pos hone]
      exact Meets.pure ⟨rfl, rfl⟩
  | case2 text hparens =>
    rw [Cxq.stripParens, PythonCxq.stripParens, dif_neg hparens, dif_neg hparens]
    exact Meets.pure ⟨rfl, rfl⟩

theorem meets_stripped (expression : Text) : Meets (fun b a a' => a = b ∧ a' = b) (stripped expression)
    (Cxq.stripParens (Cxq.trim expression)) (PythonCxq.stripParens (PythonCxq.trim expression)) := by
  refine Meets.same fun htrim => ?_
  rw [← htrim]
  exact meets_stripParens _

/-- A joint run of what follows the parentheses is one of the predicate. -/
theorem meets_of_stripped {joint : Except Stop Bool} (hstrip : stripped expression = .ok text)
    (h : Meets Lowers joint (Cxq.predicateStripped text) (predStripped text)) :
    Meets Lowers joint (Cxq.predicate expression) (pred expression) := by
  obtain ⟨_, _, ha, ha', rfl, rfl⟩ := (meets_stripped expression).read text hstrip
  rw [Cxq.predicate_eq, pred_eq, ha, ha']
  exact h

/-- A connective between two predicates. -/
theorem meets_junction {op : Junction} {left right : Except Stop Bool}
    {x y x' y' : Except String Pred} (hleft : Meets Lowers left x y) (hright : Meets Lowers right x' y') :
    Meets Lowers (left >>= fun left => right >>= fun right => pure (left || right))
      (x >>= fun left => x' >>= fun right => pure (.junction op [left, right]))
      (y >>= fun left => y' >>= fun right => pure (.junction op [left, right])) := by
  refine hleft.bind fun b p p' hp => hright.bind fun c q q' hq => Meets.pure ?_
  obtain ⟨rfl, hb⟩ := hp
  obtain ⟨rfl, hc⟩ := hq
  constructor
  · rfl
  · rw [negates, kidsNegate, kidsNegate, kidsNegate, hb, hc, Bool.or_false]

theorem findKeyword_eq_ok {found : Option ℕ} (h : findKeyword text keyword = .ok found) :
    Cxq.findTopLevelKeyword text keyword = found ∧ PythonCxq.findKeyword text keyword = found := by
  unfold findKeyword Stop.same at h
  split at h
  · rename_i heq
    obtain rfl := Except.ok.inj h
    exact ⟨rfl, heq.symm⟩
  · cases h

theorem parted_of_findKeyword {stop : Stop}
    (h : findKeyword text keyword = .error stop) : stop = .parted := by
  unfold findKeyword Stop.same at h
  split at h
  · cases h
  · exact (Except.error.inj h).symm

/-- The two readings of a predicate. -/
theorem meets_predicate (expression : Text) :
    Meets Lowers (predicate expression) (Cxq.predicate expression) (pred expression) := by
  fun_induction predicate expression with
  | case1 expression stop hstrip =>
    cases stop with
    | parted => exact Meets.parted
    | refused =>
      obtain ⟨⟨_, he⟩, _, he'⟩ := (meets_stripped expression).refused hstrip
      rw [Cxq.predicate_eq, pred_eq, he, he']
      exact Meets.refuse
  | case2 expression text hstrip hnot ih =>
    apply meets_of_stripped hstrip
    unfold Cxq.predicateStripped predStripped
    rw [if_pos hnot, if_pos hnot]
    refine ih.mapResults ?_
    rintro negates _ _ ⟨rfl, hnegates⟩
    constructor
    · rfl
    · rw [Pred.negates, kidsNegate, kidsNegate, hnegates, Bool.or_false]
  | case3 expression text hstrip hnot stop hor =>
    rw [parted_of_findKeyword hor]
    exact Meets.parted
  | case4 expression text hstrip hnot i hor ihleft ihright =>
    apply meets_of_stripped hstrip
    unfold Cxq.predicateStripped predStripped
    rw [if_neg hnot, if_neg hnot, (findKeyword_eq_ok hor).1, (findKeyword_eq_ok hor).2]
    exact meets_junction ihleft ihright
  | case5 expression text hstrip hnot hor stop hand =>
    rw [parted_of_findKeyword hand]
    exact Meets.parted
  | case6 expression text hstrip hnot hor i hand ihleft ihright =>
    apply meets_of_stripped hstrip
    unfold Cxq.predicateStripped predStripped
    rw [if_neg hnot, if_neg hnot, (findKeyword_eq_ok hor).1, (findKeyword_eq_ok hor).2]
    dsimp only
    rw [(findKeyword_eq_ok hand).1, (findKeyword_eq_ok hand).2]
    exact meets_junction ihleft ihright
  | case7 expression text hstrip hnot hor hand =>
    apply meets_of_stripped hstrip
    unfold Cxq.predicateStripped predStripped
    rw [if_neg hnot, if_neg hnot, (findKeyword_eq_ok hor).1, (findKeyword_eq_ok hor).2]
    dsimp only
    rw [(findKeyword_eq_ok hand).1, (findKeyword_eq_ok hand).2]
    exact meets_simplePredicate text

/-! ## Stages -/

/-- The joint reading of a stage: whether it negates a comparison of strings, or the operand of a set
operation. -/
inductive Reading
  | plain (negates : Bool)
  | operand (text : Text)

def StageLowers : Reading → Cxq.Written → Cxq.Written → Prop
  | .plain negates, stage, stage' =>
    ∃ s : Stage, stage = .plain s ∧ stage' = .plain s.lowered ∧ s.negates = negates
  | .operand text, stage, stage' => ∃ op, stage = .setOp op text ∧ stage' = .setOp op text

/-- The joint reading of an integer. -/
def integer (text : Text) : Except Stop (Option ℤ) := Stop.same (Cxq.integer text) (PythonCxq.int text)

/-- The two depths behind a relation. -/
def depthArgs (args : List Text) : Except Stop (ℤ × ℤ) :=
  Stop.both (Cxq.depthArgs args) (PythonCxq.depthArgs args)

/-- Arguments that stand for themselves. -/
def atoms (args : List Text) : Except Stop (List String) :=
  Stop.same (args.map fun arg => String.ofList (Cxq.atom arg))
    (args.map fun arg => String.ofList (PythonCxq.atom arg))

/-- The joint reading of the arguments of a stage. -/
def stageArgs : Cxq.Head → List Text → Except Stop Reading
  | .nodes, [] => .ok (.plain false)
  | .nodes, [arg] | .where_, [arg] => (predicate arg).map .plain
  | .view, [arg] => do
      let level ← Stop.same (Cxq.atom arg) (PythonCxq.atom arg)
      if level = "symbol".toList ∨ level = "entity".toList then pure (.plain false) else .error .refused
  | .traverse _, relation :: rest => do
      let _ ← depthArgs (relation :: rest)
      let _ ← Stop.same (Cxq.atom relation) (PythonCxq.atom relation)
      pure (.plain false)
  | .setOp _, [arg] => .ok (.operand arg)
  | .select, arg :: rest | .orderBy, arg :: rest => do
      let _ ← atoms (arg :: rest)
      pure (.plain false)
  | .sites, [] | .count, [] | .distinct, [] => .ok (.plain false)
  | .limit, [arg] => do
      match ← integer arg with
      | some _ => pure (.plain false)
      | none => .error .refused
  | _, _ => .error .refused

/-- The joint reading of a stage up to the operand of a set operation. -/
def written (token : Text) : Except Stop Reading := do
  let value ← Stop.same (Cxq.trim token) (PythonCxq.trim token)
  if "rank(".toList.isPrefixOf value then .error .refused
  else
    match Cxq.stageNames.find? fun (name, _) => (name ++ ['(']).isPrefixOf value with
    | none => .error .refused
    | some (name, head) =>
      Stop.both (Cxq.callParts value name) (PythonCxq.call value name) >>= stageArgs head

/-- The joint reading of a source. -/
def source (part : Text) : Except Stop Source := Stop.both (Cxq.source part) (PythonCxq.source part)

theorem meets_plain {stage : Stage} (hlowered : stage.lowered = stage) (hnegates : stage.negates = false) :
    Meets StageLowers (.ok (.plain false)) (.ok (.plain stage) : Except String Cxq.Written)
      (.ok (.plain stage)) :=
  Meets.pure ⟨stage, rfl, by rw [hlowered], hnegates⟩

theorem meets_withoutArgs (name : Text) {args : List Text} {stage : Stage} (hlowered : stage.lowered = stage)
    (hnegates : stage.negates = false) :
    Meets StageLowers (if args = [] then .ok (.plain false) else .error .refused)
      (Cxq.withoutArgs name args stage) (PythonCxq.withoutArgs name args stage) := by
  unfold Cxq.withoutArgs PythonCxq.withoutArgs
  by_cases hnone : args = []
  · rw [if_pos hnone, if_pos hnone, if_neg (not_not.mpr hnone)]
    exact meets_plain hlowered hnegates
  · rw [if_neg hnone, if_neg hnone, if_pos hnone]
    exact Meets.refuse

theorem meets_withFields (name arg : Text) (rest : List Text) {stage : List String → Stage}
    (hlowered : ∀ fields, (stage fields).lowered = stage fields)
    (hnegates : ∀ fields, (stage fields).negates = false) :
    Meets StageLowers (atoms (arg :: rest) >>= fun _ => pure (.plain false))
      (Cxq.withFields name (arg :: rest) stage) (PythonCxq.withFields name (arg :: rest) stage) := by
  unfold Cxq.withFields PythonCxq.withFields
  rw [if_neg (cons_ne_nil arg rest), if_neg (cons_ne_nil arg rest)]
  refine Meets.same fun hatoms => ?_
  rw [← hatoms]
  exact meets_plain (hlowered _) (hnegates _)

theorem meets_traverse (inbound : Bool) (relation : Text) (rest : List Text) :
    Meets StageLowers
      (do
        let _ ← depthArgs (relation :: rest)
        let _ ← Stop.same (Cxq.atom relation) (PythonCxq.atom relation)
        pure (.plain false))
      ((Cxq.depthArgs (relation :: rest)).map fun (minDepth, maxDepth) => plain
        (.traverse inbound (Cxq.relationName (Cxq.atom relation)) .static minDepth maxDepth))
      ((PythonCxq.depthArgs (relation :: rest)).map fun (minDepth, maxDepth) => plain
        (.traverse inbound (Cxq.relationName (PythonCxq.atom relation)) .static minDepth maxDepth)) := by
  have hmap : ∀ {α β : Type} (x : Except String α) (f : α → β), x.map f = x >>= fun a => .ok (f a) := by
    intro _ _ x _
    cases x <;> rfl
  rw [hmap, hmap]
  refine (Meets.both _ _).bind ?_
  intro _ _ _ hfound
  rw [hfound.1, hfound.2]
  refine Meets.same fun hatom => ?_
  rw [← hatom]
  exact meets_plain rfl rfl

theorem meets_limit (arg : Text) : Meets StageLowers (integer arg >>= fun
        | some _ => pure (.plain false)
        | none => .error .refused)
      (Cxq.stageArgs [] .limit [arg]) (PythonCxq.stageArgs [] .limit [arg]) := by
  unfold Cxq.stageArgs PythonCxq.stageArgs
  refine Meets.same fun hint => ?_
  dsimp only
  rw [← hint]
  cases Cxq.integer arg with
  | none => exact Meets.refuse
  | some => exact meets_plain rfl rfl

theorem meets_stageArgs (name : Text) (head : Cxq.Head) (args : List Text) :
    Meets StageLowers (stageArgs head args) (Cxq.stageArgs name head args)
      (PythonCxq.stageArgs name head args) := by
  have hpred : ∀ (arg : Text) (stage : Pred → Stage), (∀ pred, (stage pred).lowered = stage pred.lowered) →
      (∀ pred, (stage pred).negates = pred.negates) →
      Meets StageLowers ((predicate arg).map .plain)
        ((Cxq.predicate arg).map fun pred => plain (stage pred))
        ((pred arg).map fun pred => plain (stage pred)) := by
    intro arg stage hlowered hnegates
    refine (meets_predicate arg).map ?_
    rintro _ pred _ ⟨rfl, rfl⟩
    exact ⟨stage pred, rfl, by rw [hlowered], hnegates pred⟩
  cases head with
  | nodes =>
    match args with
    | [] => exact meets_plain rfl rfl
    | [arg] => exact hpred arg (fun pred => .nodes (some pred) .exclude) (fun _ => rfl) fun _ => rfl
    | _ :: _ :: _ => exact Meets.refuse
  | where_ =>
    match args with
    | [] => exact Meets.refuse
    | [arg] => exact hpred arg (fun pred => .where_ pred .exclude) (fun _ => rfl) fun _ => rfl
    | _ :: _ :: _ => exact Meets.refuse
  | view =>
    match args with
    | [] => exact Meets.refuse
    | [arg] =>
      refine Meets.same fun hatom => ?_
      unfold Cxq.stageArgs PythonCxq.stageArgs
      dsimp only
      rw [← hatom]
      by_cases hsymbol : Cxq.atom arg = "symbol".toList
      · rw [if_pos (Or.inl hsymbol), if_pos hsymbol, if_pos hsymbol]
        exact meets_plain rfl rfl
      · rw [if_neg hsymbol, if_neg hsymbol]
        by_cases hentity : Cxq.atom arg = "entity".toList
        · rw [if_pos (Or.inr hentity), if_pos hentity, if_pos hentity]
          exact meets_plain rfl rfl
        · rw [if_neg (not_or.mpr ⟨hsymbol, hentity⟩), if_neg hentity, if_neg hentity]
          exact Meets.refuse
    | _ :: _ :: _ => exact Meets.refuse
  | traverse inbound =>
    match args with
    | [] => exact Meets.refuse
    | relation :: rest => exact meets_traverse inbound relation rest
  | setOp op =>
    match args with
    | [] => exact Meets.refuse
    | [arg] => exact Meets.pure ⟨op, rfl, rfl⟩
    | _ :: _ :: _ => exact Meets.refuse
  | select | orderBy =>
    match args with
    | [] => exact Meets.refuse
    | arg :: rest => exact meets_withFields name arg rest (fun _ => rfl) fun _ => rfl
  | sites =>
    have hmeets := @meets_withoutArgs name args .sites rfl rfl
    cases args with
    | nil => exact hmeets
    | cons => exact hmeets
  | count =>
    have hmeets := @meets_withoutArgs name args .count rfl rfl
    cases args with
    | nil => exact hmeets
    | cons => exact hmeets
  | distinct =>
    have hmeets := @meets_withoutArgs name args .distinct rfl rfl
    cases args with
    | nil => exact hmeets
    | cons => exact hmeets
  | limit =>
    match args with
    | [] => exact Meets.refuse
    | [arg] => exact meets_limit arg
    | _ :: _ :: _ => exact Meets.refuse

theorem meets_written (token : Text) :
    Meets StageLowers (written token) (Cxq.written token) (PythonCxq.written token) := by
  unfold written Cxq.written PythonCxq.written
  refine Meets.same fun htrim => ?_
  rw [← htrim]
  dsimp only
  by_cases hrank : "rank(".toList.isPrefixOf (Cxq.trim token)
  · rw [if_pos hrank, if_pos hrank, if_pos hrank]
    exact Meets.refuse
  · rw [if_neg hrank, if_neg hrank, if_neg hrank]
    cases hname : Cxq.stageNames.find? fun (name, _) => (name ++ ['(']).isPrefixOf (Cxq.trim token) with
    | none => exact Meets.refuse
    | some found =>
      obtain ⟨name, head⟩ := found
      refine (Meets.both _ _).bind ?_
      intro args _ _ hparts
      rw [hparts.1, hparts.2]
      exact meets_stageArgs name head args

/-! ## Queries -/

/-- The joint reading of the bars. -/
def parts (text : Text) : Except Stop (List Text) :=
  Stop.both (Cxq.splitTopLevel text '|') (PythonCxq.split text '|')

theorem parts_eq_ok {found : List Text} (h : parts text = .ok found) :
    Cxq.splitTopLevel text '|' = .ok found ∧ split text '|' = .ok found := by
  obtain ⟨_, _, ha, ha', rfl, rfl⟩ :=
    (Meets.both (Cxq.splitTopLevel text '|') (split text '|')).read found h
  exact ⟨ha, ha'⟩

theorem length_operand {token : Text} (h : written token = .ok (.operand text)) :
    text.length < token.length := by
  obtain ⟨_, _, hwritten, _, _, rfl, rfl⟩ := (meets_written token).read _ h
  exact Cxq.length_operand hwritten

mutual

/-- The joint reading of a query: whether it negates a comparison of strings. -/
def parseCxq (text : Text) : Except Stop Bool :=
  match _hparts : parts text with
  | .error stop => .error stop
  | .ok [] => .error .refused
  | .ok (first :: rest) =>
    if first = [] then .error .refused
    else do
      let _ ← source first
      parseStages rest
termination_by text.length + 1
decreasing_by
  have hextent := Cxq.extent_splitTopLevel (parts_eq_ok _hparts).1
  rw [Cxq.extent_cons] at hextent
  omega

def parseStages : List Text → Except Stop Bool
  | [] => .ok false
  | token :: rest =>
    match _hwritten : written token with
    | .error stop => .error stop
    | .ok (.plain negates) => (parseStages rest).map fun later => negates || later
    | .ok (.operand text) => do
        let negates ← parseCxq text
        let later ← parseStages rest
        pure (negates || later)
termination_by tokens => Cxq.extent tokens
decreasing_by
  · rw [Cxq.extent_cons]
    omega
  · have hlength := length_operand _hwritten
    rw [Cxq.extent_cons]
    omega
  · rw [Cxq.extent_cons]
    omega

end

/-- The joint reading of the parts of a query. -/
def query : List Text → Except Stop Bool
  | [] => .error .refused
  | first :: rest =>
    if first = [] then .error .refused
    else do
      let _ ← source first
      parseStages rest

theorem parseCxq_eq (text : Text) : parseCxq text = parts text >>= query := by
  rw [parseCxq]
  split
  · rename_i stop hparts
    rw [hparts]
    rfl
  · rename_i hparts
    rw [hparts]
    rfl
  · rename_i first rest hparts
    rw [hparts]
    rfl

/-- The joint reading of a written stage with the stages behind it. -/
def stagesFrom (rest : List Text) : Reading → Except Stop Bool
  | .plain negates => (parseStages rest).map fun later => negates || later
  | .operand text => do
      let negates ← parseCxq text
      let later ← parseStages rest
      pure (negates || later)

theorem parseStages_cons (token : Text) (rest : List Text) :
    parseStages (token :: rest) = written token >>= stagesFrom rest := by
  rw [parseStages]
  split
  · rename_i stop hwritten
    rw [hwritten]
    rfl
  · rename_i negates hwritten
    rw [hwritten]
    rfl
  · rename_i text hwritten
    rw [hwritten]
    rfl

def PlanLowers (plan plan' : Plan) : Prop :=
  plan' = plan.lowered ∧ plan.negates = negates

def StagesLower (stages stages' : List Stage) : Prop :=
  stages' = loweredStages stages ∧ stagesNegate stages = negates

mutual

/-- The two readings of a query. -/
theorem meets_parseCxq (text : Text) :
    Meets PlanLowers (parseCxq text) (Cxq.parseCxq text) (PythonCxq.parseCxq text) := by
  rw [parseCxq_eq, Cxq.parseCxq_eq, PythonCxq.parseCxq_eq]
  refine (Meets.both _ _).bindOf ?_
  intro tokens _ _ hparts hfound
  rw [hfound.1, hfound.2]
  match tokens, hparts with
  | [], _ => exact Meets.refuse
  | first :: rest, hparts =>
    have hextent : Cxq.extent rest < text.length + 1 := by
      have hparts := Cxq.extent_splitTopLevel (parts_eq_ok hparts).1
      rw [Cxq.extent_cons] at hparts
      omega
    unfold query Cxq.query PythonCxq.query
    dsimp only
    by_cases hempty : first = []
    · rw [if_pos hempty, if_pos hempty, if_pos hempty]
      exact Meets.refuse
    · rw [if_neg hempty, if_neg hempty, if_neg hempty]
      refine (Meets.both _ _).bind ?_
      intro _ _ _ hstart
      rw [hstart.1, hstart.2]
      have hstages := meets_parseStages rest
      refine hstages.mapResults ?_
      rintro _ _ _ ⟨rfl, hnegates⟩
      exact ⟨rfl, hnegates⟩
termination_by text.length + 1

theorem meets_parseStages (tokens : List Text) :
    Meets StagesLower (parseStages tokens) (Cxq.parseStages tokens) (PythonCxq.parseStages tokens) := by
  match tokens with
  | [] =>
    rw [parseStages, Cxq.parseStages, PythonCxq.parseStages]
    exact Meets.pure ⟨rfl, rfl⟩
  | token :: rest =>
    rw [parseStages_cons, Cxq.parseStages_cons, PythonCxq.parseStages_cons]
    refine (meets_written token).bindOf ?_
    intro reading _ _ hwritten hlowers
    have hrest := meets_parseStages rest
    cases reading with
    | plain =>
      obtain ⟨_, rfl, rfl, hnegates⟩ := hlowers
      refine hrest.map ?_
      rintro _ _ _ ⟨rfl, hlater⟩
      constructor
      · rfl
      · rw [stagesNegate, hnegates, hlater]
    | operand text =>
      obtain ⟨_, rfl, rfl⟩ := hlowers
      have hlength := length_operand hwritten
      refine (meets_parseCxq text).bind ?_
      rintro negates _ _ ⟨rfl, hnegates⟩
      refine hrest.map ?_
      rintro _ _ _ ⟨rfl, hlater⟩
      constructor
      · rfl
      · rw [stagesNegate, Stage.negates, hnegates, hlater]
termination_by Cxq.extent tokens
decreasing_by
  · rw [Cxq.extent_cons]
    omega
  · rw [Cxq.extent_cons]
    omega

end

end CxqJoint

end CppIndexer.Query
