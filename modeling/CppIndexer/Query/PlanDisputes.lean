/-
# What the two plan languages disagree on

The validators of `query/plan.cpp` and `python/indexer/queryplan.py` make the same checks in the same
order. They differ in two lists: three fields of symbols and entities that only the Python module knows,
and the fields of typed views that are compared as strings. A plan is disputed when it reads one of these
fields in a way that only one side accepts.
-/

import CppIndexer.Lib.Twins
import CppIndexer.Query.PythonPlan

namespace CppIndexer.Query

open Except (Twins)
open Python

/-! ## Disputed fields -/

/-- The fields of symbols and entities that only the Python module has. -/
def pythonFields : List String := ["negative_count", "effective_count", "is_instantiation"]

/-- The fields of typed views that one side compares as strings and the other as integers. -/
def mixedFields : List String := ["source", "target", "evidence", "element_type"]

/-- A field that only one side selects or orders by. -/
def fieldDisputed (active : View) (field : String) : Bool :=
  active.isNode && decide (field ∈ pythonFields)

/-- The values suit a field of strings, or one of integers. -/
def suits (op : CmpOp) (strValues : List String) : Option ℤ → Bool
  | some _ => op ≠ .inList
  | none => if op = .inList then strValues ≠ [] else strValues.length = 1

/-- A comparison that only one side accepts. -/
def cmpDisputed (op : CmpOp) (field : String) (strValues : List String) (intValue : Option ℤ)
    (active : View) : Bool :=
  if active.isNode then
    field = "is_instantiation" && intValue.isSome && (op = .eq || op = .ne)
  else fieldAvailable active field && decide (field ∈ mixedFields) && op ≠ .glob &&
    suits op strValues intValue

mutual

/-- A predicate with a comparison that only one side accepts. The target of a quantifier is read in the
view of the relation. -/
def Pred.disputed : Pred → View → Bool
  | .junction _ kids, active => kidsDisputed kids active
  | .not [kid], active => kid.disputed active
  | .not _, _ => false
  | .cmp op field strValues intValue, active => cmpDisputed op field strValues intValue active
  | .quantified _ relation target _ _ _ _, active =>
    match resolveRelation relation active with
    | none => false
    | some desc => targetDisputed target desc.layer

def kidsDisputed : List Pred → View → Bool
  | [], _ => false
  | kid :: rest, active => kid.disputed active || kidsDisputed rest active

def targetDisputed : Option Pred → View → Bool
  | none, _ => false
  | some target, active => target.disputed active

end

mutual

/-- A stage that reads a disputed field in its view. -/
def Stage.disputed : Stage → View → Bool
  | .nodes pred _, active => targetDisputed pred active
  | .where_ pred _, active => pred.disputed active
  | .select fields, active => fields.any (fieldDisputed active)
  | .orderBy fields, active => fields.any (fieldDisputed active)
  | .setOp _ operand, _ => operand.disputed
  | .path operand _ _ _ _ _, _ => operand.disputed
  | _, _ => false

/-- The stages in the views they run in. -/
def stagesDisputed : List Stage → View → Bool
  | [], _ => false
  | stage :: rest, active => stage.disputed active || stagesDisputed rest (stage.viewAfter active)

/-- A plan that reads a disputed field. -/
def Plan.disputed : Plan → Bool
  | .mk source stages => stagesDisputed stages source.view

end

/-- The same up to the message of an error. -/
abbrev Same {α : Type} (disputed : Bool) (x y : Except PlanError α) : Prop :=
  Twins PlanError.code disputed x y

/-! ## Fields -/

theorem python_fields_typed {active : View} (h : active.isNode = false) (field : String) :
    Python.fieldAvailable active field = fieldAvailable active field := by
  rw [Python.fieldAvailable, h, if_neg Bool.false_ne_true]
  have hsame : ∀ {l l' : List String}, l.Perm l' → decide (field ∈ l) = decide (field ∈ l') :=
    fun hperm => decide_eq_decide.mpr hperm.mem_iff
  cases active with
  | symbol => cases h
  | entity => cases h
  | _ =>
    apply hsame
    decide +kernel

variable {field : String}

theorem python_fieldDesc (h : field ∉ pythonFields) : Python.fieldDesc field = fieldDesc field := by
  simp only [pythonFields, List.mem_cons, List.not_mem_nil, or_false, not_or] at h
  unfold Python.fieldDesc fieldDesc handFields
  by_cases hlength : field = "name_length"
  · subst hlength
    rfl
  by_cases hfile : field = "file"
  · subst hfile
    rfl
  by_cases hmulti : field = "multi_def"
  · subst hmulti
    rfl
  by_cases hnegative : field = "negative_multi_def"
  · subst hnegative
    rfl
  simp [hlength, hfile, hmulti, hnegative, h.1, h.2.1, h.2.2, eq_comm]

theorem python_fieldAvailable (active : View) (field : String) :
    Python.fieldAvailable active field = (fieldAvailable active field || fieldDisputed active field) := by
  cases hnode : active.isNode with
  | false => rw [python_fields_typed hnode, fieldDisputed, hnode, Bool.false_and, Bool.or_false]
  | true =>
    have hcpp : fieldAvailable active field = (fieldDesc field).isSome := by
      cases active <;> first | rfl | cases hnode
    rw [Python.fieldAvailable, hnode, if_pos rfl, hcpp, fieldDisputed, hnode, Bool.true_and]
    by_cases hfield : field ∈ pythonFields
    · have hall : ∀ field ∈ pythonFields, (Python.fieldDesc field).isSome = true := by decide +kernel
      rw [hall field hfield, decide_eq_true hfield, Bool.or_true]
    · rw [python_fieldDesc hfield, decide_eq_false hfield, Bool.or_false]

/-- No field is in both catalogues and disputed. -/
theorem fieldAvailable_of_disputed {active : View}
    (h : fieldDisputed active field = true) : fieldAvailable active field = false := by
  rw [fieldDisputed, Bool.and_eq_true, decide_eq_true_eq] at h
  have hall : ∀ active, active.isNode = true → ∀ field ∈ pythonFields,
      fieldAvailable active field = false := by
    intro active hnode
    cases active with
    | symbol => decide +kernel
    | entity => decide +kernel
    | _ => cases hnode
  exact hall active h.1 field h.2

/-! ## Comparisons -/

section

variable {op : CmpOp} {field : String} {strValues : List String} {intValue : Option ℤ} {active : View}

attribute [local simp] Except.bind

theorem python_checkValues (isString : Bool) : Python.checkValues op field strValues intValue isString =
      checkValues op field strValues intValue isString := by
  unfold Python.checkValues checkValues fails
  cases isString with
  | true =>
    cases intValue with
    | some => rfl
    | none =>
      by_cases hop : op = .inList
      · cases strValues <;> simp [bind]
      · by_cases hlength : strValues.length = 1 <;> simp [bind]
  | false =>
    by_cases hop : op = .inList
    · simp [hop, bind]
    · cases intValue <;> simp [hop, bind]

/-- A field of strings refuses what suits a field of integers, and the other way round. -/
theorem same_checkValues (isString : Bool) :
    Same (suits op strValues intValue) (checkValues op field strValues intValue isString)
      (checkValues op field strValues intValue !isString) := by
  have hstrings : Same (suits op strValues intValue) (checkValues op field strValues intValue true)
      (checkValues op field strValues intValue false) := by
    unfold checkValues suits
    cases intValue with
    | some =>
      by_cases hop : op = .inList
      · simp only [hop]
        exact ⟨fun _ => rfl, nofun⟩
      · simp only [hop, if_false]
        exact ⟨fun hfalse => absurd (by simpa using hfalse) hop, nofun⟩
    | none =>
      by_cases hop : op = .inList
      · cases strValues with
        | nil => simp only [hop]; exact ⟨fun _ => rfl, nofun⟩
        | cons =>
          simp only [hop]
          exact ⟨fun hfalse => by simp at hfalse, nofun⟩
      · by_cases hlength : strValues.length = 1
        · simp only [hop, hlength]
          exact ⟨fun hfalse => by simp at hfalse, nofun⟩
        · simp only [hop, if_false]
          refine ⟨fun _ => ?_, nofun⟩
          simp [hlength, Except.mapError]
  cases isString with
  | true => exact hstrings
  | false =>
    exact ⟨fun hd => (hstrings.agree hd).symm, fun a b ha hb => hstrings.settled b a hb ha⟩

theorem python_checkNodeCmp (h : field ∉ pythonFields) :
    Python.checkNodeCmp op field strValues intValue = checkNodeCmp op field strValues intValue := by
  unfold Python.checkNodeCmp checkNodeCmp
  rw [python_fieldDesc h]
  cases fieldDesc field with
  | none => rfl
  | some desc =>
    simp only [python_checkValues, fails]
    by_cases hfilterable : desc.filterable = true
    · by_cases hglob : desc.isString = false ∧ op = .glob
      · simp [hfilterable, hglob, bind]
      · simp only [hfilterable, Bool.not_true, Bool.false_eq_true, if_false]
        have hnot : ¬((!desc.isString && decide (op = .glob)) = true) := by simpa using hglob
        rw [if_neg (by simpa using hglob), if_neg hnot]
        have hok : ∀ f : Unit → Except PlanError Unit, (Except.ok () >>= f) = f () := fun _ => rfl
        rw [hok, hok]
        refine bind_congr fun _ => ?_
        by_cases hkind : (field = "kind" ∨ field = "entity_type") ∧ op = .glob
        · rw [if_pos hkind, if_pos hkind] <;> rfl
        · rw [if_neg hkind, if_neg hkind] <;> rfl
    · simp [hfilterable, bind]

theorem mem_typedStrings (h : field ∉ mixedFields) :
    field ∈ typedStrings ↔ field ∈ typedStringFields := by
  have hperm : (typedStrings.filter (· ∉ mixedFields)).Perm
      (typedStringFields.filter (· ∉ mixedFields)) := by decide +kernel
  have hmem := hperm.mem_iff (a := field)
  simpa [List.mem_filter, h] using hmem

theorem checkCmp_unavailable (h : fieldAvailable active field = false) :
    checkCmp op field strValues intValue active = .error ⟨.field,
      "field '" ++ field ++ "' is unavailable in " ++ viewName active ++ " view"⟩ := by
  rw [checkCmp, h]
  rfl

theorem python_checkCmp_available (h : Python.fieldAvailable active field = true) :
    Python.checkCmp op field strValues intValue active =
      if active.isNode then Python.checkNodeCmp op field strValues intValue
      else if op = .glob then .error ⟨.field, "glob predicates are not supported for typed views"⟩
      else Python.checkValues op field strValues intValue
        (field ∈ typedStrings && !(active = .edge && field = "kind" && intValue.isSome)) := by
  rw [Python.checkCmp, h]
  by_cases hglob : op = .glob <;> cases active.isNode <;> simp [fails, hglob, bind]

theorem python_checkCmp_unavailable (h : Python.fieldAvailable active field = false) :
    Python.checkCmp op field strValues intValue active = .error ⟨.field,
      "field '" ++ field ++ "' is unavailable in " ++ viewName active ++ " view"⟩ := by
  rw [Python.checkCmp, h]
  rfl

/-- The fields that only Python knows. -/
theorem same_pythonField (hnode : active.isNode = true) (hfield : field ∈ pythonFields) :
    Same (cmpDisputed op field strValues intValue active) (checkCmp op field strValues intValue active)
      (Python.checkCmp op field strValues intValue active) := by
  have hdisputed : fieldDisputed active field = true := by
    rw [fieldDisputed, hnode, decide_eq_true hfield]
    rfl
  have havailable : Python.fieldAvailable active field = true := by
    rw [python_fieldAvailable, hdisputed, Bool.or_true]
  rw [checkCmp_unavailable (fieldAvailable_of_disputed hdisputed), python_checkCmp_available havailable,
    hnode, if_pos rfl, cmpDisputed, hnode, if_pos rfl]
  constructor
  · intro hd
    simp only [pythonFields, List.mem_cons, List.not_mem_nil, or_false] at hfield
    rcases hfield with rfl | rfl | rfl
    · rfl
    · rfl
    · -- an integer compared for equality is what only Python accepts
      cases op with
      | glob => rfl
      | inList => rfl
      | eq | ne =>
        cases intValue with
        | none => rfl
        | some => simp at hd
  · exact nofun

/-- The fields that one side compares as strings. -/
theorem same_mixedField (hnode : active.isNode = false) (hfield : field ∈ mixedFields) :
    Same (cmpDisputed op field strValues intValue active) (checkCmp op field strValues intValue active)
      (Python.checkCmp op field strValues intValue active) := by
  have hsame := python_fields_typed hnode field
  have hd : cmpDisputed op field strValues intValue active =
      (fieldAvailable active field && decide (op ≠ .glob) && suits op strValues intValue) := by
    rw [cmpDisputed, hnode, if_neg Bool.false_ne_true, decide_eq_true hfield, Bool.and_true]
  rw [hd]
  cases havailable : fieldAvailable active field with
  | false =>
    rw [havailable] at hsame
    rw [checkCmp_unavailable havailable, python_checkCmp_unavailable hsame]
    exact Twins.refl _
  | true =>
    rw [havailable] at hsame
    rw [python_checkCmp_available hsame, checkCmp, havailable, hnode]
    by_cases hglob : op = .glob
    · simp only [hglob, ne_eq, not_true_eq_false, decide_false, Bool.and_false, Bool.false_and,
        Bool.not_true, Bool.false_eq_true, if_false, if_true]
      exact Twins.refl _
    · have hopposite : ∀ field ∈ mixedFields, field ≠ "kind" ∧
          decide (field ∈ typedStrings) = !decide (field ∈ typedStringFields) := by
        decide +kernel
      obtain ⟨hkind, hstrings⟩ := hopposite field hfield
      have htwins := @same_checkValues op field strValues intValue (decide (field ∈ typedStringFields))
      rw [← python_checkValues (!decide (field ∈ typedStringFields)), ← hstrings] at htwins
      simpa [hglob, hkind] using htwins

/-- The two sides accept the same comparisons but for disputed ones. -/
theorem same_checkCmp (op : CmpOp) (field : String) (strValues : List String) (intValue : Option ℤ)
    (active : View) : Same (cmpDisputed op field strValues intValue active)
      (checkCmp op field strValues intValue active)
      (Python.checkCmp op field strValues intValue active) := by
  cases hnode : active.isNode with
  | true =>
    by_cases hfield : field ∈ pythonFields
    · exact same_pythonField hnode hfield
    · have hd : cmpDisputed op field strValues intValue active = false := by
        rw [cmpDisputed, hnode, if_pos rfl]
        have hne : field ≠ "is_instantiation" := by
          rintro rfl
          exact hfield (by decide)
        simp [hne]
      have havailable := python_fieldAvailable active field
      rw [fieldDisputed, decide_eq_false hfield, Bool.and_false, Bool.or_false] at havailable
      have hcheck : Python.checkCmp op field strValues intValue active =
          checkCmp op field strValues intValue active := by
        cases hcpp : fieldAvailable active field with
        | false =>
          rw [hcpp] at havailable
          rw [checkCmp_unavailable hcpp, python_checkCmp_unavailable havailable]
        | true =>
          rw [hcpp] at havailable
          rw [python_checkCmp_available havailable, checkCmp, hcpp, hnode, python_checkNodeCmp hfield]
          rfl
      rw [hcheck, hd]
      exact Twins.refl _
  | false =>
    by_cases hfield : field ∈ mixedFields
    · exact same_mixedField hnode hfield
    · have hd : cmpDisputed op field strValues intValue active = false := by
        rw [cmpDisputed, hnode, if_neg Bool.false_ne_true, decide_eq_false hfield]
        simp
      have havailable := python_fields_typed hnode field
      have hcheck : Python.checkCmp op field strValues intValue active =
          checkCmp op field strValues intValue active := by
        cases hcpp : fieldAvailable active field with
        | false =>
          rw [hcpp] at havailable
          rw [checkCmp_unavailable hcpp, python_checkCmp_unavailable havailable]
        | true =>
          rw [hcpp] at havailable
          rw [python_checkCmp_available havailable, checkCmp, hcpp, hnode, python_checkValues,
            decide_eq_decide.mpr (mem_typedStrings hfield)]
          rfl
      rw [hcheck, hd]
      exact Twins.refl _

end

end CppIndexer.Query
