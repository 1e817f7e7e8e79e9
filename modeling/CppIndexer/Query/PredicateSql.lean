/-
# Compiling predicates to SQL

`pred_sql` with `relation_candidates_sql` and `relation_count_sql`. A quantifier becomes
a `CASE` over counts of its targets, and each count is a subquery of its own that
compiles the target predicate again, with fresh aliases and its own copy of the arguments.

The result is that the text, with its arguments bound in order, has the Kleene value of
the predicate at every row, exactly when every field the predicate names is a column
of a symbol row.
-/

import CppIndexer.Query.SqlMeaning

namespace CppIndexer.Query

open List Option BinaryOp DenotesCases Pred

/-- What `pred_sql` appends: text, arguments, and the alias counter it leaves. -/
structure Emitted where
  tokens : List Token
  args : List SqlValue
  next : ℕ

def Emitted.paren (out : Emitted) : Emitted :=
  { out with tokens := .lparen :: out.tokens ++ [.rparen] }

/-- `relation_count_sql`, over `relation_candidates_sql`. The recursive form binds its kinds and
depth bound before the arguments of the target, the other form its kind after them. -/
def relationCountSql (target : Alias → Alias → ℕ → Except PlanError Emitted)
    (relation : RelationDesc) (minDepth maxDepth : ℤ) (inbound : Bool) (outer : Alias)
    (truth : TargetTruth) (next : ℕ) : Except PlanError Emitted :=
  (target (.qt (next + 1)) (.qen (next + 2)) (next + 3)).map fun value =>
    let shape : CountShape :=
      { truth, table := relation.table, inbound, edge := .qe next, target := .qt (next + 1),
        entity := .qen (next + 2), rows := .rows value.next, outer }
    if 1 < maxDepth ∨ 1 < minDepth then
      ⟨[.countReach shape none none none value.tokens none none],
        [.int relation.kindId, .int relation.kindId, .int maxDepth] ++ value.args ++
          [.int minDepth, .int maxDepth], value.next + 1⟩
    else
      ⟨[.countDirect shape value.tokens none], value.args ++ [.int relation.kindId], value.next + 1⟩

/-- `> 0`. -/
def positive (tokens : List Token) : List Token := tokens ++ .binary .gt :: [.int 0]

/-- `= 0`. -/
def isZero (tokens : List Token) : List Token := tokens ++ .binary .eq :: [.int 0]

/-- The `CASE` of a quantifier over the counts of true, false and unknown targets. -/
def quantifierSql (op : QuantOp) (complete : Bool) (threshold : ℤ)
    (count : TargetTruth → ℕ → Except PlanError Emitted)
    (countUnknown : ℕ → Except PlanError Emitted) (next : ℕ) : Except PlanError Emitted :=
  let flag : List Token := [.int (if complete then 1 else 0)]
  match op with
  | .exists_ | .none => do
      let hit ← count .true next
      let unknown ← countUnknown hit.next
      pure ⟨.caseKw ::
        (whenThen (positive hit.tokens) [.int (if op = .exists_ then 1 else 0)] ++
          (whenThen (positive unknown.tokens) [.null] ++
            (whenThen flag [.int (if op = .exists_ then 0 else 1)] ++ elseNull))),
        hit.args ++ unknown.args, unknown.next⟩
  | .all => do
      let miss ← count .false next
      let unknown ← countUnknown miss.next
      pure ⟨.caseKw ::
        (whenThen (positive miss.tokens) [.int 0] ++
          (whenThen (positive unknown.tokens) [.null] ++ (whenThen flag [.int 1] ++ elseNull))),
        miss.args ++ unknown.args, unknown.next⟩
  | .exactly => do
      let hit ← count .true next
      let equal ← count .true hit.next
      let unknown ← countUnknown equal.next
      let closed ← countUnknown unknown.next
      pure ⟨.caseKw ::
        (whenThen (hit.tokens ++ .binary .gt :: [.int threshold]) [.int 0] ++
          (whenThen ((flag ++ .binary .and :: (equal.tokens ++ .binary .eq :: [.int threshold])) ++
            .binary .and :: isZero unknown.tokens) [.int 1] ++
              (whenThen (flag ++ .binary .and :: isZero closed.tokens) [.int 0] ++ elseNull))),
        hit.args ++ (equal.args ++ unknown.args ++ closed.args), closed.next⟩
  | .atLeast => do
      let hit ← count .true next
      let unknown ← countUnknown hit.next
      pure ⟨.caseKw ::
        (whenThen (hit.tokens ++ .binary .ge :: [.int threshold]) [.int 1] ++
          (whenThen (flag ++ .binary .and :: isZero unknown.tokens) [.int 0] ++ elseNull)),
        hit.args ++ unknown.args, unknown.next⟩

def Junction.joiner : Junction → BinaryOp
  | .allOf => .and
  | .anyOf => .or

def Junction.empty : Junction → ℤ
  | .allOf => 1
  | .anyOf => 0

/-- The comparison of a column with its values. -/
def cmpSql (op : CmpOp) (field : String) (strValues : List String) (intValue : Option ℤ)
    (column : Token) (next : ℕ) : Emitted :=
  match op with
  | .eq => ⟨[column] ++ .binary .eq :: [.slot none], (operands field strValues intValue).take 1, next⟩
  | .ne => ⟨[column] ++ .binary .ne :: [.slot none], (operands field strValues intValue).take 1, next⟩
  | .glob => ⟨[column] ++ .binary .glob :: [.slot none], (strValues.take 1).map .text, next⟩
  | .inList =>
    ⟨[column] ++ [.inList (List.replicate strValues.length none)], strValues.map (operand field), next⟩

mutual

/-- `pred_sql`. A validated negation has one kid. -/
def predSql : Pred → View → Alias → Alias → ℕ → Except PlanError Emitted
  | .junction op [], _, _, _, next => .ok ⟨[.int op.empty], [], next⟩
  | .junction op (kid :: rest), active, symbolAlias, entityAlias, next => do
      let first ← predSql kid active symbolAlias entityAlias next
      let all ← moreKidsSql op rest active symbolAlias entityAlias first
      pure all.paren
  | .not (kid :: _), active, symbolAlias, entityAlias, next => do
      let inner ← predSql kid active symbolAlias entityAlias next
      pure { inner.paren with tokens := .not :: inner.paren.tokens }
  | .not [], _, _, _, _ => .error ⟨.field, "not() takes exactly one predicate"⟩
  | .cmp op field strValues intValue, _, symbolAlias, entityAlias, next =>
    (colExpr field).map fun column =>
      cmpSql op field strValues intValue (.column column symbolAlias entityAlias) next
  | .quantified op relation target minDepth maxDepth threshold inbound, active, symbolAlias, _,
      next =>
    match resolveRelation relation active with
    | none => .error ⟨.relation, "unknown relation '" ++ relation.text ++ "'"⟩
    | some desc =>
      let count := relationCountSql (targetSql target desc.layer) desc minDepth maxDepth inbound
        symbolAlias
      let countUnknown := fun next =>
        if target.isSome then count .unknown next else .ok ⟨[.int 0], [], next⟩
      quantifierSql op (desc.completeness = "complete") threshold count countUnknown next

/-- The loop over the kids of a junction, behind the first. -/
def moreKidsSql (op : Junction) : List Pred → View → Alias → Alias → Emitted → Except PlanError Emitted
  | [], _, _, _, out => .ok out
  | kid :: rest, active, symbolAlias, entityAlias, out => do
      let next ← predSql kid active symbolAlias entityAlias out.next
      moreKidsSql op rest active symbolAlias entityAlias
        ⟨out.tokens ++ .binary op.joiner :: next.tokens, out.args ++ next.args, next.next⟩

/-- The value a quantifier selects for each target. -/
def targetSql : Option Pred → View → Alias → Alias → ℕ → Except PlanError Emitted
  | none, _, _, _, next => .ok ⟨[.int 1], [], next⟩
  | some target, active, symbolAlias, entityAlias, next => do
      let inner ← predSql target active symbolAlias entityAlias next
      pure inner.paren

end

/-! ## Validated predicates -/

mutual

/-- What validation leaves: junctions and negations of validated predicates, comparisons that pass
their checks, and quantifiers over catalogued relations within the depth bounds. -/
def Valid : Pred → View → Prop
  | .junction _ kids, active => ValidKids kids active
  | .not [kid], active => Valid kid active
  | .not _, _ => False
  | .cmp op field strValues intValue, active =>
    checkCmp op field strValues intValue active = .ok ()
  | .quantified op relation target minDepth maxDepth threshold _, active =>
    1 ≤ minDepth ∧ minDepth ≤ maxDepth ∧ (op = .atLeast ∨ op = .exactly → 0 ≤ threshold) ∧
      ∃ desc, resolveRelation relation active = some desc ∧ ValidTarget target desc.layer

/-- Every kid is validated. -/
def ValidKids : List Pred → View → Prop
  | [], _ => True
  | kid :: rest, active => Valid kid active ∧ ValidKids rest active

/-- The target, if any, is validated in the view the relation leads to. -/
def ValidTarget : Option Pred → View → Prop
  | none, _ => True
  | some target, active => Valid target active

end

theorem validKids_append (front back : List Pred) (active : View) :
    ValidKids (front ++ back) active ↔ ValidKids front active ∧ ValidKids back active := by
  induction front with
  | nil => simp [ValidKids]
  | cons _ _ ih => simp [ValidKids, ih, and_assoc]

variable {kid : Pred} {active : View}

theorem validKids_spliceKid (h : Valid kid active) (op : Junction) :
    ValidKids (spliceKid op kid) active := by
  unfold spliceKid
  split
  · rw [Valid] at h
    split
    · exact h
    · exact ⟨h, trivial⟩
  · exact ⟨h, trivial⟩

theorem valid_collapseJunction {kids : List Pred} (h : ValidKids kids active)
    (op : Junction) : Valid (collapseJunction op kids) active := by
  unfold collapseJunction
  split
  · exact h.1
  · exact h

theorem valid_negate (h : Valid kid active) : Valid (negate kid) active := by
  unfold negate
  split <;> exact h

mutual

theorem valid_normPred : ∀ (p : Pred) (active : View) (q : Pred), normPred p active = .ok q →
    Valid q active
  | .junction op kids, active, q, h => by
      rw [normPred] at h
      split at h
      · cases h
      · obtain ⟨flat, hflat, rfl⟩ := map_eq_ok.mp h
        exact valid_collapseJunction (validKids_normKids op kids active flat hflat) op
  | .not [kid], active, q, h => by
      rw [normPred] at h
      obtain ⟨inner, hinner, rfl⟩ := map_eq_ok.mp h
      exact valid_negate (valid_normPred kid active inner hinner)
  | .not [], active, q, h | .not (a :: b :: rest), active, q, h => by
      rw [normPred] at h
      · cases h
      · simp
  | .cmp op field strValues intValue, active, q, h => by
      rw [normPred] at h
      obtain ⟨_, hcheck, rfl⟩ := map_eq_ok.mp h
      exact hcheck
  | .quantified op relation target minDepth maxDepth threshold inbound, active, q, h => by
      rw [normPred] at h
      split at h
      · cases h
      · rename_i desc hdesc
        split at h
        · cases h
        · rename_i hdepth
          split at h
          · cases h
          · rename_i hthreshold
            obtain ⟨target', htarget, rfl⟩ := map_eq_ok.mp h
            refine ⟨by omega, by omega, fun hop => ?_, desc, ?_, ?_⟩
            · exact not_lt.mp fun hneg => hthreshold ⟨hop, hneg⟩
            · exact resolveRelation_qualified hdesc active
            · exact validTarget_normTarget target desc.layer target' htarget

theorem validKids_normKids : ∀ (op : Junction) (kids : List Pred) (active : View)
    (flat : List Pred), normKids op kids active = .ok flat → ValidKids flat active
  | op, [], active, flat, h => by
      rw [normKids] at h
      cases h
      trivial
  | op, kid :: rest, active, flat, h => by
      rw [normKids] at h
      obtain ⟨kid', hkid, h⟩ := ok_of_bind h
      obtain ⟨rest', hrest, h⟩ := ok_of_bind h
      cases h
      apply (validKids_append _ _ _).mpr
      exact ⟨validKids_spliceKid (valid_normPred kid active kid' hkid) op,
        validKids_normKids op rest active rest' hrest⟩

theorem validTarget_normTarget : ∀ (target : Option Pred) (active : View) (target' : Option Pred),
    normTarget target active = .ok target' → ValidTarget target' active
  | none, active, target', h => by
      rw [normTarget] at h
      cases h
      trivial
  | some target, active, target', h => by
      rw [normTarget] at h
      obtain ⟨inner, hinner, rfl⟩ := map_eq_ok.mp h
      exact valid_normPred target active inner hinner

end

/-! ## The values a comparison binds -/

variable {op : CmpOp} {strValues : List String} {intValue : Option ℤ} {field : String}
  {active : View}

theorem checkValues_ok {isString : Bool}
    (h : checkValues op field strValues intValue isString = .ok ()) :
    (isString = true ∧ intValue = none ∧ (op ≠ .inList → ∃ text, strValues = [text])) ∨
      (isString = false ∧ op ≠ .inList ∧ ∃ value, intValue = some value) := by
  unfold checkValues at h
  cases isString with
  | true =>
    apply Or.inl
    cases intValue with
    | some => simp at h
    | none =>
      refine ⟨rfl, rfl, fun hop => ?_⟩
      by_cases hlength : strValues.length = 1
      · exact length_eq_one_iff.mp hlength
      · simp [hop, hlength] at h
  | false =>
    apply Or.inr
    by_cases hop : op = .inList
    · simp [hop] at h
    · cases intValue with
      | some value => exact ⟨rfl, hop, value, rfl⟩
      | none => simp [hop] at h

/-- The value checks of `check_cmp`, whichever view asks for them. A pattern is checked only
against a string field that is not a kind. -/
theorem checkCmp_ok (h : checkCmp op field strValues intValue active = .ok ()) :
    ∃ isString, checkValues op field strValues intValue isString = .ok () ∧
      (op = .glob → isString = true ∧ field ≠ "kind" ∧ field ≠ "entity_type") := by
  unfold checkCmp at h
  split at h
  · cases h
  · split at h
    · unfold checkNodeCmp at h
      split at h
      · cases h
      · rename_i desc hdesc
        split at h
        · cases h
        · split at h
          · cases h
          · rename_i hglob
            obtain ⟨_, hvalues, h⟩ := ok_of_bind h
            refine ⟨desc.isString, hvalues, fun hop => ?_⟩
            have hkinds : ¬((field = "kind" ∨ field = "entity_type") ∧ op = .glob) := by
              intro hkind
              rw [if_pos hkind] at h
              cases h
            refine ⟨by simpa [hop] using hglob, fun hfield => ?_, fun hfield => ?_⟩
            · exact hkinds ⟨Or.inl hfield, hop⟩
            · exact hkinds ⟨Or.inr hfield, hop⟩
    · split at h
      · cases h
      · rename_i hglob
        exact ⟨_, h, fun hop => absurd hop hglob⟩

/-- A comparison other than `in` binds one value. -/
theorem operands_of_checkCmp
    (h : checkCmp op field strValues intValue active = .ok ()) (hop : op ≠ .inList) :
    ∃ value, operands field strValues intValue = [value] ∧
      (op = .glob → (strValues.take 1).map SqlValue.text = [value]) := by
  obtain ⟨_, hvalues, hglob⟩ := checkCmp_ok h
  rcases checkValues_ok hvalues with ⟨-, rfl, hone⟩ | ⟨hstring, -, value, rfl⟩
  · obtain ⟨text, rfl⟩ := hone hop
    refine ⟨operand field text, rfl, fun hpattern => ?_⟩
    obtain ⟨-, hkind, htype⟩ := hglob hpattern
    simp [operand, hkind, htype]
  · refine ⟨.int value, rfl, fun hpattern => ?_⟩
    rw [(hglob hpattern).1] at hstring
    cases hstring

theorem intValue_of_checkCmp (h : checkCmp .inList field strValues intValue active = .ok ()) :
    intValue = none := by
  obtain ⟨_, hvalues, -⟩ := checkCmp_ok h
  rcases checkValues_ok hvalues with ⟨-, hnone, -⟩ | ⟨-, hne, -⟩
  · exact hnone
  · exact absurd rfl hne

/-- An emitted comparison compares. -/
theorem denotes_cmpSql (h : checkCmp op field strValues intValue active = .ok ()) (column : Column)
    (symbolAlias entityAlias : Alias) (next : ℕ) : Denotes 4 5
      (cmpSql op field strValues intValue (.column column symbolAlias entityAlias) next).tokens
      (cmpSql op field strValues intValue (.column column symbolAlias entityAlias) next).args
      symbolAlias entityAlias fun glob db row =>
        ofKleene (compare glob op (column.value db row (db.entityKind row.id))
          (operands field strValues intValue)) := by
  have hcolumn := denotes_column 4 column symbolAlias entityAlias
  cases op with
  | eq =>
    obtain ⟨value, hvalue, -⟩ := operands_of_checkCmp h (by simp)
    have hslot := denotes_slot 5 value symbolAlias entityAlias
    simp only [cmpSql, hvalue]
    apply (hcolumn.binary .eq hslot (by decide) (by decide) (by decide) (by decide)).congr
    funext glob db row
    cases column.value db row (db.entityKind row.id) <;> rfl
  | ne =>
    obtain ⟨value, hvalue, -⟩ := operands_of_checkCmp h (by simp)
    have hslot := denotes_slot 5 value symbolAlias entityAlias
    simp only [cmpSql, hvalue]
    apply (hcolumn.binary .ne hslot (by decide) (by decide) (by decide) (by decide)).congr
    funext glob db row
    cases column.value db row (db.entityKind row.id) <;> rfl
  | glob =>
    obtain ⟨value, hvalue, htext⟩ := operands_of_checkCmp h (by simp)
    have hslot := denotes_slot 5 value symbolAlias entityAlias
    simp only [cmpSql, hvalue, htext rfl]
    apply (hcolumn.binary .glob hslot (by decide) (by decide) (by decide)
      (by decide)).congr
    funext glob db row
    cases column.value db row (db.entityKind row.id) <;> rfl
  | inList =>
    have hnone := intValue_of_checkCmp h
    subst hnone
    have hlist := hcolumn.inList (strValues.map (operand field)) (by decide) (by decide)
    simp only [length_map] at hlist
    exact hlist.mono (le_refl 4) (by decide)

/-! ## The cases of a quantifier -/

/-- How many values pass the test of a counting subquery. -/
def countTruth (truth : TargetTruth) (values : List Kleene) : ℕ :=
  values.countP fun value => truth.test.holds (ofKleene value)

variable (values : List Kleene)

theorem countTruth_true : countTruth .true values = values.count (some true) := by
  unfold countTruth List.count
  congr 1
  funext value
  rcases value with _ | _ | _ <;> rfl

theorem countTruth_false : countTruth .false values = values.count (some false) := by
  unfold countTruth List.count
  congr 1
  funext value
  rcases value with _ | _ | _ <;> rfl

theorem countTruth_unknown : countTruth .unknown values = values.count none := by
  unfold countTruth List.count
  congr 1
  funext value
  rcases value with _ | _ | _ <;> rfl

section Case

variable (glob : String → String → Bool) (a b : ℤ)

@[simp]
theorem truth_gt : truth (gt.apply glob (some (.int a)) (some (.int b))) = some (decide (b < a)) := by
  simp [apply, bind_some, SqlValue.le, ← decide_not, Int.not_le]

@[simp]
theorem truth_ge : truth (ge.apply glob (some (.int a)) (some (.int b))) = some (decide (b ≤ a)) := by
  simp [apply, SqlValue.le]

@[simp]
theorem truth_eq : truth (eq.apply glob (some (.int a)) (some (.int b))) = some (decide (a = b)) := by
  simp [apply]

@[simp]
theorem truth_and (x y : Option SqlValue) :
    truth (BinaryOp.and.apply glob x y) = (truth x).and (truth y) := by
  simp [apply]

@[simp]
theorem truth_flag (complete : Bool) :
    truth (some (.int (if complete then 1 else 0))) = some complete := by
  cases complete <;> rfl

end Case

section Quantify

variable (complete : Bool) (threshold : ℤ) (values : List Kleene)

attribute [local simp] ofKleene

theorem ofKleene_quantify_exists : ofKleene (quantify .exists_ complete threshold values) =
    if 0 < values.count (some true) then some (.int 1)
    else if 0 < values.count none then none else if complete then some (.int 0) else none := by
  simp only [count_pos_iff, quantify, witnessed, closedAnswer]
  by_cases htrue : some true ∈ values
  · simp [htrue]
  · by_cases hnone : none ∈ values <;> cases complete <;> simp [htrue, hnone]

theorem ofKleene_quantify_none : ofKleene (quantify .none complete threshold values) =
    if 0 < values.count (some true) then some (.int 0)
    else if 0 < values.count none then none else if complete then some (.int 1) else none := by
  simp only [count_pos_iff, quantify, witnessed, closedAnswer]
  by_cases htrue : some true ∈ values
  · simp [htrue]
  · by_cases hnone : none ∈ values <;> cases complete <;> simp [htrue, hnone]

theorem ofKleene_quantify_all : ofKleene (quantify .all complete threshold values) =
    if 0 < values.count (some false) then some (.int 0)
    else if 0 < values.count none then none else if complete then some (.int 1) else none := by
  simp only [count_pos_iff, quantify, witnessed, closedAnswer]
  by_cases hfalse : some false ∈ values
  · simp [hfalse]
  · by_cases hnone : none ∈ values <;> cases complete <;> simp [hfalse, hnone]

theorem ofKleene_quantify_atLeast : ofKleene (quantify .atLeast complete threshold values) =
    if threshold ≤ values.count (some true) then some (.int 1)
    else if complete = true ∧ values.count none = 0 then some (.int 0) else none := by
  simp only [count_eq_zero, quantify, witnessed, closedAnswer]
  by_cases htrue : threshold ≤ values.count (some true)
  · simp [htrue]
  · by_cases hnone : none ∈ values <;> cases complete <;> simp [htrue, hnone]

theorem ofKleene_quantify_exactly : ofKleene (quantify .exactly complete threshold values) =
    if threshold < values.count (some true) then some (.int 0)
    else if (complete = true ∧ (values.count (some true) : ℤ) = threshold) ∧
        values.count none = 0 then some (.int 1)
    else if complete = true ∧ values.count none = 0 then some (.int 0) else none := by
  simp only [count_eq_zero, quantify, witnessed, closedAnswer]
  by_cases htrue : threshold < values.count (some true)
  · simp [htrue]
  · by_cases hequal : (values.count (some true) : ℤ) = threshold <;>
      by_cases hnone : none ∈ values <;> cases complete <;>
        simp [htrue, hequal, hnone]

end Quantify

section Quantifier

variable {tokens : List Token} {args : List SqlValue} {symbolAlias entityAlias : Alias}
  {value : RowValue}

/-- A comparison of a count with a number. -/
theorem Denotes.compareInt (h : Denotes 6 6 tokens args symbolAlias entityAlias value)
    (op : BinaryOp) (k : ℤ) : Denotes op.precedence (op.precedence + 1)
      (tokens ++ .binary op :: [.int k]) args symbolAlias entityAlias fun glob db row =>
        op.apply glob (value glob db row) (some (.int k)) := by
  have hlow : op.precedence < 6 := by cases op <;> decide
  have hall := h.binary op (denotes_int 6 k symbolAlias entityAlias) hlow.le hlow hlow hlow
  rwa [append_nil] at hall

variable {count : TargetTruth → ℕ → Except PlanError Emitted}
  {countUnknown : ℕ → Except PlanError Emitted} {out : Emitted}

attribute [local simp] countTruth_unknown countTruth_true truth_flag some.injEq

variable {next : ℕ} {threshold : ℤ} {complete : Bool}

/-- The emitted `CASE` of each quantifier has the value of the quantifier, given the
counts. -/
theorem denotes_quantifierSql {op : QuantOp}
    {values : (String → String → Bool) → Db → SymbolRow → List Kleene}
    (hcount : ∀ truth n c, next ≤ n → count truth n = .ok c → n ≤ c.next ∧
      Denotes 6 6 c.tokens c.args symbolAlias entityAlias fun glob db row =>
        some (.int (countTruth truth (values glob db row))))
    (hunknown : ∀ n c, next ≤ n → countUnknown n = .ok c → n ≤ c.next ∧
      Denotes 6 6 c.tokens c.args symbolAlias entityAlias fun glob db row =>
        some (.int (countTruth .unknown (values glob db row))))
    (h : quantifierSql op complete threshold count countUnknown next = .ok out) :
    next ≤ out.next ∧ Denotes 6 6 out.tokens out.args symbolAlias entityAlias fun glob db row =>
      ofKleene (quantify op complete threshold (values glob db row)) := by
  have hint := fun k => denotes_int 6 k symbolAlias entityAlias
  have hnull := denotes_null 6 symbolAlias entityAlias
  have helse := denotesCases_elseNull symbolAlias entityAlias
  have hflag := hint (if complete then 1 else 0)
  cases op with
  | exists_ =>
    obtain ⟨_, hhit, h⟩ := ok_of_bind h
    obtain ⟨_, hunk, h⟩ := ok_of_bind h
    cases h
    obtain ⟨hle, hhit⟩ := hcount _ _ _ le_rfl hhit
    obtain ⟨hle', hunk⟩ := hunknown _ _ hle hunk
    refine ⟨hle.trans hle', ?_⟩
    have hcase := (DenotesCases.whenThen (hhit.compareInt .gt 0) (hint 1)
      (DenotesCases.whenThen (hunk.compareInt .gt 0) hnull
        (DenotesCases.whenThen hflag (hint 0) helse))).operand 6
    simp only [append_nil] at hcase
    apply hcase.congr
    funext glob db row
    simp [truth_gt, ofKleene_quantify_exists, Int.natCast_pos]
  | none =>
    obtain ⟨_, hhit, h⟩ := ok_of_bind h
    obtain ⟨_, hunk, h⟩ := ok_of_bind h
    cases h
    obtain ⟨hle, hhit⟩ := hcount _ _ _ le_rfl hhit
    obtain ⟨hle', hunk⟩ := hunknown _ _ hle hunk
    refine ⟨hle.trans hle', ?_⟩
    have hcase := (DenotesCases.whenThen (hhit.compareInt .gt 0) (hint 0)
      (DenotesCases.whenThen (hunk.compareInt .gt 0) hnull
        (DenotesCases.whenThen hflag (hint 1) helse))).operand 6
    simp only [append_nil] at hcase
    apply hcase.congr
    funext glob db row
    simp [truth_gt, ofKleene_quantify_none, Int.natCast_pos]
  | all =>
    obtain ⟨_, hmiss, h⟩ := ok_of_bind h
    obtain ⟨_, hunk, h⟩ := ok_of_bind h
    cases h
    obtain ⟨hle, hmiss⟩ := hcount _ _ _ le_rfl hmiss
    obtain ⟨hle', hunk⟩ := hunknown _ _ hle hunk
    refine ⟨hle.trans hle', ?_⟩
    have hcase := (DenotesCases.whenThen (hmiss.compareInt .gt 0) (hint 0)
      (DenotesCases.whenThen (hunk.compareInt .gt 0) hnull
        (DenotesCases.whenThen hflag (hint 1) helse))).operand 6
    simp only [append_nil] at hcase
    apply hcase.congr
    funext glob db row
    simp [truth_gt, countTruth_false, ofKleene_quantify_all, Int.natCast_pos]
  | atLeast =>
    obtain ⟨_, hhit, h⟩ := ok_of_bind h
    obtain ⟨_, hunk, h⟩ := ok_of_bind h
    cases h
    obtain ⟨hle, hhit⟩ := hcount _ _ _ le_rfl hhit
    obtain ⟨hle', hunk⟩ := hunknown _ _ hle hunk
    refine ⟨hle.trans hle', ?_⟩
    have hclosed := hflag.binary .and (hunk.compareInt .eq 0) (by decide) (by decide) (by decide)
      (by decide)
    have hcase := (DenotesCases.whenThen (hhit.compareInt .ge threshold) (hint 1)
      (DenotesCases.whenThen hclosed (hint 0) helse)).operand 6
    simp only [append_nil, nil_append] at hcase
    apply hcase.congr
    funext glob db row
    simp [truth_ge, truth_and, truth_eq, ofKleene_quantify_atLeast, Kleene.and_eq_true,
      decide_eq_true_eq, Int.natCast_eq_zero]
  | exactly =>
    obtain ⟨_, hhit, h⟩ := ok_of_bind h
    obtain ⟨_, hequal, h⟩ := ok_of_bind h
    obtain ⟨_, hunk, h⟩ := ok_of_bind h
    obtain ⟨_, hclosed, h⟩ := ok_of_bind h
    cases h
    obtain ⟨hle₁, hhit⟩ := hcount _ _ _ le_rfl hhit
    obtain ⟨hle₂, hequal⟩ := hcount _ _ _ hle₁ hequal
    obtain ⟨hle₃, hunk⟩ := hunknown _ _ (hle₁.trans hle₂) hunk
    obtain ⟨hle₄, hclosed⟩ := hunknown _ _ (hle₁.trans (hle₂.trans hle₃)) hclosed
    refine ⟨hle₁.trans (hle₂.trans (hle₃.trans hle₄)), ?_⟩
    have hsame := (hflag.binary .and (hequal.compareInt .eq threshold) (by decide) (by decide)
      (by decide) (by decide)).binary .and (hunk.compareInt .eq 0) (by decide) (by decide)
      (by decide) (by decide)
    have hother := hflag.binary .and (hclosed.compareInt .eq 0) (by decide) (by decide)
      (by decide) (by decide)
    have hcase := (DenotesCases.whenThen (hhit.compareInt .gt threshold) (hint 0)
      (DenotesCases.whenThen hsame (hint 1)
        (DenotesCases.whenThen hother (hint 0) helse))).operand 6
    simp only [append_nil, nil_append] at hcase
    apply hcase.congr
    funext glob db row
    simp [truth_gt, truth_and, truth_eq, ofKleene_quantify_exactly, Kleene.and_eq_true,
      decide_eq_true_eq, Int.natCast_eq_zero]

end Quantifier

/-! ## Compilation -/

/-- An alias that was handed out before the counter reached `next`. -/
def Alias.Before (next : ℕ) : Alias → Prop
  | .s | .en => True
  | .qe id | .qt id | .qen id | .rows id => id < next

theorem Alias.Before.mono {next next' : ℕ} {name : Alias} (h : name.Before next)
    (hle : next ≤ next') : name.Before next' := by
  cases name <;> first | trivial | exact Nat.lt_of_lt_of_le h hle

/-- How tightly an emitted predicate holds together: a negation is open to operators
that bind more tightly than `NOT`. -/
def Pred.level : Pred → ℕ
  | .not _ => 3
  | _ => 5

theorem Pred.three_le_level (p : Pred) : 3 ≤ p.level := by
  cases p <;> simp [level]

variable {target : Alias → Alias → ℕ → Except PlanError Emitted} {relation : RelationDesc}
  {minDepth maxDepth : ℤ} {truth : TargetTruth} {inbound : Bool} {next : ℕ} {out : Emitted}

/-- A counting subquery counts over the values of the target at the reached nodes. -/
theorem denotes_relationCountSql
    {outer entityAlias : Alias}
    {value : (String → String → Bool) → Db → SymbolRow → Kleene}
    (htarget : ∀ symbolAlias entityAlias n inner, symbolAlias.Before n →
      target symbolAlias entityAlias n = .ok inner → n ≤ inner.next ∧
        Denotes 6 6 inner.tokens inner.args symbolAlias entityAlias fun glob db row =>
          ofKleene (value glob db row))
    (hmin : 1 ≤ minDepth) (hmax : minDepth ≤ maxDepth) (houter : outer.Before next)
    (h : relationCountSql target relation minDepth maxDepth inbound outer truth next = .ok out) :
    next ≤ out.next ∧ Denotes 6 6 out.tokens out.args outer entityAlias fun glob db row =>
      some (.int (countTruth truth
        ((reached db relation inbound minDepth maxDepth row.id).map (value glob db)))) := by
  obtain ⟨inner, hinner, rfl⟩ := map_eq_ok.mp h
  obtain ⟨hle, hvalue⟩ := htarget _ _ _ _ (Nat.lt_succ_of_lt (Nat.lt_succ_self _)) hinner
  simp only [countTruth, countP_map]
  split
  · refine ⟨by simp only; omega, ?_⟩
    exact denotes_countReach hvalue rfl hmin (hmin.trans hmax) 6 entityAlias
  · rename_i hdepth
    obtain rfl : minDepth = 1 := by omega
    obtain rfl : maxDepth = 1 := by omega
    have hne : outer ≠ .qt (next + 1) := by
      rintro rfl
      exact absurd houter (by simp [Alias.Before])
    refine ⟨by simp only; omega, ?_⟩
    exact denotes_countDirect hvalue hne rfl 6 entityAlias

/-- Without a target predicate no target is unknown. -/
theorem countTruth_unknown_of_none {glob : String → String → Bool} {db : Db}
    {target : Option Pred} (h : target = none) (active : View) (rows : List SymbolRow) :
    countTruth .unknown (rows.map (kleeneTarget glob db target active)) = 0 := by
  rw [countTruth_unknown, count_eq_zero, h]
  intro hmem
  obtain ⟨_, -, hrow⟩ := List.mem_map.mp hmem
  rw [kleeneTarget] at hrow
  cases hrow

mutual

/-- The emitted text of a validated predicate has its Kleene value. -/
theorem denotes_predSql : ∀ (p : Pred) (active : View) (symbolAlias entityAlias : Alias)
    (next : ℕ) (out : Emitted), predSql p active symbolAlias entityAlias next = .ok out →
    Valid p active → symbolAlias.Before next → next ≤ out.next ∧
      Denotes 4 p.level out.tokens out.args symbolAlias entityAlias fun glob db row =>
        ofKleene (kleene glob db p active row)
  | .junction op [], active, symbolAlias, entityAlias, next, out, h, hvalid, hbefore => by
      rw [predSql] at h
      cases h
      refine ⟨le_rfl, ?_⟩
      apply ((denotes_int 4 op.empty symbolAlias entityAlias).mono le_rfl (Nat.le_succ 5)).congr
      funext glob db row
      rw [kleene]
      cases op <;> rfl
  | .junction op (kid :: rest), active, symbolAlias, entityAlias, next, out, h, hvalid,
      hbefore => by
      rw [predSql] at h
      obtain ⟨first, hfirst, h⟩ := ok_of_bind h
      obtain ⟨all, hall, h⟩ := ok_of_bind h
      cases h
      obtain ⟨hle, hkid⟩ := denotes_predSql kid active symbolAlias entityAlias next first hfirst
        hvalid.1 hbefore
      have hlevel := kid.three_le_level
      have hprec : op.joiner.precedence ≤ 2 := by cases op <;> decide
      have hdone : Denotes op.joiner.precedence (op.joiner.precedence + 1) first.tokens first.args
          symbolAlias entityAlias fun glob db row =>
            ofKleene (op.kleene [kleene glob db kid active row]) := by
        apply (hkid.mono (by omega) (by omega)).congr
        simp [op.kleene_singleton]
      obtain ⟨hle', hjoined⟩ := denotes_moreKidsSql op rest active symbolAlias entityAlias first all
        _ hall hvalid.2 (hbefore.mono hle) hdone
      refine ⟨hle.trans hle', ?_⟩
      apply ((hjoined.paren 4).mono le_rfl (Nat.le_succ 5)).congr
      funext glob db row
      rw [kleene, kleeneKids]
      rfl
  | .not [kid], active, symbolAlias, entityAlias, next, out, h, hvalid, hbefore => by
      rw [predSql] at h
      obtain ⟨inner, hinner, h⟩ := ok_of_bind h
      cases h
      obtain ⟨hle, hkid⟩ := denotes_predSql kid active symbolAlias entityAlias next inner hinner
        hvalid hbefore
      refine ⟨hle, ?_⟩
      apply ((hkid.paren 4).not (by decide) (by decide) 4).congr
      funext glob db row
      rw [truth_ofKleene, kleene]
  | .not [], active, symbolAlias, entityAlias, next, out, h, hvalid, hbefore
  | .not (a :: b :: rest), active, symbolAlias, entityAlias, next, out, h, hvalid, hbefore => by
      rw [Valid] at hvalid
      · exact hvalid.elim
      · simp
  | .cmp op field strValues intValue, active, symbolAlias, entityAlias, next, out, h, hvalid,
      hbefore => by
      rw [predSql] at h
      obtain ⟨column, hcolumn, rfl⟩ := map_eq_ok.mp h
      refine ⟨by cases op <;> exact le_rfl, ?_⟩
      apply (denotes_cmpSql hvalid column symbolAlias entityAlias next).congr
      funext glob db row
      rw [kleene, hcolumn]
  | .quantified op relation target minDepth maxDepth threshold inbound, active, symbolAlias,
      entityAlias, next, out, h, hvalid, hbefore => by
      obtain ⟨hmin, hmax, -, desc, hdesc, hkids⟩ := hvalid
      rw [predSql, hdesc] at h
      have htarget := fun symbolAlias entityAlias n inner hbefore hinner =>
        denotes_targetSql target desc.layer symbolAlias entityAlias n inner hinner hkids hbefore
      have hcount : ∀ truth n c, next ≤ n → relationCountSql (targetSql target desc.layer) desc
          minDepth maxDepth inbound symbolAlias truth n = .ok c → n ≤ c.next ∧
          Denotes 6 6 c.tokens c.args symbolAlias entityAlias fun glob db row =>
            some (.int (countTruth truth ((reached db desc inbound minDepth maxDepth row.id).map
              (kleeneTarget glob db target desc.layer)))) :=
        fun truth n c hle hc => denotes_relationCountSql htarget hmin hmax (hbefore.mono hle) hc
      have hunknown : ∀ n c, next ≤ n → (if target.isSome then relationCountSql
          (targetSql target desc.layer) desc minDepth maxDepth inbound symbolAlias .unknown n
          else .ok ⟨[.int 0], [], n⟩) = .ok c → n ≤ c.next ∧
          Denotes 6 6 c.tokens c.args symbolAlias entityAlias fun glob db row =>
            some (.int (countTruth .unknown ((reached db desc inbound minDepth maxDepth row.id).map
              (kleeneTarget glob db target desc.layer)))) := by
        intro n c hle hc
        split at hc
        · exact hcount .unknown n c hle hc
        · rename_i hsome
          cases hc
          refine ⟨le_rfl, (denotes_int 6 0 symbolAlias entityAlias).congr ?_⟩
          funext glob db row
          rw [countTruth_unknown_of_none (by simpa using hsome)]
          rfl
      obtain ⟨hle, hcase⟩ := denotes_quantifierSql hcount hunknown h
      refine ⟨hle, (hcase.mono (by decide) (Nat.le_succ 5)).congr ?_⟩
      funext glob db row
      rw [kleene, hdesc]

theorem denotes_moreKidsSql : ∀ (op : Junction) (kids : List Pred) (active : View)
    (symbolAlias entityAlias : Alias) (done out : Emitted)
    (values : (String → String → Bool) → Db → SymbolRow → List Kleene),
    moreKidsSql op kids active symbolAlias entityAlias done = .ok out →
    ValidKids kids active → symbolAlias.Before done.next →
    (Denotes op.joiner.precedence (op.joiner.precedence + 1) done.tokens done.args symbolAlias
      entityAlias fun glob db row => ofKleene (op.kleene (values glob db row))) →
    done.next ≤ out.next ∧ Denotes op.joiner.precedence (op.joiner.precedence + 1) out.tokens
      out.args symbolAlias entityAlias fun glob db row =>
        ofKleene (op.kleene (values glob db row ++ kleeneKids glob db kids active row))
  | op, [], active, symbolAlias, entityAlias, done, out, values, h, hvalid, hbefore, hdone => by
      rw [moreKidsSql] at h
      cases h
      refine ⟨le_rfl, hdone.congr ?_⟩
      funext glob db row
      rw [kleeneKids, append_nil]
  | op, kid :: rest, active, symbolAlias, entityAlias, done, out, values, h, hvalid, hbefore,
      hdone => by
      rw [moreKidsSql] at h
      obtain ⟨next, hnext, h⟩ := ok_of_bind h
      obtain ⟨hle, hkid⟩ := denotes_predSql kid active symbolAlias entityAlias done.next next hnext
        hvalid.1 hbefore
      have hlevel := kid.three_le_level
      have hprec : op.joiner.precedence ≤ 2 := by cases op <;> decide
      have hjoined := hdone.binary op.joiner hkid le_rfl (by omega) (by omega) (by omega)
      have hvalue : (fun glob db row => op.joiner.apply glob
          (ofKleene (op.kleene (values glob db row)))
          (ofKleene (kleene glob db kid active row))) =
          fun glob db row => ofKleene
            (op.kleene (values glob db row ++ [kleene glob db kid active row])) := by
        funext glob db row
        rw [op.kleene_append, op.kleene_singleton]
        cases op <;> simp [Junction.joiner, apply, Junction.kleene]
      obtain ⟨hle', hall⟩ := denotes_moreKidsSql op rest active symbolAlias entityAlias _ out _ h
        hvalid.2 (hbefore.mono hle) (hjoined.congr hvalue)
      refine ⟨hle.trans hle', hall.congr ?_⟩
      funext glob db row
      rw [kleeneKids, append_assoc, singleton_append]

theorem denotes_targetSql : ∀ (target : Option Pred) (active : View)
    (symbolAlias entityAlias : Alias) (next : ℕ) (out : Emitted),
    targetSql target active symbolAlias entityAlias next = .ok out → ValidTarget target active →
    symbolAlias.Before next → next ≤ out.next ∧
      Denotes 6 6 out.tokens out.args symbolAlias entityAlias fun glob db row =>
        ofKleene (kleeneTarget glob db target active row)
  | none, active, symbolAlias, entityAlias, next, out, h, hvalid, hbefore => by
      rw [targetSql] at h
      cases h
      refine ⟨le_rfl, (denotes_int 6 1 symbolAlias entityAlias).congr ?_⟩
      funext glob db row
      rw [kleeneTarget]
      rfl
  | some target, active, symbolAlias, entityAlias, next, out, h, hvalid, hbefore => by
      rw [targetSql] at h
      obtain ⟨inner, hinner, h⟩ := ok_of_bind h
      cases h
      obtain ⟨hle, hvalue⟩ := denotes_predSql target active symbolAlias entityAlias next inner
        hinner hvalid hbefore
      refine ⟨hle, (hvalue.paren 6).congr ?_⟩
      funext glob db row
      rw [kleeneTarget]

end

/-! ## Which predicates compile -/

/-- The fields `col_expr` has a column for where symbols are filtered. -/
def symbolFields : List String :=
  ["id", "usr", "semantic_universe", "identity_key", "name", "name_length", "multi_def",
    "negative_multi_def", "spelling", "qual_name", "kind", "entity_type", "is_definition",
    "is_pure", "is_static", "callable_kind", "template_origin", "template_form", "owner", "file",
    "line", "col", "decl_path"]

variable {field : String}

theorem colExpr_isOk : (∃ column, colExpr field = .ok column) ↔ field ∈ symbolFields := by
  unfold colExpr symbolFields
  split <;> simp_all

mutual

/-- The fields a predicate compares, those of its targets included. -/
def Pred.fields : Pred → List String
  | .junction _ kids => kidsFields kids
  | .not kids => kidsFields kids
  | .cmp _ field _ _ => [field]
  | .quantified _ _ target _ _ _ _ => targetFields target

def kidsFields : List Pred → List String
  | [] => []
  | kid :: rest => kid.fields ++ kidsFields rest

def targetFields : Option Pred → List String
  | none => []
  | some target => target.fields

end

variable {complete : Bool} {op : QuantOp} {count : TargetTruth → ℕ → Except PlanError Emitted}
  {next : ℕ} {countUnknown : ℕ → Except PlanError Emitted} {threshold : ℤ}

/-- A counting subquery is emitted exactly when its target is. -/
theorem relationCountSql_isOk
    {outer : Alias}
    :
    (∃ out, relationCountSql target relation minDepth maxDepth inbound outer truth next = .ok out) ↔
      ∃ inner, target (.qt (next + 1)) (.qen (next + 2)) (next + 3) = .ok inner := by
  constructor
  · rintro ⟨_, h⟩
    obtain ⟨inner, hinner, -⟩ := map_eq_ok.mp h
    exact ⟨inner, hinner⟩
  · rintro ⟨inner, hinner⟩
    exact ⟨_, map_eq_ok.mpr ⟨inner, hinner, rfl⟩⟩

/-- Every quantifier counts at least once. -/
theorem count_of_quantifierSql
    (h : quantifierSql op complete threshold count countUnknown next = .ok out) :
    ∃ truth c, count truth next = .ok c := by
  cases op with
  | exists_ | none | atLeast | exactly =>
    obtain ⟨hit, hhit, -⟩ := ok_of_bind h
    exact ⟨.true, hit, hhit⟩
  | all =>
    obtain ⟨miss, hmiss, -⟩ := ok_of_bind h
    exact ⟨.false, miss, hmiss⟩

theorem quantifierSql_isOk
    (hcount : ∀ truth n, ∃ c, count truth n = .ok c) (hunknown : ∀ n, ∃ c, countUnknown n = .ok c) :
    ∃ out, quantifierSql op complete threshold count countUnknown next = .ok out := by
  cases op with
  | exists_ | none | atLeast =>
    obtain ⟨hit, hhit⟩ := hcount .true next
    obtain ⟨unknown, hunk⟩ := hunknown hit.next
    exact ⟨_, bind_eq_ok.mpr ⟨hit, hhit, bind_eq_ok.mpr ⟨unknown, hunk, rfl⟩⟩⟩
  | all =>
    obtain ⟨miss, hmiss⟩ := hcount .false next
    obtain ⟨unknown, hunk⟩ := hunknown miss.next
    exact ⟨_, bind_eq_ok.mpr ⟨miss, hmiss, bind_eq_ok.mpr ⟨unknown, hunk, rfl⟩⟩⟩
  | exactly =>
    obtain ⟨hit, hhit⟩ := hcount .true next
    obtain ⟨equal, hequal⟩ := hcount .true hit.next
    obtain ⟨unknown, hunk⟩ := hunknown equal.next
    obtain ⟨closed, hclosed⟩ := hunknown unknown.next
    exact ⟨_, bind_eq_ok.mpr ⟨hit, hhit, bind_eq_ok.mpr ⟨equal, hequal, bind_eq_ok.mpr
      ⟨unknown, hunk, bind_eq_ok.mpr ⟨closed, hclosed, rfl⟩⟩⟩⟩⟩

mutual

/-- A validated predicate compiles exactly when its fields are columns of a symbol row. -/
theorem predSql_isOk : ∀ (p : Pred) (active : View) (symbolAlias entityAlias : Alias) (next : ℕ),
    Valid p active → ((∃ out, predSql p active symbolAlias entityAlias next = .ok out) ↔
      ∀ field ∈ p.fields, field ∈ symbolFields)
  | .junction op [], active, symbolAlias, entityAlias, next, hvalid => by
      simp [predSql, fields, kidsFields]
  | .junction op (kid :: rest), active, symbolAlias, entityAlias, next, hvalid => by
      have hkid := predSql_isOk kid active symbolAlias entityAlias next hvalid.1
      have hrest := fun out => moreKidsSql_isOk op rest active symbolAlias entityAlias out hvalid.2
      simp only [fields, kidsFields, mem_append, or_imp, forall_and, ← hkid]
      rw [predSql]
      constructor
      · rintro ⟨_, h⟩
        obtain ⟨first, hfirst, h⟩ := ok_of_bind h
        obtain ⟨all, hall, -⟩ := ok_of_bind h
        exact ⟨⟨first, hfirst⟩, (hrest first).mp ⟨all, hall⟩⟩
      · rintro ⟨⟨first, hfirst⟩, hfields⟩
        obtain ⟨all, hall⟩ := (hrest first).mpr hfields
        exact ⟨_, bind_eq_ok.mpr ⟨first, hfirst, bind_eq_ok.mpr ⟨all, hall, rfl⟩⟩⟩
  | .not [kid], active, symbolAlias, entityAlias, next, hvalid => by
      have hkid := predSql_isOk kid active symbolAlias entityAlias next hvalid
      simp only [fields, kidsFields, append_nil, ← hkid]
      rw [predSql]
      constructor
      · rintro ⟨_, h⟩
        obtain ⟨inner, hinner, -⟩ := ok_of_bind h
        exact ⟨inner, hinner⟩
      · rintro ⟨inner, hinner⟩
        exact ⟨_, bind_eq_ok.mpr ⟨inner, hinner, rfl⟩⟩
  | .not [], active, symbolAlias, entityAlias, next, hvalid
  | .not (a :: b :: rest), active, symbolAlias, entityAlias, next, hvalid => by
      rw [Valid] at hvalid
      · exact hvalid.elim
      · simp
  | .cmp op field strValues intValue, active, symbolAlias, entityAlias, next, hvalid => by
      simp only [fields, mem_singleton, forall_eq, ← colExpr_isOk]
      rw [predSql]
      constructor
      · rintro ⟨_, h⟩
        obtain ⟨column, hcolumn, -⟩ := map_eq_ok.mp h
        exact ⟨column, hcolumn⟩
      · rintro ⟨column, hcolumn⟩
        exact ⟨_, map_eq_ok.mpr ⟨column, hcolumn, rfl⟩⟩
  | .quantified op relation target minDepth maxDepth threshold inbound, active, symbolAlias,
      entityAlias, next, hvalid => by
      obtain ⟨-, -, -, desc, hdesc, hkids⟩ := hvalid
      have htarget := fun symbolAlias entityAlias n =>
        targetSql_isOk target desc.layer symbolAlias entityAlias n hkids
      rw [fields, predSql, hdesc]
      constructor
      · rintro ⟨_, h⟩
        obtain ⟨_, c, hc⟩ := count_of_quantifierSql h
        exact (htarget _ _ _).mp (relationCountSql_isOk.mp ⟨c, hc⟩)
      · intro hfields
        apply quantifierSql_isOk
        · intro _ _
          exact relationCountSql_isOk.mpr ((htarget _ _ _).mpr hfields)
        · intro _
          split
          · exact relationCountSql_isOk.mpr ((htarget _ _ _).mpr hfields)
          · exact ⟨_, rfl⟩

theorem moreKidsSql_isOk : ∀ (op : Junction) (kids : List Pred) (active : View)
    (symbolAlias entityAlias : Alias) (done : Emitted), ValidKids kids active →
    ((∃ out, moreKidsSql op kids active symbolAlias entityAlias done = .ok out) ↔
      ∀ field ∈ kidsFields kids, field ∈ symbolFields)
  | op, [], active, symbolAlias, entityAlias, done, hvalid => by
      simp [moreKidsSql, kidsFields]
  | op, kid :: rest, active, symbolAlias, entityAlias, done, hvalid => by
      have hkid := predSql_isOk kid active symbolAlias entityAlias done.next hvalid.1
      have hrest := fun out => moreKidsSql_isOk op rest active symbolAlias entityAlias out hvalid.2
      simp only [kidsFields, mem_append, or_imp, forall_and, ← hkid]
      rw [moreKidsSql]
      constructor
      · rintro ⟨out, h⟩
        obtain ⟨next, hnext, h⟩ := ok_of_bind h
        exact ⟨⟨next, hnext⟩, (hrest _).mp ⟨out, h⟩⟩
      · rintro ⟨⟨next, hnext⟩, hfields⟩
        obtain ⟨out, hout⟩ := (hrest ⟨done.tokens ++ .binary op.joiner :: next.tokens,
          done.args ++ next.args, next.next⟩).mpr hfields
        exact ⟨out, bind_eq_ok.mpr ⟨next, hnext, hout⟩⟩

theorem targetSql_isOk : ∀ (target : Option Pred) (active : View)
    (symbolAlias entityAlias : Alias) (next : ℕ), ValidTarget target active →
    ((∃ out, targetSql target active symbolAlias entityAlias next = .ok out) ↔
      ∀ field ∈ targetFields target, field ∈ symbolFields)
  | none, active, symbolAlias, entityAlias, next, hvalid => by
      simp [targetSql, targetFields]
  | some target, active, symbolAlias, entityAlias, next, hvalid => by
      have htarget := predSql_isOk target active symbolAlias entityAlias next hvalid
      rw [targetSql, targetFields, ← htarget]
      constructor
      · rintro ⟨_, h⟩
        obtain ⟨inner, hinner, -⟩ := ok_of_bind h
        exact ⟨inner, hinner⟩
      · rintro ⟨inner, hinner⟩
        exact ⟨_, bind_eq_ok.mpr ⟨inner, hinner, rfl⟩⟩

end

/-! ## Errors -/

theorem colExpr_error {e : PlanError} (h : colExpr field = .error e) :
    e.code ≠ .unknown := by
  unfold colExpr at h
  split at h <;> cases h <;> simp

section Errors

variable {P : PlanError → Prop}

theorem quantifierSql_error {op : QuantOp}
    {e : PlanError}
    (hcount : ∀ truth n e, count truth n = .error e → P e)
    (hunknown : ∀ n e, countUnknown n = .error e → P e)
    (h : quantifierSql op complete threshold count countUnknown next = .error e) : P e := by
  cases op with
  | exists_ | none | atLeast | all =>
    rcases error_of_bind h with h | ⟨_, -, h⟩
    · exact hcount _ _ e h
    · rcases error_of_bind h with h | ⟨_, -, h⟩
      · exact hunknown _ e h
      · cases h
  | exactly =>
    rcases error_of_bind h with h | ⟨_, -, h⟩
    · exact hcount _ _ e h
    · rcases error_of_bind h with h | ⟨_, -, h⟩
      · exact hcount _ _ e h
      · rcases error_of_bind h with h | ⟨_, -, h⟩
        · exact hunknown _ e h
        · rcases error_of_bind h with h | ⟨_, -, h⟩
          · exact hunknown _ e h
          · cases h

mutual

/-- Compilation fails with a plan error, or on a field without a column. -/
theorem predSql_error_of (hplan : ∀ e, e.code = .field ∨ e.code = .relation → P e) :
    ∀ (p : Pred) (active : View) (symbolAlias entityAlias : Alias) (next : ℕ) (e : PlanError),
    (∀ field ∈ p.fields, ∀ e, colExpr field = .error e → P e) →
    predSql p active symbolAlias entityAlias next = .error e → P e
  | .junction op [], active, symbolAlias, entityAlias, next, e, _, h => by
      rw [predSql] at h
      cases h
  | .junction op (kid :: rest), active, symbolAlias, entityAlias, next, e, hfields, h => by
      simp only [fields, kidsFields, mem_append, or_imp, forall_and] at hfields
      rw [predSql] at h
      rcases error_of_bind h with h | ⟨first, -, h⟩
      · exact predSql_error_of hplan kid active symbolAlias entityAlias next e hfields.1 h
      · rcases error_of_bind h with h | ⟨_, -, h⟩
        · exact moreKidsSql_error_of hplan op rest active symbolAlias entityAlias first e hfields.2 h
        · cases h
  | .not [], active, symbolAlias, entityAlias, next, e, _, h => by
      rw [predSql] at h
      cases h
      exact hplan _ (Or.inl rfl)
  | .not (kid :: rest), active, symbolAlias, entityAlias, next, e, hfields, h => by
      simp only [fields, kidsFields, mem_append, or_imp, forall_and] at hfields
      rw [predSql] at h
      rcases error_of_bind h with h | ⟨_, -, h⟩
      · exact predSql_error_of hplan kid active symbolAlias entityAlias next e hfields.1 h
      · cases h
  | .cmp op field strValues intValue, active, symbolAlias, entityAlias, next, e, hfields, h => by
      rw [predSql] at h
      exact hfields field (by simp [fields]) e (error_of_map h)
  | .quantified op relation target minDepth maxDepth threshold inbound, active, symbolAlias,
      entityAlias, next, e, hfields, h => by
      rw [predSql] at h
      split at h
      · cases h
        exact hplan _ (Or.inr rfl)
      · rename_i desc _
        have hcount : ∀ truth n e, relationCountSql (targetSql target desc.layer) desc minDepth
            maxDepth inbound symbolAlias truth n = .error e → P e :=
          fun truth n e h =>
            targetSql_error_of hplan target desc.layer _ _ _ e hfields (error_of_map h)
        apply quantifierSql_error hcount _ h
        intro _ e h
        split at h
        · exact hcount _ _ e h
        · cases h

theorem moreKidsSql_error_of (hplan : ∀ e, e.code = .field ∨ e.code = .relation → P e) :
    ∀ (op : Junction) (kids : List Pred) (active : View) (symbolAlias entityAlias : Alias)
    (done : Emitted) (e : PlanError), (∀ field ∈ kidsFields kids, ∀ e, colExpr field = .error e → P e) →
    moreKidsSql op kids active symbolAlias entityAlias done = .error e → P e
  | op, [], active, symbolAlias, entityAlias, done, e, _, h => by
      rw [moreKidsSql] at h
      cases h
  | op, kid :: rest, active, symbolAlias, entityAlias, done, e, hfields, h => by
      simp only [kidsFields, mem_append, or_imp, forall_and] at hfields
      rw [moreKidsSql] at h
      rcases error_of_bind h with h | ⟨next, -, h⟩
      · exact predSql_error_of hplan kid active symbolAlias entityAlias done.next e hfields.1 h
      · exact moreKidsSql_error_of hplan op rest active symbolAlias entityAlias _ e hfields.2 h

theorem targetSql_error_of (hplan : ∀ e, e.code = .field ∨ e.code = .relation → P e) :
    ∀ (target : Option Pred) (active : View) (symbolAlias entityAlias : Alias) (next : ℕ)
    (e : PlanError), (∀ field ∈ targetFields target, ∀ e, colExpr field = .error e → P e) →
    targetSql target active symbolAlias entityAlias next = .error e → P e
  | none, active, symbolAlias, entityAlias, next, e, _, h => by
      rw [targetSql] at h
      cases h
  | some target, active, symbolAlias, entityAlias, next, e, hfields, h => by
      rw [targetSql] at h
      rcases error_of_bind h with h | ⟨_, -, h⟩
      · exact predSql_error_of hplan target active symbolAlias entityAlias next e hfields h
      · cases h

end

end Errors

/-- Compilation never fails with the error of the unknown policy. -/
theorem predSql_error (p : Pred) (active : View) (symbolAlias entityAlias : Alias) (next : ℕ)
    (e : PlanError) (h : predSql p active symbolAlias entityAlias next = .error e) :
    e.code ≠ .unknown := by
  refine @predSql_error_of (fun e => e.code ≠ .unknown) ?_ p active symbolAlias entityAlias next e
    (fun _ _ _ h => colExpr_error h) h
  rintro e (hcode | hcode) <;> simp [hcode]

/-- Compilation succeeds, every argument is bound to a placeholder, and the expression has the
given truth value at every row of every database. -/
def CompilesTo (p : Pred) (active : View)
    (meaning : (String → String → Bool) → Db → SymbolRow → Kleene) : Prop :=
  ∃ out bound expr, predSql p active .s .en 0 = .ok out ∧
    bindTokens out.args out.tokens = ([], bound) ∧ parseExpr bound = some expr ∧
    ∀ glob db env row, env.Holds db .s .en row →
      eval glob db expr env = ofKleene (meaning glob db row)

/-- A validated predicate compiles to an expression with its Kleene value exactly when all its
fields are columns of a symbol row. -/
theorem compilesTo_kleene_iff {p q : Pred} {active : View} (h : normPred p active = .ok q) :
    CompilesTo q active (fun glob db row => kleene glob db p active row) ↔
      ∀ field ∈ q.fields, field ∈ symbolFields := by
  have hvalid := valid_normPred p active q h
  rw [← predSql_isOk q active .s .en 0 hvalid]
  constructor
  · rintro ⟨out, -, -, hout, -⟩
    exact ⟨out, hout⟩
  · rintro ⟨out, hout⟩
    obtain ⟨-, bound, expr, hbinds, hoperand, heval⟩ :=
      denotes_predSql q active .s .en 0 out hout hvalid trivial
    have hall := hbinds []
    rw [append_nil] at hall
    refine ⟨out, bound, expr, hout, hall, hoperand.parseExpr_eq, ?_⟩
    intro glob db env row henv
    rw [heval glob db env row henv]
    exact congrArg ofKleene (kleene_normPred glob db p active q h row)

/-- Exactly three nodes within two calls, none of which calls only `main`, in any view of
the relation name. -/
def nestedCalls (view : Option View) : Pred :=
  .quantified .exactly ⟨view, "calls"⟩
    (some (.not [.quantified .all ⟨view, "calls"⟩ (some (.cmp .eq "name" ["main"] none))
      1 1 1 false]))
    1 2 3 false

/-- The theorem at a nested quantifier, whose fields are columns. -/
theorem compilesTo_kleene_nestedCalls :
    normPred (nestedCalls none) .symbol = .ok (nestedCalls (some .symbol)) ∧
      CompilesTo (nestedCalls (some .symbol)) .symbol
        (fun glob db row => kleene glob db (nestedCalls none) .symbol row) := by
  have hnorm : normPred (nestedCalls none) .symbol = .ok (nestedCalls (some .symbol)) := by
    rfl
  refine ⟨hnorm, (compilesTo_kleene_iff hnorm).mpr ?_⟩
  decide

/-- `owner_id` is a field of parameters, but the symbol view accepts it. -/
def ownerIdIs : Pred := .cmp .eq "owner_id" [] (some 1)

/-- Validation accepts the predicate and compilation fails. -/
theorem ownerIdIs_not_compiled : normPred ownerIdIs .symbol = .ok ownerIdIs ∧
      predSql ownerIdIs .symbol .s .en 0 = .error ⟨.field, "unknown field 'owner_id'"⟩ ∧
        ¬CompilesTo ownerIdIs .symbol fun glob db row => kleene glob db ownerIdIs .symbol row := by
  refine ⟨by rfl, by rfl, ?_⟩
  rintro ⟨_, -, -, hout, -⟩
  cases hout

end CppIndexer.Query
