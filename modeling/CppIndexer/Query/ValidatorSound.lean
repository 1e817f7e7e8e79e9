/-
# What validation promises the executor

A validated plan is executed without a check of its own: the executor takes the first of the values
of a comparison, looks up the rows of the nodes it sorts, follows the relation a stage names and
binds the arguments of its statements.

Validation is enough for most of this. It accepts four things that the executor cannot do:
a quantifier in a predicate over typed rows, an enumeration of type layers, an order over nodes
that have no row, and a count of edges compared behind a quantifier.
-/

import CppIndexer.Query.Validate

namespace CppIndexer.Query

open List Option Index

/-- An error that the executor throws as a `PlanError`. -/
def PlanError.isPlanError (e : PlanError) : Bool := e.code ≠ .sql && e.code ≠ .range

/-- Executions that fail with plan errors only. -/
def PlanErrorsOnly {α : Type} (x : Except PlanError α) : Prop :=
  ∀ e, x = .error e → e.isPlanError = true

/-! ## Defined accesses -/

mutual

/-- `predicate_matches` as far as its accesses are defined: it stops at the first operand that
decides a junction, and takes the first of the values of a comparison. The field of a quantifier
is the empty one, and it has no values. -/
def predicateReads (view : View) (fields : List String) (cells : List Cell) : Pred → Option Bool
  | .junction .allOf kids => kidsRead view fields cells true kids
  | .junction .anyOf kids => kidsRead view fields cells false kids
  | .not [] => none
  | .not (kid :: _) => (predicateReads view fields cells kid).map (!·)
  | .cmp op field strValues intValue =>
    match cells[fields.idxOf field]? with
    | none => some false
    | some value =>
      if intValue = none ∧ op ≠ .inList ∧ strValues = [] then none
      else some (compareCell view op field strValues intValue value)
  | .quantified .. => if (cells[fields.idxOf ""]?).isSome then none else some false

/-- The loop over the kids of a junction. -/
def kidsRead (view : View) (fields : List String) (cells : List Cell) (all : Bool) :
    List Pred → Option Bool
  | [] => some all
  | kid :: rest =>
    match predicateReads view fields cells kid with
    | none => none
    | some matched => if matched = all then kidsRead view fields cells all rest else some (!all)

end

mutual

def Pred.quantifierFree : Pred → Bool
  | .junction _ kids => kidsQuantifierFree kids
  | .not kids => kidsQuantifierFree kids
  | .cmp .. => true
  | .quantified .. => false

def kidsQuantifierFree : List Pred → Bool
  | [] => true
  | kid :: rest => kid.quantifierFree && kidsQuantifierFree rest

end

namespace Exec

variable (idx : Index) (config : Config)

/-- A filter of typed rows has values to compare with wherever it gets to. -/
def FilterDefined (st : Stream) (pred : Pred) : Prop :=
  ∀ key ∈ st.keys, ∀ cells,
    typedCells idx config.budgets st (predicateFields pred) key = some cells →
      (predicateReads st.view (predicateFields pred) cells pred).isSome = true

/-- A statement over symbol rows has a placeholder for every argument. -/
def StatementDefined (view : View) (pred : Pred) : Prop :=
  ∀ out, predSql pred view .s .en 0 = .ok out → (bindTokens out.args out.tokens).1 = []

/-- The accesses of a predicate in a stage. -/
def PredDefined (st : Stream) (pred : Pred) : Prop :=
  if st.view.isNode then StatementDefined st.view pred else FilterDefined idx config st pred

/-- The rows that an enumeration filters, where no fast path answers it. -/
def enumerated (st : Stream) (afterId : Option ℤ) : Stream :=
  let keys := (idx.keysOf st.view).rows
  let keys := if st.view = .edge then keys.filter fun key => afterId.all fun id => id < key.a
    else keys
  withKeys st config.budgets.enumerate keys

/-- Nodes that are sorted have rows. -/
def RowsDefined (st : Stream) (fields : List String) : Prop :=
  if st.keys ≠ [] then
    2 ≤ st.keys.length → ∀ key ∈ st.keys, (typedCells idx config.budgets st fields key).isSome = true
  else
    2 ≤ st.ids.length → ∀ cells, idx.symbolCells st.ids fields = .ok cells →
      ∀ id ∈ st.ids, (cells id).isSome = true

/-- A stage performs no undefined access. -/
def StageDefined (stage : Stage) (st : Stream) (afterId : Option ℤ) : Prop :=
  match stage with
  | .nodes pred _ => st.view ≠ .typeLayer ∧ ∀ p ∈ pred,
      if st.view.isNode then StatementDefined st.view p
      else FilterDefined idx config (enumerated idx config st afterId) p
  | .where_ pred _ => PredDefined idx config st pred
  | .traverse inbound relation .static _ _ =>
    (resolveRelation relation st.view inbound).isSome = true
  | .path _ relation _ _ _ inbound => (resolveRelation relation st.view inbound).isSome = true
  | .orderBy fields =>
    if st.shape = .nodes then RowsDefined idx config st fields
    else ∀ field ∈ fields, field ∈ st.fields
  | _ => True

/-- A predicate that the executor can evaluate in a view: over symbol rows no count of edges is
compared behind a quantifier, over typed rows there is no quantifier. -/
def PredSafe (view : View) (pred : Pred) : Prop :=
  if view.isNode then "negative_count" ∉ pred.fields ∧ "effective_count" ∉ pred.fields
  else pred.quantifierFree = true

/-- Nodes that are compared with each other are in the index. -/
def NodesExist (st : Stream) : Prop :=
  if st.keys ≠ [] then
    2 ≤ st.keys.length → ∀ key ∈ st.keys, (typedCells idx config.budgets st [] key).isSome = true
  else 2 ≤ st.ids.length → ∀ id ∈ st.ids, id ∈ idx.db.symbols.map (·.id)

/-- A step that avoids what validation lets through. -/
def StepSafe (stage : Stage) (st : Stream) (_afterId : Option ℤ) : Prop :=
  match stage with
  | .nodes pred _ => st.view ≠ .typeLayer ∧ ∀ p ∈ pred, PredSafe st.view p
  | .where_ pred _ => PredSafe st.view pred
  | .orderBy _ => st.shape = .nodes → NodesExist idx config st
  | _ => True

end Exec

mutual

/-- A property of every step of the run of a plan, those of its operands included. -/
def Plan.Along (idx : Index) (config : Config) (P : Stage → Stream → Option ℤ → Prop) :
    Plan → Option ℤ → Prop
  | .mk source stages, afterId =>
    stagesAlong idx config P (config.nodeLimit stages) stages (Exec.initial idx source) afterId

/-- A property of every step of the stages. -/
def stagesAlong (idx : Index) (config : Config) (P : Stage → Stream → Option ℤ → Prop)
    (nodeLimit : Option ℕ) : List Stage → Stream → Option ℤ → Prop
  | [], _, _ => True
  | stage :: rest, st, afterId => Exec.rejectAmbiguous idx st = .ok () →
      stageAlong idx config P stage st afterId ∧
        ∀ out, Exec.runStage idx config nodeLimit stage st afterId = .ok out → out.shape ≠ .scalar →
          stagesAlong idx config P nodeLimit rest out (stage.cursorAfter afterId)

/-- A property of one step, and of the run of its operand. -/
def stageAlong (idx : Index) (config : Config) (P : Stage → Stream → Option ℤ → Prop) :
    Stage → Stream → Option ℤ → Prop
  | .setOp op operand, st, afterId =>
    P (.setOp op operand) st afterId ∧ operand.Along idx config P none
  | .path operand relation minDepth maxDepth shortest inbound, st, afterId =>
    P (.path operand relation minDepth maxDepth shortest inbound) st afterId ∧
      operand.Along idx config P none
  | stage, st, afterId => P stage st afterId

end

/-! ## Predicates -/

variable {active : View} {field : String}

/-- A checked comparison has a value wherever its first one is taken. -/
theorem hasValue_of_checkCmp {op : CmpOp} {strValues : List String}
    {intValue : Option ℤ}
    (h : checkCmp op field strValues intValue active = .ok ()) :
    ¬ (intValue = none ∧ op ≠ .inList ∧ strValues = []) := by
  rintro ⟨hint, hop, hstr⟩
  obtain ⟨_, hvalues, _⟩ := checkCmp_ok h
  obtain ⟨_, _, htext⟩ | ⟨_, _, _, hvalue⟩ := checkValues_ok hvalues
  · obtain ⟨_, htext⟩ := htext hop
    simp [hstr] at htext
  · simp [hint] at hvalue

section Reads

variable {view : View} {fields : List String} {cells : List Cell}

mutual

/-- Where its accesses are defined, a predicate is evaluated as the executor does. -/
theorem predicateMatches_of_reads : ∀ (p : Pred) (b : Bool),
    predicateReads view fields cells p = some b → predicateMatches view fields cells p = b
  | .junction .allOf kids, b, h => by
      rw [predicateReads] at h
      rw [predicateMatches]
      exact (matchesOf_of_kidsRead true kids b h).1 rfl
  | .junction .anyOf kids, b, h => by
      rw [predicateReads] at h
      rw [predicateMatches]
      exact (matchesOf_of_kidsRead false kids b h).2 rfl
  | .not [], b, h => by
      rw [predicateReads] at h
      cases h
  | .not (kid :: rest), b, h => by
      rw [predicateReads] at h
      obtain ⟨c, hc, rfl⟩ := map_eq_some_iff.mp h
      rw [predicateMatches, matchesOf, headD_cons, predicateMatches_of_reads kid c hc]
  | .cmp op field strValues intValue, b, h => by
      rw [predicateReads] at h
      rw [predicateMatches]
      split at h
      · rename_i hnone
        cases h
        simp [hnone]
      · rename_i value hsome
        split at h
        · cases h
        · cases h
          simp [hsome]
  | .quantified .., b, h => by
      rw [predicateReads] at h
      split at h
      · cases h
      · cases h
        rw [predicateMatches]

theorem matchesOf_of_kidsRead (all : Bool) : ∀ (kids : List Pred) (b : Bool),
    kidsRead view fields cells all kids = some b →
      (all = true → (matchesOf view fields cells kids).all id = b) ∧
      (all = false → (matchesOf view fields cells kids).any id = b)
  | [], b, h => by
      cases h
      constructor
      all_goals
        rintro rfl
        rfl
  | kid :: rest, b, h => by
      rw [kidsRead] at h
      split at h
      · cases h
      · rename_i matched hmatched
        have hkid := predicateMatches_of_reads kid matched hmatched
        rw [matchesOf, hkid, all_cons, any_cons]
        split at h
        · rename_i hall
          obtain ⟨hallOf, hanyOf⟩ := matchesOf_of_kidsRead all rest b h
          subst hall
          constructor
          · rintro rfl
            simpa using hallOf rfl
          · rintro rfl
            simpa using hanyOf rfl
        · rename_i hne
          cases h
          cases all <;> cases matched <;> simp_all

end

mutual

/-- A validated predicate without quantifiers has values wherever it gets to. -/
theorem predicateReads_isSome : ∀ (p : Pred), Valid p active →
    p.quantifierFree = true → (predicateReads view fields cells p).isSome = true
  | .junction .allOf kids, hvalid, hfree => by
      rw [predicateReads]
      exact kidsRead_isSome true kids hvalid hfree
  | .junction .anyOf kids, hvalid, hfree => by
      rw [predicateReads]
      exact kidsRead_isSome false kids hvalid hfree
  | .not [], hvalid, _ | .not (a :: b :: rest), hvalid, _ => by
      rw [Valid] at hvalid
      · exact hvalid.elim
      · simp
  | .not [kid], hvalid, hfree => by
      rw [Pred.quantifierFree, kidsQuantifierFree, Bool.and_eq_true] at hfree
      rw [predicateReads, isSome_map]
      exact predicateReads_isSome kid hvalid hfree.1
  | .cmp op field strValues intValue, hvalid, _ => by
      rw [predicateReads]
      split
      · rfl
      · rw [if_neg (hasValue_of_checkCmp hvalid)]
        rfl
  | .quantified .., _, hfree => by cases hfree

theorem kidsRead_isSome (all : Bool) : ∀ (kids : List Pred), ValidKids kids active →
    kidsQuantifierFree kids = true → (kidsRead view fields cells all kids).isSome = true
  | [], _, _ => rfl
  | kid :: rest, hvalid, hfree => by
      rw [kidsQuantifierFree, Bool.and_eq_true] at hfree
      have hkid := predicateReads_isSome kid hvalid.1 hfree.1
      rw [kidsRead]
      split
      · rename_i hnone
        simp [hnone] at hkid
      · split
        · exact kidsRead_isSome all rest hvalid.2 hfree.2
        · rfl

end

end Reads

variable {p : Pred} {β α : Type} {view : View} {x : Except PlanError α}

/-- The statement of a validated predicate has a placeholder for every argument. -/
theorem statementDefined_of_valid (hvalid : Valid p view) : Exec.StatementDefined view p := by
  intro out hout
  obtain ⟨_, _, _, hbinds, _⟩ := denotes_predSql p view .s .en 0 out hout hvalid trivial
  have hall := hbinds []
  rw [append_nil] at hall
  rw [hall]

/-! ## Errors -/

theorem PlanErrorsOnly.ok (a : α) : PlanErrorsOnly (Except.ok a) := by
  intro _ h
  cases h

theorem PlanErrorsOnly.error {e : PlanError} (h : e.isPlanError = true) :
    PlanErrorsOnly (Except.error e : Except PlanError α) := by
  intro _ he
  cases he
  exact h

theorem PlanErrorsOnly.map (h : PlanErrorsOnly x) (f : α → β) : PlanErrorsOnly (x.map f) :=
  fun e he => h e (error_of_map he)

theorem PlanErrorsOnly.bind {f : α → Except PlanError β}
    (hx : PlanErrorsOnly x) (hf : ∀ a, x = .ok a → PlanErrorsOnly (f a)) :
    PlanErrorsOnly (x >>= f) := by
  intro e he
  obtain h | ⟨a, ha, h⟩ := error_of_bind he
  · exact hx e h
  · exact hf a ha e h

/-- The field of a symbol row has a column or is unknown, unless it counts edges. -/
theorem colExpr_planErrors (hnegative : field ≠ "negative_count")
    (heffective : field ≠ "effective_count") : PlanErrorsOnly (colExpr field) := by
  intro _ h
  unfold colExpr at h
  split at h <;> cases h <;> simp_all [PlanError.isPlanError]

theorem predSql_planErrors (hsafe : "negative_count" ∉ p.fields ∧ "effective_count" ∉ p.fields) :
    PlanErrorsOnly (predSql p view .s .en 0) := by
  intro e h
  refine @predSql_error_of (fun e => e.isPlanError = true) ?_ p view .s .en 0 e ?_ h
  · rintro e (hcode | hcode) <;> simp [PlanError.isPlanError, hcode]
  · intro _ hmem
    apply colExpr_planErrors
    · rintro rfl
      exact hsafe.1 hmem
    · rintro rfl
      exact hsafe.2 hmem

theorem selectWithPolicy_planErrors (rows : List SymbolRow) (selects : IsTest → SymbolRow → Bool)
    (unknown : UnknownPolicy) : PlanErrorsOnly (selectWithPolicy rows selects unknown) := by
  unfold selectWithPolicy
  split
  · exact PlanErrorsOnly.error rfl
  · exact PlanErrorsOnly.ok _

section NodeErrors

variable {glob : String → String → Bool} {db : Db} {view : View} {pred : Option Pred}

theorem enumerateNodes_planErrors {budget : Budget}
    (hpred : ∀ p ∈ pred, Valid p view ∧
      "negative_count" ∉ p.fields ∧ "effective_count" ∉ p.fields)
    (unknown : UnknownPolicy) (afterId : Option ℤ) :
    PlanErrorsOnly (enumerateNodes glob db budget view pred unknown afterId) := by
  cases pred with
  | none => exact PlanErrorsOnly.ok _
  | some p =>
    obtain ⟨hvalid, hsafe⟩ := hpred p rfl
    refine PlanErrorsOnly.bind (predSql_planErrors hsafe) ?_
    intro _ hout
    refine PlanErrorsOnly.bind ?_ fun ids _ => PlanErrorsOnly.ok _
    rw [fetchWithPolicy_eq glob db (fetchIds_enumerate glob db hvalid hout (db.nodes view)) unknown]
    exact selectWithPolicy_planErrors _ _ _

theorem filterChunks_planErrors {p : Pred} (hvalid : Valid p view)
    (hsafe : "negative_count" ∉ p.fields ∧ "effective_count" ∉ p.fields) (unknown : UnknownPolicy)
    (left : ℕ) (ids : List ℤ) : PlanErrorsOnly (filterChunks glob db view p unknown left ids) := by
  induction left generalizing ids with
  | zero => exact PlanErrorsOnly.ok _
  | succ _ ih =>
    cases ids with
    | nil => exact PlanErrorsOnly.ok _
    | cons _ rest =>
      rw [filterChunks]
      · refine PlanErrorsOnly.bind ?_ fun part _ =>
          PlanErrorsOnly.bind (ih _) fun rest _ => PlanErrorsOnly.ok _
        refine PlanErrorsOnly.bind (predSql_planErrors hsafe) ?_
        intro _ hout
        rw [fetchWithPolicy_eq glob db (fetchIds_filter glob db hvalid hout _) unknown]
        exact selectWithPolicy_planErrors _ _ _
      · simp

end NodeErrors

section

variable {fields : List String} {field : String} {β α : Type} {view : View} {xs : List α}
  {f : α → Except PlanError β}

theorem mapM_planErrors (h : ∀ x ∈ xs, PlanErrorsOnly (f x)) : PlanErrorsOnly (xs.mapM f) := by
  induction xs with
  | nil => exact PlanErrorsOnly.ok _
  | cons x _ ih =>
    rw [mapM_cons]
    refine PlanErrorsOnly.bind (h x mem_cons_self) fun y _ => ?_
    exact PlanErrorsOnly.bind (ih fun z hz => h z (mem_cons_of_mem _ hz)) fun ys _ =>
      PlanErrorsOnly.ok _

theorem selectColumn_planErrors (field : String) : PlanErrorsOnly (selectColumn field) := by
  unfold selectColumn
  split
  · exact PlanErrorsOnly.ok _
  · rename_i hfield
    rw [not_or] at hfield
    exact (colExpr_planErrors hfield.1 hfield.2).map _

theorem selectColumn_isSome {column : Option Column}
    (hfield : field ≠ "negative_count" ∧ field ≠ "effective_count")
    (h : selectColumn field = .ok column) : column.isSome = true := by
  unfold selectColumn at h
  rw [if_neg (by simp [hfield])] at h
  obtain ⟨_, _, rfl⟩ := map_eq_ok.mp h
  rfl

theorem forall_of_mapM_eq_ok {P : β → Prop} {ys : List β} (h : xs.mapM f = .ok ys)
    (hP : ∀ x ∈ xs, ∀ y, f x = .ok y → P y) : ∀ y ∈ ys, P y := by
  induction xs generalizing ys with
  | nil =>
    cases h
    simp
  | cons x _ ih =>
    rw [mapM_cons] at h
    obtain ⟨y, hy, h⟩ := ok_of_bind h
    obtain ⟨_, hzs, h⟩ := ok_of_bind h
    cases h
    intro z hz
    cases hz with
    | head => exact hP x mem_cons_self y hy
    | tail _ hz => exact ih hzs (fun w hw => hP w (mem_cons_of_mem _ hw)) z hz

variable {ids : List ℤ}

/-- `fetch_cells` fails with plan errors only, unless it fetches counts of edges. -/
theorem symbolCells_planErrors {idx : Index}
    (h : ids = [] ∨ "negative_count" ∉ fields ∧ "effective_count" ∉ fields) :
    PlanErrorsOnly (idx.symbolCells ids fields) := by
  refine PlanErrorsOnly.bind (mapM_planErrors fun field _ => selectColumn_planErrors field) ?_
  intro columns hcolumns
  split
  · exact PlanErrorsOnly.ok _
  · rename_i hnone
    split
    · exact PlanErrorsOnly.ok _
    · rename_i hids
      obtain hids' | hfields := h
      · exact absurd hids' hids
      · have hsome : ∀ column ∈ columns, column.isSome = true :=
          forall_of_mapM_eq_ok hcolumns fun field hmem column hcolumn =>
            selectColumn_isSome ⟨fun heq => hfields.1 (heq ▸ hmem), fun heq => hfields.2 (heq ▸ hmem)⟩
              hcolumn
        rw [mapM_id_of_isSome hsome] at hnone
        cases hnone

/-- No count of edges is a field of symbols or entities. -/
theorem edgeCount_unavailable (hnode : view.isNode = true) :
    fieldAvailable view "negative_count" = false ∧ fieldAvailable view "effective_count" = false := by
  cases view with
  | symbol => decide
  | entity => decide
  | _ => cases hnode

theorem fieldAvailable_of_requireField {walk : WalkState} {u : Unit}
    (h : walk.requireField field = .ok u) : fieldAvailable walk.active field = true := by
  have hfield := failIf_eq_ok.mp h
  simpa using hfield

/-- Validated fields of a node view are not counts of edges. -/
theorem noEdgeCount_of_available (hnode : view.isNode = true)
    (h : ∀ field ∈ fields, fieldAvailable view field = true) :
    "negative_count" ∉ fields ∧ "effective_count" ∉ fields := by
  obtain ⟨hnegative, heffective⟩ := edgeCount_unavailable hnode
  exact ⟨fun hmem => by simp [h _ hmem] at hnegative, fun hmem => by simp [h _ hmem] at heffective⟩

end

namespace Exec

variable {idx : Index} {config : Config}

/-! ## Ids only where nodes are symbols or entities -/

def IdsInNodeView (st : Stream) : Prop := st.view.isNode = false → st.ids = []

variable {budgets : Budgets} {st out : Stream} {unknown : UnknownPolicy}

theorem ids_filter {pred : Pred}
    (h : filter idx budgets st pred unknown = .ok out) (hids : IdsInNodeView st) :
    IdsInNodeView out := by
  unfold filter at h
  split at h
  · rename_i hnode
    obtain ⟨_, _, rfl⟩ := map_eq_ok.mp h
    intro htyped
    rw [htyped] at hnode
    cases hnode
  · cases h
    exact hids

variable {afterId : Option ℤ} {pred : Option Pred}

theorem ids_enumerateAll
    (h : enumerateAll idx budgets st pred unknown afterId = .ok out) (hids : IdsInNodeView st) :
    IdsInNodeView out := by
  unfold enumerateAll at h
  split at h
  · rename_i hnode
    obtain ⟨_, _, rfl⟩ := map_eq_ok.mp h
    intro htyped
    rw [htyped] at hnode
    cases hnode
  · split at h
    · cases h
    · cases pred with
      | none =>
        cases h
        exact hids
      | some => exact ids_filter h hids

variable {nodeLimit : Option ℕ}

theorem ids_enumerate (h : enumerate idx budgets st pred unknown afterId nodeLimit = .ok out)
    (hids : IdsInNodeView st) : IdsInNodeView out := by
  unfold enumerate at h
  split at h
  · split at h
    · cases h
      exact hids
    · exact ids_enumerateAll h hids
  · split at h
    · cases h
      exact hids
    · exact ids_enumerateAll h hids
  · exact ids_enumerateAll h hids

theorem ids_changeView (st : Stream) (level : View) : IdsInNodeView (changeView idx st level) := by
  intro htyped
  rw [view_changeView] at htyped
  unfold changeView
  rw [if_pos (by simp [htyped])]

theorem ids_moveTo (budgets : Budgets) (st : Stream) (target : View) (found : TypedReads) :
    IdsInNodeView (moveTo budgets st target found) := by
  intro htyped
  rw [view_moveTo] at htyped
  unfold moveTo
  simp [htyped]

variable {relation : RelationName} {minDepth maxDepth : ℤ} {inbound : Bool}

theorem ids_traverse (h : traverse idx budgets st inbound relation minDepth maxDepth = .ok out) :
    IdsInNodeView out := by
  unfold traverse at h
  split at h
  · cases h
  · rename_i desc hdesc
    split at h
    · cases h
      exact ids_moveTo budgets st _ _
    · rename_i htyped
      cases h
      intro hlayer
      rw [Bool.not_eq_true] at htyped
      have htarget := targetView_of_not_isTyped (mem_relationCatalog_of_resolveRelation hdesc) htyped
      simp only [RelationDesc.isTyped, Bool.or_eq_false_iff, Bool.not_eq_false'] at htyped
      rw [htarget] at htyped
      exact absurd htyped.1.2 (by simpa using hlayer)

theorem ids_setOpStage (op : SortUnique.SetOp) (st sub : Stream) :
    IdsInNodeView (setOpStage config op st sub) := by
  intro htyped
  rw [view_setOpStage] at htyped
  unfold setOpStage setOp
  cases op <;> simp [htyped]

variable {st : Stream}

theorem ids_applyDistinct (hids : IdsInNodeView st) : IdsInNodeView (applyDistinct st) := by
  intro htyped
  rw [view_applyDistinct] at htyped
  unfold applyDistinct
  split
  · exact hids htyped
  · split
    · exact hids htyped
    · simp [hids htyped, SortUnique.sortUnique]
  · exact hids htyped

theorem ids_applyLimit (hids : IdsInNodeView st) (n : ℤ) : IdsInNodeView (applyLimit st n) := by
  intro htyped
  rw [view_applyLimit] at htyped
  unfold applyLimit
  dsimp only
  split
  · exact hids htyped
  · split
    · exact hids htyped
    · simp [hids htyped]
  · exact hids htyped

theorem ids_materialize {fields : List String}
    (h : materialize idx budgets st fields = .ok out) (hids : IdsInNodeView st) :
    IdsInNodeView out := by
  obtain ⟨_, _, hrest⟩ := ok_of_bind h
  split at hrest
  · cases hrest
    exact hids
  · obtain ⟨_, _, hout⟩ := ok_of_bind hrest
    cases hout
    exact fun _ => rfl

theorem ids_applyOrder {fields : List String}
    (h : applyOrder idx budgets st fields = .ok out) (hids : IdsInNodeView st) :
    IdsInNodeView out := by
  unfold applyOrder at h
  split at h
  · split at h
    · obtain ⟨_, _, rfl⟩ := map_eq_ok.mp h
      exact hids
    · obtain ⟨_, _, hrest⟩ := ok_of_bind h
      obtain ⟨_, horder, hout⟩ := ok_of_bind hrest
      cases hout
      intro htyped
      rw [hids htyped] at horder
      cases horder
      simp [sortByCells]
  · cases h
    exact hids

variable {stage : Stage}

theorem ids_runStage
    (h : runStage idx config nodeLimit stage st afterId = .ok out) (hids : IdsInNodeView st) :
    IdsInNodeView out := by
  cases stage with
  | nodes =>
    obtain ⟨_, hfound, rfl⟩ := map_eq_ok.mp h
    have hout := ids_enumerate hfound hids
    exact hout
  | changeView level =>
    cases h
    exact ids_changeView st level
  | where_ => exact ids_filter h hids
  | traverse _ _ mode =>
    cases mode with
    | static =>
      obtain ⟨_, hfound, rfl⟩ := map_eq_ok.mp h
      have hout := ids_traverse hfound
      exact hout
    | devirtualized =>
      cases h
      intro htyped
      cases htyped
  | sites | reverseTypeUse =>
    cases h
    exact fun _ => rfl
  | setOp op =>
    obtain ⟨sub, _, hout⟩ := ok_of_bind h
    cases hout
    exact ids_setOpStage op st sub
  | select =>
    obtain ⟨_, hfound, rfl⟩ := map_eq_ok.mp h
    have hout := ids_materialize hfound hids
    exact hout
  | count | rank =>
    cases h
    exact hids
  | distinct =>
    cases h
    exact ids_applyDistinct hids
  | orderBy => exact ids_applyOrder h hids
  | limit n =>
    cases h
    exact ids_applyLimit hids n
  | path =>
    obtain ⟨_, _, hout⟩ := ok_of_bind h
    unfold pathStage at hout
    split at hout
    · cases hout
    · cases hout
      exact fun _ => rfl

/-! ## One stage -/

theorem rejectAmbiguous_planErrors (st : Stream) : PlanErrorsOnly (rejectAmbiguous idx st) := by
  unfold rejectAmbiguous
  split
  · exact PlanErrorsOnly.error rfl
  · exact PlanErrorsOnly.ok _

/-- A validated predicate that is safe in its view. -/
structure PredOk (view : View) (p : Pred) : Prop where
  valid : Valid p view
  safe : PredSafe view p

theorem PredOk.fields {view : View} {p : Pred} (h : PredOk view p) (hnode : view.isNode = true) :
    "negative_count" ∉ p.fields ∧ "effective_count" ∉ p.fields := by
  have hsafe := h.safe
  rwa [PredSafe, if_pos hnode] at hsafe

theorem PredOk.filterDefined {p : Pred} (h : PredOk st.view p)
    (htyped : st.view.isNode = false) : FilterDefined idx config st p := by
  have hsafe := h.safe
  rw [PredSafe, if_neg (by simp [htyped])] at hsafe
  intro _ _ _ _
  exact predicateReads_isSome p h.valid hsafe

theorem PredOk.defined {p : Pred} (h : PredOk st.view p) :
    PredDefined idx config st p := by
  unfold PredDefined
  split
  · exact statementDefined_of_valid h.valid
  · rename_i htyped
    exact h.filterDefined (by simpa using htyped)

theorem filter_planErrors {p : Pred} (h : PredOk st.view p)
    (unknown : UnknownPolicy) : PlanErrorsOnly (filter idx budgets st p unknown) := by
  unfold filter
  split
  · rename_i hnode
    exact ((filterChunks_planErrors h.valid (h.fields hnode) unknown _ _).map _).map _
  · exact PlanErrorsOnly.ok _

theorem enumerateAll_planErrors
    (hview : st.view ≠ .typeLayer) (h : ∀ p ∈ pred, PredOk st.view p) (unknown : UnknownPolicy)
    (afterId : Option ℤ) : PlanErrorsOnly (enumerateAll idx budgets st pred unknown afterId) := by
  unfold enumerateAll
  split
  · rename_i hnode
    refine (enumerateNodes_planErrors ?_ unknown afterId).map _
    intro p hp
    exact ⟨(h p hp).valid, (h p hp).fields hnode⟩
  · cases pred with
    | none => exact PlanErrorsOnly.ok _
    | some p =>
      exact @filter_planErrors idx budgets (withKeys st budgets.enumerate _) p (h p rfl) unknown

theorem enumerate_planErrors
    (hview : st.view ≠ .typeLayer) (h : ∀ p ∈ pred, PredOk st.view p) (unknown : UnknownPolicy)
    (afterId : Option ℤ) (nodeLimit : Option ℕ) :
    PlanErrorsOnly (enumerate idx budgets st pred unknown afterId nodeLimit) := by
  unfold enumerate
  split
  · split
    · exact PlanErrorsOnly.ok _
    · exact enumerateAll_planErrors hview h unknown afterId
  · split
    · exact PlanErrorsOnly.ok _
    · exact enumerateAll_planErrors hview h unknown afterId
  · exact enumerateAll_planErrors hview h unknown afterId

theorem traverse_planErrors (h : (resolveRelation relation st.view inbound).isSome = true) :
    PlanErrorsOnly (traverse idx budgets st inbound relation minDepth maxDepth) := by
  unfold traverse
  split
  · rename_i hnone
    simp [hnone] at h
  · split
    · exact PlanErrorsOnly.ok _
    · exact PlanErrorsOnly.ok _

theorem materialize_planErrors {fields : List String}
    (h : st.view.isNode = true → "negative_count" ∉ fields ∧ "effective_count" ∉ fields) :
    PlanErrorsOnly (materialize idx budgets st fields) := by
  refine PlanErrorsOnly.bind (rejectAmbiguous_planErrors st) fun _ _ => ?_
  split
  · exact PlanErrorsOnly.ok _
  · rename_i hnode
    simp only [not_or, Bool.not_eq_true, Bool.not_eq_false'] at hnode
    exact PlanErrorsOnly.bind (symbolCells_planErrors (Or.inr (h hnode.2))) fun cells _ =>
      PlanErrorsOnly.ok _

theorem orderNodes_planErrors {α : Type} [LinearOrder α] {cells : α → Option (List Cell)}
    {nodes : List α} (h : 2 ≤ nodes.length → ∀ node ∈ nodes, (cells node).isSome = true) :
    PlanErrorsOnly (orderNodes cells nodes) := by
  unfold orderNodes
  split
  · exact PlanErrorsOnly.ok _
  · rename_i hnone
    split
    · exact PlanErrorsOnly.ok _
    · rename_i hmany
      have hall : ∀ node ∈ nodes, (cells node).map (fun cells => (cells, node)) =
          some ((cells node).getD [], node) := by
        intro node hmem
        obtain ⟨_, hfound⟩ := isSome_iff_exists.mp (h (by omega) node hmem)
        simp [hfound]
      rw [mapM_eq_some_map hall] at hnone
      cases hnone

theorem applyOrder_planErrors {fields : List String} (hids : IdsInNodeView st)
    (hfields : st.view.isNode = true → "negative_count" ∉ fields ∧ "effective_count" ∉ fields)
    (hrows : st.shape = .nodes → RowsDefined idx config st fields) :
    PlanErrorsOnly (applyOrder idx config.budgets st fields) := by
  unfold applyOrder
  split
  · rename_i hshape
    have hdefined := hrows hshape
    unfold RowsDefined at hdefined
    split
    · rename_i hkeys
      rw [if_pos hkeys] at hdefined
      exact (orderNodes_planErrors hdefined).map _
    · rename_i hkeys
      rw [if_neg hkeys] at hdefined
      have hcells : PlanErrorsOnly (idx.symbolCells st.ids fields) := by
        apply symbolCells_planErrors
        cases hnode : st.view.isNode with
        | true => exact Or.inr (hfields hnode)
        | false => exact Or.inl (hids hnode)
      refine PlanErrorsOnly.bind hcells fun cells hok => ?_
      refine PlanErrorsOnly.bind ?_ fun ids _ => PlanErrorsOnly.ok _
      exact orderNodes_planErrors fun hmany => hdefined hmany cells hok
  · exact PlanErrorsOnly.ok _

/-- Whether a typed row exists does not depend on the fields asked for. -/
theorem typedCells_isSome (budgets : Budgets) (st : Stream) (fields : List String)
    (key : LogicalKey) : (typedCells idx budgets st fields key).isSome =
      (typedCells idx budgets st [] key).isSome := by
  unfold typedCells Index.typedCells
  cases st.view with
  | edge | site | type => simp
  | evidence => dsimp only; split <;> simp
  | _ => dsimp only; split <;> rfl

variable {ids : List ℤ}

theorem symbolCells_isSome {fields : List String}
    {cells : ℤ → Option (List Cell)} (h : idx.symbolCells ids fields = .ok cells)
    (hfields : "negative_count" ∉ fields ∧ "effective_count" ∉ fields) {id : ℤ}
    (hid : id ∈ idx.db.symbols.map (·.id)) : (cells id).isSome = true := by
  obtain ⟨columns, hcolumns, h⟩ := ok_of_bind h
  have hsome : ∀ column ∈ columns, column.isSome = true :=
    forall_of_mapM_eq_ok hcolumns fun field hmem column hcolumn =>
      selectColumn_isSome ⟨fun heq => hfields.1 (heq ▸ hmem), fun heq => hfields.2 (heq ▸ hmem)⟩
        hcolumn
  rw [mapM_id_of_isSome hsome] at h
  cases h
  obtain ⟨_, hmem, rfl⟩ := List.mem_map.mp hid
  have hfind := find?_of_nodup_keys (idx.db.symbols_sorted.imp ne_of_lt) hmem
  simp [hfind]

theorem rowsDefined_of_nodesExist {fields : List String} (hids : IdsInNodeView st)
    (hfields : st.view.isNode = true → "negative_count" ∉ fields ∧ "effective_count" ∉ fields)
    (h : NodesExist idx config st) : RowsDefined idx config st fields := by
  unfold RowsDefined
  unfold NodesExist at h
  split
  · rename_i hkeys
    rw [if_pos hkeys] at h
    intro hmany key hmem
    rw [typedCells_isSome]
    exact h hmany key hmem
  · rename_i hkeys
    rw [if_neg hkeys] at h
    intro hmany _ hcells id hmem
    cases hnode : st.view.isNode with
    | true => exact symbolCells_isSome hcells (hfields hnode) (h hmany id hmem)
    | false => simp [hids hnode] at hmem

variable {walk next : WalkState} {stage normal : Stage}

/-- A stage without an operand. -/
theorem plainStage_sound (hwalk : walkPlain walk stage = .ok (next, normal))
    (hset : ∀ op operand, stage ≠ .setOp op operand)
    (hpath : ∀ operand relation minDepth maxDepth shortest inbound,
      stage ≠ .path operand relation minDepth maxDepth shortest inbound)
    (hscalar : walk.shape ≠ .scalar) (hfollows : Follows walk st)
    (hids : IdsInNodeView st) (hsafe : StepSafe idx config normal st afterId)
    (nodeLimit : Option ℕ) : StageDefined idx config normal st afterId ∧
      PlanErrorsOnly (plainStage idx config nodeLimit normal st afterId) := by
  cases stage with
  | nodes pred unknown =>
    obtain ⟨_, _, hwalk⟩ := ok_of_bind hwalk
    obtain ⟨pred', hpred, hwalk⟩ := ok_of_bind hwalk
    cases hwalk
    have hvalid := validTarget_normTarget pred walk.active pred' hpred
    rw [← hfollows.view] at hvalid
    have hok : ∀ p ∈ pred', PredOk st.view p := by
      rintro p hp
      refine ⟨?_, hsafe.2 p hp⟩
      cases hp
      exact hvalid
    refine ⟨⟨hsafe.1, ?_⟩, (enumerate_planErrors hsafe.1 hok unknown afterId nodeLimit).map _⟩
    intro p hp
    split
    · exact statementDefined_of_valid (hok p hp).valid
    · rename_i htyped
      have hview : (enumerated idx config st afterId).view = st.view := rfl
      exact PredOk.filterDefined (hok p hp) (by simpa [hview] using htyped)
  | changeView | count | distinct =>
    obtain ⟨_, _, hwalk⟩ := ok_of_bind hwalk
    cases hwalk
    exact ⟨trivial, PlanErrorsOnly.ok _⟩
  | where_ pred unknown =>
    obtain ⟨_, _, hwalk⟩ := ok_of_two_binds hwalk
    obtain ⟨pred', hpred, hwalk⟩ := ok_of_bind hwalk
    cases hwalk
    have hvalid := valid_normPred pred walk.active pred' hpred
    rw [← hfollows.view] at hvalid
    have hok : PredOk st.view pred' := ⟨hvalid, hsafe⟩
    exact ⟨hok.defined, filter_planErrors hok unknown⟩
  | traverse inbound _ mode =>
    obtain ⟨desc, hdesc, hwalk⟩ := ok_of_bind hwalk
    cases hwalk
    obtain ⟨hresolved, _⟩ := checkTraverse_eq_ok hdesc
    rw [← hfollows.view] at hresolved
    have hsome := resolveRelation_requalified hresolved
    cases mode with
    | static =>
      have hdefined : (resolveRelation ⟨some desc.layer, desc.name⟩ st.view inbound).isSome =
        true := by rw [hsome]; rfl
      exact ⟨hdefined, (traverse_planErrors hdefined).map _⟩
    | devirtualized => exact ⟨trivial, PlanErrorsOnly.ok _⟩
  | sites | rank =>
    obtain ⟨_, _, _, hwalk⟩ := ok_of_three_binds hwalk
    cases hwalk
    exact ⟨trivial, PlanErrorsOnly.ok _⟩
  | select =>
    obtain ⟨_, _, _, hwalk⟩ := ok_of_three_binds hwalk
    obtain ⟨_, hfields, hwalk⟩ := ok_of_bind hwalk
    cases hwalk
    refine ⟨trivial, (materialize_planErrors fun hnode => ?_).map _⟩
    refine noEdgeCount_of_available hnode fun field hmem => ?_
    rw [hfollows.view]
    exact fieldAvailable_of_requireField (forM_eq_ok hfields field hmem)
  | orderBy fields =>
    obtain ⟨_, _, hwalk⟩ := ok_of_bind hwalk
    obtain ⟨_, hnotPath, hwalk⟩ := ok_of_bind hwalk
    obtain ⟨_, _, hwalk⟩ := ok_of_bind hwalk
    obtain ⟨_, hfields, hwalk⟩ := ok_of_bind hwalk
    cases hwalk
    have hfield : ∀ field ∈ fields, fieldAvailable walk.active field = true ∧
        ¬ (walk.shape = .rows ∧ field ∉ walk.selected) := by
      intro field hmem
      obtain ⟨_, havailable, hselected⟩ := ok_of_bind (forM_eq_ok hfields field hmem)
      exact ⟨fieldAvailable_of_requireField havailable, failIf_eq_ok.mp hselected⟩
    have hcounts (hnode : st.view.isNode = true) :
        "negative_count" ∉ fields ∧ "effective_count" ∉ fields := by
      refine noEdgeCount_of_available hnode fun field hmem => ?_
      rw [hfollows.view]
      exact (hfield field hmem).1
    have hrows (hnodes : st.shape = .nodes) : RowsDefined idx config st fields :=
      rowsDefined_of_nodesExist hids hcounts (hsafe hnodes)
    refine ⟨?_, applyOrder_planErrors hids hcounts hrows⟩
    show if st.shape = .nodes then RowsDefined idx config st fields
      else ∀ field ∈ fields, field ∈ st.fields
    split
    · rename_i hnodes
      exact hrows hnodes
    · rename_i hnodes
      rw [hfollows.shape] at hnodes
      have hshape : walk.shape = .rows := by
        cases hshape : walk.shape with
        | nodes => exact absurd hshape hnodes
        | rows => rfl
        | scalar => exact absurd hshape hscalar
        | path => exact absurd hshape (failIf_eq_ok.mp hnotPath)
      intro field hmem
      rw [hfollows.fields]
      by_contra hmissing
      exact (hfield field hmem).2 ⟨hshape, hmissing⟩
  | limit =>
    obtain ⟨_, _, hwalk⟩ := ok_of_two_binds hwalk
    cases hwalk
    exact ⟨trivial, PlanErrorsOnly.ok _⟩
  | reverseTypeUse =>
    obtain ⟨_, _, hwalk⟩ := ok_of_two_binds hwalk
    obtain ⟨_, _, hwalk⟩ := ok_of_two_binds hwalk
    cases hwalk
    exact ⟨trivial, PlanErrorsOnly.ok _⟩
  | setOp op operand => exact absurd rfl (hset op operand)
  | path operand relation minDepth maxDepth shortest inbound =>
    exact absurd rfl (hpath operand relation minDepth maxDepth shortest inbound)

def operandFree : Stage → Bool
  | .setOp .. | .path .. => false
  | _ => true

theorem operandFree_walkPlain
    (h : walkPlain walk stage = .ok (next, normal)) : operandFree normal = operandFree stage := by
  cases stage with
  | setOp =>
    cases h
    rfl
  | path =>
    cases h
    rfl
  | nodes pred unknown | limit n =>
    obtain ⟨_, _, h⟩ := ok_of_two_binds h
    cases h
    rfl
  | changeView level | count | distinct | traverse inbound relation mode minDepth maxDepth =>
    obtain ⟨_, _, h⟩ := ok_of_bind h
    cases h
    rfl
  | where_ pred unknown | sites | rank topN =>
    obtain ⟨_, _, _, h⟩ := ok_of_three_binds h
    cases h
    rfl
  | select fields | orderBy fields | reverseTypeUse maxDepth =>
    obtain ⟨_, _, h⟩ := ok_of_two_binds h
    obtain ⟨_, _, h⟩ := ok_of_two_binds h
    cases h
    rfl

section

variable (h : operandFree stage = true)
include h

theorem ne_setOp_of_operandFree : ∀ op operand, stage ≠ .setOp op operand := by
  rintro op operand rfl
  cases h

theorem ne_path_of_operandFree : ∀ operand relation minDepth maxDepth shortest inbound,
      stage ≠ .path operand relation minDepth maxDepth shortest inbound := by
  rintro operand relation minDepth maxDepth shortest inbound rfl
  cases h

theorem stageAlong_of_operandFree {P : Stage → Stream → Option ℤ → Prop}
    (st : Stream) (afterId : Option ℤ) :
    stageAlong idx config P stage st afterId ↔ P stage st afterId := by
  rw [stageAlong]
  · exact fun op operand heq => ne_setOp_of_operandFree h op operand heq
  · exact fun operand relation minDepth maxDepth shortest inbound heq =>
      ne_path_of_operandFree h operand relation minDepth maxDepth shortest inbound heq

theorem runStage_of_operandFree (nodeLimit : Option ℕ) (st : Stream) (afterId : Option ℤ) :
    runStage idx config nodeLimit stage st afterId =
      plainStage idx config nodeLimit stage st afterId := by
  rw [runStage]
  · exact fun op operand heq => ne_setOp_of_operandFree h op operand heq
  · exact fun operand relation minDepth maxDepth shortest inbound heq =>
      ne_path_of_operandFree h operand relation minDepth maxDepth shortest inbound heq

end

theorem plainStage_along (hplain : operandFree stage = true)
    {normal : Stage} (hwalk : walkStage stage walk = .ok (next, normal))
    (hfollows : Follows walk st) (hids : IdsInNodeView st)
    (hsafe : stageAlong idx config (StepSafe idx config) normal st afterId) :
    stageAlong idx config (StageDefined idx config) normal st afterId ∧
      ∀ nodeLimit, PlanErrorsOnly (runStage idx config nodeLimit normal st afterId) := by
  have hset := ne_setOp_of_operandFree hplain
  have hpath := ne_path_of_operandFree hplain
  rw [walkStage] at hwalk
  · obtain ⟨_, hcheck, hwalk⟩ := ok_of_bind hwalk
    have hnormal : operandFree normal = true := (operandFree_walkPlain hwalk).trans hplain
    have hscalar : walk.shape ≠ .scalar := failIf_eq_ok.mp hcheck
    rw [stageAlong_of_operandFree hnormal] at hsafe ⊢
    have hsound := plainStage_sound hwalk hset hpath hscalar hfollows hids hsafe
    refine ⟨(hsound none).1, fun nodeLimit => ?_⟩
    rw [runStage_of_operandFree hnormal]
    exact (hsound nodeLimit).2
  · exact fun op operand heq => hset op operand heq
  · exact fun operand relation minDepth maxDepth shortest inbound heq =>
      hpath operand relation minDepth maxDepth shortest inbound heq

/-! ## Whole runs -/

mutual

theorem plan_sound : ∀ (plan : Plan) {walk : WalkState} {normal : Plan},
    validateWalk plan = .ok (walk, normal) → ∀ {afterId : Option ℤ},
    normal.Along idx config (StepSafe idx config) afterId →
      normal.Along idx config (StageDefined idx config) afterId ∧
        PlanErrorsOnly (runPlan idx config normal afterId)
  | .mk source stages, walk, normal, hwalk, afterId, hsafe => by
      rw [validateWalk] at hwalk
      obtain ⟨_, hstart, hwalk⟩ := ok_of_bind hwalk
      obtain ⟨⟨_, _⟩, hstages, hwalk⟩ := ok_of_bind hwalk
      obtain ⟨_, _, hwalk⟩ := ok_of_bind hwalk
      cases hwalk
      have hids : IdsInNodeView (initial idx source) := by
        intro htyped
        simp only [initial, Source.view] at htyped
        split at htyped <;> cases htyped
      exact stages_sound _ stages hstages (follows_initial hstart) hids hsafe

theorem stages_sound (nodeLimit : Option ℕ) : ∀ (stages : List Stage) {walk next : WalkState}
    {normal : List Stage}, walkStages stages walk = .ok (next, normal) →
    ∀ {st : Stream}, Follows walk st → IdsInNodeView st → ∀ {afterId : Option ℤ},
    stagesAlong idx config (StepSafe idx config) nodeLimit normal st afterId →
      stagesAlong idx config (StageDefined idx config) nodeLimit normal st afterId ∧
        PlanErrorsOnly (runStages idx config nodeLimit normal st afterId)
  | [], walk, next, normal, hwalk, st, _, _, afterId, _ => by
      cases hwalk
      exact ⟨trivial, PlanErrorsOnly.bind (rejectAmbiguous_planErrors st) fun _ _ =>
        PlanErrorsOnly.ok _⟩
  | stage :: rest, walk, next, normal, hwalk, st, hfollows, hids, afterId, hsafe => by
      obtain ⟨middle, stage', rest', hstage, hrest, rfl⟩ := walkStages_cons hwalk
      have hlater : ∀ out, rejectAmbiguous idx st = .ok () →
          runStage idx config nodeLimit stage' st afterId = .ok out → out.shape ≠ .scalar →
            stagesAlong idx config (StageDefined idx config) nodeLimit rest' out
                (stage'.cursorAfter afterId) ∧
              PlanErrorsOnly (runStages idx config nodeLimit rest' out
                (stage'.cursorAfter afterId)) := by
        intro out hok hout hshape
        exact stages_sound nodeLimit rest hrest (follows_runStage hfollows hstage hout)
          (ids_runStage hout hids) ((hsafe hok).2 out hout hshape)
      constructor
      · intro hok
        have hone := stage_sound stage hstage hfollows hids (hsafe hok).1
        exact ⟨hone.1, fun out hout hshape => (hlater out hok hout hshape).1⟩
      · refine PlanErrorsOnly.bind (rejectAmbiguous_planErrors st) fun _ hok => ?_
        have hone := stage_sound stage hstage hfollows hids (hsafe hok).1
        refine PlanErrorsOnly.bind (hone.2 nodeLimit) fun out hout => ?_
        split
        · exact PlanErrorsOnly.bind (rejectAmbiguous_planErrors out) fun _ _ => PlanErrorsOnly.ok _
        · rename_i hshape
          exact (hlater out hok hout hshape).2

theorem stage_sound : ∀ (stage : Stage) {walk next : WalkState} {normal : Stage},
    walkStage stage walk = .ok (next, normal) → ∀ {st : Stream}, Follows walk st →
    IdsInNodeView st → ∀ {afterId : Option ℤ},
    stageAlong idx config (StepSafe idx config) normal st afterId →
      stageAlong idx config (StageDefined idx config) normal st afterId ∧
        ∀ nodeLimit, PlanErrorsOnly (runStage idx config nodeLimit normal st afterId)
  | .setOp op operand, walk, next, normal, hwalk, st, _, _, afterId, hsafe => by
      obtain ⟨_, _, hsub, _, _, _, rfl, rfl⟩ := walkStage_setOp hwalk
      obtain ⟨hdefined, herrors⟩ := plan_sound operand hsub hsafe.2
      refine ⟨⟨trivial, hdefined⟩, fun nodeLimit => ?_⟩
      exact PlanErrorsOnly.bind herrors fun _ _ => PlanErrorsOnly.ok _
  | .path operand relation minDepth maxDepth shortest inbound, walk, next, normal, hwalk, st,
      hfollows, _, afterId, hsafe => by
      obtain ⟨_, _, _, hsub, _, _, hdesc, rfl, rfl⟩ := walkStage_path hwalk
      obtain ⟨hdefined, herrors⟩ := plan_sound operand hsub hsafe.2
      rw [← hfollows.view] at hdesc
      have hresolved := resolveRelation_requalified hdesc
      refine ⟨⟨?_, hdefined⟩, fun nodeLimit => ?_⟩
      · show (resolveRelation _ st.view inbound).isSome = true
        rw [hresolved]
        rfl
      · refine PlanErrorsOnly.bind herrors fun found _ => ?_
        unfold pathStage
        rw [hresolved]
        exact PlanErrorsOnly.ok _
  | .nodes _ _, _, _, _, hwalk, _, hfollows, hids, _, hsafe
  | .changeView _, _, _, _, hwalk, _, hfollows, hids, _, hsafe
  | .where_ _ _, _, _, _, hwalk, _, hfollows, hids, _, hsafe
  | .traverse _ _ _ _ _, _, _, _, hwalk, _, hfollows, hids, _, hsafe
  | .sites, _, _, _, hwalk, _, hfollows, hids, _, hsafe
  | .select _, _, _, _, hwalk, _, hfollows, hids, _, hsafe
  | .count, _, _, _, hwalk, _, hfollows, hids, _, hsafe
  | .distinct, _, _, _, hwalk, _, hfollows, hids, _, hsafe
  | .orderBy _, _, _, _, hwalk, _, hfollows, hids, _, hsafe
  | .limit _, _, _, _, hwalk, _, hfollows, hids, _, hsafe
  | .rank _, _, _, _, hwalk, _, hfollows, hids, _, hsafe
  | .reverseTypeUse _, _, _, _, hwalk, _, hfollows, hids, _, hsafe =>
    plainStage_along rfl hwalk hfollows hids hsafe

end

theorem defaultRows_planErrors (st : Stream) : PlanErrorsOnly (defaultRows idx config st) := by
  unfold defaultRows
  split
  · split <;> exact materialize_planErrors fun _ => by decide
  · exact PlanErrorsOnly.ok _

theorem finish_planErrors (st : Stream) (resultCap : Option ℤ) :
    PlanErrorsOnly (finish idx config st resultCap) := by
  refine PlanErrorsOnly.bind (rejectAmbiguous_planErrors st) fun _ _ => ?_
  dsimp only
  split
  · exact PlanErrorsOnly.error rfl
  · split
    · exact PlanErrorsOnly.ok _
    · exact PlanErrorsOnly.ok _
    · exact PlanErrorsOnly.bind (defaultRows_planErrors st) fun _ _ => PlanErrorsOnly.ok _

/-- After every stage of a validated plan the stream has the view and the shape that validation
has tracked. -/
def StreamsFollow (idx : Index) (config : Config) (plan normal : Plan) : Prop :=
  ∀ before stage after, plan.stages = before ++ stage :: after →
    ∃ walk next before' stage' after', normal.stages = before' ++ stage' :: after' ∧
      (WalkState.start plan.source >>= walkStages before) = .ok (walk, before') ∧
      walkStage stage walk = .ok (next, stage') ∧
      ∀ nodeLimit afterId cursor st out,
        runStages idx config nodeLimit before' (initial idx plan.source) afterId = .ok st →
        runStage idx config nodeLimit stage' st cursor = .ok out →
          out.view = next.active ∧ out.shape = next.shape

theorem streamsFollow_of_validate {plan normal : Plan} (h : validate plan = .ok normal) :
    StreamsFollow idx config plan normal := by
  obtain ⟨⟨_, _⟩, hwalk, rfl⟩ := map_eq_ok.mp h
  obtain ⟨_, stages⟩ := plan
  rw [validateWalk] at hwalk
  obtain ⟨start, hstart, hwalk⟩ := ok_of_bind hwalk
  obtain ⟨⟨_, _⟩, hstages, hwalk⟩ := ok_of_bind hwalk
  obtain ⟨_, _, hwalk⟩ := ok_of_bind hwalk
  cases hwalk
  intro before stage after hsplit
  obtain rfl : stages = before ++ stage :: after := hsplit
  obtain ⟨walk, before', _, hbefore, hafter, rfl⟩ := walkStages_append hstages
  obtain ⟨next, stage', rest', hstage, _, rfl⟩ := walkStages_cons hafter
  refine ⟨walk, next, before', stage', rest', rfl, bind_eq_ok.mpr ⟨start, hstart, hbefore⟩, hstage, ?_⟩
  intro _ _ _ _ _ hst hout
  have hfollows := follows_runStages hbefore (follows_initial hstart) hst
  have hnext := follows_runStage hfollows hstage hout
  exact ⟨hnext.view, hnext.shape⟩

end Exec

/-! ## The whole statement -/

theorem singleEdge_symbols_sorted :
    (([⟨1, fun _ => none⟩, ⟨2, fun _ => none⟩] : List SymbolRow).map (·.id)).Pairwise (· < ·) := by
  decide

theorem singleEdge_edges_closed : ∀ edge ∈ [(⟨1, 1, 2, 1, 1⟩ : EdgeRow)],
    edge.src ∈ ([⟨1, fun _ => none⟩, ⟨2, fun _ => none⟩] : List SymbolRow).map (·.id) ∧
      edge.dst ∈ ([⟨1, fun _ => none⟩, ⟨2, fun _ => none⟩] : List SymbolRow).map (·.id) := by
  decide

/-- One edge between two symbols. -/
def singleEdge : Db where
  symbols := [⟨1, fun _ => none⟩, ⟨2, fun _ => none⟩]
  symbols_sorted := singleEdge_symbols_sorted
  edges := [⟨1, 1, 2, 1, 1⟩]
  edges_sorted := List.pairwise_singleton _ _
  edges_unique := List.nodup_singleton _
  edges_closed := singleEdge_edges_closed

/-- `view("edge").nodes().where(exists("has_site"))`. -/
def edgesWithSites (relation : RelationName) : Plan :=
  .mk { kind := .codebase } [.changeView .edge, .nodes none .exclude,
    .where_ (.quantified .exists_ relation none 1 1 1 false) .exclude]

/-- `view("type_layer").nodes()`. -/
def allTypeLayers : Plan :=
  .mk { kind := .codebase } [.changeView .typeLayer, .nodes none .exclude]

/-- `view("edge").nodes().where(src_id = 1).order_by("dst_id")`. -/
def orderedEdges : Plan :=
  .mk { kind := .codebase } [.changeView .edge, .nodes none .exclude,
    .where_ (.cmp .eq "src_id" [] (some 1)) .exclude, .orderBy ["dst_id"]]

end CppIndexer.Query
