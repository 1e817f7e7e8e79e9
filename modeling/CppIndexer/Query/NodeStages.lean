/-
# Enumerating and filtering nodes

`Exec::enumerate` and `Exec::filter` over the symbol and entity views. Both compile the
predicate with `pred_sql` and put the unknown policy behind it, but only `filter`
puts the predicate in parentheses first. Behind a top-level `NOT` the policy therefore binds to the
negated predicate, and the two stages differ.
-/

import CppIndexer.Lib.Budget
import CppIndexer.Lib.SortUnique
import CppIndexer.Query.PredicateSql

namespace CppIndexer.Query

open SortUnique List

/-- What a stage does with rows where its predicate is unknown. -/
inductive UnknownPolicy
  | exclude
  | include_
  | error
  deriving DecidableEq

/-- `append_unknown_policy`. -/
def UnknownPolicy.test : UnknownPolicy → IsTest
  | .include_ => .notFalse
  | _ => .true

def kEnumerateBudget : ℕ := 10000

/-- How many ids `filter` binds in one statement. -/
def kIdChunk : ℕ := 400

/-- The error of the `error` policy. -/
def unknownError : PlanError := ⟨.unknown, "predicate evaluation is unknown"⟩

/-- The rows of a view: all symbols, or those with an entity row or an entity edge. -/
def Db.nodes (db : Db) : View → List SymbolRow
  | .entity => db.symbols.filter fun row => row.id ∈
      db.entityNodes.map Prod.fst ++ db.entityEdges.map (·.src) ++ db.entityEdges.map (·.dst)
  | _ => db.symbols

/-- A row of the outer query with the entity row joined to it. `join_clause` leaves the join out
where no field reads it. -/
def Env.ofRow (db : Db) (row : SymbolRow) : Env where
  symbol name := if name = .s then some row else none
  entity name := if name = .en then db.entityKind row.id else none

theorem Env.holds_ofRow (db : Db) (row : SymbolRow) : (Env.ofRow db row).Holds db .s .en row :=
  ⟨rfl, rfl⟩

section Stages

variable (glob : String → String → Bool) (db : Db)

/-- `fetch_ids` of a statement `SELECT s.id FROM … WHERE condition ORDER BY s.id`. -/
def fetchIds (rows : List SymbolRow) (condition : List Token) (args : List SqlValue) :
    Except PlanError (List ℤ) :=
  match parseExpr (bindTokens args condition).2 with
  | some expr => .ok ((rows.filter fun row =>
    truth (eval glob db expr (Env.ofRow db row)) = some true).map (·.id))
  | none => .error ⟨.sql, "syntax error"⟩

/-- The two statements of a stage: the `error` policy first looks for an undecided row. -/
def fetchWithPolicy (rows : List SymbolRow) (condition : List Token) (args : List SqlValue)
    (unknown : UnknownPolicy) : Except PlanError (List ℤ) := do
  if unknown = .error then
    let undecided ← fetchIds glob db rows (condition ++ [.is .null]) args
    if !undecided.isEmpty then throw unknownError
  fetchIds glob db rows (condition ++ [.is unknown.test]) args

/-- The ids behind a cursor: `AND s.id > ?`. -/
def afterCursor (afterId : Option ℤ) (ids : List ℤ) : List ℤ :=
  ids.filter fun id => afterId.all fun cursor => cursor < id

/-- `Exec::enumerate` over symbol rows: the ids within the budget, and whether some were
left out. -/
def enumerateNodes (budget : Budget) (view : View) (pred : Option Pred) (unknown : UnknownPolicy)
    (afterId : Option ℤ) : Except PlanError (List ℤ × Bool) := do
  let ids ← match pred with
    | none => pure ((db.nodes view).map (·.id))
    | some pred => do
        let out ← predSql pred view .s .en 0
        fetchWithPolicy glob db (db.nodes view) out.tokens out.args unknown
  let ids := afterCursor afterId ids
  pure (budget.cut ids, budget.exceeded ids.length)

/-- One statement of `Exec::filter`: `s.id IN (?, …) AND (predicate)`. -/
def filterChunk (view : View) (pred : Pred) (unknown : UnknownPolicy) (chunk : List ℤ) :
    Except PlanError (List ℤ) := do
  let out ← predSql pred view .s .en 0
  fetchWithPolicy glob db db.symbols
    ([.column .id .s .en] ++ [.inList (List.replicate chunk.length none)] ++
      .binary .and :: out.paren.tokens)
    (chunk.map .int ++ out.args) unknown

/-- Filter the first `kIdChunk` ids, then the rest. -/
def filterChunks (view : View) (pred : Pred) (unknown : UnknownPolicy) :
    ℕ → List ℤ → Except PlanError (List ℤ)
  | 0, _ => .ok []
  | _ + 1, [] => .ok []
  | left + 1, ids => do
      let part ← filterChunk glob db view pred unknown (ids.take kIdChunk)
      let rest ← filterChunks view pred unknown left (ids.drop kIdChunk)
      pure (part ++ rest)

/-- `Exec::filter` over symbol rows. The chunks are sorted together and made unique. -/
def filterNodes (view : View) (pred : Pred) (unknown : UnknownPolicy) (ids : List ℤ) :
    Except PlanError (List ℤ) :=
  (filterChunks glob db view pred unknown ids.length ids).map sortUnique

/-- `nodes(pred, unknown)`. -/
def nodesWith (view : View) (pred : Pred) (unknown : UnknownPolicy) : Except PlanError (List ℤ) :=
  (enumerateNodes glob db (some kEnumerateBudget) view (some pred) unknown none).map Prod.fst

/-- `nodes() | where(pred, unknown)`. -/
def nodesWhere (view : View) (pred : Pred) (unknown : UnknownPolicy) :
    Except PlanError (List ℤ) := do
  let all ← enumerateNodes glob db (some kEnumerateBudget) view none unknown none
  filterNodes glob db view pred unknown all.1

/-! ## What the statements select -/

/-- The outcome of a stage that selects rows by a test. -/
def selectWithPolicy (rows : List SymbolRow) (selects : IsTest → SymbolRow → Bool)
    (unknown : UnknownPolicy) : Except PlanError (List ℤ) :=
  if unknown = .error ∧ rows.any (selects .null) then .error unknownError
  else .ok ((rows.filter (selects unknown.test)).map (·.id))

variable {out : Emitted} {args : List SqlValue} {rows : List SymbolRow} {condition : List Token}
  {q : Pred} {view : View}

theorem fetchIds_of_denotes {limit level : ℕ}
    {value : RowValue} (h : Denotes limit level condition args .s .en value)
    (rows : List SymbolRow) : fetchIds glob db rows condition args =
      .ok ((rows.filter fun row => truth (value glob db row) = some true).map (·.id)) := by
  obtain ⟨_, expr, hbinds, hoperand, heval⟩ := h
  have hall := hbinds []
  rw [append_nil] at hall
  rw [fetchIds, hall, hoperand.parseExpr_eq]
  have hvalue : ∀ row, eval glob db expr (Env.ofRow db row) = value glob db row :=
    fun row => heval glob db _ row (Env.holds_ofRow db row)
  simp [hvalue]

theorem fetchWithPolicy_eq {selects : IsTest → SymbolRow → Bool}
    (h : ∀ test, fetchIds glob db rows (condition ++ [.is test]) args =
      .ok ((rows.filter (selects test)).map (·.id))) (unknown : UnknownPolicy) :
    fetchWithPolicy glob db rows condition args unknown =
      selectWithPolicy rows selects unknown := by
  have hempty : (!((rows.filter (selects .null)).map (·.id)).isEmpty) =
      rows.any (selects .null) := by
    rw [Bool.eq_iff_iff]
    simp
  unfold fetchWithPolicy selectWithPolicy
  simp only [h]
  cases unknown with
  | exclude => simp
  | include_ => simp
  | error =>
    simp only [if_true, true_and, bind, Except.bind, hempty]
    split <;> rfl

/-- What `enumerate` selects: behind a negation, the rows where the negated predicate
fails the test. -/
noncomputable def enumerateSelects (view : View) (q : Pred) (test : IsTest) (row : SymbolRow) : Bool :=
  match q with
  | .not [kid] => !test.holds (ofKleene (kleene glob db kid view row))
  | q => test.holds (ofKleene (kleene glob db q view row))

/-- What `filter` selects. -/
noncomputable def filterSelects (view : View) (q : Pred) (test : IsTest) (row : SymbolRow) : Bool :=
  test.holds (ofKleene (kleene glob db q view row))

theorem fetchIds_enumerate
    (hvalid : Valid q view) (hout : predSql q view .s .en 0 = .ok out) (rows : List SymbolRow)
    (test : IsTest) : fetchIds glob db rows (out.tokens ++ [.is test]) out.args =
      .ok ((rows.filter (enumerateSelects glob db view q test)).map (·.id)) := by
  unfold enumerateSelects
  split
  · rename_i kid
    rw [predSql] at hout
    obtain ⟨inner, hinner, hout⟩ := ok_of_bind hout
    cases hout
    obtain ⟨-, hkid⟩ := denotes_predSql kid view .s .en 0 inner hinner hvalid trivial
    -- The test comes before the negation is applied.
    have htext := ((hkid.paren 4).is test le_rfl (by decide)).not (by decide) (by decide) 4
    apply (fetchIds_of_denotes glob db htext rows).trans
    simp [Kleene.not]
  · rename_i hnot
    obtain ⟨-, hq⟩ := denotes_predSql q view .s .en 0 out hout hvalid trivial
    have hlevel : 4 < q.level := by
      cases q with
      | not kids =>
        match kids, hvalid with
        | [kid], _ => exact absurd rfl (hnot kid)
      | _ => simp [Pred.level]
    rw [fetchIds_of_denotes glob db (hq.is test le_rfl hlevel) rows]
    simp

theorem fetchIds_filter (hvalid : Valid q view)
    (hout : predSql q view .s .en 0 = .ok out) (chunk : List ℤ) (test : IsTest) :
    fetchIds glob db db.symbols ([.column .id .s .en] ++ [.inList (List.replicate chunk.length none)] ++
        .binary .and :: out.paren.tokens ++ [.is test]) (chunk.map .int ++ out.args) =
      .ok ((db.symbols.filter fun row =>
        row.id ∈ chunk && filterSelects glob db view q test row).map (·.id)) := by
  obtain ⟨-, hq⟩ := denotes_predSql q view .s .en 0 out hout hvalid trivial
  have hids := (denotes_column 4 .id .s .en).inList (chunk.map SqlValue.int) le_rfl (by decide)
  have htext := hids.binary .and ((hq.paren 4).is test le_rfl (by decide)) (by decide) (by decide)
    (by decide) (by decide)
  rw [length_map, nil_append] at htext
  apply (fetchIds_of_denotes glob db htext db.symbols).trans
  simp [filterSelects, Column.value, Kleene.and_eq_true]

/-! ## Chunks -/

theorem Db.nodup_ids : (db.symbols.map (·.id)).Nodup := db.symbols_sorted.imp ne_of_lt

theorem Db.nodes_sublist (view : View) : (db.nodes view).Sublist db.symbols := by
  unfold Db.nodes
  split
  · exact filter_sublist
  · exact List.Sublist.refl _

theorem filter_mem_ids {symbols : List SymbolRow} (hsub : rows.Sublist symbols)
    (hnodup : (symbols.map (·.id)).Nodup) :
    (symbols.filter fun row => row.id ∈ rows.map (·.id)) = rows := by
  induction hsub with
  | slnil => rfl
  | cons _ hsub ih =>
    rw [map_cons, nodup_cons] at hnodup
    have hout := fun hmem => hnodup.1 ((hsub.map (·.id)).subset hmem)
    rw [filter_cons_of_neg (by simpa only [decide_eq_true_eq] using hout), ih hnodup.2]
  | cons_cons row hsub ih =>
    rename_i rows symbols
    rw [map_cons, nodup_cons] at hnodup
    have hsame : (symbols.filter fun other => other.id ∈ (row :: rows).map (·.id)) =
        symbols.filter fun other => other.id ∈ rows.map (·.id) := by
      apply filter_congr
      intro other hother
      have hne : other.id ≠ row.id :=
        fun heq => hnodup.1 (heq ▸ mem_map_of_mem hother)
      simp [hne]
    rw [filter_cons_of_pos (by simp), hsame, ih hnodup.2]

attribute [local simp] Except.bind

theorem selectWithPolicy_append (front back : List SymbolRow)
    (selects : IsTest → SymbolRow → Bool) (unknown : UnknownPolicy) :
    selectWithPolicy (front ++ back) selects unknown = (do
      let part ← selectWithPolicy front selects unknown
      let rest ← selectWithPolicy back selects unknown
      pure (part ++ rest)) := by
  unfold selectWithPolicy
  simp only [any_append, filter_append, map_append, Bool.or_eq_true]
  by_cases herror : unknown = .error
  · by_cases hfront : front.any (selects .null) = true
    · simp [herror, hfront, bind]
    · by_cases hback : back.any (selects .null) = true
      · simp [herror, hfront, hback, bind]
      · simp [hfront, hback, bind, pure, Except.pure]
  · simp [herror, bind, pure, Except.pure]

theorem selectWithPolicy_and (rows : List SymbolRow) (among : SymbolRow → Bool)
    (selects : IsTest → SymbolRow → Bool) (unknown : UnknownPolicy) :
    selectWithPolicy rows (fun test row => among row && selects test row) unknown =
      selectWithPolicy (rows.filter among) selects unknown := by
  unfold selectWithPolicy
  rw [any_filter, filter_filter]
  simp [Bool.and_comm]

theorem filterChunks_eq (hvalid : Valid q view)
    (hout : predSql q view .s .en 0 = .ok out) (unknown : UnknownPolicy) (left : ℕ)
    (rows : List SymbolRow) (hsub : rows.Sublist db.symbols) (hleft : rows.length ≤ left) :
    filterChunks glob db view q unknown left (rows.map (·.id)) =
      selectWithPolicy rows (filterSelects glob db view q) unknown := by
  have hchunk : ∀ chunk : List SymbolRow, chunk.Sublist db.symbols →
      filterChunk glob db view q unknown (chunk.map (·.id)) =
        selectWithPolicy chunk (filterSelects glob db view q) unknown := by
    intro chunk hchunk
    rw [filterChunk, hout]
    apply (fetchWithPolicy_eq glob db
      (fetchIds_filter glob db hvalid hout (chunk.map (·.id))) unknown).trans
    rw [selectWithPolicy_and, filter_mem_ids hchunk db.nodup_ids]
  induction left generalizing rows with
  | zero =>
    rw [length_eq_zero_iff.mp (Nat.le_zero.mp hleft)]
    simp [filterChunks, selectWithPolicy]
  | succ _ ih =>
    cases rows with
    | nil => simp [filterChunks, selectWithPolicy]
    | cons row rest =>
      have hdrop := ih ((row :: rest).drop kIdChunk) ((drop_sublist _ _).trans hsub)
        (by rw [length_drop]; simp only [kIdChunk]; omega)
      rw [map_cons, filterChunks, ← map_cons, ← map_take, ← map_drop,
        hchunk _ ((take_sublist _ _).trans hsub), hdrop, ← selectWithPolicy_append,
        take_append_drop]
      simp

theorem sortUnique_ids (hsub : rows.Sublist db.symbols) :
    sortUnique (rows.map (·.id)) = rows.map (·.id) :=
  sortUnique_of_pairwise (db.symbols_sorted.sublist (hsub.map _))

@[simp]
theorem afterCursor_none (ids : List ℤ) : afterCursor none ids = ids := by
  simp [afterCursor]

/-! ## Placement -/

variable {glob db} {q : Pred} {view : View} {out : Emitted}

theorem nodesWith_eq (hvalid : Valid q view) (hout : predSql q view .s .en 0 = .ok out)
    (hbudget : (db.nodes view).length ≤ kEnumerateBudget) (unknown : UnknownPolicy) :
    nodesWith glob db view q unknown =
      selectWithPolicy (db.nodes view) (enumerateSelects glob db view q) unknown := by
  have hfetch := fetchWithPolicy_eq glob db
    (fetchIds_enumerate glob db hvalid hout (db.nodes view)) unknown
  unfold nodesWith enumerateNodes
  simp only [hout, hfetch, bind, Except.bind]
  by_cases hthrow : unknown = .error ∧
      (db.nodes view).any (enumerateSelects glob db view q .null) = true
  · rw [selectWithPolicy, if_pos hthrow]
    rfl
  · have hlength : ((db.nodes view).filter
        (enumerateSelects glob db view q unknown.test)).length ≤ kEnumerateBudget :=
      (length_filter_le _ _).trans hbudget
    rw [selectWithPolicy, if_neg hthrow]
    simp only [pure, Except.pure, Except.map, afterCursor_none]
    rw [Budget.cut, take_of_length_le (by simpa using hlength)]

theorem nodesWhere_eq (hvalid : Valid q view) (hout : predSql q view .s .en 0 = .ok out)
    (hbudget : (db.nodes view).length ≤ kEnumerateBudget) (unknown : UnknownPolicy) :
    nodesWhere glob db view q unknown =
      selectWithPolicy (db.nodes view) (filterSelects glob db view q) unknown := by
  have hall : enumerateNodes glob db (some kEnumerateBudget) view none unknown none =
      .ok ((db.nodes view).map (·.id), false) := by
    simp [enumerateNodes, bind, pure, Except.pure, Budget.cut, Budget.exceeded, take_of_length_le, hbudget]
  have hchunks := filterChunks_eq glob db hvalid hout unknown (db.nodes view).length
    (db.nodes view) (db.nodes_sublist view) le_rfl
  rw [nodesWhere, hall]
  show filterNodes glob db view q unknown ((db.nodes view).map (·.id)) = _
  rw [filterNodes, length_map, hchunks]
  unfold selectWithPolicy
  split
  · rfl
  · rw [Except.map, sortUnique_ids db (filter_sublist.trans (db.nodes_sublist view))]

/-- Two executions give the same ids, or both raise `E_UNKNOWN`. -/
def SameOutcome (first second : Except PlanError (List ℤ)) : Prop :=
  (∃ ids, first = .ok ids ∧ second = .ok ids) ∨
    ∃ e e', first = .error e ∧ second = .error e' ∧ e.code = .unknown ∧ e'.code = .unknown

variable {rows : List SymbolRow}

theorem sameOutcome_selectWithPolicy
    {selects selects' : IsTest → SymbolRow → Bool} {unknown : UnknownPolicy} :
    SameOutcome (selectWithPolicy rows selects unknown) (selectWithPolicy rows selects' unknown) ↔
      selectWithPolicy rows selects unknown = selectWithPolicy rows selects' unknown := by
  unfold selectWithPolicy SameOutcome
  split
  · split <;> simp [unknownError]
  · split
    · simp
    · simpa using eq_comm

theorem map_id_filter_eq_iff (hsub : rows.Sublist db.symbols) (keep keep' : SymbolRow → Bool) :
    (rows.filter keep).map (·.id) = (rows.filter keep').map (·.id) ↔
      ∀ row ∈ rows, keep row = keep' row := by
  have hnodup : (rows.map (·.id)).Nodup := db.nodup_ids.sublist (hsub.map _)
  have hinj : ∀ a ∈ rows, ∀ b ∈ rows, a.id = b.id → a = b := inj_on_of_nodup_map hnodup
  have hmem : ∀ (keep : SymbolRow → Bool), ∀ row ∈ rows,
      (row.id ∈ (rows.filter keep).map (·.id) ↔ keep row = true) := by
    intro _ row hrow
    constructor
    · intro hid
      obtain ⟨other, hother, hsame⟩ := mem_map.mp hid
      obtain ⟨hother, _⟩ := mem_filter.mp hother
      rwa [← hinj other hother row hrow hsame]
    · exact fun hkeep => mem_map_of_mem (mem_filter.mpr ⟨hrow, hkeep⟩)
  constructor
  · intro heq row hrow
    rw [Bool.eq_iff_iff, ← hmem keep row hrow, ← hmem keep' row hrow, heq]
  · intro hall
    rw [filter_congr hall]

/-- The rows where a negated predicate is unknown do not show which side of the `NOT` the policy
is on. -/
def NegationCommutes (rows : List SymbolRow) (value : SymbolRow → Kleene) : UnknownPolicy → Prop
  | .error => rows = [] ∨ (∃ row ∈ rows, value row = none) ∧ ∃ row ∈ rows, value row ≠ none
  | _ => ∀ row ∈ rows, value row ≠ none

/-- A top-level negation commutes with its policy; any other predicate is
safe. -/
def PlacementSafe (glob : String → String → Bool) (db : Db) (view : View) (q : Pred)
    (unknown : UnknownPolicy) : Prop :=
  match q with
  | .not [kid] => NegationCommutes (db.nodes view) (kleene glob db kid view) unknown
  | _ => True

theorem select_negation_iff (hsub : rows.Sublist db.symbols)
    (value : SymbolRow → Kleene) (unknown : UnknownPolicy) :
    selectWithPolicy rows (fun test row => !test.holds (ofKleene (value row))) unknown =
        selectWithPolicy rows (fun test row => test.holds (ofKleene (value row).not)) unknown ↔
      NegationCommutes rows value unknown := by
  have htest : ∀ test : IsTest, test ≠ .null → ∀ value : Kleene,
      ((!test.holds (ofKleene value)) = test.holds (ofKleene value.not)) ↔ value ≠ none := by
    intro test htest value
    cases test <;> rcases value with _ | _ | _ <;> first | exact absurd rfl htest | decide
  cases unknown with
  | exclude =>
    simp only [selectWithPolicy, reduceCtorEq, false_and, if_false, Except.ok.injEq,
      map_id_filter_eq_iff hsub, UnknownPolicy.test, NegationCommutes]
    exact forall₂_congr fun row _ => htest .true (by decide) (value row)
  | include_ =>
    simp only [selectWithPolicy, reduceCtorEq, false_and, if_false, Except.ok.injEq,
      map_id_filter_eq_iff hsub, UnknownPolicy.test, NegationCommutes]
    exact forall₂_congr fun row _ => htest .notFalse (by decide) (value row)
  | error =>
    have hnull : ∀ value : Kleene, (IsTest.null.holds (ofKleene value) = true) ↔ value = none := by
      intro value
      rcases value with _ | _ | _ <;> decide
    have hnot : ∀ value : Kleene, value.not = none ↔ value = none := by
      intro value
      rcases value with _ | _ | _ <;> decide
    simp only [selectWithPolicy, true_and, any_eq_true, Bool.not_eq_true',
      ← Bool.not_eq_true, hnull, hnot, NegationCommutes]
    by_cases hknown : ∃ row ∈ rows, value row ≠ none
    · by_cases hunknown : ∃ row ∈ rows, value row = none
      · simp [hknown, hunknown]
      · rw [if_pos hknown, if_neg hunknown]
        obtain ⟨_, hrow, -⟩ := hknown
        have hrows : rows ≠ [] := ne_nil_of_mem hrow
        simp [hunknown, hrows]
    · rw [if_neg hknown]
      by_cases hrows : rows = []
      · simp [hrows]
      · obtain ⟨row, hrow⟩ := exists_mem_of_ne_nil rows hrows
        have hvalue : value row = none := by
          by_contra hvalue
          exact hknown ⟨row, hrow, hvalue⟩
        rw [if_pos ⟨row, hrow, hvalue⟩]
        simp [hknown, hrows]

theorem not_sameOutcome_of_error {first second : Except PlanError (List ℤ)} {e : PlanError}
    (hfirst : first = .error e) (hcode : e.code ≠ .unknown) : ¬SameOutcome first second := by
  rintro (⟨ids, hids, -⟩ | ⟨e', -, herror, -, hunknown, -⟩)
  · rw [hfirst] at hids
    cases hids
  · rw [hfirst] at herror
    cases herror
    exact hcode hunknown

end Stages

/-- One symbol, with no value in any column. -/
def bareSymbolDb : Db := { symbols := [⟨1, fun _ => none⟩] }

/-- A comparison that is unknown there. -/
def usrIsMain : Pred := .cmp .eq "usr" ["main"] none

end CppIndexer.Query
