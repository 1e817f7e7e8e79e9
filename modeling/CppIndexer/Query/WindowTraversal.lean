/-
# Windows of path lengths

`out` and `in` between symbols or between entities emit a node when some walk of a length in the
window reaches it, not only a shortest one. The loop of `Exec::traverse` has no visited set: it
follows the relation level by level, each level fetched in chunks and made unique.

The loop stops at a level where the flag of the stream is raised. It is raised where the budget
cuts a level, and by any earlier stage that was cut: then the loop stops after its first level,
although the budget of the traversal itself is not used up. `path()` and `reverse_type_use()` keep
a flag of their own for this test.

The same window is computed a second time by the recursive statement behind `exists`, which has no
such test.
-/

import CppIndexer.Lib.OrderedMap
import CppIndexer.Query.NodeStreams

namespace CppIndexer.Query

open SortUnique List Exec Walk Budget

/-! ## Walks -/

section Walks

variable {db : Db} {table : EdgeTable} {kind : ℤ} {inbound : Bool} {n : ℕ} {b a : ℤ}

theorem Walk.length_pos (h : Walk db table kind inbound n a b) : 1 ≤ n := by
  cases h with
  | one => exact le_rfl
  | step _ _ _ => exact Nat.le_add_left 1 _

theorem Walk.cons {edge : EntityEdgeRow} (hedge : edge ∈ db.endpoints table)
    (hkind : edge.kind = kind) (hwalk : Walk db table kind inbound n (edge.target inbound) b) :
    Walk db table kind inbound (n + 1) (edge.source inbound) b := by
  generalize hmiddle : edge.target inbound = middle at hwalk
  induction hwalk with
  | one hlast hlastKind =>
    apply step _ hlast hlastKind
    rw [← hmiddle]
    exact one hedge hkind
  | step _ hlast hlastKind ih => exact step (ih hmiddle) hlast hlastKind

/-- A walk is a walk against the direction from its end to its start. -/
theorem Walk.reverse (h : Walk db table kind inbound n a b) : Walk db table kind (!inbound) n b a := by
  have hsource : ∀ edge : EntityEdgeRow, edge.source (!inbound) = edge.target inbound := by
    intro _
    cases inbound <;> rfl
  have htarget : ∀ edge : EntityEdgeRow, edge.target (!inbound) = edge.source inbound := by
    intro _
    cases inbound <;> rfl
  induction h with
  | one hedge hkind =>
    rename_i edge
    have hback := @Walk.one db table kind (!inbound) edge hedge hkind
    rwa [hsource, htarget] at hback
  | step _ hedge hkind =>
    rename_i edge _
    rw [← hsource]
    apply Walk.cons hedge hkind
    rwa [htarget]

theorem walk_reverse_iff : Walk db table kind (!inbound) n b a ↔ Walk db table kind inbound n a b := by
  constructor
  · intro h
    have hback := h.reverse
    rwa [Bool.not_not] at hback
  · exact Walk.reverse

end Walks

/-! ## The levels of a traversal -/

section Levels

variable (idx : Index) (relation : RelationDesc) (inbound : Bool)

/-- The node is reached from one of the ids by some walk of a length in the window. -/
def InWindow (ids : List ℤ) (minDepth maxDepth : ℤ) (b : ℤ) : Prop :=
  ∃ a ∈ ids, ∃ n : ℕ, minDepth ≤ n ∧ n ≤ maxDepth ∧
    Walk idx.db relation.table relation.kindId inbound n a b

variable {idx relation inbound}

theorem Exec.mem_nextNodes {frontier : List ℤ} {b : ℤ} :
    b ∈ nextNodes idx relation inbound frontier ↔
      ∃ a ∈ frontier, Walk idx.db relation.table relation.kindId inbound 1 a b := by
  simp only [nextNodes, mem_sortUnique, mem_map, mem_filter, Bool.and_eq_true,
    decide_eq_true_eq, walk_one_iff]
  constructor
  · rintro ⟨edge, ⟨hedge, hkind, hsource⟩, htarget⟩
    exact ⟨_, hsource, edge, hedge, hkind, rfl, htarget⟩
  · rintro ⟨_, ha, edge, hedge, hkind, rfl, htarget⟩
    exact ⟨edge, ⟨hedge, hkind, ha⟩, htarget⟩

theorem Exec.nextNodes_nil : nextNodes idx relation inbound [] = [] := by
  apply eq_nil_iff_forall_not_mem.mpr
  intro _ hb
  obtain ⟨_, ha, _⟩ := mem_nextNodes.mp hb
  cases ha

/-- The nodes of a level are the ends of the walks of its length. -/
theorem Exec.mem_iterate_nextNodes (ids : List ℤ) (n : ℕ) (b : ℤ) :
    b ∈ (nextNodes idx relation inbound)^[n + 1] (sortUnique ids) ↔
      ∃ a ∈ ids, Walk idx.db relation.table relation.kindId inbound (n + 1) a b := by
  induction n generalizing b with
  | zero =>
    simp [mem_nextNodes, mem_sortUnique]
  | succ _ ih =>
    rw [Function.iterate_succ_apply', mem_nextNodes]
    constructor
    · rintro ⟨middle, hmiddle, hlast⟩
      obtain ⟨a, ha, hwalk⟩ := (ih middle).mp hmiddle
      obtain ⟨edge, hedge, hkind, hsource, htarget⟩ := walk_one_iff.mp hlast
      exact ⟨a, ha, walk_succ_iff.mpr ⟨edge, hedge, hkind, hsource ▸ hwalk, htarget⟩⟩
    · rintro ⟨a, ha, hwalk⟩
      obtain ⟨edge, hedge, hkind, hfirst, htarget⟩ := walk_succ_iff.mp hwalk
      exact ⟨_, (ih _).mpr ⟨a, ha, hfirst⟩, walk_one_iff.mpr ⟨edge, hedge, hkind, rfl, htarget⟩⟩

variable {budget : Budget} {ids : List ℤ} {maxDepth minDepth : ℤ}

/-- A window is its first level, where it starts there, and the levels after it. -/
theorem inWindow_iff (hmin : 1 ≤ minDepth)
    (hmax : minDepth ≤ maxDepth) (b : ℤ) : InWindow idx relation inbound ids minDepth maxDepth b ↔
      minDepth = 1 ∧ InWindow idx relation inbound ids 1 1 b ∨
        InWindow idx relation inbound ids (max 2 minDepth) maxDepth b := by
  constructor
  · rintro ⟨a, ha, n, hlow, hhigh, hwalk⟩
    by_cases hn : n = 1
    · subst hn
      have hone : minDepth = 1 := by
        push_cast at hlow
        omega
      exact Or.inl ⟨hone, a, ha, 1, by simp, by simp, hwalk⟩
    · have htwo := hwalk.length_pos
      exact Or.inr ⟨a, ha, n, by omega, hhigh, hwalk⟩
  · rintro (⟨hone, a, ha, n, hlow, hhigh, hwalk⟩ | ⟨a, ha, n, hlow, hhigh, hwalk⟩)
    · exact ⟨a, ha, n, by omega, by omega, hwalk⟩
    · exact ⟨a, ha, n, by omega, hhigh, hwalk⟩

/-- The levels of the loop within the budget, with the flag down. -/
theorem mem_levels_of_unflagged (hbudget : budget.exceeded (levelsSize (nextNodes idx relation inbound)
      maxDepth.toNat (sortUnique ids)) = false) (b : ℤ) :
    b ∈ (budget.levels (nextNodes idx relation inbound) minDepth maxDepth.toNat 1
        (sortUnique ids) 0 false).1 ↔ InWindow idx relation inbound ids minDepth maxDepth b := by
  rw [levels_within nextNodes_nil minDepth (by rwa [Nat.zero_add])]
  simp only [mem_flatMap, mem_range]
  constructor
  · rintro ⟨d, hd, hb⟩
    split at hb
    · rename_i hlow
      obtain ⟨a, ha, hwalk⟩ := (mem_iterate_nextNodes ids d b).mp hb
      exact ⟨a, ha, d + 1, by push_cast; omega, by push_cast; omega, hwalk⟩
    · cases hb
  · rintro ⟨a, ha, n, hlow, hhigh, hwalk⟩
    obtain ⟨d, rfl⟩ : ∃ d, n = d + 1 := Nat.exists_eq_succ_of_ne_zero (by
      have hpos := hwalk.length_pos
      omega)
    push_cast at hlow hhigh
    refine ⟨d, by omega, ?_⟩
    rw [if_pos (by omega)]
    exact (mem_iterate_nextNodes ids d b).mpr ⟨a, ha, hwalk⟩

/-- The loop with the flag raised before it starts. -/
theorem mem_levels_of_flagged (hmin : 1 ≤ minDepth) (hmax : minDepth ≤ maxDepth)
    (hbudget : budget.exceeded (levelsSize (nextNodes idx relation inbound)
      maxDepth.toNat (sortUnique ids)) = false) (b : ℤ) :
    b ∈ (budget.levels (nextNodes idx relation inbound) minDepth maxDepth.toNat 1
        (sortUnique ids) 0 true).1 ↔ minDepth = 1 ∧ InWindow idx relation inbound ids 1 1 b := by
  obtain ⟨left, hleft⟩ : ∃ left, maxDepth.toNat = left + 1 :=
    Nat.exists_eq_succ_of_ne_zero (by omega)
  rw [hleft] at hbudget ⊢
  rw [levelsSize_succ] at hbudget
  rw [levels_flagged nextNodes_nil minDepth left 1
    (exceeded_of_le (by omega) hbudget)]
  have hfirst := @Exec.mem_iterate_nextNodes idx relation inbound ids 0 b
  rw [Nat.zero_add, Function.iterate_one] at hfirst
  constructor
  · intro hb
    split at hb
    · rename_i hlow
      obtain ⟨a, ha, hwalk⟩ := hfirst.mp hb
      exact ⟨by omega, a, ha, 1, by simp, by simp, hwalk⟩
    · cases hb
  · rintro ⟨hone, a, ha, n, _, _, hwalk⟩
    have hn : n = 1 := by omega
    subst hn
    rw [if_pos (le_of_eq hone)]
    exact hfirst.mpr ⟨a, ha, hwalk⟩

end Levels

/-! ## The quantifier over the reversed direction -/

section Quantifier

variable {idx : Index} {name : RelationName}

/-- `exists` is true where some node within the window satisfies the target, whether or not the
index records the relation completely. -/
theorem kleene_exists_iff {view : View} {desc : RelationDesc}
    (hdesc : resolveRelation name view = some desc) (target : Option Pred)
    (minDepth maxDepth threshold : ℤ) (inbound : Bool) (row : SymbolRow) :
    kleene idx.glob idx.db (.quantified .exists_ name target minDepth maxDepth threshold inbound)
        view row = some true ↔
      ∃ other ∈ idx.db.symbols, kleeneTarget idx.glob idx.db target desc.layer other = some true ∧
        ∃ n : ℕ, minDepth ≤ n ∧ n ≤ maxDepth ∧
          Walk idx.db desc.table desc.kindId inbound n row.id other.id := by
  have htrue : ∀ (complete : Bool) (values : List Kleene),
      quantify .exists_ complete threshold values = some true ↔ some true ∈ values := by
    intro _ values
    by_cases hmem : some true ∈ values
    · simp [quantify, witnessed, hmem]
    · simp only [quantify, witnessed, hmem, if_false, closedAnswer, iff_false]
      split <;> simp
  rw [kleene]
  simp only [hdesc, htrue, mem_map, reached, mem_filter, decide_eq_true_eq]
  constructor
  · rintro ⟨other, ⟨hother, hwalk⟩, htarget⟩
    exact ⟨other, hother, htarget, hwalk⟩
  · rintro ⟨other, hother, htarget, hwalk⟩
    exact ⟨other, ⟨hother, hwalk⟩, htarget⟩

variable {budgets : Budgets}

/-- `where` with the default policy keeps the nodes at which its predicate is true. -/
theorem mem_filter_exclude {view : View} {candidates kept : Stream}
    {pred : Pred} (hnode : view.isNode = true) (hstream : Exec.NodeStream idx view candidates)
    (hvalid : Valid pred view)
    (h : Exec.filter idx budgets candidates pred .exclude = .ok kept) :
    kept.ids.Pairwise (· < ·) ∧ ∀ id, id ∈ kept.ids ↔ id ∈ candidates.ids ∧
      ∃ row ∈ idx.db.symbols, row.id = id ∧ kleene idx.glob idx.db pred view row = some true := by
  obtain ⟨rows, hrows, hids⟩ := hstream.ids
  unfold Exec.filter at h
  rw [if_pos (by rw [hstream.view, hnode]), hstream.view, hids, filterNodes, length_map] at h
  cases hout : predSql pred view .s .en 0 with
  | error =>
    cases rows with
    | nil =>
      simp only [map_nil, length_nil, filterChunks, Except.map] at h
      cases h
      simp [sortUnique, hids]
    | cons =>
      simp [filterChunks, filterChunk, hout, bind, Except.bind, Except.map] at h
  | ok =>
    rw [filterChunks_eq idx.glob idx.db hvalid hout .exclude rows.length rows hrows le_rfl,
      selectWithPolicy, if_neg (by simp)] at h
    simp only [Except.map] at h
    cases h
    rw [sortUnique_ids idx.db (filter_sublist.trans hrows)]
    constructor
    · exact idx.db.symbols_sorted.sublist ((filter_sublist.trans hrows).map _)
    · intro _
      have htest : ∀ row, filterSelects idx.glob idx.db view pred UnknownPolicy.exclude.test row =
          true ↔ kleene idx.glob idx.db pred view row = some true := by
        intro _
        simp [filterSelects, UnknownPolicy.test, IsTest.holds]
      simp only [mem_map, mem_filter, htest, hids]
      constructor
      · rintro ⟨row, ⟨hrow, htrue⟩, rfl⟩
        exact ⟨⟨row, hrow, rfl⟩, row, hrows.subset hrow, rfl, htrue⟩
      · rintro ⟨⟨row, hrow, rfl⟩, other, hother, hid, htrue⟩
        have hsame : other = row :=
          inj_on_of_nodup_map idx.db.nodup_ids hother (hrows.subset hrow) hid
        exact ⟨row, ⟨hrow, hsame ▸ htrue⟩, rfl⟩

variable (idx)

/-- The ids a traversal should leave: those within the window, sorted and without repetition. -/
def ExactWindow (relation : RelationDesc) (inbound : Bool) (ids : List ℤ) (minDepth maxDepth : ℤ)
    (found : List ℤ) : Prop :=
  found.Pairwise (· < ·) ∧ ∀ b, b ∈ found ↔ InWindow idx relation inbound ids minDepth maxDepth b

/-- `where(exists(relation, min, max))` against the direction of a traversal selects what the
traversal has found: for every target that is true exactly at the ids the traversal starts from,
and over every stream of nodes. -/
def SelectedByExists (budgets : Budgets) (relation : RelationDesc) (inbound : Bool)
    (ids : List ℤ) (minDepth maxDepth : ℤ) (found : List ℤ) : Prop :=
  ∀ (target : Option Pred) (pred : Pred) (candidates kept : Stream),
    (∀ id, id ∈ ids ↔ ∃ row ∈ idx.db.symbols, row.id = id ∧
      kleeneTarget idx.glob idx.db target relation.layer row = some true) →
    Exec.NodeStream idx relation.layer candidates →
    normPred (.quantified .exists_ ⟨some relation.layer, relation.name⟩ target minDepth maxDepth 0
      (!inbound)) relation.layer = .ok pred →
    Exec.filter idx budgets candidates pred .exclude = .ok kept →
      kept.ids = candidates.ids.filter fun id => id ∈ found

variable {idx} {relation : RelationDesc}

theorem resolveRelation_of_mem (hmem : relation ∈ relationCatalog)
    (view : View) : resolveRelation ⟨some relation.layer, relation.name⟩ view = some relation := by
  have hunique : ∀ relation ∈ relationCatalog, relationCatalog.find? (fun other =>
      other.layer = relation.layer && other.name = relation.name) = some relation := by
    decide +kernel
  exact hunique relation hmem

variable {minDepth maxDepth : ℤ} {inbound : Bool}

/-- The quantifier is exact: the recursive statement behind it computes the window. -/
theorem selectedByExists_of_exact
    {ids found : List ℤ} (hmem : relation ∈ relationCatalog)
    (hnode : relation.layer.isNode = true)
    (hexact : ExactWindow idx relation inbound ids minDepth maxDepth found) :
    SelectedByExists idx budgets relation inbound ids minDepth maxDepth found := by
  intro _ _ _ _ htarget hstream hnorm hfilter
  obtain ⟨hsorted, hkept⟩ :=
    mem_filter_exclude hnode hstream (valid_normPred _ _ _ hnorm) hfilter
  apply OrderedMap.eq_of_pairwise_of_mem hsorted (hstream.ids.pairwise.sublist filter_sublist)
  intro id
  rw [hkept, mem_filter, decide_eq_true_eq, hexact.2]
  apply and_congr_right
  intro hid
  simp only [kleene_normPred idx.glob idx.db _ _ _ hnorm,
    kleene_exists_iff (resolveRelation_of_mem hmem relation.layer), walk_reverse_iff]
  constructor
  · rintro ⟨_, _, rfl, other, hother, htrue, n, hlow, hhigh, hwalk⟩
    exact ⟨other.id, (htarget _).mpr ⟨other, hother, rfl, htrue⟩, n, hlow, hhigh, hwalk⟩
  · rintro ⟨a, ha, n, hlow, hhigh, hwalk⟩
    obtain ⟨other, hother, rfl, htrue⟩ := (htarget a).mp ha
    obtain ⟨_, hrows, hids⟩ := hstream.ids
    rw [hids] at hid
    obtain ⟨row, hrow, rfl⟩ := mem_map.mp hid
    exact ⟨row, hrows.subset hrow, rfl, other, hother, htrue, n, hlow, hhigh, hwalk⟩

end Quantifier

/-! ## Traversals are exact -/

variable {name : RelationName} {inbound : Bool} {relation : RelationDesc} {minDepth : ℤ} {maxDepth : ℤ} {budgets : Budgets}

/-- What `traverse` leaves of a stream whose flag is down, and of one whose flag is raised. -/
theorem mem_traverse {idx : Index} {st out : Stream}
    (hrelation : resolveRelation name st.view inbound = some relation)
    (htyped : relation.isTyped st.view = false) (hmin : 1 ≤ minDepth) (hmax : minDepth ≤ maxDepth)
    (hbudget : budgets.traverseNode.exceeded (levelsSize
      (nextNodes idx relation inbound) maxDepth.toNat (sortUnique st.ids)) = false)
    (hout : Exec.traverse idx budgets st inbound name minDepth maxDepth = .ok out) :
    out.ids.Pairwise (· < ·) ∧ ∀ b, b ∈ out.ids ↔
      if st.truncated then minDepth = 1 ∧ InWindow idx relation inbound st.ids 1 1 b
      else InWindow idx relation inbound st.ids minDepth maxDepth b := by
  unfold Exec.traverse at hout
  rw [hrelation] at hout
  dsimp only at hout
  rw [if_neg (by simp [htyped])] at hout
  cases hout
  refine ⟨pairwise_sortUnique _, ?_⟩
  intro b
  rw [mem_sortUnique]
  cases htruncated : st.truncated with
  | true => simpa using mem_levels_of_flagged hmin hmax hbudget b
  | false => simpa using mem_levels_of_unflagged hbudget b

/-- Within the budget, a traversal leaves exactly the ids within its window, which are also the ones
that `exists` selects, if and only if no earlier stage has raised the flag of the stream, or the
levels after the first add nothing to the window. -/
theorem traverse_exact_iff {idx : Index} {budgets : Budgets} {st out : Stream} {inbound : Bool}
    {name : RelationName} {relation : RelationDesc} {minDepth maxDepth : ℤ}
    (hrelation : resolveRelation name st.view inbound = some relation)
    (htyped : relation.isTyped st.view = false) (hmin : 1 ≤ minDepth) (hmax : minDepth ≤ maxDepth)
    (hbudget : budgets.traverseNode.exceeded (Budget.levelsSize
      (Exec.nextNodes idx relation inbound) maxDepth.toNat (sortUnique st.ids)) = false)
    (hout : Exec.traverse idx budgets st inbound name minDepth maxDepth = .ok out) :
    ExactWindow idx relation inbound st.ids minDepth maxDepth out.ids ∧
        SelectedByExists idx budgets relation inbound st.ids minDepth maxDepth out.ids ↔
      st.truncated = false ∨ ∀ b, InWindow idx relation inbound st.ids (max 2 minDepth) maxDepth b →
        minDepth = 1 ∧ InWindow idx relation inbound st.ids 1 1 b := by
  obtain ⟨hsorted, hfound⟩ := mem_traverse hrelation htyped hmin hmax hbudget hout
  have hmem := mem_relationCatalog_of_resolveRelation hrelation
  have hlayer : relation.layer.isNode = true := by
    have htarget := targetView_of_not_isTyped hmem htyped
    simp only [RelationDesc.isTyped, Bool.or_eq_false_iff, Bool.not_eq_false'] at htyped
    rw [← htarget]
    exact htyped.1.2
  have hexact : ExactWindow idx relation inbound st.ids minDepth maxDepth out.ids ↔
      st.truncated = false ∨ ∀ b, InWindow idx relation inbound st.ids (max 2 minDepth) maxDepth b →
        minDepth = 1 ∧ InWindow idx relation inbound st.ids 1 1 b := by
    unfold ExactWindow
    simp only [hsorted, true_and, hfound]
    cases htruncated : st.truncated with
    | false => simp
    | true =>
      simp only [if_true, inWindow_iff hmin hmax, Bool.true_eq_false, false_or]
      constructor
      · intro h b hb
        exact (h b).mpr (Or.inr hb)
      · intro h b
        exact ⟨Or.inl, fun hb => hb.elim id (h b)⟩
  constructor
  · rintro ⟨h, _⟩
    exact hexact.mp h
  · intro h
    exact ⟨hexact.mpr h, selectedByExists_of_exact hmem hlayer (hexact.mpr h)⟩

def callChain : Db where
  symbols := [⟨1, fun _ => none⟩, ⟨2, fun _ => none⟩, ⟨3, fun _ => none⟩]
  edges := [⟨1, 1, 2, 1, 1⟩, ⟨2, 2, 3, 1, 1⟩]
  symbols_sorted := pairwise_cons.mpr ⟨by decide, by decide⟩

/-- Its first function, behind an enumeration that was cut or not. -/
def chainStart (truncated : Bool) : Stream :=
  { view := .symbol, ids := [1], truncated := truncated }

def callsRelation : RelationDesc := ⟨"calls", .symbol, 1, "partial", false, .symbol⟩

theorem callChain_within : Budgets.code.traverseNode.exceeded (levelsSize
    (nextNodes (.ofDb callChain) callsRelation false) (2 : ℤ).toNat (sortUnique [1])) = false := by
  decide +kernel

theorem inWindow_callChain : InWindow (.ofDb callChain) callsRelation false [1] 1 2 3 := by
  have hedge : ⟨1, 2, 1⟩ ∈ callChain.endpoints .edge := by decide
  have hlast : ⟨2, 3, 1⟩ ∈ callChain.endpoints .edge := by decide
  exact ⟨1, by simp, 2, by simp, by simp, step (one hedge rfl) hlast rfl⟩

/-- The traversal of an unflagged stream is exact on the chain. -/
theorem traverse_exact_iff_callChain : ∃ out,
    Exec.traverse (.ofDb callChain) .code (chainStart false) false ⟨none, "calls"⟩ 1 2 = .ok out ∧
      ExactWindow (.ofDb callChain) callsRelation false [1] 1 2 out.ids := by
  have hrelation : resolveRelation ⟨none, "calls"⟩ (chainStart false).view false =
      some callsRelation := rfl
  obtain ⟨out, hout⟩ : ∃ out,
      Exec.traverse (.ofDb callChain) .code (chainStart false) false ⟨none, "calls"⟩ 1 2 = .ok out :=
    ⟨_, rfl⟩
  have hexact := traverse_exact_iff hrelation rfl le_rfl (by decide) callChain_within hout
  exact ⟨out, hout, (hexact.mpr (Or.inl rfl)).1⟩

/-- After a stage that was cut, the second function of the chain is found and the third is not,
although both levels are within the budget. -/
theorem traverse_flagged_not_exact : Budgets.code.traverseNode.exceeded (Budget.levelsSize
        (Exec.nextNodes (.ofDb callChain) callsRelation false) (2 : ℤ).toNat (sortUnique [1])) =
      false ∧ ¬ ∀ out,
      Exec.traverse (.ofDb callChain) .code (chainStart true) false ⟨none, "calls"⟩ 1 2 = .ok out →
        ExactWindow (.ofDb callChain) callsRelation false [1] 1 2 out.ids := by
  refine ⟨callChain_within, ?_⟩
  intro h
  have hfound : (3 : ℤ) ∈ [2] := by
    have hexact := h { chainStart true with ids := [2] } (by decide +kernel)
    exact (hexact.2 3).mpr inWindow_callChain
  simp at hfound

end CppIndexer.Query
