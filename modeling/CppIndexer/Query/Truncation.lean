/-
# Budgets and the truncation flag

When does a result that is not flagged as truncated equal the result without budgets? Every cut
of a stage raises the flag and no stage lowers it, with three exceptions: the enumeration of the
sites of one edge, the call arguments behind `in(type_layer.of_type)`, which are counted after
repetitions are removed, and the graph reads.
-/

import CppIndexer.Query.Executor

namespace CppIndexer.Query

open SortUnique List Budget Budgets TypedReads Except Index

def Config.free (config : Config) : Config := { config with budgets := .unbounded }

/-- A bounded stage from a stream that reports its cuts. -/
abbrev Honest (st : Stream) (bounded unbounded : Except PlanError Stream) : Prop :=
  Budget.Honest st.truncated Stream.truncated bounded unbounded

/-- Nothing that a statement behind `in(type_layer.of_type)` selects repeats. -/
def Index.LayerRowsDistinct (idx : Index) : Prop :=
  ∀ typeId, ((idx.db.callArgs.filter fun row => row.typeId = some typeId).map
    fun row => (row.edgeId, row.fileId)).Nodup

mutual

/-- No cut of a plan goes unreported: an enumeration of the sites of one edge, which neither a
limit nor a cursor takes over, finds no more than the budget, and `in(type_layer.of_type)` reads
no rows that repeat. -/
def Plan.Reports (idx : Index) (config : Config) : Plan → Option ℤ → Prop
  | .mk source stages, afterId =>
    stagesReport idx config (config.nodeLimit stages) stages source.view afterId

/-- No cut of the stages goes unreported. -/
def stagesReport (idx : Index) (config : Config) (nodeLimit : Option ℕ) :
    List Stage → View → Option ℤ → Prop
  | [], _, _ => True
  | stage :: rest, view, afterId =>
    stageReports idx config nodeLimit stage view afterId ∧
      stagesReport idx config nodeLimit rest (stage.viewAfter view) (stage.cursorAfter afterId)

/-- No cut of a stage goes unreported. -/
def stageReports (idx : Index) (config : Config) (nodeLimit : Option ℕ) : Stage → View → Option ℤ → Prop
  | .nodes pred _, view, afterId =>
    ∀ edgeId, view = .site → nodeLimit = none → afterId = none →
      Exec.intEquality pred = some ("edge_id", edgeId) →
      config.budgets.traverseNode.exceeded (Exec.sitesOf idx edgeId).length = false
  | .traverse inbound relation .static _ _, view, _ =>
    ∀ desc, inbound = true → view = .type → resolveRelation relation .type true = some desc →
      desc.layer = .typeLayer → idx.LayerRowsDistinct
  | .setOp _ operand, _, _ => operand.Reports idx config none
  | .path operand .., _, _ => operand.Reports idx config none
  | _, _, _ => True

end

/-- A rebuilding that stops early. -/
def Rebuild.cut (budgets : Budgets) (acc : Rebuild) : Bool :=
  budgets.resultCap.exceeded acc.chains.length || acc.exceeded

def SearchEnd.cut (budgets : Budgets) : SearchEnd → Bool
  | .truncated => true
  | .found _ chains stopped => stopped || budgets.resultCap.exceeded chains.length
  | .exhausted | .depthReached _ => false

/-- A climb that a budget has cut. -/
def TypeUses.cut (acc : TypeUses) : Bool := acc.truncated || acc.incomplete

namespace Exec

variable {idx : Index} {config : Config}

/-! ## Enumeration -/

theorem typedCells_free (hgraph : idx.graph config.budgets = idx.graph .unbounded) (st : Stream) :
    typedCells idx .unbounded st = typedCells idx config.budgets st := by
  funext fields key
  rw [typedCells, typedCells, hgraph]

section

variable {cut : Bool} {budget : Budget} {budgets : Budgets} {sites edges : List LogicalKey}
  {pred : Option Pred} {afterId : Option ℤ} {st out : Stream} {unknown : UnknownPolicy}

theorem truncated_filter {pred : Pred} (h : filter idx budgets st pred unknown = .ok out) :
    out.truncated = st.truncated := by
  unfold filter at h
  split at h
  · obtain ⟨_, _, rfl⟩ := map_eq_ok.mp h
    rfl
  · cases h
    rfl

theorem filter_free (hgraph : idx.graph config.budgets = idx.graph .unbounded) (st : Stream)
    (pred : Pred) (unknown : UnknownPolicy) :
    filter idx .unbounded st pred unknown = filter idx config.budgets st pred unknown := by
  rw [filter, filter, typedCells_free hgraph]

theorem truncated_filterWith (h : filterWith idx budgets st pred unknown = .ok out) :
    out.truncated = st.truncated := by
  cases pred with
  | none =>
    cases h
    rfl
  | some => exact truncated_filter h

theorem filterWith_free (hgraph : idx.graph config.budgets = idx.graph .unbounded) (st : Stream)
    (pred : Option Pred) (unknown : UnknownPolicy) :
    filterWith idx .unbounded st pred unknown = filterWith idx config.budgets st pred unknown := by
  cases pred with
  | none => rfl
  | some pred => exact filter_free hgraph st pred unknown

theorem withKeys_free {bound : Budget} {keys : List LogicalKey}
    (h : (withKeys st bound keys).truncated = false) :
    st.truncated = false ∧ withKeys st none keys = withKeys st bound keys := by
  obtain ⟨hst, hbound⟩ := Bool.or_eq_false_iff.mp h
  refine ⟨hst, ?_⟩
  rw [withKeys, withKeys, cut_eq_self hbound, hbound]
  simp

/-- An enumeration of symbols that is not cut. -/
theorem enumerateNodes_free {glob : String → String → Bool} {db : Db} {view : View}
    {ids : List ℤ} (h : enumerateNodes glob db budget view pred unknown afterId = .ok (ids, false)) :
    enumerateNodes glob db none view pred unknown afterId = .ok (ids, false) := by
  have hcut : ∀ all : List ℤ, (budget.cut all, budget.exceeded all.length) = (ids, false) →
      all = ids := by
    intro _ hall
    obtain ⟨hids, hwithin⟩ := Prod.mk.inj hall
    rw [← hids, cut_eq_self hwithin]
  cases pred with
  | none =>
    show ok (afterCursor afterId ((db.nodes view).map (·.id)), false) = _
    rw [hcut _ (ok.inj h)]
  | some =>
    obtain ⟨_, hout, hrest⟩ := ok_of_bind h
    obtain ⟨_, hall, hlast⟩ := ok_of_bind hrest
    simp only [enumerateNodes, hout, hall, bind, Except.bind]
    exact congrArg (fun ids => ok (ids, false)) (hcut _ (ok.inj hlast))

theorem enumerateAll_honest (hgraph : idx.graph config.budgets = idx.graph .unbounded)
    (st : Stream) (pred : Option Pred) (unknown : UnknownPolicy) (afterId : Option ℤ) :
    Honest st (enumerateAll idx config.budgets st pred unknown afterId)
      (enumerateAll idx .unbounded st pred unknown afterId) := by
  unfold enumerateAll
  split
  · intro _ hout hfalse
    obtain ⟨⟨_, _⟩, hids, rfl⟩ := map_eq_ok.mp hout
    obtain ⟨hst, rfl⟩ := Bool.or_eq_false_iff.mp hfalse
    rw [show unbounded.enumerate = none from rfl, enumerateNodes_free hids]
    exact ⟨hst, rfl⟩
  · split
    · intro _ hout
      cases hout
    · intro _ hout hfalse
      rw [truncated_filterWith hout] at hfalse
      obtain ⟨hst, hkeys⟩ := withKeys_free hfalse
      refine ⟨hst, ?_⟩
      rw [filterWith_free hgraph, show unbounded.enumerate = none from rfl, hkeys]
      exact hout

/-- A fast path over edges is honest, and so is one over sites that is within its bound. -/
theorem enumerate_honest (hgraph : idx.graph config.budgets = idx.graph .unbounded)
    {nodeLimit : Option ℕ}
    (hsites : ∀ edgeId, st.view = .site → nodeLimit = none → afterId = none →
      intEquality pred = some ("edge_id", edgeId) →
      config.budgets.traverseNode.exceeded (sitesOf idx edgeId).length = false) :
    Honest st (enumerate idx config.budgets st pred unknown afterId nodeLimit)
      (enumerate idx .unbounded st pred unknown afterId nodeLimit) := by
  unfold enumerate
  split
  · split
    · apply Budget.Honest.ok
      intro hfalse
      cases nodeLimit with
      | none => exact withKeys_free hfalse
      | some => exact ⟨(Bool.or_eq_false_iff.mp hfalse).1, rfl⟩
    · exact enumerateAll_honest hgraph st pred unknown afterId
  · rename_i hview heq
    split
    · rename_i hfast
      obtain ⟨rfl, rfl⟩ := hfast
      apply Budget.Honest.ok
      intro hfalse
      refine ⟨hfalse, ?_⟩
      cases nodeLimit with
      | none =>
        have hbound := hsites _ hview rfl rfl heq
        simp [cut_eq_self hbound, unbounded]
      | some => rfl
    · exact enumerateAll_honest hgraph st pred unknown afterId
  · exact enumerateAll_honest hgraph st pred unknown afterId

/-! ## Sites and set operations -/

theorem collectSites_free (h : (collectSites idx config.budgets cut edges sites).2 = false) :
    cut = false ∧ collectSites idx .unbounded cut edges sites =
        collectSites idx config.budgets cut edges sites := by
  induction edges generalizing sites with
  | nil => exact ⟨h, rfl⟩
  | cons edge _ ih =>
    unfold collectSites at h ⊢
    cases hover : config.budgets.traverseNode.exceeded (sites ++ sitesOf idx edge.a).length with
    | true =>
      simp only [hover, if_true] at h
      cases h
    | false =>
      cases cut with
      | true =>
        simp only [hover, Bool.false_eq_true, if_false, if_true] at h
        cases h
      | false =>
        simp only [hover, Bool.false_eq_true, if_false] at h ⊢
        exact ⟨trivial, (ih h).2⟩

theorem collectSites_within (hsites : config.budgets.traverseNode.exceeded sites.length = false)
    (h : (collectSites idx config.budgets cut edges sites).2 = false) :
    config.budgets.traverseNode.exceeded
      (collectSites idx config.budgets cut edges sites).1.length = false := by
  induction edges generalizing sites with
  | nil => exact hsites
  | cons edge _ ih =>
    unfold collectSites at h ⊢
    cases hover : config.budgets.traverseNode.exceeded (sites ++ sitesOf idx edge.a).length with
    | true =>
      simp only [hover, if_true] at h
      cases h
    | false =>
      simp only [hover, Bool.false_eq_true, if_false] at h ⊢
      cases cut with
      | true => exact hover
      | false => exact ih hover h

theorem expandSites_free (h : (expandSites idx config.budgets st).truncated = false) :
    st.truncated = false ∧ expandSites idx .unbounded st = expandSites idx config.budgets st := by
  have hfree := collectSites_free h
  have hwithin := collectSites_within (exceeded_zero _) h
  refine ⟨hfree.1, ?_⟩
  unfold expandSites
  rw [hfree.2]
  dsimp only
  rw [cut_eq_self (exceeded_of_le (length_sortUnique_le _) hwithin)]
  rfl

theorem setOpStage_free {op : SetOp} {sub : Stream}
    (h : (setOpStage config op st sub).truncated = false) :
    st.truncated = false ∧ sub.truncated = false ∧
      setOpStage config.free op st sub = setOpStage config op st sub := by
  have hsetOp : (setOp config.budgets st sub op).truncated = false := by
    cases op with
    | union | intersect | except => exact h
  have hkey : (st.truncated || sub.truncated) = false ∧
      setOp .unbounded st sub op = setOp config.budgets st sub op := by
    unfold setOp at hsetOp ⊢
    dsimp only at hsetOp ⊢
    split at hsetOp
    · rename_i hnode
      simp only [hnode, if_true]
      exact ⟨hsetOp, trivial⟩
    · rename_i hnode
      simp only [hnode]
      obtain ⟨hflag, hkeys⟩ := withKeys_free hsetOp
      exact ⟨hflag, by rw [← hkeys]; rfl⟩
  obtain ⟨hflags, hfree⟩ := hkey
  obtain ⟨hst, hsub⟩ := Bool.or_eq_false_iff.mp hflags
  refine ⟨hst, hsub, ?_⟩
  rw [setOpStage, setOpStage, show config.free.budgets = .unbounded from rfl, hfree]

/-! ## Traversals -/

theorem traverseDevirtualized_free (hgraph : idx.graph config.budgets = idx.graph .unbounded)
    {minDepth maxDepth : ℤ}
    (h : (traverseDevirtualized idx config.budgets st minDepth maxDepth).truncated = false) :
    st.truncated = false ∧ traverseDevirtualized idx .unbounded st minDepth maxDepth =
      traverseDevirtualized idx config.budgets st minDepth maxDepth := by
  obtain ⟨hst, hfree⟩ := levels_eq_unbounded h
  refine ⟨hst, ?_⟩
  unfold traverseDevirtualized
  rw [← hgraph, show unbounded.traverseNode = none from rfl, hfree]

/-- Rows without repetition that the budget covers were read to their end. -/
theorem peekAfter_of_grant {used : ℕ} {rows : List LogicalKey} (hrows : rows.Nodup)
    (h : (budget.grant used (sortUnique (budget.peekAfter used rows))).2 = false) :
    budget.peekAfter used rows = rows := by
  cases budget with
  | none => rfl
  | some bound =>
    have htake : (rows.take (bound - used + 1)).Nodup := hrows.sublist (take_sublist _ _)
    unfold grant peekAfter at h
    by_cases hused : bound ≤ used
    · simp [hused] at h
    · simp only [hused, if_false, decide_eq_false_iff_not, Nat.not_lt,
        length_sortUnique htake, length_take] at h
      exact take_of_length_le (by omega)

/-- A statement that falls short raises the flag, unless removing repetitions hides it. -/
theorem TypedReads.add_free {acc : TypedReads} {read : TypedRead}
    (hrows : ∀ rows, read = .repeated rows → rows.Nodup)
    (h : (add budget acc read).truncated = false) :
    acc.truncated = false ∧ add none acc read = add budget acc read := by
  cases read with
  | keys | ids =>
    obtain ⟨hacc, hcut⟩ := Bool.or_eq_false_iff.mp h
    refine ⟨hacc, ?_⟩
    unfold add
    dsimp only
    rw [grant_eq_self hcut]
    rfl
  | repeated rows =>
    obtain ⟨hacc, hcut⟩ := Bool.or_eq_false_iff.mp h
    refine ⟨hacc, ?_⟩
    unfold add
    dsimp only
    rw [grant_eq_self hcut, peekAfter_of_grant (hrows rows rfl) hcut]
    rfl
  | owner => exact ⟨h, rfl⟩

theorem moveTo_free {target : View} {found : TypedReads}
    (h : (moveTo config.budgets st target found).truncated = false) :
    st.truncated = false ∧ found.truncated = false ∧
      moveTo .unbounded st target found = moveTo config.budgets st target found := by
  have hkey : (st.truncated || found.truncated) = false ∧
      moveTo .unbounded st target found = moveTo config.budgets st target found := by
    unfold moveTo at h ⊢
    split at h
    · rename_i hnode
      obtain ⟨hflags, hover⟩ := Bool.or_eq_false_iff.mp h
      simp only [hnode, if_true, hover, cut_eq_self hover]
      exact ⟨hflags, rfl⟩
    · rename_i hnode
      obtain ⟨hflags, hkeys⟩ := withKeys_free h
      simp only [hnode]
      exact ⟨hflags, by rw [← hkeys]; rfl⟩
  obtain ⟨hflags, hfree⟩ := hkey
  obtain ⟨hst, hfound⟩ := Bool.or_eq_false_iff.mp hflags
  exact ⟨hst, hfound, hfree⟩

/-! ### Which statements repeat rows -/

end

section Repeated

variable {graph : GraphReads} {relation : RelationDesc} {rows : List LogicalKey}
  {key : LogicalKey} {typeId owner : ℤ}

theorem repeated_notMem_readsOfSymbol : .repeated rows ∉ idx.readsOfSymbol relation owner := by
  unfold readsOfSymbol
  split <;> simp

theorem repeated_notMem_readsIntoSymbol : .repeated rows ∉ idx.readsIntoSymbol relation owner := by
  unfold readsIntoSymbol
  split <;> simp

theorem repeated_notMem_layersWhere {p : TypeLayer → Bool} :
    .repeated rows ∉ layersWhere graph typeId p := by
  intro hmem
  obtain ⟨⟨_, _⟩, _, heq⟩ := mem_filterMap.mp hmem
  dsimp only at heq
  split at heq <;> cases heq

theorem repeated_notMem_readsOfType : .repeated rows ∉ idx.readsOfType graph relation typeId := by
  unfold readsOfType
  split
  · exact repeated_notMem_layersWhere
  · simp
  · simp
  · simp

theorem nodup_of_mem_readsIntoType (hdistinct : relation.layer = .typeLayer → idx.LayerRowsDistinct)
    (h : .repeated rows ∈ idx.readsIntoType relation typeId) : rows.Nodup := by
  have hlayer : relation.layer = .typeLayer ∧ rows = ((idx.db.callArgs.filter fun row =>
      row.typeId = some typeId).map fun row => ({ a := row.edgeId, b := row.fileId } : LogicalKey)) := by
    unfold readsIntoType at h
    split at h
    all_goals try split at h
    all_goals simp at h
    all_goals exact ⟨by assumption, h⟩
  rw [hlayer.2]
  have hnodup := hdistinct hlayer.1 typeId
  refine List.Nodup.of_map (fun key => (key.a, key.b)) ?_
  rw [map_map]
  exact hnodup

theorem repeated_notMem_readsOfSlot : .repeated rows ∉ idx.readsOfSlot relation key := by
  unfold readsOfSlot
  split <;> simp

theorem repeated_notMem_readsOfParameter : .repeated rows ∉ idx.readsOfParameter relation key := by
  unfold readsOfParameter
  split <;> simp

variable {edgeId : ℤ}

theorem repeated_notMem_readsOfEdge : .repeated rows ∉ idx.readsOfEdge relation edgeId := by
  unfold readsOfEdge
  split <;> simp

theorem repeated_notMem_readsOfArgument : .repeated rows ∉ idx.readsOfArgument relation key := by
  unfold readsOfArgument
  split <;> simp

theorem repeated_notMem_readsIntoEvidence : .repeated rows ∉ idx.readsIntoEvidence relation key := by
  unfold readsIntoEvidence
  split <;> simp

end Repeated

variable {inbound : Bool} {levels : List LevelRows} {fields : List String} {targets chain : List ℤ}
  {relation : RelationDesc} {st : Stream} {acc : TypeUses} {left : ℕ}
  {maxDepth minDepth start depth typeId : ℤ}

/-- Only the statement behind `in(type_layer.of_type)` selects rows that may repeat. -/
theorem nodup_of_repeated_mem {graph : GraphReads}
    {view : View} {key : LogicalKey} {rows : List LogicalKey}
    (hdistinct : inbound = true → view = .type → relation.layer = .typeLayer → idx.LayerRowsDistinct)
    (h : .repeated rows ∈ idx.typedReads graph relation inbound view key) : rows.Nodup := by
  unfold typedReads at h
  split at h
  -- Most statements are one or two tests in front of a list that does not repeat.
  any_goals
    refine absurd h ?_
    split <;> simp
    done
  any_goals
    refine absurd h ?_
    split
    · simp
    · split <;> simp [repeated_notMem_layersWhere]
  · exact absurd h repeated_notMem_readsOfSymbol
  · exact absurd h repeated_notMem_readsIntoSymbol
  · exact absurd h repeated_notMem_readsOfType
  · exact nodup_of_mem_readsIntoType (hdistinct rfl rfl) h
  · exact absurd h repeated_notMem_readsOfSlot
  · exact absurd h repeated_notMem_readsOfParameter
  · exact absurd h repeated_notMem_readsOfEdge
  · exact absurd h repeated_notMem_readsOfArgument
  · exact absurd h repeated_notMem_readsIntoEvidence
  · cases h

theorem traverseTyped_free (hgraph : idx.graph config.budgets = idx.graph .unbounded)
    (hdistinct : inbound = true → st.view = .type → relation.layer = .typeLayer → idx.LayerRowsDistinct)
    (h : (traverseTyped idx config.budgets st relation inbound).truncated = false) :
    st.truncated = false ∧ traverseTyped idx .unbounded st relation inbound =
      traverseTyped idx config.budgets st relation inbound := by
  obtain ⟨hst, hfound, hmove⟩ := moveTo_free h
  have htargets : typedTargets idx .unbounded st relation inbound =
      typedTargets idx config.budgets st relation inbound := by
    unfold typedTargets at hfound ⊢
    rw [← hgraph]
    refine (foldl_free (fun read hmem acc => TypedReads.add_free ?_) hfound).2
    intro _ hrows
    obtain ⟨_, _, hread⟩ := mem_flatMap.mp hmem
    exact nodup_of_repeated_mem hdistinct (hrows ▸ hread)
  refine ⟨hst, ?_⟩
  rw [traverseTyped, htargets, hmove, traverseTyped]

theorem traverse_honest (hgraph : idx.graph config.budgets = idx.graph .unbounded)
    {relation : RelationName} (hdistinct : ∀ desc, inbound = true → st.view = .type →
      resolveRelation relation .type true = some desc → desc.layer = .typeLayer →
      idx.LayerRowsDistinct) :
    Honest st (traverse idx config.budgets st inbound relation minDepth maxDepth)
      (traverse idx .unbounded st inbound relation minDepth maxDepth) := by
  unfold traverse
  split
  · intro _ hout
    cases hout
  · rename_i desc hdesc
    split
    · apply Budget.Honest.ok
      intro hfalse
      refine traverseTyped_free hgraph ?_ hfalse
      intro hin hview hlayer
      rw [hin, hview] at hdesc
      exact hdistinct desc hin hview hdesc hlayer
    · apply Budget.Honest.ok
      intro hfalse
      obtain ⟨hst, hfree⟩ := levels_eq_unbounded hfalse
      refine ⟨hst, ?_⟩
      rw [show unbounded.traverseNode = none from rfl, hfree]

/-! ## Witnesses -/

theorem sortAndCapWitnesses_free {resultCap : Budget} {results : List PathWitness} {cap : ℤ}
    {truncated : Bool} (h : (sortAndCapWitnesses resultCap results cap truncated).2 = false) :
    truncated = false ∧ sortAndCapWitnesses none results cap truncated =
      sortAndCapWitnesses resultCap results cap truncated := by
  obtain ⟨htruncated, hover⟩ := Bool.or_eq_false_iff.mp h
  refine ⟨htruncated, ?_⟩
  unfold sortAndCapWitnesses
  dsimp only
  rw [cut_eq_self hover, hover]
  simp

theorem descend_free {budgets : Budgets} {acc : Rebuild}
    (h : (descend budgets targets start levels chain acc).cut budgets = false) :
    acc.cut budgets = false ∧ descend .unbounded targets start levels chain acc =
      descend budgets targets start levels chain acc := by
  induction levels generalizing chain acc with
  | nil =>
    unfold descend at h ⊢
    cases hacc : acc.cut budgets with
    | true =>
      have hstop := hacc
      unfold Rebuild.cut at hstop
      simp [hstop, hacc] at h
    | false =>
      obtain ⟨hcap, hexceeded⟩ := Bool.or_eq_false_iff.mp hacc
      cases hdescents : budgets.pathReconstruction.exceeded (acc.descents + 1) with
      | true => simp [hcap, hexceeded, hdescents, Rebuild.cut] at h
      | false => simp [hcap, unbounded]
  | cons _ _ ih =>
    unfold descend at h ⊢
    cases hacc : acc.cut budgets with
    | true =>
      have hstop := hacc
      unfold Rebuild.cut at hstop
      simp [hstop, hacc] at h
    | false =>
      obtain ⟨hcap, hexceeded⟩ := Bool.or_eq_false_iff.mp hacc
      cases hdescents : budgets.pathReconstruction.exceeded (acc.descents + 1) with
      | true => simp [hcap, hexceeded, hdescents, Rebuild.cut] at h
      | false =>
        simp only [hcap, hexceeded, hdescents, Bool.or_self, Bool.false_eq_true, if_false]
          at h
        refine ⟨rfl, ?_⟩
        have hfold := (foldl_free (fun child _ acc => ih) h).2
        simp only [hcap, hexceeded, unbounded, exceeded_none, Bool.or_self, Bool.false_eq_true, if_false]
        exact hfold

theorem searchFrom_free {frontier : List ℤ} {cost : SearchCost}
    (h : (searchFrom idx config.budgets relation inbound minDepth targets start left depth frontier
      levels cost).1.cut config.budgets = false) :
    searchFrom idx .unbounded relation inbound minDepth targets start left depth frontier levels
        cost =
      searchFrom idx config.budgets relation inbound minDepth targets start left depth frontier
        levels cost := by
  induction left generalizing depth frontier levels cost with
  | zero => rfl
  | succ left ih =>
    unfold searchFrom at h ⊢
    cases hrows : config.budgets.pathNode.exceeded
        (cost.rows + (levelRows idx relation inbound frontier).length) with
    | true =>
      simp only [hrows, if_true] at h
      cases h
    | false =>
      have hfree : unbounded.pathNode.exceeded
          (cost.rows + (levelRows idx relation inbound frontier).length) = false := rfl
      simp only [hrows, hfree, Bool.false_eq_true, if_false] at h ⊢
      by_cases hempty : levelRows idx relation inbound frontier = []
      · simp [hempty]
      · simp only [hempty, if_false] at h ⊢
        split
        · rename_i hreached
          simp only [hreached, and_self, if_true] at h
          generalize hdescend : descend config.budgets targets start
            (levels ++ [levelRows idx relation inbound frontier]) [start]
            { descents := cost.descents } = rebuilt at h
          have hcut : rebuilt.cut config.budgets = false := by
            by_cases hchains : rebuilt.chains = []
            · cases hexceeded : rebuilt.exceeded with
              | true =>
                simp only [hchains, hexceeded, ne_eq, not_true, if_false, if_true] at h
                cases h
              | false => simp [Rebuild.cut, hchains, hexceeded]
            · simp only [hchains, ne_eq, not_false_eq_true, if_true] at h
              rw [Rebuild.cut, Bool.or_comm]
              exact h
          have hdescendFree := (descend_free (hdescend ▸ hcut)).2
          rw [hdescendFree, hdescend]
          by_cases hchains : rebuilt.chains = []
          · cases hexceeded : rebuilt.exceeded with
            | true => simp
            | false =>
              simp only [hchains, hexceeded, ne_eq, not_true, if_false, Bool.false_eq_true]
                at h ⊢
              exact ih h
          · simp [hchains]
        · rename_i hreached
          simp only [hreached, if_false] at h
          exact ih h

theorem hopSites_free {parent child : ℤ}
    (h : (hopSites idx config.budgets relation inbound parent child).2 = false) :
    hopSites idx .unbounded relation inbound parent child =
      hopSites idx config.budgets relation inbound parent child := by
  unfold hopSites at h ⊢
  split
  · rfl
  · rename_i hlayer
    dsimp only at h ⊢
    simp only [hlayer, if_false] at h
    split
    · rfl
    · rename_i edge hedge
      simp only [hedge] at h
      rw [cut_eq_self h, h]
      rfl

theorem chainWitness_free (h : (chainWitness idx config.budgets relation inbound depth chain).2 = false) :
    chainWitness idx .unbounded relation inbound depth chain =
      chainWitness idx config.budgets relation inbound depth chain := by
  have hhops : ((chain.zip chain.tail).map fun hop =>
        hopStep idx .unbounded relation inbound hop.1 hop.2) =
      (chain.zip chain.tail).map fun hop =>
        hopStep idx config.budgets relation inbound hop.1 hop.2 := by
    apply map_congr_left
    intro _ hmem
    have hcut := any_eq_false.mp h _ (mem_map_of_mem hmem)
    have hsites := hopSites_free (Bool.not_eq_true _ ▸ hcut)
    rw [hopStep, hopStep, hsites]
  unfold chainWitness
  rw [hhops]

def PathSearch.cut (acc : PathSearch) : Bool := acc.stopped || acc.incomplete

theorem searchStart_free {acc : PathSearch}
    (h : (searchStart idx config.budgets relation inbound minDepth maxDepth targets acc
      start).cut = false) :
    acc.cut = false ∧
      searchStart idx .unbounded relation inbound minDepth maxDepth targets acc start =
        searchStart idx config.budgets relation inbound minDepth maxDepth targets acc start := by
  unfold searchStart at h ⊢
  cases hstopped : acc.stopped with
  | true =>
    simp [PathSearch.cut, hstopped] at h
  | false =>
    simp only [hstopped, Bool.false_eq_true, if_false] at h ⊢
    generalize hsearch : searchFrom idx config.budgets relation inbound minDepth targets start
      maxDepth.toNat 1 [start] [] acc.cost = found at h ⊢
    obtain ⟨finish, cost⟩ := found
    have hfree (hcut : finish.cut config.budgets = false) :
        searchFrom idx .unbounded relation inbound minDepth targets start maxDepth.toNat 1
          [start] [] acc.cost = (finish, cost) :=
      (searchFrom_free (by rw [hsearch]; exact hcut)).trans hsearch
    cases finish with
    | truncated => simp [PathSearch.cut] at h
    | exhausted =>
      rw [hfree rfl]
      exact ⟨by simpa [PathSearch.cut, hstopped] using h, rfl⟩
    | depthReached =>
      rw [hfree rfl]
      have hincomplete : acc.incomplete = false := by
        simp only [PathSearch.cut, Bool.false_or] at h
        exact (Bool.or_eq_false_iff.mp h).1
      exact ⟨by simp [PathSearch.cut, hstopped, hincomplete], rfl⟩
    | found depth chains =>
      obtain ⟨hfound, hrest⟩ := Bool.or_eq_false_iff.mp h
      obtain ⟨hbefore, hwitnesses⟩ := Bool.or_eq_false_iff.mp hrest
      obtain ⟨hincomplete, hcap⟩ := Bool.or_eq_false_iff.mp hbefore
      dsimp only at hfound hwitnesses
      have hmap : (chains.map (chainWitness idx .unbounded relation inbound depth)) =
          chains.map (chainWitness idx config.budgets relation inbound depth) := by
        apply map_congr_left
        intro _ hmem
        rw [cut_eq_self hcap] at hwitnesses
        have hcut := any_eq_false.mp hwitnesses _ (mem_map_of_mem hmem)
        exact chainWitness_free (Bool.not_eq_true _ ▸ hcut)
      rw [hfree (by rw [SearchEnd.cut, hfound, hcap]; rfl)]
      refine ⟨by simp [PathSearch.cut, hstopped, hincomplete], ?_⟩
      dsimp only
      rw [cut_eq_self hcap, show unbounded.resultCap = none from rfl,
        cut_none, hmap, hcap]
      rfl

theorem searchPaths_free {starts : List ℤ}
    (h : (searchPaths idx config.budgets relation inbound minDepth maxDepth targets starts).cut = false) :
    searchPaths idx .unbounded relation inbound minDepth maxDepth targets starts =
      searchPaths idx config.budgets relation inbound minDepth maxDepth targets starts := by
  have hfold := foldl_free (fun start _ acc => searchStart_free) h
  exact hfold.2

theorem pathStage_honest {sub : Stream} {relation : RelationName} {shortest : ℤ} :
    Budget.Honest (st.truncated || sub.truncated) Stream.truncated
      (pathStage idx config.budgets st sub relation minDepth maxDepth shortest inbound)
      (pathStage idx .unbounded st sub relation minDepth maxDepth shortest inbound) := by
  unfold pathStage
  split
  · intro _ hout
    cases hout
  · apply Budget.Honest.ok
    intro hfalse
    obtain ⟨hflags, hcut⟩ := Bool.or_eq_false_iff.mp hfalse
    obtain ⟨hsearch, hsorted⟩ := sortAndCapWitnesses_free hcut
    refine ⟨hflags, congrArg (withPaths _) ?_⟩
    rw [searchPaths_free hsearch, show unbounded.resultCap = none from rfl, hsorted]

theorem rankStage_free {topN : ℤ} (h : (rankStage config.budgets st topN).truncated = false) :
    st.truncated = false ∧ rankStage .unbounded st topN = rankStage config.budgets st topN := by
  obtain ⟨hst, hsorted⟩ := sortAndCapWitnesses_free h
  refine ⟨hst, ?_⟩
  rw [rankStage, show unbounded.resultCap = none from rfl, hsorted, rankStage]

attribute [local simp] TypeUses.cut

theorem insertBest_free {witness : PathWitness}
    (h : (insertBest config.budgets acc witness).cut = false) :
    acc.cut = false ∧ insertBest .unbounded acc witness = insertBest config.budgets acc witness := by
  unfold insertBest at h ⊢
  dsimp only at h ⊢
  split at h
  · simp at h
  · rename_i hover
    simp only [hover]
    exact ⟨h, rfl⟩

theorem visitFrame_free {chain : List ChainLink}
    (h : (visitFrame idx config.budgets typeId depth chain acc).cut = false) :
    acc.cut = false ∧ visitFrame idx .unbounded typeId depth chain acc =
      visitFrame idx config.budgets typeId depth chain acc := by
  unfold visitFrame at h ⊢
  dsimp only at h ⊢
  split at h
  · simp at h
  · rename_i hover
    obtain ⟨hacc, hfold⟩ := foldl_free (fun owner _ acc => insertBest_free) h
    simp only [hover]
    exact ⟨hacc, hfold⟩

theorem climb_free {chain : List ChainLink}
    (h : (climb idx config.budgets left typeId depth chain acc).cut = false) :
    acc.cut = false ∧ climb idx .unbounded left typeId depth chain acc =
      climb idx config.budgets left typeId depth chain acc := by
  induction left generalizing typeId depth chain acc with
  | zero =>
    unfold climb at h ⊢
    cases hacc : acc.truncated with
    | true => simp [hacc] at h
    | false =>
      simp only [hacc, Bool.false_eq_true, if_false] at h ⊢
      cases hvisit : (visitFrame idx config.budgets typeId depth chain acc).truncated with
      | true => simp [hvisit] at h
      | false =>
        simp only [hvisit, Bool.false_eq_true, if_false] at h
        have hcut : (visitFrame idx config.budgets typeId depth chain acc).cut = false := by
          simp only [TypeUses.cut, hvisit, Bool.false_or] at h ⊢
          exact (Bool.or_eq_false_iff.mp h).1
        obtain ⟨hcutAcc, hfree⟩ := visitFrame_free hcut
        rw [hfree, hvisit]
        exact ⟨hcutAcc, rfl⟩
  | succ _ ih =>
    unfold climb at h ⊢
    cases hacc : acc.truncated with
    | true => simp [hacc] at h
    | false =>
      simp only [hacc, Bool.false_eq_true, if_false] at h ⊢
      cases hvisit : (visitFrame idx config.budgets typeId depth chain acc).truncated with
      | true => simp [hvisit] at h
      | false =>
        simp only [hvisit, Bool.false_eq_true, if_false] at h
        obtain ⟨hcut, hfold⟩ := foldl_free (fun parent _ acc => ih) h
        obtain ⟨hcutAcc, hfree⟩ := visitFrame_free hcut
        rw [hfree, hvisit]
        exact ⟨hcutAcc, hfold⟩

theorem typeUses_free {seeds : List ℤ}
    (h : (typeUses idx config.budgets seeds maxDepth).cut = false) :
    typeUses idx .unbounded seeds maxDepth = typeUses idx config.budgets seeds maxDepth := by
  have hfold := foldl_free (fun seed _ acc => climb_free) h
  exact hfold.2

section

variable (hgraph : idx.graph config.budgets = idx.graph .unbounded)
include hgraph

theorem reverseTypeUseStage_free
    (h : (reverseTypeUseStage idx config.budgets st maxDepth).truncated = false) :
    st.truncated = false ∧ reverseTypeUseStage idx .unbounded st maxDepth =
      reverseTypeUseStage idx config.budgets st maxDepth := by
  obtain ⟨hst, hcut⟩ := Bool.or_eq_false_iff.mp h
  obtain ⟨huses, hsorted⟩ := sortAndCapWitnesses_free hcut
  have hseeds : typeSeeds idx .unbounded st = typeSeeds idx config.budgets st := by
    rw [typeSeeds, typeSeeds, hgraph]
  refine ⟨hst, congrArg (withPaths st) ?_⟩
  rw [hseeds, typeUses_free huses, show unbounded.resultCap = none from rfl, hsorted]

/-! ## Reshaping stages -/

theorem materialize_honest :
    Honest st (materialize idx config.budgets st fields) (materialize idx .unbounded st fields) := by
  apply Budget.Honest.of_eq
  · rw [materialize, materialize, typedCells_free hgraph]
  · intro _ hout
    obtain ⟨_, _, hrest⟩ := ok_of_bind hout
    split at hrest
    · cases hrest
      rfl
    · obtain ⟨_, _, hlast⟩ := ok_of_bind hrest
      cases hlast
      rfl

theorem applyOrder_honest :
    Honest st (applyOrder idx config.budgets st fields) (applyOrder idx .unbounded st fields) := by
  apply Budget.Honest.of_eq
  · rw [applyOrder, applyOrder, typedCells_free hgraph]
  · intro _ hout
    unfold applyOrder at hout
    split at hout
    · split at hout
      · obtain ⟨_, _, rfl⟩ := map_eq_ok.mp hout
        rfl
      · obtain ⟨_, _, hrest⟩ := ok_of_bind hout
        obtain ⟨_, _, hlast⟩ := ok_of_bind hrest
        cases hlast
        rfl
    · cases hout
      rfl

end

theorem truncated_changeView (st : Stream) (level : View) :
    (changeView idx st level).truncated = st.truncated := by
  unfold changeView
  split
  · rfl
  · split <;> rfl

theorem truncated_applyDistinct (st : Stream) : (applyDistinct st).truncated = st.truncated := by
  unfold applyDistinct
  split
  · rfl
  · split <;> rfl
  · rfl

theorem truncated_applyLimit (st : Stream) (n : ℤ) : (applyLimit st n).truncated = st.truncated := by
  unfold applyLimit
  dsimp only
  split
  · rfl
  · split <;> rfl
  · rfl

/-! ## Whole plans -/

theorem plainStage_honest (hgraph : idx.graph config.budgets = idx.graph .unbounded)
    {nodeLimit : Option ℕ} {stage : Stage} {afterId : Option ℤ}
    (h : stageReports idx config nodeLimit stage st.view afterId) :
    Honest st (plainStage idx config nodeLimit stage st afterId)
      (plainStage idx config.free nodeLimit stage st afterId) := by
  cases stage with
  | nodes => exact (enumerate_honest hgraph h).map fun _ => rfl
  | changeView level =>
    exact Budget.Honest.ok fun hfalse => ⟨truncated_changeView st level ▸ hfalse, rfl⟩
  | where_ pred unknown =>
    exact Budget.Honest.of_eq (filter_free hgraph st pred unknown) fun _ => truncated_filter
  | traverse _ _ mode =>
    cases mode with
    | static => exact (traverse_honest hgraph h).map fun _ => rfl
    | devirtualized =>
      apply Budget.Honest.ok
      intro hfalse
      obtain ⟨hst, hfree⟩ := traverseDevirtualized_free hgraph hfalse
      exact ⟨hst, by rw [← hfree]; rfl⟩
  | sites =>
    apply Budget.Honest.ok
    intro hfalse
    obtain ⟨hst, hfree⟩ := expandSites_free hfalse
    exact ⟨hst, by rw [← hfree]; rfl⟩
  | select => exact (materialize_honest hgraph).map fun _ => rfl
  | count | setOp => exact Budget.Honest.ok fun hfalse => ⟨hfalse, rfl⟩
  | distinct =>
    exact Budget.Honest.ok fun hfalse => ⟨truncated_applyDistinct st ▸ hfalse, rfl⟩
  | orderBy => exact applyOrder_honest hgraph
  | limit n => exact Budget.Honest.ok fun hfalse => ⟨truncated_applyLimit st n ▸ hfalse, rfl⟩
  | rank => exact Budget.Honest.ok rankStage_free
  | reverseTypeUse => exact Budget.Honest.ok (reverseTypeUseStage_free hgraph)
  | path =>
    exact Budget.Honest.ok fun hfalse => ⟨hfalse, rfl⟩

mutual

theorem runPlan_honest (hgraph : idx.graph config.budgets = idx.graph .unbounded) :
    ∀ (plan : Plan) (afterId : Option ℤ), plan.Reports idx config afterId →
      Budget.Honest false Stream.truncated (runPlan idx config plan afterId)
        (runPlan idx config.free plan afterId)
  | .mk source stages, afterId, h =>
    runStages_honest hgraph (config.nodeLimit stages) stages (initial idx source) afterId h

theorem runStages_honest (hgraph : idx.graph config.budgets = idx.graph .unbounded)
    (nodeLimit : Option ℕ) : ∀ (stages : List Stage) (st : Stream) (afterId : Option ℤ),
      stagesReport idx config nodeLimit stages st.view afterId →
      Honest st (runStages idx config nodeLimit stages st afterId)
        (runStages idx config.free nodeLimit stages st afterId)
  | [], st, afterId, _ =>
    Budget.Honest.check fun _ => Budget.Honest.ok fun hfalse => ⟨hfalse, rfl⟩
  | stage :: rest, st, afterId, h => by
      have hstage := runStage_honest hgraph nodeLimit stage st afterId h.1
      apply Budget.Honest.check
      intro _
      apply hstage.bind
      intro out hout
      split
      · exact Budget.Honest.check fun _ => Budget.Honest.ok fun hfalse => ⟨hfalse, rfl⟩
      · apply runStages_honest hgraph nodeLimit rest out
        rw [view_runStage idx config hout]
        exact h.2

theorem runStage_honest (hgraph : idx.graph config.budgets = idx.graph .unbounded)
    (nodeLimit : Option ℕ) : ∀ (stage : Stage) (st : Stream) (afterId : Option ℤ),
      stageReports idx config nodeLimit stage st.view afterId →
      Honest st (runStage idx config nodeLimit stage st afterId)
        (runStage idx config.free nodeLimit stage st afterId)
  | .setOp op operand, st, _, h => by
      intro _ hout hfalse
      obtain ⟨sub, hsub, hlast⟩ := ok_of_bind hout
      cases hlast
      obtain ⟨hst, hsubFalse, hfree⟩ := setOpStage_free hfalse
      obtain ⟨_, hsubFree⟩ := runPlan_honest hgraph operand none h sub hsub hsubFalse
      refine ⟨hst, ?_⟩
      rw [runStage, hsubFree, ← hfree]
      rfl
  | .path operand relation minDepth maxDepth shortest inbound, st, _, h => by
      intro out hout hfalse
      obtain ⟨sub, hsub, hpath⟩ := ok_of_bind hout
      obtain ⟨hflags, hfree⟩ := pathStage_honest out hpath hfalse
      obtain ⟨hst, hsubFalse⟩ := Bool.or_eq_false_iff.mp hflags
      obtain ⟨_, hsubFree⟩ := runPlan_honest hgraph operand none h sub hsub hsubFalse
      refine ⟨hst, ?_⟩
      rw [runStage, hsubFree]
      exact hfree
  | .nodes .., _, _, h | .changeView .., _, _, h | .where_ .., _, _, h | .traverse .., _, _, h
  | .sites, _, _, h | .select .., _, _, h | .count, _, _, h | .distinct, _, _, h
  | .orderBy .., _, _, h | .limit .., _, _, h | .rank .., _, _, h | .reverseTypeUse .., _, _, h =>
    plainStage_honest hgraph h

end

theorem finalCap_free {st : Stream} {resultCap : Option ℤ} {α : Type} {xs : List α}
    (h : (finalCap config st resultCap).exceeded xs.length = false) :
    (finalCap config.free st resultCap).cut xs = (finalCap config st resultCap).cut xs ∧
      (finalCap config.free st resultCap).exceeded xs.length = false := by
  cases resultCap with
  | some => exact ⟨rfl, h⟩
  | none =>
    cases hlimit : st.limitInEffect with
    | true => simp [finalCap, hlimit]
    | false =>
      simp only [finalCap, hlimit, Bool.false_eq_true, if_false] at h ⊢
      exact ⟨(cut_eq_self h).symm, rfl⟩

theorem defaultRows_honest (hgraph : idx.graph config.budgets = idx.graph .unbounded)
    (st : Stream) : Honest st (defaultRows idx config st) (defaultRows idx config.free st) := by
  unfold defaultRows
  split
  · split <;> exact materialize_honest hgraph
  · exact Budget.Honest.ok fun hfalse => ⟨hfalse, rfl⟩

/-- The end of a plan reports its cuts. -/
theorem finish_honest (hgraph : idx.graph config.budgets = idx.graph .unbounded) (st : Stream)
    (resultCap : Option ℤ) : Budget.Honest st.truncated Result.truncated (finish idx config st resultCap)
      (finish idx config.free st resultCap) := by
  apply Budget.Honest.check
  intro _
  dsimp only
  split
  · intro _ hout
    cases hout
  · split
    · exact Budget.Honest.ok fun hfalse => ⟨hfalse, rfl⟩
    · apply Budget.Honest.ok
      intro hfalse
      obtain ⟨hst, hover⟩ := Bool.or_eq_false_iff.mp hfalse
      obtain ⟨hcut, hfree⟩ := finalCap_free hover
      exact ⟨hst, by rw [hcut, hfree, hover]⟩
    · apply (defaultRows_honest hgraph st).bind
      intro _ _
      apply Budget.Honest.ok
      intro hfalse
      obtain ⟨hst, hover⟩ := Bool.or_eq_false_iff.mp hfalse
      obtain ⟨hcut, hfree⟩ := finalCap_free hover
      exact ⟨hst, by rw [hcut, hfree, hover]⟩

/-- Whether the budgets of the code are silent about a plan. -/
def BudgetsReported (idx : Index) (plan : Plan) (afterId resultCap : Option ℤ) : Prop :=
  ∀ result, run idx { budgets := .code } plan afterId resultCap = .ok result →
    result.truncated = false →
    run idx { budgets := .unbounded } plan afterId resultCap = .ok result

theorem budgetsReported_of_reports {idx : Index}
    (hgraph : idx.graph .code = idx.graph .unbounded) {plan : Plan} {afterId : Option ℤ}
    (h : plan.Reports idx { budgets := .code } afterId) (resultCap : Option ℤ) :
    BudgetsReported idx plan afterId resultCap := by
  intro result hrun hfalse
  have hplan : Budget.Honest false Stream.truncated
      (runPlan idx { budgets := .code } plan afterId)
      (runPlan idx { budgets := .unbounded } plan afterId) := runPlan_honest hgraph plan afterId h
  have hfinish : ∀ st, Budget.Honest st.truncated Result.truncated
      (finish idx { budgets := .code } st resultCap)
      (finish idx { budgets := .unbounded } st resultCap) :=
    fun st => finish_honest hgraph st resultCap
  exact ((hplan.bind fun st _ => hfinish st) result hrun hfalse).2

/-! ## Counting the sites of an edge -/

/-- `view(site) | nodes(edge_id = e) | count`. -/
def countSites (edgeId : ℤ) : Plan :=
  .mk { kind := .codebase }
    [.changeView .site, .nodes (some (.cmp .eq "edge_id" [] (some edgeId))) .exclude, .count]

variable {edgeId : ℤ}

theorem run_countSites
    (hfiles : ∀ key ∈ sitesOf idx edgeId, idx.ambiguousFile key.b = false) (config : Config) :
    run idx config (countSites edgeId) none none =
      .ok { shape := .scalar, view := .site, truncated := false,
            scalar := (config.budgets.traverseNode.cut (sitesOf idx edgeId)).length } := by
  have hlimit : config.nodeLimit
      [.changeView .site, .nodes (some (.cmp .eq "edge_id" [] (some edgeId))) .exclude, .count] =
      none := by
    cases hpush : config.pushDown <;> simp [Config.nodeLimit, typedNodeLimit]
  let counted : Stream :=
    { view := .site, keys := config.budgets.traverseNode.cut (sitesOf idx edgeId) }
  have hcounted : rejectAmbiguous idx counted = .ok () :=
    rejectAmbiguous_ok fun key hmem => hfiles key (mem_of_mem_cut hmem)
  have hview : ∀ afterId, runStage idx config none (.changeView .site)
      (initial idx { kind := .codebase }) afterId = .ok { view := .site } := fun _ => rfl
  have hnodes : runStage idx config none
      (.nodes (some (.cmp .eq "edge_id" [] (some edgeId))) .exclude) { view := .site } none =
      .ok counted := rfl
  have hplan : runPlan idx config (countSites edgeId) none =
      .ok { counted with shape := .scalar } := by
    unfold countSites runPlan
    rw [hlimit, runStages_cons (rejectAmbiguous_ok (by simp [initial])) (hview none) (by simp)]
    exact (runStages_cons (rejectAmbiguous_ok (by simp)) hnodes (by simp)).trans
      (runStages_count hcounted)
  have hscalar : scalarOf { counted with shape := .scalar } =
      (config.budgets.traverseNode.cut (sitesOf idx edgeId)).length := by
    unfold scalarOf
    simp only [counted]
    by_cases hkeys : config.budgets.traverseNode.cut (sitesOf idx edgeId) = [] <;> simp [hkeys]
  rw [run, hplan]
  show finish idx config { counted with shape := .scalar } none = _
  unfold finish
  rw [show rejectAmbiguous idx { counted with shape := .scalar } = .ok () from hcounted, hscalar]
  rfl

theorem countSites_reports_iff :
    (countSites edgeId).Reports idx { budgets := .code } none ↔
      (sitesOf idx edgeId).length ≤ 10000 := by
  simp [countSites, Plan.Reports, stagesReport, stageReports, Config.nodeLimit, typedNodeLimit,
    Stage.viewAfter, Stage.cursorAfter, intEquality, code, exceeded]

/-- Counting reports its cuts exactly where the condition holds. -/
theorem countSites_reported_iff
    (hfiles : ∀ key ∈ sitesOf idx edgeId, idx.ambiguousFile key.b = false) :
    BudgetsReported idx (countSites edgeId) none none ↔
      (countSites edgeId).Reports idx { budgets := .code } none := by
  rw [countSites_reports_iff, BudgetsReported]
  simp only [run_countSites hfiles, code, unbounded, cut]
  constructor
  · intro h
    have hscalar := h _ rfl rfl
    simp only [ok.injEq, Result.mk.injEq, length_take] at hscalar
    omega
  · intro h _ hresult _
    cases hresult
    rw [take_of_length_le h]

end Exec

/-! ## The whole statement -/

/-- One edge with a site on each of the first lines of a file. -/
def crowdedEdge (lines : ℕ) : Db where
  symbols := [⟨1, fun _ => none⟩, ⟨2, fun _ => none⟩]
  edges := [⟨1, 1, 2, 1, lines⟩]
  edges_sorted := by simp
  edges_unique := by simp
  edges_closed := by simp
  sites := (List.range lines).map fun line : ℕ => ⟨1, 1, line, 1, 0⟩
  sites_sorted := by
    rw [map_map, pairwise_map]
    refine pairwise_lt_range.imp ?_
    intro _ _ hlt
    show LogicalKey.tuple _ < LogicalKey.tuple _
    simp only [LogicalKey.tuple, Function.comp, SiteRow.key, Prod.Lex.toLex_lt_toLex, lt_irrefl,
      false_or, true_and]
    exact Or.inl (by exact_mod_cast hlt)

theorem length_sitesOf_crowdedEdge (lines : ℕ) :
    (Exec.sitesOf (.ofDb (crowdedEdge lines)) 1).length = lines := by
  have hall : (crowdedEdge lines).sites.filter (fun site => site.edgeId = 1) =
      (crowdedEdge lines).sites := by
    rw [filter_eq_self]
    intro _ hmem
    obtain ⟨_, _, rfl⟩ := mem_map.mp hmem
    rfl
  show (((crowdedEdge lines).sites.filter fun site => site.edgeId = 1).map (·.key)).length = lines
  rw [hall]
  simp [crowdedEdge]

end CppIndexer.Query
