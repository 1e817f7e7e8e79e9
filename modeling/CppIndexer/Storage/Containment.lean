/-
# Containment counts

A containment edge is stated by every file that declares the member in its scope, and its count is
meant to be the number of `(file, configuration)` routes that state it. A publication derives the
count anew only for the edges its batch names, while its stale sweep takes routes away from edges
the batch no longer names. The counts stay right in the runs where every edge that loses some but
not all of its routes is named by the batch or goes with a symbol the sweep deletes.
-/

import CppIndexer.Lib.Transition
import CppIndexer.Storage.FactBatchWriter

namespace CppIndexer.Storage

open List Option AssocMap Database

/-- Every containment edge that some file states counts the files that state it. -/
def CountsRoutes (db : Database) : Prop :=
  ∀ key edge, db.edges.find? key = some edge → key.kind = kContainsEdgeKind →
    0 < db.routes edge.id → edge.count = db.routes edge.id

/-- Publications one after the other; one that fails is rolled back. -/
def factBatchWriter : Transition.System Database Publication where
  init := .empty
  step db p := (p.applyInTransaction db).toOption

namespace Publication

variable (p : Publication)

/-- A planned file states the fact, under the configuration that is published. -/
def touches (rows : Applicability) (kind : FactKind) (id : ℕ) : Bool :=
  rows.entries.any fun entry => aboutFact kind id entry.1 && p.owns entry.1

/-- The fact is also stated outside the planned files and the configuration. -/
def shares (rows : Applicability) (kind : FactKind) (id : ℕ) : Bool :=
  rows.entries.any fun entry => aboutFact kind id entry.1 && !p.owns entry.1

/-- Some relation of the batch is the edge. -/
def names (map : SymbolMap) (key : EdgeKey) : Bool :=
  p.relations.any fun relation => decide (relation.key? map = some key)

/-- A symbol that only the planned files state, and that the batch states no more. -/
def drops (map : SymbolMap) (rows : Applicability) (symbolId : ℕ) : Bool :=
  p.touches rows .symbol symbolId && !p.shares rows .symbol symbolId &&
    !(p.symbolFacts map).any fun fact => decide (fact.1 = symbolId)

/-- A containment edge that the planned files share with others is named by the batch, unless one
of its ends goes. -/
def Accounts (db : Database) (p : Publication) : Prop :=
  0 ≤ p.configurationId ∧
    ∀ entry ∈ db.edges.rows.entries, entry.1.kind = kContainsEdgeKind →
      p.touches db.applicability .edge entry.2.id = true →
      p.shares db.applicability .edge entry.2.id = true →
      p.names (p.symbolMap db) entry.1 = true ∨
        p.drops (p.symbolMap db) db.applicability entry.1.srcId = true ∨
        p.drops (p.symbolMap db) db.applicability entry.1.dstId = true

instance (db : Database) (p : Publication) : Decidable (Accounts db p) :=
  inferInstanceAs (Decidable (_ ∧ _))

theorem keepLast_sublist (relations : List (EdgeKey × ℤ)) : (keepLast relations).Sublist relations := by
  induction relations with
  | nil => exact .slnil
  | cons _ _ ih =>
    rw [keepLast]
    split
    · exact ih.cons _
    · exact ih.cons_cons _

/-- None of the facts is the given one. -/
def Silent (facts : List (FactKind × ℕ × ℕ)) (kind : FactKind) (id : ℕ) : Prop :=
  ∀ fact ∈ facts, ¬ (fact.1 = kind ∧ fact.2.1 = id)

variable {p} {rows : Applicability} {key : ApplicabilityKey} {db : Database} {edge : EdgeData}
  {edges : EdgeTable} {kind : FactKind} {fact : FactKind × ℕ × ℕ}
  {rest facts : List (FactKind × ℕ × ℕ)} {relations : RelationMap} {map : SymbolMap}
  {id symbolId edgeId : ℕ} {generations : ℕ → ℤ} {generation : ℤ}

theorem aboutFact_eq_true : aboutFact kind id key = true ↔ key.factKind = kind ∧ key.factId = id := by
  simp [aboutFact]

theorem Silent.tail (h : Silent (fact :: rest) kind id) : Silent rest kind id :=
  fun other hother => h other (mem_cons_of_mem _ hother)

theorem Silent.head (h : Silent (fact :: rest) kind id) (fileId : ℕ) (configId : ℤ) :
    aboutFact kind id ⟨fact.1, fact.2.1, fileId, configId⟩ = false := by
  rw [Bool.eq_false_iff, ne_eq, aboutFact_eq_true]
  exact h fact mem_cons_self

theorem find?_publishFacts (hsilent : Silent facts kind id) (hkey : aboutFact kind id key = true) :
    (p.publishFacts generations facts rows).find? key = rows.find? key := by
  induction facts generalizing rows with
  | nil => rfl
  | cons _ _ ih =>
    simp only [publishFacts, foldl_cons] at ih ⊢
    rw [ih hsilent.tail, find?_insertOrAssign, if_neg]
    rintro rfl
    rw [hsilent.head] at hkey
    exact absurd hkey (by simp)

theorem countKeys_publishFacts (hsilent : Silent facts kind id) :
    (p.publishFacts generations facts rows).countKeys (aboutFact kind id) =
      rows.countKeys (aboutFact kind id) := by
  induction facts generalizing rows with
  | nil => rfl
  | cons _ _ ih =>
    simp only [publishFacts, foldl_cons] at ih ⊢
    rw [ih hsilent.tail, countKeys_insertOrAssign (hsilent.head _ _)]

theorem ne_generation (hstored : rows.find? key = some generation) (howned : p.owns key = true) :
    generation ≠ p.generation rows key.fileId := by
  simp only [owns, Bool.and_eq_true, decide_eq_true_eq] at howned
  have hmem : generation ∈ (rows.entries.filter fun entry =>
      decide (entry.1.fileId = key.fileId) &&
        decide (entry.1.configId = p.configurationId)).map Prod.snd :=
    List.mem_map.mpr ⟨(key, generation),
      by simp [(find?_eq_some_iff _ _ _).mp hstored, howned.1], rfl⟩
  unfold Publication.generation
  split
  case h_1 newest hnewest =>
    have hle := (max?_eq_some_iff.mp hnewest).2 generation hmem
    omega
  case h_2 hnone =>
    rw [max?_eq_none_iff] at hnone
    rw [hnone] at hmem
    exact absurd hmem (by simp)

theorem stale_of_owns (hstored : rows.find? key = some generation) (howned : p.owns key = true) :
    p.stale (p.generation rows) key generation = true := by
  simp [stale, howned, ne_generation hstored howned]

theorem not_stale_of_not_owns
    (howned : p.owns key = false) : p.stale generations key generation = false := by
  simp [stale, howned]

theorem touches_iff : p.touches rows kind id = true ↔ ∃ key generation, rows.find? key = some generation ∧
      aboutFact kind id key = true ∧ p.owns key = true := by
  simp [touches, find?_eq_some_iff]

theorem shares_iff : p.shares rows kind id = true ↔ ∃ key generation, rows.find? key = some generation ∧
      aboutFact kind id key = true ∧ p.owns key = false := by
  simp [shares, find?_eq_some_iff]

/-- A fact that only the planned files stated and that is not published again has nothing but
stale rows. -/
theorem onlyStale_publishFacts (hsilent : Silent facts kind id)
    (htouches : p.touches rows kind id = true) (hshares : p.shares rows kind id = false) :
    p.onlyStale (p.generation rows) (p.publishFacts (p.generation rows) facts rows) kind id = true := by
  simp only [onlyStale, Bool.and_eq_true, Bool.not_eq_true', List.any_eq_true, List.any_eq_false,
    not_and, Bool.not_eq_false, Prod.exists, Prod.forall]
  constructor
  · obtain ⟨key, generation, hstored, hkey, howned⟩ := touches_iff.mp htouches
    refine ⟨key, generation, ?_, hkey, stale_of_owns hstored howned⟩
    rw [← find?_eq_some_iff, find?_publishFacts hsilent hkey]
    exact hstored
  · intro key generation hmem hkey
    rw [← find?_eq_some_iff, find?_publishFacts hsilent hkey] at hmem
    apply stale_of_owns hmem
    by_contra howned
    have hshared : p.shares rows kind id = true :=
      shares_iff.mpr ⟨key, generation, hmem, hkey, by simpa using howned⟩
    rw [hshares] at hshared
    exact absurd hshared (by simp)

theorem silent_publishedFacts_edge (h : ∀ entry ∈ relations, entry.2 ≠ edgeId) :
    Silent (p.publishedFacts map relations) .edge edgeId := by
  rintro _ hfact ⟨hkind, hid⟩
  simp only [publishedFacts, mem_append, List.mem_map] at hfact
  rcases hfact with (⟨symbol, -, rfl⟩ | ⟨edge, hedge, rfl⟩) | ⟨other, -, rfl⟩
  · exact absurd hkind (by simp)
  · simp only [edgeFacts, mem_filterMap, map_eq_some_iff] at hedge
    obtain ⟨entry, hentry, _, -, rfl⟩ := hedge
    exact h entry hentry hid
  · exact absurd hkind (by simp)

theorem silent_publishedFacts_symbol (h : ∀ fact ∈ p.symbolFacts map, fact.1 ≠ symbolId) :
    Silent (p.publishedFacts map relations) .symbol symbolId := by
  rintro _ hfact ⟨hkind, hid⟩
  simp only [publishedFacts, mem_append, List.mem_map] at hfact
  rcases hfact with (⟨symbol, hsymbol, rfl⟩ | ⟨edge, -, rfl⟩) | ⟨other, -, rfl⟩
  · exact h symbol hsymbol hid
  · exact absurd hkind (by simp)
  · exact absurd hkind (by simp)

theorem silent_diagnosticFacts (edgeId : ℕ) : Silent p.diagnosticFacts .edge edgeId := by
  rintro _ hfact ⟨hkind, -⟩
  simp only [diagnosticFacts, List.mem_map] at hfact
  obtain ⟨_, -, rfl⟩ := hfact
  exact absurd hkind (by simp)

theorem onlyStale_of_drops (hdrops : p.drops map rows symbolId = true) : p.onlyStale (p.generation rows)
      (p.publishFacts (p.generation rows) (p.publishedFacts map relations) rows) .symbol symbolId =
        true := by
  simp only [drops, Bool.and_eq_true, Bool.not_eq_true', List.any_eq_false, decide_eq_true_eq] at hdrops
  obtain ⟨⟨htouches, hshares⟩, hfacts⟩ := hdrops
  exact onlyStale_publishFacts (silent_publishedFacts_symbol hfacts) htouches hshares

variable {key : EdgeKey}

/-- An edge that the sweep leaves was there, and is not one with nothing but stale rows, and
neither are its ends. -/
theorem removeStale_edge (h : (p.removeStale generations db).edges.find? key = some edge) :
    db.edges.find? key = some edge ∧ p.onlyStale generations db.applicability .edge edge.id = false ∧
      p.onlyStale generations db.applicability .symbol key.srcId = false ∧
      p.onlyStale generations db.applicability .symbol key.dstId = false := by
  simp only [removeStale, EdgeTable.find?_deleteWhere, find?_eraseWhere,
    filter_eq_some_iff, Bool.not_eq_true', Bool.or_eq_false_iff, isNone_eq_false_iff,
    isSome_filter, Option.any_eq_true] at h
  obtain ⟨⟨hstored, hedge⟩, ⟨_, -, hsrc⟩, ⟨_, -, hdst⟩⟩ := h
  exact ⟨hstored, hedge, hsrc, hdst⟩

theorem routes_removeStale {published : Database} (hrows : published.applicability =
      p.publishFacts (p.generation db.applicability) facts db.applicability)
    (hsilent : Silent facts .edge edgeId)
    (htouches : p.touches db.applicability .edge edgeId = false) :
    (p.removeStale (p.generation db.applicability) published).routes edgeId = db.routes edgeId := by
  simp only [routes, removeStale]
  rw [countKeys_eraseWhere, hrows, countKeys_publishFacts hsilent]
  intro key generation hmem hkey
  rw [hrows, ← find?_eq_some_iff, find?_publishFacts hsilent hkey] at hmem
  have hforeign : p.owns key = false := by
    by_contra howned
    have htouched : p.touches db.applicability .edge edgeId = true :=
      touches_iff.mpr ⟨key, generation, hmem, hkey, by simpa using howned⟩
    rw [htouches] at htouched
    exact absurd htouched (by simp)
  simp [not_stale_of_not_owns hforeign]

theorem normaliseGenerations_counts (h : CountsRoutes db) : CountsRoutes (p.normaliseGenerations db) := by
  intro key edge hedge hkind hpos
  simp only [routes, normaliseGenerations, countKeys_mapValues] at hpos ⊢
  exact h key edge hedge hkind hpos

/-- Deriving the counts of the named edges leaves only the others to account for. -/
theorem deriveCounts_counts
    (h : ∀ key edge, db.edges.find? key = some edge → key.kind = kContainsEdgeKind →
      (∀ entry ∈ relations, entry.2 ≠ edge.id) → 0 < db.routes edge.id →
      edge.count = db.routes edge.id) : CountsRoutes (deriveCounts relations db) := by
  intro key edge hedge hkind hpos
  have hroutes : ∀ id, (deriveCounts relations db).routes id = db.routes id := fun _ => rfl
  simp only [deriveCounts, EdgeTable.find?_setCountWhere, map_eq_some_iff] at hedge
  obtain ⟨stored, hstored, hset⟩ := hedge
  have hid : edge.id = stored.id := by
    rw [← hset]
    split <;> rfl
  rw [hid] at hpos ⊢
  rw [← hset]
  split
  · rfl
  · rename_i hnot
    apply h key stored hstored hkind _ hpos
    intro entry hentry hid
    apply hnot
    simp only [hkind, decide_true, Bool.true_and, Bool.and_eq_true, List.any_eq_true, decide_eq_true_eq]
    exact ⟨⟨entry, hentry, hid⟩, hpos⟩

/-- `publish_applicability` keeps the counts, when every edge that no relation names either keeps
all its routes, loses all of them, or goes with one of its ends. -/
theorem publishApplicability_counts (hconfig : 0 ≤ p.configurationId)
    (hedges : ∀ key edge, db.edges.find? key = some edge → key.kind = kContainsEdgeKind →
      (∀ entry ∈ relations, entry.2 ≠ edge.id) →
      (0 < db.routes edge.id → edge.count = db.routes edge.id) ∧
      (p.touches db.applicability .edge edge.id = true → p.shares db.applicability .edge edge.id = true →
        p.drops map db.applicability key.srcId = true ∨ p.drops map db.applicability key.dstId = true)) :
    CountsRoutes (p.publishApplicability map relations db) := by
  have hconfigured : ¬ p.configurationId < 0 := by omega
  simp only [publishApplicability, hconfigured, if_false]
  apply normaliseGenerations_counts
  apply deriveCounts_counts
  intro key edge hedge hkind hunnamed hpos
  have hsilent : Silent (p.publishedFacts map relations) .edge edge.id :=
    silent_publishedFacts_edge hunnamed
  simp only [routes, countKeys_publishFacts (silent_diagnosticFacts _)] at hpos ⊢
  by_cases hstale : p.hasStale (p.generation db.applicability)
      (p.publishFacts (p.generation db.applicability) (p.publishedFacts map relations)
        db.applicability) = true
  · simp only [hstale, if_true] at hedge hpos ⊢
    obtain ⟨hstored, hlive, hsrc, hdst⟩ := removeStale_edge hedge
    obtain ⟨hcount, hdrops⟩ := hedges key edge hstored hkind hunnamed
    -- the edge is still there, so none of its routes is a planned file's
    have htouches : p.touches db.applicability .edge edge.id = false := by
      by_contra htouched
      rw [Bool.not_eq_false] at htouched
      cases hshares : p.shares db.applicability .edge edge.id with
      | false =>
        rw [onlyStale_publishFacts hsilent htouched hshares] at hlive
        exact absurd hlive (by simp)
      | true =>
        rcases hdrops htouched hshares with hdrop | hdrop
        · rw [onlyStale_of_drops hdrop] at hsrc
          exact absurd hsrc (by simp)
        · rw [onlyStale_of_drops hdrop] at hdst
          exact absurd hdst (by simp)
    change 0 < routes _ edge.id at hpos
    change edge.count = (routes _ edge.id : ℕ)
    rw [routes_removeStale rfl hsilent htouches] at hpos ⊢
    exact hcount hpos
  · simp only [hstale, Bool.false_eq_true, if_false] at hedge hpos ⊢
    obtain ⟨hcount, -⟩ := hedges key edge hedge hkind hunnamed
    rw [countKeys_publishFacts hsilent] at hpos ⊢
    exact hcount hpos

theorem find?_applyRelations
    (h : p.names map key = false) : (p.applyRelations map edges).find? key = edges.find? key := by
  have hkeys : ∀ relation ∈ keepLast (p.resolvedRelations map), key ≠ relation.1 := by
    rintro relation hrelation rfl
    have hresolved := (keepLast_sublist _).subset hrelation
    simp only [resolvedRelations, mem_filterMap, map_eq_some_iff] at hresolved
    obtain ⟨staged, hstaged, _, hkey, rfl⟩ := hresolved
    simp only [names, List.any_eq_false, decide_eq_true_eq] at h
    exact h staged hstaged hkey
  unfold applyRelations
  generalize keepLast (p.resolvedRelations map) = relations at hkeys ⊢
  induction relations generalizing edges with
  | nil => rfl
  | cons relation _ ih =>
    rw [foldl_cons, ih fun other hother => hkeys other (mem_cons_of_mem _ hother),
      EdgeTable.find?_upsert, if_neg (hkeys relation mem_cons_self)]

theorem relationMap_of_names (hnames : p.names map key = true) (hedge : edges.find? key = some edge) :
    ∃ entry ∈ p.relationMap map edges, entry.2 = edge.id := by
  simp only [names, List.any_eq_true, decide_eq_true_eq] at hnames
  obtain ⟨relation, hrelation, hkey⟩ := hnames
  refine ⟨(relation, edge.id), ?_, rfl⟩
  exact mem_filterMap.mpr ⟨relation, hrelation, by simp [hkey, hedge]⟩

theorem find?_applyLifecycleCleanup (hkind : key.kind = kContainsEdgeKind) :
    (p.applyLifecycleCleanup db).edges.find? key = db.edges.find? key := by
  cases hedge : db.edges.find? key <;> simp [applyLifecycleCleanup, hkind, hedge]

/-- One publication keeps the counts of a database it accounts for. -/
theorem applyInTransaction_counts {db' : Database} (hcounts : CountsRoutes db)
    (haccounts : Accounts db p) (h : p.applyInTransaction db = .ok db') : CountsRoutes db' := by
  simp only [applyInTransaction] at h
  split at h
  · exact absurd h (by simp)
  · cases h
    apply publishApplicability_counts haccounts.1
    intro key edge hedge hkind hunnamed
    have hnames : p.names (p.symbolMap db) key = false := by
      by_contra hnamed
      obtain ⟨entry, hentry, hid⟩ := relationMap_of_names (by simpa using hnamed) hedge
      exact hunnamed entry hentry hid
    have hstored : db.edges.find? key = some edge := by
      rw [← find?_applyLifecycleCleanup (p := p) hkind, ← find?_applyRelations hnames]
      exact hedge
    refine ⟨hcounts key edge hstored hkind, ?_⟩
    intro htouches hshares
    have hentry := (find?_eq_some_iff _ _ _).mp hstored
    have hnamed := haccounts.2 _ hentry hkind htouches hshares
    rw [hnames] at hnamed
    exact hnamed.resolve_left (by simp)

end Publication

/-- In every run whose publications each account for the containment edges they share, every
containment edge that some file states counts the files that state it. -/
theorem containment_counts_are_routes {db : Database}
    (h : factBatchWriter.ReachableWithin Publication.Accounts db) : CountsRoutes db := by
  refine h.invariant ?_ ?_
  · intro _ _ hedge
    exact absurd hedge (by simp [factBatchWriter, Database.empty])
  · intro before p _ hcounts haccounts hstep
    simp only [factBatchWriter] at hstep
    cases happly : p.applyInTransaction before with
    | error =>
      rw [happly] at hstep
      exact absurd hstep (by simp [Except.toOption])
    | ok =>
      rw [happly] at hstep
      simp only [Except.toOption, some.injEq] at hstep
      exact hstep ▸ Publication.applyInTransaction_counts hcounts haccounts happly

/-- A header that declares a function `f` of a namespace `n`. -/
def declaresMember (fileId : ℕ) : Publication where
  configurationId := 1
  files := [⟨1, fileId, true⟩]
  symbols := [⟨2, 1, 1, "u:n", "n", 1, 0⟩, ⟨3, 1, 1, "u:f", "f", 2, 0⟩]
  relations := [⟨1, 2, 3, kContainsEdgeKind, 1⟩]
  derived := [(.declSite, 2 * fileId - 1, fileId), (.declSite, 2 * fileId, fileId)]
  registered := [fileId]

/-- The same header when it reopens the namespace and no longer declares the function. -/
def declaresNothing (fileId : ℕ) : Publication where
  configurationId := 1
  files := [⟨1, fileId, true⟩]
  symbols := [⟨2, 1, 1, "u:n", "n", 1, 0⟩]
  derived := [(.declSite, 2 * fileId - 1, fileId)]
  registered := [fileId]

theorem containment_counts_are_routes_twoFiles :
    ∃ db, factBatchWriter.ReachableWithin Publication.Accounts db ∧ CountsRoutes db ∧
      db.edges.find? ⟨1, 2, kContainsEdgeKind⟩ = some ⟨1, 2⟩ ∧ db.routes 1 = 2 := by
  have hreach : factBatchWriter.ReachableWithin Publication.Accounts _ :=
    Transition.System.reachableWithin_of_playWithin .init
      [declaresMember 1, declaresMember 2, declaresMember 1] rfl
  exact ⟨_, hreach, containment_counts_are_routes hreach, by decide, by decide⟩

/-- A file that no longer declares the member takes its route away and leaves the count. -/
theorem containment_count_outlives_route : ¬ ∀ db, factBatchWriter.Reachable db → CountsRoutes db := by
  intro h
  have hreach : factBatchWriter.Reachable _ := Transition.System.reachable_of_play .init
    [declaresMember 1, declaresMember 2, declaresNothing 1] rfl
  have hcount := h _ hreach ⟨1, 2, kContainsEdgeKind⟩ ⟨1, 2⟩ (by decide) rfl (by decide)
  exact absurd hcount (by decide)

end CppIndexer.Storage
