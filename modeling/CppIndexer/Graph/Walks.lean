/-
# Walks and shortest paths

`GraphQuery::walk` and `GraphQuery::reaches` follow the edges that `GraphQuery::edges` lists at a node,
and that list is cut before edges of different kinds between the same symbols are merged. A walk below
its cap, and a search for a path, therefore see the graph of the listed edges: what they return is right
for the index exactly if every symbol within reach has a shortest path of listed edges.
-/

import Mathlib.Data.Set.Card
import CppIndexer.Graph.GraphReads

namespace CppIndexer.Graph

open Query BreadthFirst GraphQuery List

/-! ## The graph of the index -/

/-- A kind filter admits the kinds it names; without names it admits all. -/
def AdmitsKind (kinds : Option (List String)) (kind : ℤ) : Prop :=
  kinds.getD [] = [] ∨ ∃ name ∈ kinds.getD [], edgeKind? name = some kind

/-- One hop in a direction along an edge of an admitted kind. -/
def Hop (idx : Index) (kinds : Option (List String)) (direction : String) (first last : ℤ) : Prop :=
  ∃ edge ∈ idx.db.edges, AdmitsKind kinds edge.kind ∧ nearEnd direction edge = first ∧
    farEnd direction edge = last

def IsSymbol (idx : Index) (id : ℤ) : Prop := id ∈ idx.db.symbols.map (·.id)

/-- A path of at most so many hops leads from a symbol to another one. -/
def WithinHops (idx : Index) (kinds : Option (List String)) (direction : String) (depth first last : ℤ) :
    Prop :=
  IsSymbol idx first ∧ ∃ n : ℕ, (n : ℤ) ≤ depth ∧ Hops (Hop idx kinds direction) first n last

/-- A traversal that has exactly the nodes within some hops of its start, with their distances, and for
each of them a predecessor one level nearer. -/
structure CompleteTraversal (idx : Index) (kinds : Option (List String)) (direction : String)
    (start depth : ℤ) (traversal : Traversal) : Prop where
  nodes : ∀ id, id ∈ traversal.map (·.item.id) ↔ WithinHops idx kinds direction depth start id
  depths : ∀ visit ∈ traversal, IsAway (Hop idx kinds direction) start visit.depth visit.item.id
  parents : ∀ visit ∈ traversal, visit.item.id ≠ start → ∃ parent, visit.parent = some parent ∧
    Hop idx kinds direction parent visit.item.id ∧
      ∃ n, IsAway (Hop idx kinds direction) start n parent ∧ visit.depth = n + 1

/-- A result that is a shortest path of at most so many hops if there is a path that short. -/
structure ShortestPath (idx : Index) (kinds : Option (List String)) (direction : String)
    (first last depth : ℤ) (result : Option (List SymbolRow)) : Prop where
  sound : ∀ path, result = some path →
    IsPath (Hop idx kinds direction) first last (path.map (·.id)) ∧
      ∃ n : ℕ, path.length = n + 1 ∧ (n : ℤ) ≤ depth ∧ IsAway (Hop idx kinds direction) first n last
  complete : WithinHops idx kinds direction depth first last → result.isSome = true

/-! ## The graph of the listed edges -/

/-- One hop along an edge that `edges` lists with a limit. -/
def ListedHop (idx : Index) (paths : FilePaths idx) (kinds : Option (List String)) (direction : String)
    (limit first last : ℤ) : Prop :=
  limit ≠ 0 ∧ ∃ ids candidates, kindIds kinds = .ok ids ∧
    adapterPeerIds idx paths first direction ids = .ok candidates ∧
    ∃ edge ∈ listedEdges idx first direction ids candidates limit, farEnd direction edge = last

section

variable {idx : Index} {paths : FilePaths idx} {kinds : Option (List String)} {direction : String}
  {limit : ℤ} {ids : Option (List ℤ)} {traversal : Traversal} {n : ℕ}
  {startId first last depth maxNodes : ℤ}

theorem admitsKind_iff (h : kindIds kinds = .ok ids) (kind : ℤ) :
    AdmitsKind kinds kind ↔ (ids.all fun ids => kind ∈ ids) = true := by
  cases kinds with
  | none =>
    cases h
    simp [AdmitsKind]
  | some names =>
    obtain ⟨out, hout, h⟩ := ok_of_bind h
    cases h
    have hkinds : List.Forall₂ (fun name id => edgeKind? name = some id) names out := by
      refine (Except.mapM_eq_ok.mp hout).imp fun name id hid => ?_
      cases hfound : edgeKind? name with
      | none =>
        rw [hfound] at hid
        cases hid
      | some =>
        rw [hfound] at hid
        cases hid
        rfl
    obtain ⟨hempty, hmem⟩ : (out = [] ↔ names = []) ∧
        (kind ∈ out ↔ ∃ name ∈ names, edgeKind? name = some kind) := by
      clear h hout
      induction hkinds with
      | nil => simp
      | cons hkind _ ih => simp [ih.2, hkind, eq_comm]
    unfold AdmitsKind
    by_cases hnames : names = []
    · simp [hnames, hempty.mpr hnames]
    · simp [hnames, mt hempty.mp hnames, hmem]

theorem Hop.of_listed (h : ListedHop idx paths kinds direction limit first last) :
    Hop idx kinds direction first last := by
  obtain ⟨_, _, _, hids, _, edge, hedge, hfar⟩ := h
  have hlisted := mem_filter.mp (mem_of_mem_upTo hedge)
  have hfirst := mem_of_mem_take (mem_byCount.mp hlisted.1)
  obtain ⟨hmem, hnear⟩ := mem_filter.mp hfirst
  refine ⟨edge, hmem, (admitsKind_iff hids edge.kind).mpr ?_, of_decide_eq_true hnear, hfar⟩
  exact (Bool.and_eq_true_iff.mp hlisted.2).2

/-- What the edges of a node lead to. -/
theorem finds_iff (hids : kindIds kinds = .ok ids) : Finds (fun row : SymbolRow => row.id)
        (fun node => (edges idx paths node direction ids limit).map
          (List.map fun edge : Edge => edge.peer)) first last ↔
      ListedHop idx paths kinds direction limit first last := by
  have hmap : ∀ found : List Edge, (found.map fun edge : Edge => edge.peer).map (fun row => row.id) =
      found.map fun edge => edge.peer.id := fun found => map_map
  constructor
  · intro h
    obtain ⟨_, hrows, hlast⟩ := h
    obtain ⟨found, hfound, rfl⟩ := map_eq_ok.mp hrows
    rw [hmap] at hlast
    have hne : found ≠ [] := by
      intro hempty
      rw [hempty] at hlast
      cases hlast
    obtain ⟨hlimit, candidates, hcandidates⟩ := candidates_of_edges hfound hne
    obtain ⟨_, hother, hpeers⟩ := edges_eq hlimit hcandidates
    rw [hfound] at hother
    cases hother
    rw [hpeers] at hlast
    exact ⟨hlimit, ids, candidates, hids, hcandidates, mem_map.mp hlast⟩
  · intro h
    obtain ⟨hlimit, _, _, hother, hcandidates, hlast⟩ := h
    rw [hids] at hother
    cases hother
    obtain ⟨found, hfound, hpeers⟩ := edges_eq hlimit hcandidates
    refine ⟨_, map_eq_ok.mpr ⟨found, hfound, rfl⟩, ?_⟩
    rw [hmap, hpeers]
    exact mem_map.mpr hlast

theorem IsSymbol.of_hop (h : Hop idx kinds direction first last) : IsSymbol idx last := by
  obtain ⟨edge, hedge, _, _, rfl⟩ := h
  have hclosed := idx.db.edges_closed edge hedge
  unfold farEnd
  split
  · exact hclosed.1
  · exact hclosed.2

theorem IsSymbol.of_hops (hfirst : IsSymbol idx first)
    (h : Hops (Hop idx kinds direction) first n last) : IsSymbol idx last := by
  cases n with
  | zero =>
    rw [show last = first from h]
    exact hfirst
  | succ =>
    obtain ⟨_, _, hlast⟩ := h
    exact IsSymbol.of_hop hlast

theorem isSymbol_iff {id : ℤ} : IsSymbol idx id ↔ ∃ row, symbolById idx id = some row := by
  rw [← Option.isSome_iff_exists]
  exact isSome_symbolById.symm

/-- Listed hops lead as far as the hops of the index wherever they have a path that is as short. -/
theorem isAway_of_listed {depth : ℕ}
    (h : IsAway (ListedHop idx paths kinds direction limit) first n last) (hn : n ≤ depth)
    (hkeeps : ∀ id (m : ℕ), m ≤ depth → Hops (Hop idx kinds direction) first m id →
      ∃ k ≤ m, Hops (ListedHop idx paths kinds direction limit) first k id) :
    IsAway (Hop idx kinds direction) first n last :=
  h.of_finds (fun _ _ => Hop.of_listed) fun m hm hhops => hkeeps last m (hm.le.trans hn) hhops

/-! ## Walks -/

/-- What the search of a walk comes to. -/
theorem outcome_walk (h : walk idx paths startId kinds direction depth maxNodes = .ok traversal)
    (hstart : IsSymbol idx startId) :
    ∃ next : ℤ → Except GraphError (List SymbolRow), ∃ stopped : Bool, ∃ fresh : List ℤ,
      Finds (fun row : SymbolRow => row.id) next = ListedHop idx paths kinds direction maxNodes ∧
      Outcome (fun row : SymbolRow => row.id) next (fun count _ => decide (maxNodes ≤ count)) startId
        depth.toNat ⟨traversal, fresh, stopped⟩ := by
  obtain ⟨_, hrow⟩ := isSymbol_iff.mp hstart
  obtain ⟨_, rfl⟩ := symbolById_eq_some.mp hrow
  unfold walk at h
  rw [getById_eq, hrow] at h
  have hrest : (kindIds kinds >>= _) = .ok traversal := h
  obtain ⟨_, hids, hrest⟩ := ok_of_bind hrest
  obtain ⟨progress, hprogress, hrest⟩ := ok_of_bind hrest
  cases hrest
  refine ⟨_, progress.stopped, progress.fresh, ?_, outcome_search hprogress⟩
  funext first last
  exact propext (finds_iff hids)

/-- The condition for a walk: it comes to its cap along listed edges, or every symbol within its depth
has a shortest path of listed edges. -/
def WalkListed (idx : Index) (paths : FilePaths idx) (kinds : Option (List String)) (direction : String)
    (start depth maxNodes : ℤ) : Prop :=
  IsSymbol idx start →
    maxNodes ≤ ({id | ∃ n ≤ depth.toNat,
      Hops (ListedHop idx paths kinds direction maxNodes) start n id} : Set ℤ).ncard ∨
    0 ≤ depth ∧ ∀ id (n : ℕ), (n : ℤ) ≤ depth → Hops (Hop idx kinds direction) start n id →
      ∃ m ≤ n, Hops (ListedHop idx paths kinds direction maxNodes) start m id

/-- The nodes a walk returns, of which listed edges lead to no others unless it has stopped. -/
theorem length_walk
    {next : ℤ → Except GraphError (List SymbolRow)} {stopped : Bool} {fresh : List ℤ}
    (hfinds : Finds (fun row : SymbolRow => row.id) next = ListedHop idx paths kinds direction maxNodes)
    (hstart : IsSymbol idx startId)
    (h : Outcome (fun row : SymbolRow => row.id) next (fun count _ => decide (maxNodes ≤ count)) startId
      depth.toNat ⟨traversal, fresh, stopped⟩) :
    let listed : Set ℤ := {id | ∃ n ≤ depth.toNat,
      Hops (ListedHop idx paths kinds direction maxNodes) startId n id}
    traversal.length ≤ listed.ncard ∧ (stopped = false → traversal.length = listed.ncard) := by
  intro listed
  have hfinite : listed.Finite := by
    apply (idx.db.symbols.map (·.id)).finite_toSet.subset
    intro _ hid
    obtain ⟨_, _, hhops⟩ := hid
    exact hstart.of_hops (hhops.mono fun _ _ => Hop.of_listed)
  have hlength : ({id | id ∈ keysOf (fun row : SymbolRow => row.id) traversal} : Set ℤ).ncard =
      traversal.length := by
    have hset : ({id | id ∈ keysOf (fun row : SymbolRow => row.id) traversal} : Set ℤ) =
        ((keysOf (fun row : SymbolRow => row.id) traversal).toFinset : Set ℤ) := by
      ext id
      simp
    rw [hset, Set.ncard_coe_finset, toFinset_card_of_nodup h.nodup, keysOf, length_map]
  rw [← hlength]
  constructor
  · apply Set.ncard_le_ncard _ hfinite
    intro _ hid
    obtain ⟨visit, hvisit, rfl⟩ := mem_keysOf.mp hid
    have haway := (h.away visit hvisit).1
    rw [hfinds] at haway
    exact ⟨visit.depth, h.within visit hvisit, haway⟩
  · intro hgoing
    congr 1
    ext id
    rw [Set.mem_ofPred_eq, h.mem_iff hgoing, hfinds]
    rfl

section Outcome

variable {startId depth maxNodes : ℤ} {traversal : Traversal}
  {next : ℤ → Except GraphError (List SymbolRow)} {fresh : List ℤ}

section

variable (hfinds : Finds (fun row : SymbolRow => row.id) next = ListedHop idx paths kinds direction maxNodes)
include hfinds

/-- A search that has not stopped is complete where listed hops lead as far as hops. -/
theorem complete_of_listed (hstart : IsSymbol idx startId)
    (h : Outcome (fun row : SymbolRow => row.id) next (fun count _ => decide (maxNodes ≤ count)) startId
      depth.toNat ⟨traversal, fresh, false⟩) (hdepth : 0 ≤ depth)
    (hkeeps : ∀ id (n : ℕ), (n : ℤ) ≤ depth → Hops (Hop idx kinds direction) startId n id →
      ∃ m ≤ n, Hops (ListedHop idx paths kinds direction maxNodes) startId m id) :
    CompleteTraversal idx kinds direction startId depth traversal := by
  have haway : ∀ visit ∈ traversal,
      IsAway (Hop idx kinds direction) startId visit.depth visit.item.id := by
    intro visit hvisit
    have haway := h.away visit hvisit
    rw [hfinds] at haway
    apply isAway_of_listed haway (h.within visit hvisit)
    intro id m _ hhops
    exact hkeeps id m (by omega) hhops
  refine ⟨?_, haway, ?_⟩
  · intro id
    constructor
    · intro hid
      obtain ⟨visit, hvisit, rfl⟩ := mem_map.mp hid
      have hwithin := h.within visit hvisit
      exact ⟨hstart, visit.depth, by omega, (haway visit hvisit).1⟩
    · intro hid
      obtain ⟨_, n, hn, hhops⟩ := hid
      obtain ⟨m, _, hlisted⟩ := hkeeps id n hn hhops
      apply (h.mem_iff rfl).mpr
      rw [hfinds]
      exact ⟨m, by omega, hlisted⟩
  · intro visit hvisit hother
    cases hparent : visit.parent with
    | none =>
      have hzero := haway visit hvisit
      rw [h.root visit hvisit hparent] at hzero
      exact absurd hzero.1 hother
    | some parent =>
      obtain ⟨hfound, above, habove, rfl, hlevel⟩ := h.parent visit hvisit parent hparent
      rw [hfinds] at hfound
      exact ⟨_, rfl, Hop.of_listed hfound, above.depth, haway above habove, hlevel.symm⟩

/-- Where a search that has not stopped is complete, listed hops lead as far as hops. -/
theorem listed_of_complete
    (h : Outcome (fun row : SymbolRow => row.id) next (fun count _ => decide (maxNodes ≤ count)) startId
      depth.toNat ⟨traversal, fresh, false⟩) (hstart : IsSymbol idx startId)
    (hcomplete : CompleteTraversal idx kinds direction startId depth traversal) :
    0 ≤ depth ∧ ∀ id (n : ℕ), (n : ℤ) ≤ depth → Hops (Hop idx kinds direction) startId n id →
      ∃ m ≤ n, Hops (ListedHop idx paths kinds direction maxNodes) startId m id := by
  constructor
  · have hmem := h.complete rfl 0 (Nat.zero_le _) startId IsAway.zero
    obtain ⟨_, _⟩ := (hcomplete.nodes startId).mp hmem
    omega
  · intro id n hn hhops
    obtain ⟨visit, hvisit, rfl⟩ := mem_map.mp ((hcomplete.nodes id).mpr ⟨hstart, n, hn, hhops⟩)
    have haway := (h.away visit hvisit).1
    rw [hfinds] at haway
    exact ⟨visit.depth, (hcomplete.depths visit hvisit).le hhops, haway⟩

end

end Outcome

/-- A walk below its cap is complete exactly under its condition. -/
theorem completeTraversal_iff {startId depth maxNodes : ℤ} {traversal : Traversal}
    (h : walk idx paths startId kinds direction depth maxNodes = .ok traversal) :
    (traversal.length < maxNodes → CompleteTraversal idx kinds direction startId depth traversal) ↔
      WalkListed idx paths kinds direction startId depth maxNodes := by
  by_cases hstart : IsSymbol idx startId
  · obtain ⟨_, stopped, _, hfinds, houtcome⟩ := outcome_walk h hstart
    obtain ⟨_, heq⟩ := length_walk hfinds hstart houtcome
    by_cases hcap : maxNodes ≤ traversal.length
    · constructor
      · intro _ _
        apply Or.inl
        omega
      · intro _ _
        omega
    · have hgoing : stopped = false := by
        cases hstopped : stopped with
        | false => rfl
        | true =>
          obtain ⟨_, _, hstop⟩ := houtcome.stopped hstopped
          exact absurd (of_decide_eq_true hstop) hcap
      have hlength := heq hgoing
      subst hgoing
      constructor
      · intro hcomplete _
        exact Or.inr (listed_of_complete hfinds houtcome hstart (hcomplete (not_le.mp hcap)))
      · intro hlisted _
        obtain _ | ⟨hdepth, hkeeps⟩ := hlisted hstart
        · omega
        · exact complete_of_listed hfinds hstart houtcome hdepth hkeeps
  · constructor
    · exact fun _ hsymbol => absurd hsymbol hstart
    · intro _ _
      have hnone : symbolById idx startId = none := by
        by_contra hsome
        exact hstart (isSymbol_iff.mpr (Option.ne_none_iff_exists'.mp hsome))
      unfold walk at h
      rw [getById_eq, hnone] at h
      cases h
      refine ⟨?_, ?_, ?_⟩
      · intro _
        simp only [map_nil, not_mem_nil, false_iff]
        exact fun hwithin => hstart hwithin.1
      · intro _ hvisit
        cases hvisit
      · intro _ hvisit
        cases hvisit

/-! ## Paths -/

/-- The condition for a path: if there is one of at most so many hops, then there is a shortest one of
listed edges; and the limit is not negative where source and target are the same. -/
def PathListed (idx : Index) (paths : FilePaths idx) (kinds : Option (List String)) (direction : String)
    (first last depth : ℤ) : Prop :=
  IsSymbol idx first → IsSymbol idx last → (first = last → 0 ≤ depth) ∧
    ∀ n : ℕ, (n : ℤ) ≤ depth → Hops (Hop idx kinds direction) first n last →
      ∃ m ≤ n, Hops (ListedHop idx paths kinds direction 500) first m last

/-- The path is read back symbol by symbol. -/
theorem symbols_of_path {s t : SymbolRow} {chain : List ℤ} {found : List (Option SymbolRow)} (hchain : ∀ id ∈ chain, IsSymbol idx id)
    (hfound : chain.mapM (fun id => if id = s.id then pure (some s) else
      if id = t.id then pure (some t) else getById idx paths id) = .ok found) :
    (found.filterMap id).map (·.id) = chain := by
  induction chain generalizing found with
  | nil =>
    cases hfound
    rfl
  | cons node rest ih =>
    rw [mapM_cons] at hfound
    obtain ⟨row, hrow, hfound⟩ := ok_of_bind hfound
    obtain ⟨others, hothers, hfound⟩ := ok_of_bind hfound
    cases hfound
    have hrest := ih (fun id hid => hchain id (mem_cons_of_mem _ hid)) hothers
    have hsome : ∃ symbol, row = some symbol ∧ symbol.id = node := by
      by_cases hfirst : node = s.id
      · rw [if_pos hfirst] at hrow
        cases hrow
        exact ⟨s, rfl, hfirst.symm⟩
      · rw [if_neg hfirst] at hrow
        by_cases hlast : node = t.id
        · rw [if_pos hlast] at hrow
          cases hrow
          exact ⟨t, rfl, hlast.symm⟩
        · rw [if_neg hlast, getById_eq] at hrow
          obtain ⟨symbol, hsymbol⟩ := isSymbol_iff.mp (hchain node mem_cons_self)
          cases hrow
          exact ⟨symbol, hsymbol, (symbolById_eq_some.mp hsymbol).2⟩
    obtain ⟨symbol, rfl, hid⟩ := hsome
    show symbol.id :: (others.filterMap id).map (·.id) = node :: rest
    rw [hrest, hid]

variable {result : Option (List SymbolRow)} {dstId maxDepth srcId : ℤ}

/-- What the search for a path comes to. -/
theorem outcome_reaches (h : reaches idx paths srcId dstId kinds direction maxDepth = .ok result)
    (hsrc : IsSymbol idx srcId) (hdst : IsSymbol idx dstId) (hne : srcId ≠ dstId) :
    ∃ next : ℤ → Except GraphError (List SymbolRow), ∃ progress,
      Finds (fun row : SymbolRow => row.id) next = ListedHop idx paths kinds direction 500 ∧
      Outcome (fun row : SymbolRow => row.id) next (fun _ node => decide (node = dstId)) srcId
        maxDepth.toNat progress ∧ if progress.stopped then ∃ path, result = some path ∧
          ((∀ id ∈ parents (fun row : SymbolRow => row.id) progress.seen maxDepth.toNat dstId,
            IsSymbol idx id) → path.map (·.id) =
              (parents (fun row : SymbolRow => row.id) progress.seen maxDepth.toNat dstId).reverse)
      else result = none := by
  obtain ⟨s, hs⟩ := isSymbol_iff.mp hsrc
  obtain ⟨t, ht⟩ := isSymbol_iff.mp hdst
  obtain ⟨hsmem, rfl⟩ := symbolById_eq_some.mp hs
  obtain ⟨htmem, rfl⟩ := symbolById_eq_some.mp ht
  unfold reaches at h
  rw [getById_eq, getById_eq, hs, ht] at h
  simp only [bind, Except.bind, hne, if_false] at h
  cases hids : kindIds kinds with
  | error =>
    rw [hids] at h
    cases h
  | ok ids =>
    rw [hids] at h
    dsimp only at h
    split at h
    · cases h
    · rename_i progress hprogress
      refine ⟨_, progress, ?_, outcome_search hprogress, ?_⟩
      · funext first last
        have hpeers : (fun node => peers idx paths node kinds direction 500) = fun node =>
            (edges idx paths node direction ids 500).map (List.map fun edge : Edge => edge.peer) := by
          funext node
          unfold peers
          rw [hids]
          show (edges idx paths node direction ids 500 >>= _) = _
          cases edges idx paths node direction ids 500 with
          | error => rfl
          | ok => rfl
        rw [hpeers]
        exact propext (finds_iff hids)
      · split
        · rename_i hstopped
          rw [if_pos hstopped] at h
          split at h
          · cases h
          · rename_i found hfound
            cases h
            refine ⟨_, rfl, ?_⟩
            intro hsymbols
            exact symbols_of_path (fun id hid => hsymbols id (mem_reverse.mp hid))
              hfound
        · rename_i hstopped
          rw [if_neg hstopped] at h
          cases h
          rfl

theorem IsSymbol.of_path {first last : ℤ} {path : List ℤ} (hfirst : IsSymbol idx first)
    (h : IsPath (Hop idx kinds direction) first last path) : ∀ id ∈ path, IsSymbol idx id := by
  have hchain : ∀ {rest : List ℤ} {node : ℤ}, IsSymbol idx node →
      (node :: rest).IsChain (Hop idx kinds direction) → ∀ id ∈ node :: rest, IsSymbol idx id := by
    intro rest
    induction rest with
    | nil =>
      intro _ hnode _ _ hid
      rw [mem_singleton.mp hid]
      exact hnode
    | cons _ _ ih =>
      intro _ hnode hhops id hid
      rw [isChain_cons_cons] at hhops
      rcases mem_cons.mp hid with rfl | hid
      · exact hnode
      · exact ih (IsSymbol.of_hop hhops.1) hhops.2 id hid
  cases path with
  | nil => cases h.first
  | cons node =>
    have hnode : node = first := by simpa using h.first
    exact hchain (hnode ▸ hfirst) h.hops

/-- A search for a path finds a shortest one exactly under its condition. -/
theorem shortestPath_iff (h : reaches idx paths srcId dstId kinds direction maxDepth = .ok result) :
    ShortestPath idx kinds direction srcId dstId maxDepth result ↔
      PathListed idx paths kinds direction srcId dstId maxDepth := by
  by_cases hsymbols : IsSymbol idx srcId ∧ IsSymbol idx dstId
  · obtain ⟨hsrc, hdst⟩ := hsymbols
    by_cases hsame : srcId = dstId
    · subst hsame
      obtain ⟨s, hs⟩ := isSymbol_iff.mp hsrc
      have hid := (symbolById_eq_some.mp hs).2
      unfold reaches at h
      rw [getById_eq, hs] at h
      have hresult : some [s] = result := by
        simp only [bind, Except.bind] at h
        cases h
        rfl
      subst hresult
      constructor
      · intro hpath _ _
        obtain ⟨_, n, _⟩ := hpath.sound [s] rfl
        exact ⟨fun _ => by omega, fun n _ _ => ⟨0, Nat.zero_le _, rfl⟩⟩
      · intro hlisted
        refine ⟨?_, fun _ => rfl⟩
        intro _ hpath
        cases hpath
        have hdepth := (hlisted hsrc hdst).1 rfl
        refine ⟨?_, 0, rfl, by omega, IsAway.zero⟩
        rw [map_singleton, hid]
        exact IsPath.single
    · obtain ⟨_, progress, hfinds, houtcome, hresult⟩ := outcome_reaches h hsrc hdst hsame
      by_cases hstopped : progress.stopped = true
      · rw [if_pos hstopped] at hresult
        obtain ⟨path, rfl, hpath⟩ := hresult
        obtain ⟨visit, hvisit, hkey⟩ := houtcome.stopped hstopped
        have hkey := of_decide_eq_true hkey
        have hwithin := houtcome.within visit hvisit
        have haway := houtcome.away visit hvisit
        obtain ⟨hback, hlength⟩ := houtcome.parents hvisit hwithin
        rw [hkey] at haway hback hlength
        rw [hfinds] at haway hback
        have hhops := hback.mono fun _ _ => Hop.of_listed
        have hids := hpath fun id hid => hsrc.of_path hhops id (mem_reverse.mpr hid)
        have hcount : path.length = visit.depth + 1 := by
          have hmap : (path.map (·.id)).length = path.length := length_map _
          rw [← hlength, ← hmap, hids, length_reverse]
        have hpositive : visit.depth ≠ 0 := by
          intro hzero
          rw [hzero] at haway
          exact hsame haway.1.symm
        constructor
        · intro hshort _ _
          refine ⟨fun heq => absurd heq hsame, ?_⟩
          intro _ _ hothers
          obtain ⟨_, _, _, _, hnearest⟩ := hshort.sound path rfl
          have hle := hnearest.le hothers
          exact ⟨visit.depth, by omega, haway.1⟩
        · intro hlisted
          obtain ⟨_, hkeeps⟩ := hlisted hsrc hdst
          refine ⟨?_, fun _ => rfl⟩
          intro _ hother
          cases hother
          rw [hids]
          refine ⟨hhops, visit.depth, hcount, by omega, ?_⟩
          apply haway.of_finds fun _ _ => Hop.of_listed
          intro m _ hothers
          exact hkeeps m (by omega) hothers
      · rw [if_neg hstopped] at hresult
        subst hresult
        have hgoing := Bool.not_eq_true _ |>.mp hstopped
        -- The target is not among the nodes that have been visited.
        have hnone : ∀ n : ℕ, (n : ℤ) ≤ maxDepth →
            ¬ Hops (ListedHop idx paths kinds direction 500) srcId n dstId := by
          intro n _ hhops
          have hmem := (houtcome.mem_iff hgoing).mpr ⟨n, by omega, by rw [hfinds]; exact hhops⟩
          obtain ⟨visit, hvisit, hkey⟩ := mem_keysOf.mp hmem
          have hparent : visit.parent ≠ none := by
            intro hroot
            have haway := houtcome.away visit hvisit
            rw [houtcome.root visit hvisit hroot, hkey] at haway
            exact hsame haway.1.symm
          obtain ⟨_, hother⟩ := houtcome.going hgoing visit hvisit hparent
          exact of_decide_eq_false hother hkey
        constructor
        · intro hshort _ _
          refine ⟨fun heq => absurd heq hsame, ?_⟩
          intro n hn hhops
          have hsome := hshort.complete ⟨hsrc, n, hn, hhops⟩
          cases hsome
        · intro hlisted
          obtain ⟨_, hkeeps⟩ := hlisted hsrc hdst
          refine ⟨fun path hpath => (by cases hpath), ?_⟩
          intro hwithin
          obtain ⟨_, n, hn, hhops⟩ := hwithin
          obtain ⟨m, _, hfound⟩ := hkeeps n hn hhops
          exact absurd hfound (hnone m (by omega))
  · have hresult : result = none := by
      unfold reaches at h
      rw [getById_eq, getById_eq] at h
      simp only [bind, Except.bind] at h
      split at h
      · rename_i s t hs ht
        exact absurd ⟨isSymbol_iff.mpr ⟨s, hs⟩, isSymbol_iff.mpr ⟨t, ht⟩⟩ hsymbols
      · cases h
        rfl
    subst hresult
    constructor
    · exact fun _ hsrc hdst => absurd ⟨hsrc, hdst⟩ hsymbols
    · intro _
      refine ⟨fun path hpath => (by cases hpath), ?_⟩
      intro hwithin
      obtain ⟨hsrc, _, _, hhops⟩ := hwithin
      exact absurd ⟨hsrc, hsrc.of_hops hhops⟩ hsymbols

/-- A walk below its cap and the search for a path are right for the index exactly where every symbol
within reach has a shortest path of listed edges. -/
theorem walk_and_reaches_iff (idx : Index) (paths : FilePaths idx) (kinds : Option (List String))
    (direction : String) (startId dstId depth maxNodes maxDepth : ℤ) :
    (∀ traversal, walk idx paths startId kinds direction depth maxNodes = .ok traversal →
      ((traversal.length < maxNodes → CompleteTraversal idx kinds direction startId depth traversal) ↔
        WalkListed idx paths kinds direction startId depth maxNodes)) ∧
    ∀ result, reaches idx paths startId dstId kinds direction maxDepth = .ok result →
      (ShortestPath idx kinds direction startId dstId maxDepth result ↔
        PathListed idx paths kinds direction startId dstId maxDepth) :=
  ⟨fun _ => completeTraversal_iff, fun _ => shortestPath_iff⟩

end

/-! ## Parallel edges -/

def namedSymbol (id : ℤ) (usr : String) : SymbolRow :=
  ⟨id, fun column => if column = .usr then some (.text usr) else none⟩

/-- Three edges of different kinds from `1` to `2`, and then one from `1` to `3`. -/
def parallelDb : Db :=
  { symbols := [namedSymbol 1 "a", namedSymbol 2 "b", namedSymbol 3 "c"]
    edges := [⟨1, 1, 2, 1, 1⟩, ⟨2, 1, 2, 2, 1⟩, ⟨3, 1, 2, 3, 1⟩, ⟨4, 1, 3, 4, 1⟩] }

def parallelIndex : Index := .ofDb parallelDb

def parallelPaths : FilePaths parallelIndex := ⟨fun _ => none, fun _ hsite => by cases hsite⟩

/-- The edges of `1` are in the order of the plan. -/
theorem byCount_parallel (n : ℕ) :
    byCount parallelIndex (parallelDb.edges.take n) = parallelDb.edges.take n := by
  apply mergeSort_of_pairwise
  have hall : parallelDb.edges.Pairwise fun x y =>
      (!(cellsLess (edgeOrder.map (parallelIndex.edgeCell y)) (edgeOrder.map (parallelIndex.edgeCell x))).getD
        (decide (parallelIndex.rowId .edge { a := y.id } < parallelIndex.rowId .edge { a := x.id }))) = true := by
    decide +kernel
  exact hall.sublist (take_sublist _ _)

/-- The first edges of `1`, and no edge of the others. -/
theorem edges_parallel {maxNodes : ℤ} (hpositive : 0 < maxNodes) :
    edges parallelIndex parallelPaths 1 "out" none maxNodes =
      .ok (collectEdges parallelIndex "out" none none maxNodes
        ((parallelDb.edges.take maxNodes.toNat).map (plannedEdge parallelIndex)) []) := by
  have hcandidates : adapterPeerIds parallelIndex parallelPaths 1 "out" none = .ok none := by
    have hseed : adapterIds parallelIndex parallelPaths (.mk { kind := .symbol, ref := "a" } []) = .ok [1] := by
      decide +kernel
    have hplan : planFor parallelIndex parallelPaths 1 none "out" 1 1 =
        .ok (.mk { kind := .symbol, ref := "a" } []) := by
      unfold planFor
      rw [getById_eq]
      rfl
    unfold adapterPeerIds
    simp only [hplan, hseed, bind, Except.bind]
    rfl
  rw [edges_of_candidates (by omega) rfl hcandidates (by simp)]
  have henumerated : enumeratedEdges parallelIndex 1 "out" maxNodes =
      parallelDb.edges.take maxNodes.toNat := by
    have hall : parallelIndex.db.edges.filter (fun edge => nearEnd "out" edge = 1) =
        parallelDb.edges := by decide
    rw [enumeratedEdges, hall, if_pos hpositive]
  simp only [Option.isSome_none]
  rw [if_neg (by simp), henumerated, byCount_parallel]

theorem search_one (key : SymbolRow → ℤ) (next : ℤ → Except GraphError (List SymbolRow))
    (stop : ℕ → ℤ → Bool) (start : SymbolRow) {items : List SymbolRow}
    (h : next (key start) = .ok items) : ∃ progress, search key next stop 1 start = .ok progress ∧
      progress.seen = (visitAll key stop 1 (key start) items { seen := [⟨start, 0, none⟩] }).seen := by
  unfold search levels expand
  simp only [h, bind, Except.bind]
  generalize visitAll key stop 1 (key start) items { seen := [⟨start, 0, none⟩] } = progress
  cases hstopped : progress.stopped with
  | true =>
    simp only [hstopped, if_true, true_or, pure, Except.pure]
    exact ⟨progress, rfl, rfl⟩
  | false =>
    simp only [Bool.false_eq_true, if_false, expand, hstopped, false_or]
    split
    · exact ⟨progress, rfl, rfl⟩
    · exact ⟨_, rfl, rfl⟩

/-- A walk of one level from `1`. -/
theorem walk_parallel (maxNodes : ℤ) (hpositive : 0 < maxNodes) (ids : List ℤ)
    (hids : (visitAll (fun row : SymbolRow => row.id) (fun count _ => decide (maxNodes ≤ count)) 1 1
      ((collectEdges parallelIndex "out" none none maxNodes
        ((parallelDb.edges.take maxNodes.toNat).map (plannedEdge parallelIndex)) []).map fun edge => edge.peer)
      { seen := [⟨namedSymbol 1 "a", 0, none⟩] }).seen.map (fun visit => visit.item.id) = ids) :
    ∃ traversal, walk parallelIndex parallelPaths 1 none "out" 1 maxNodes = .ok traversal ∧
      traversal.map (·.item.id) = ids := by
  subst hids
  have hstart : symbolById parallelIndex 1 = some (namedSymbol 1 "a") := rfl
  let found := (collectEdges parallelIndex "out" none none maxNodes
    ((parallelDb.edges.take maxNodes.toNat).map (plannedEdge parallelIndex)) []).map fun edge => edge.peer
  have hnext : (edges parallelIndex parallelPaths 1 "out" none maxNodes).map
      (List.map fun edge : Edge => edge.peer) = .ok found := by
    rw [edges_parallel hpositive]
    rfl
  obtain ⟨progress, hprogress, hseen⟩ := search_one (fun row => row.id)
    (fun node => (edges parallelIndex parallelPaths node "out" none maxNodes).map
      (List.map fun edge : Edge => edge.peer))
    (fun count _ => decide (maxNodes ≤ count)) (namedSymbol 1 "a") hnext
  refine ⟨progress.seen, ?_, by rw [hseen]; rfl⟩
  unfold walk
  rw [getById_eq, hstart]
  simp only [bind, Except.bind, kindIds]
  rw [show (1 : ℤ).toNat = 1 from rfl, hprogress]
  rfl

/-- A walk of at most three nodes loses the other neighbour, although it returns only two. -/
theorem walk_loses_neighbour :
    ¬ ∀ (idx : Index) (paths : FilePaths idx) (kinds : Option (List String)) (direction : String)
      (startId dstId depth maxNodes maxDepth : ℤ),
      (∀ traversal, walk idx paths startId kinds direction depth maxNodes = .ok traversal →
        traversal.length < maxNodes → CompleteTraversal idx kinds direction startId depth traversal) ∧
      ∀ result, reaches idx paths startId dstId kinds direction maxDepth = .ok result →
        ShortestPath idx kinds direction startId dstId maxDepth result := by
  intro h
  obtain ⟨traversal, hwalk, hids⟩ := walk_parallel 3 (by decide) [1, 2]
    (by decide +kernel)
  have hlength : traversal.length = 2 := by
    have hmap : (traversal.map (·.item.id)).length = traversal.length := length_map _
    rw [← hmap, hids]
    rfl
  have hcomplete := (h parallelIndex parallelPaths none "out" 1 3 1 3 1).1 traversal hwalk (by omega)
  have hhop : Hop parallelIndex none "out" 1 3 := ⟨⟨4, 1, 3, 4, 1⟩, by decide, Or.inl rfl, rfl, rfl⟩
  have hstart : IsSymbol parallelIndex 1 := isSymbol_iff.mpr ⟨namedSymbol 1 "a", rfl⟩
  have hmem := (hcomplete.nodes 3).mpr ⟨hstart, 1, by decide, 1, rfl, hhop⟩
  rw [hids] at hmem
  exact absurd hmem (by decide)

/-- With a cap of four nodes the same walk finds both neighbours. -/
theorem walk_and_reaches_iff_parallel :
    ∃ traversal, walk parallelIndex parallelPaths 1 none "out" 1 4 = .ok traversal ∧
      traversal.map (·.item.id) = [1, 2, 3] ∧
      ((traversal.length < (4 : ℤ) → CompleteTraversal parallelIndex none "out" 1 1 traversal) ↔
        WalkListed parallelIndex parallelPaths none "out" 1 1 4) ∧
      reaches parallelIndex parallelPaths 1 7 none "out" 1 = .ok none ∧
      (ShortestPath parallelIndex none "out" 1 7 1 none ↔
        PathListed parallelIndex parallelPaths none "out" 1 7 1) := by
  obtain ⟨traversal, hwalk, hids⟩ := walk_parallel 4 (by decide) [1, 2, 3]
    (by decide +kernel)
  have hreaches : reaches parallelIndex parallelPaths 1 7 none "out" 1 = .ok none := by
    unfold reaches
    rw [getById_eq, getById_eq]
    rfl
  have hiff := walk_and_reaches_iff parallelIndex parallelPaths none "out" 1 7 1 4 1
  exact ⟨traversal, hwalk, hids, hiff.1 traversal hwalk, hreaches, hiff.2 none hreaches⟩

end CppIndexer.Graph
