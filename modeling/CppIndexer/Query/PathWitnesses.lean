/-
# Paths between symbols

`path` searches from every start on its own: level by level, without a visited set, until a level in the
window has a target at the end of a simple walk. Its levels are read once and turned around, and the walks
are rebuilt through them from the start. A budget bounds the rows, another one the descents of all rebuilds,
and a cap the walks that are kept.

What is proved is that a witness is always a simple walk, that without a flag the witnesses of a start are
all its simple walks of the least length, and that a start without a witness has none beyond the window
either.
-/

import CppIndexer.Lib.SimpleWalks
import CppIndexer.Query.WindowTraversal
import CppIndexer.Query.WitnessOrder

namespace CppIndexer.Query

open Least SimpleWalks SortUnique List Exec

/-! ## Simple walks from a start to a target -/

/-- A walk of `n` hops from `start` to a target. No node repeats, but for a start that closes the walk. -/
structure IsWitness (hop : ℤ → ℤ → Prop) (targets : List ℤ) (start : ℤ) (n : ℕ) (chain : List ℤ) : Prop where
  head : chain.head? = some start
  target : ∃ target ∈ targets, chain.getLast? = some target
  hops : chain.IsChain hop
  length : chain.length = n + 1
  simple : chain.dropLast.Nodup
  closes : ∀ last ∈ chain.getLast?, last ∈ chain.dropLast → last = start

variable (idx : Index) (relation : RelationDesc) (inbound : Bool)

def Index.Hop (a b : ℤ) : Prop := Walk idx.db relation.table relation.kindId inbound 1 a b

def nextLevel (frontier : List ℤ) : List ℤ :=
  sortUnique ((Exec.levelRows idx relation inbound frontier).map Prod.snd)

/-- The rows of the first levels from a frontier. -/
def levelsFrom : ℕ → List ℤ → List LevelRows
  | 0, _ => []
  | n + 1, frontier =>
    Exec.levelRows idx relation inbound frontier :: levelsFrom n (nextLevel idx relation inbound frontier)

/-- All chains that `reconstruct` finds where nothing stops it. -/
def chainsThrough (targets : List ℤ) (start : ℤ) : List LevelRows → List ℤ → List (List ℤ)
  | [], chain => if chain.getLastD start ∈ targets then [chain] else []
  | rows :: deeper, chain =>
    ((successors rows (chain.getLastD start)).filter fun child =>
      (deeper = [] && child = start && child ∈ targets) || child ∉ chain).flatMap fun child =>
        chainsThrough targets start deeper (chain ++ [child])

variable {idx relation inbound}
  {targets found chain frontier : List ℤ} {n : ℕ} {b child start : ℤ} {hop : ℤ → ℤ → Prop}

theorem mem_levelRows {row : ℤ × ℤ} : row ∈ levelRows idx relation inbound frontier ↔
      row.1 ∈ frontier ∧ idx.Hop relation inbound row.1 row.2 := by
  have hsort := @List.mem_mergeSort (ℤ ×ₗ ℤ) (fun a b => a ≤ b) (toLex row)
    (((idx.db.endpoints relation.table).filter fun edge =>
      edge.kind = relation.kindId && edge.source inbound ∈ frontier).map fun edge =>
        toLex (edge.source inbound, edge.target inbound))
  refine hsort.trans ?_
  unfold Index.Hop
  rw [walk_one_iff]
  simp only [mem_map, mem_filter, Bool.and_eq_true, decide_eq_true_eq]
  constructor
  · intro h
    obtain ⟨edge, ⟨hedge, hkind, hsource⟩, rfl⟩ := h
    exact ⟨hsource, edge, hedge, hkind, rfl, rfl⟩
  · intro h
    obtain ⟨hsource, edge, hedge, hkind, hfrom, hto⟩ := h
    exact ⟨edge, ⟨hedge, hkind, hfrom ▸ hsource⟩, congrArg toLex (Prod.ext hfrom hto)⟩

theorem mem_nextLevel :
    b ∈ nextLevel idx relation inbound frontier ↔ ∃ a ∈ frontier, idx.Hop relation inbound a b := by
  unfold nextLevel
  rw [mem_sortUnique, mem_map]
  constructor
  · intro h
    obtain ⟨row, hrow, rfl⟩ := h
    exact ⟨row.1, mem_levelRows.mp hrow⟩
  · intro h
    obtain ⟨a, ha, hhop⟩ := h
    exact ⟨(a, b), mem_levelRows.mpr ⟨ha, hhop⟩, rfl⟩

theorem mem_successors {a : ℤ} (ha : a ∈ frontier) :
    b ∈ successors (levelRows idx relation inbound frontier) a ↔ idx.Hop relation inbound a b := by
  simp only [successors, mem_sortUnique, mem_map, mem_filter, mem_levelRows, decide_eq_true_eq]
  constructor
  · intro h
    obtain ⟨_, ⟨⟨_, hhop⟩, rfl⟩, rfl⟩ := h
    exact hhop
  · intro h
    exact ⟨(a, b), ⟨⟨ha, h⟩, rfl⟩, rfl⟩

theorem levelsFrom_eq_nil : levelsFrom idx relation inbound n frontier = [] ↔ n = 0 := by
  cases n <;> simp [levelsFrom]

theorem levelsFrom_succ (n : ℕ) (frontier : List ℤ) :
    levelsFrom idx relation inbound (n + 1) frontier = levelsFrom idx relation inbound n frontier ++
      [levelRows idx relation inbound ((nextLevel idx relation inbound)^[n] frontier)] := by
  induction n generalizing frontier with
  | zero => rfl
  | succ _ ih =>
    rw [levelsFrom, ih, levelsFrom, Function.iterate_succ_apply]
    rfl

theorem mem_chainsThrough_nil :
    found ∈ chainsThrough targets start [] chain ↔ found = chain ∧ chain.getLastD start ∈ targets := by
  unfold chainsThrough
  split <;> simp_all

theorem mem_chainsThrough_cons {rows : LevelRows} {deeper : List LevelRows}
    : found ∈ chainsThrough targets start (rows :: deeper) chain ↔
      ∃ child ∈ successors rows (chain.getLastD start),
        ((deeper = [] ∧ child = start ∧ child ∈ targets) ∨ child ∉ chain) ∧
          found ∈ chainsThrough targets start deeper (chain ++ [child]) := by
  simp [chainsThrough, and_assoc]

theorem getLast?_of_head? (h : chain.head? = some start) :
    chain.getLast? = some (chain.getLastD start) := by
  cases chain with
  | nil => cases h
  | cons => rw [getLastD_eq_getLast?, getLast?_cons]; rfl

theorem notMem_dropLast {last : ℤ} (h : chain.Nodup) (hlast : chain.getLast? = some last) :
    last ∉ chain.dropLast := by
  obtain ⟨_, rfl⟩ := getLast?_eq_some_iff.mp hlast
  rw [dropLast_concat]
  intro hmem
  exact (nodup_append.mp h).2.2 _ hmem _ (mem_singleton.mpr rfl) rfl

theorem nodup_concat (h : chain.Nodup) (hnew : child ∉ chain) : (chain ++ [child]).Nodup :=
  h.append (nodup_singleton _) (by simpa using hnew)

/-- A chain with one hop more. -/
theorem isChain_concat
    (hhead : chain.head? = some start) (hhops : chain.IsChain hop) (hhop : hop (chain.getLastD start) child) :
    (chain ++ [child]).head? = some start ∧ (chain ++ [child]).IsChain hop := by
  constructor
  · rw [head?_append, hhead]
    rfl
  · apply isChain_append.mpr ⟨hhops, List.IsChain.singleton _, _⟩
    intro _ hend _ hfirst
    cases hfirst
    rw [getLast?_of_head? hhead] at hend
    cases hend
    exact hhop

/-- Only the start repeats, at the end, and it is a target then. -/
theorem IsWitness.closing
    {nodes : List ℤ} (h : IsWitness hop targets start n (chain ++ child :: nodes))
    (hmem : child ∈ chain) : nodes = [] ∧ child = start ∧ child ∈ targets := by
  have hnil : nodes = [] := by
    cases nodes with
    | nil => rfl
    | cons =>
      have hsimple := h.simple
      rw [dropLast_append_of_ne_nil (by simp), dropLast_cons_of_ne_nil (by simp), nodup_append] at hsimple
      exact absurd rfl (hsimple.2.2 _ hmem _ mem_cons_self)
  subst hnil
  obtain ⟨target, htarget, hend⟩ := h.target
  rw [getLast?_concat, Option.some_inj] at hend
  exact ⟨rfl, h.closes child (by simp) (by simpa using hmem), hend ▸ htarget⟩

/-- The chains that go on from one are the witnesses that go on from it. -/
theorem mem_chainsThrough
    (hhead : chain.head? = some start) (hhops : chain.IsChain (idx.Hop relation inbound))
    (hnodup : chain.Nodup) (hlast : chain.getLastD start ∈ frontier) :
    found ∈ chainsThrough targets start (levelsFrom idx relation inbound n frontier) chain ↔
      (∃ nodes, found = chain ++ nodes ∧ nodes.length = n) ∧
        IsWitness (idx.Hop relation inbound) targets start (found.length - 1) found := by
  induction n generalizing frontier chain with
  | zero =>
    have hpos : 0 < chain.length := by
      cases chain with
      | nil => cases hhead
      | cons => exact Nat.succ_pos _
    rw [levelsFrom, mem_chainsThrough_nil]
    constructor
    · intro h
      obtain ⟨rfl, htarget⟩ := h
      refine ⟨⟨[], by simp⟩, hhead, ⟨_, htarget, getLast?_of_head? hhead⟩, hhops, by omega,
        List.Nodup.sublist (dropLast_sublist _) hnodup, ?_⟩
      exact fun last hlast hmem => absurd hmem (notMem_dropLast hnodup hlast)
    · intro h
      obtain ⟨⟨_, rfl, hnodes⟩, hwitness⟩ := h
      obtain rfl := eq_nil_of_length_eq_zero hnodes
      obtain ⟨target, htarget, hend⟩ := hwitness.target
      rw [append_nil, getLast?_of_head? hhead] at hend
      exact ⟨append_nil _, Option.some_inj.mp hend ▸ htarget⟩
  | succ n ih =>
    have hlast' : ∀ child, idx.Hop relation inbound (chain.getLastD start) child →
        (chain ++ [child]).getLastD start ∈ nextLevel idx relation inbound frontier := by
      intro _ hhop
      rw [getLastD_concat]
      exact mem_nextLevel.mpr ⟨_, hlast, hhop⟩
    rw [levelsFrom, mem_chainsThrough_cons]
    simp only [mem_successors hlast, levelsFrom_eq_nil]
    constructor
    · intro h
      obtain ⟨child, hhop, hchild, hfound⟩ := h
      obtain ⟨hhead', hhops'⟩ := isChain_concat hhead hhops hhop
      by_cases hnew : child ∈ chain
      · -- The start closes the walk.
        obtain ⟨rfl, rfl, htarget⟩ := hchild.resolve_right (not_not.mpr hnew)
        rw [levelsFrom, mem_chainsThrough_nil] at hfound
        obtain ⟨rfl, _⟩ := hfound
        refine ⟨⟨[child], rfl, rfl⟩, hhead', ⟨child, htarget, by simp⟩, hhops', by simp, by simpa, ?_⟩
        intro _ hend _
        simpa using hend.symm
      · obtain ⟨⟨nodes, rfl, hlength⟩, hwitness⟩ :=
          (ih hhead' hhops' (nodup_concat hnodup hnew) (hlast' child hhop)).mp hfound
        exact ⟨⟨child :: nodes, by simp, by simp [hlength]⟩, hwitness⟩
    · intro h
      obtain ⟨⟨nodes, rfl, hlength⟩, hwitness⟩ := h
      cases nodes with
      | nil => cases hlength
      | cons child nodes =>
        have hhop : idx.Hop relation inbound (chain.getLastD start) child :=
          (isChain_append.mp hwitness.hops).2.2 _ (getLast?_of_head? hhead) _ rfl
        obtain ⟨hhead', hhops'⟩ := isChain_concat hhead hhops hhop
        replace hlength : nodes.length = n := by simpa using hlength
        by_cases hnew : child ∈ chain
        · obtain ⟨rfl, hclosed, htarget⟩ := hwitness.closing hnew
          obtain rfl : n = 0 := hlength.symm
          refine ⟨child, hhop, Or.inl ⟨rfl, hclosed, htarget⟩, ?_⟩
          rw [levelsFrom, mem_chainsThrough_nil]
          exact ⟨rfl, by rwa [getLastD_concat]⟩
        · refine ⟨child, hhop, Or.inr hnew, ?_⟩
          apply (ih hhead' hhops' (nodup_concat hnodup hnew) (hlast' child hhop)).mpr
          exact ⟨⟨nodes, by simp, hlength⟩, hwitness⟩

/-- What can be rebuilt through the first levels from a start are its witnesses of that length. -/
theorem mem_chainsFrom :
    chain ∈ chainsThrough targets start (levelsFrom idx relation inbound n [start]) [start] ↔
      IsWitness (idx.Hop relation inbound) targets start n chain := by
  rw [mem_chainsThrough rfl (List.IsChain.singleton _) (nodup_singleton _) (by simp)]
  constructor
  · intro h
    obtain ⟨⟨_, rfl, rfl⟩, hwitness⟩ := h
    exact hwitness
  · intro h
    have hlength := h.length
    refine ⟨⟨chain.tail, (cons_head?_tail h.head).symm, by simp [hlength]⟩, ?_⟩
    rwa [hlength]

theorem nodup_chainsThrough (levels : List LevelRows) (chain : List ℤ) :
    (chainsThrough targets start levels chain).Nodup ∧
      ∀ found ∈ chainsThrough targets start levels chain, chain <+: found := by
  induction levels generalizing chain with
  | nil =>
    constructor
    · unfold chainsThrough
      split <;> simp
    · intro _ hfound
      rw [(mem_chainsThrough_nil.mp hfound).1] <;> exact prefix_refl _
  | cons _ _ ih =>
    constructor
    · apply nodup_flatMap_extensions
      · exact (nodup_sortUnique _).filter _
      · exact fun child _ => (ih _).1
      · exact fun child _ found hfound => (ih _).2 found hfound
    · intro found hfound
      obtain ⟨_, _, _, hmem⟩ := mem_chainsThrough_cons.mp hfound
      exact (prefix_append _ _).trans ((ih _).2 found hmem)

/-! ## Levels without walks -/

theorem IsWitness.mem_level
    (h : IsWitness (idx.Hop relation inbound) targets start n chain) {k : ℕ} (hk : k < chain.length) :
    chain[k] ∈ (nextLevel idx relation inbound)^[k] [start] := by
  induction k with
  | zero =>
    have hhead := h.head
    rw [head?_eq_getElem?, getElem?_eq_getElem hk, Option.some_inj] at hhead
    simp [hhead]
  | succ k ih =>
    rw [Function.iterate_succ_apply', mem_nextLevel]
    exact ⟨_, ih (by omega), isChain_iff_getElem.mp h.hops k hk⟩

/-- A level without rows ends all walks. -/
theorem not_isWitness_of_levelRows {m : ℕ} (hm : n < m)
    (hrows : levelRows idx relation inbound ((nextLevel idx relation inbound)^[n] [start]) = [])
    (chain : List ℤ) : ¬ IsWitness (idx.Hop relation inbound) targets start m chain := by
  intro h
  have hlength := h.length
  have hlevel := h.mem_level (k := n) (by omega)
  have hhop := isChain_iff_getElem.mp h.hops n (by omega)
  have hrow : (chain[n], chain[n + 1]) ∈ levelRows idx relation inbound
      ((nextLevel idx relation inbound)^[n] [start]) := mem_levelRows.mpr ⟨hlevel, hhop⟩
  rw [hrows] at hrow
  cases hrow

/-- A level without targets has no witnesses of its length. -/
theorem not_isWitness_of_level
    (hlevel : ((nextLevel idx relation inbound)^[n] [start]).any (· ∈ targets) = false) (chain : List ℤ) :
    ¬ IsWitness (idx.Hop relation inbound) targets start n chain := by
  intro h
  have hlength := h.length
  have hmem := h.mem_level (k := n) (by omega)
  obtain ⟨target, htarget, hend⟩ := h.target
  rw [getLast?_eq_getElem?, hlength, Nat.add_sub_cancel, getElem?_eq_getElem (by omega),
    Option.some_inj] at hend
  have hnone := any_eq_false.mp hlevel _ hmem
  simp [hend, htarget] at hnone

/-! ## Rebuilding -/

def Rebuild.Stopped (budgets : Budgets) (acc : Rebuild) : Prop :=
  acc.exceeded = true ∨ budgets.resultCap.exceeded acc.chains.length = true

/-- A rebuild that went on from `acc` through `all`. -/
structure Rebuild.Adds (budgets : Budgets) (all : List (List ℤ)) (acc after : Rebuild) : Prop where
  sound : ∀ chain ∈ after.chains, chain ∈ acc.chains ∨ chain ∈ all
  whole : ¬ after.Stopped budgets → after.chains = acc.chains ++ all
  stopped : acc.Stopped budgets → after = acc

variable {budgets : Budgets}

theorem Rebuild.Adds.foldl {α : Type} {step : Rebuild → α → Rebuild} {found : α → List (List ℤ)}
    (h : ∀ a acc, Rebuild.Adds budgets (found a) acc (step acc a)) (xs : List α) (acc : Rebuild) :
    Rebuild.Adds budgets (xs.flatMap found) acc (xs.foldl step acc) := by
  induction xs generalizing acc with
  | nil => exact ⟨fun _ => Or.inl, fun _ => (append_nil _).symm, fun _ => rfl⟩
  | cons a _ ih =>
    have hfirst := h a acc
    have hrest := ih (step acc a)
    rw [foldl_cons, flatMap_cons]
    constructor
    · intro chain hchain
      rw [mem_append, ← or_assoc]
      exact (hrest.sound chain hchain).imp_left (hfirst.sound chain)
    · intro hwhole
      have hnot : ¬ (step acc a).Stopped budgets := by
        intro hstopped
        rw [hrest.stopped hstopped] at hwhole
        exact hwhole hstopped
      rw [hrest.whole hwhole, hfirst.whole hnot, append_assoc]
    · intro hstopped
      have hsame := hfirst.stopped hstopped
      rw [hsame] at hrest ⊢
      exact hrest.stopped hstopped

/-- One descent: it is counted, and goes on only where nothing is used up. -/
theorem Rebuild.Adds.descent {all : List (List ℤ)} {acc after : Rebuild}
    (h : ¬ acc.Stopped budgets → Rebuild.Adds budgets all { acc with descents := acc.descents + 1 } after) :
    Rebuild.Adds budgets all acc
      (if budgets.resultCap.exceeded acc.chains.length || acc.exceeded then acc
      else if budgets.pathReconstruction.exceeded (acc.descents + 1) then
        { acc with descents := acc.descents + 1, exceeded := true }
      else after) := by
  split
  · rename_i hstop
    rw [Bool.or_eq_true] at hstop
    exact ⟨fun _ => Or.inl, fun hwhole => absurd hstop.symm hwhole, fun _ => rfl⟩
  · rename_i hgo
    have hnot : ¬ acc.Stopped budgets := by
      intro hstopped
      rw [Bool.or_eq_true] at hgo
      exact hgo hstopped.symm
    split
    · exact ⟨fun _ => Or.inl, fun hwhole => absurd (Or.inl rfl) hwhole, fun hstopped => absurd hstopped hnot⟩
    · exact ⟨(h hnot).sound, (h hnot).whole, fun hstopped => absurd hstopped hnot⟩

/-- `enumerate` adds all chains through the levels, unless it is stopped. -/
theorem adds_descend {targets : List ℤ} {start : ℤ} (levels : List LevelRows) (chain : List ℤ) (acc : Rebuild) :
    Rebuild.Adds budgets (chainsThrough targets start levels chain) acc
      (descend budgets targets start levels chain acc) := by
  induction levels generalizing chain acc with
  | nil =>
    rw [descend]
    apply Rebuild.Adds.descent
    intro hnot
    unfold chainsThrough
    split
    · exact ⟨fun found => mem_append.mp, fun _ => rfl, fun hstopped => absurd hstopped hnot⟩
    · exact ⟨fun _ => Or.inl, fun _ => (append_nil _).symm, fun _ => rfl⟩
  | cons _ _ ih =>
    rw [descend]
    apply Rebuild.Adds.descent
    intro _
    exact Rebuild.Adds.foldl (fun child acc => ih (chain ++ [child]) acc) _ _

/-! ## The search from one start -/

/-- No walk of a length in the window is a witness. -/
def Index.NoWitness (idx : Index) (relation : RelationDesc) (inbound : Bool) (targets : List ℤ) (start : ℤ)
    (n : ℕ) : Prop :=
  ∀ chain, ¬ IsWitness (idx.Hop relation inbound) targets start n chain

def SearchEnd.Sound (idx : Index) (relation : RelationDesc) (inbound : Bool) (budgets : Budgets) (minDepth : ℤ)
    (maxDepth : ℕ) (targets : List ℤ) (start : ℤ) : SearchEnd → Prop
  | .found depth chains cut => ∃ n : ℕ, depth = n ∧ minDepth ≤ n ∧ n ≤ maxDepth ∧ chains ≠ [] ∧
      (∀ chain ∈ chains, IsWitness (idx.Hop relation inbound) targets start n chain) ∧
      (∀ m : ℕ, minDepth ≤ m → m < n → idx.NoWitness relation inbound targets start m) ∧
      (cut = false → budgets.resultCap.exceeded chains.length = false →
        chains = chainsThrough targets start (levelsFrom idx relation inbound n [start]) [start])
  | .truncated => True
  | .exhausted => ∀ m : ℕ, minDepth ≤ m → idx.NoWitness relation inbound targets start m
  | .depthReached frontier => frontier = (nextLevel idx relation inbound)^[maxDepth] [start] ∧
      ∀ m : ℕ, minDepth ≤ m → m ≤ maxDepth → idx.NoWitness relation inbound targets start m

theorem sound_searchFrom {minDepth : ℤ} {maxDepth left n : ℕ} {targets : List ℤ} {start : ℤ} {cost : SearchCost}
    (hleft : n + left = maxDepth)
    (hnone : ∀ m : ℕ, minDepth ≤ m → m ≤ n → idx.NoWitness relation inbound targets start m) :
    SearchEnd.Sound idx relation inbound budgets minDepth maxDepth targets start
      (searchFrom idx budgets relation inbound minDepth targets start left (n + 1)
        ((nextLevel idx relation inbound)^[n] [start]) (levelsFrom idx relation inbound n [start]) cost).1 := by
  induction left generalizing n cost with
  | zero =>
    obtain rfl : n = maxDepth := hleft
    exact ⟨rfl, hnone⟩
  | succ left ih =>
    have hlevel : sortUnique ((levelRows idx relation inbound
        ((nextLevel idx relation inbound)^[n] [start])).map Prod.snd) =
          (nextLevel idx relation inbound)^[n + 1] [start] := by
      rw [Function.iterate_succ_apply']
      rfl
    have hcast : ((n : ℤ) + 1) = ((n + 1 : ℕ) : ℤ) := by omega
    rw [searchFrom]
    simp only [hlevel, ← levelsFrom_succ, hcast]
    have hnext : (minDepth ≤ (n + 1 : ℕ) → idx.NoWitness relation inbound targets start (n + 1)) →
        ∀ m : ℕ, minDepth ≤ m → m ≤ n + 1 → idx.NoWitness relation inbound targets start m := by
      intro hlast m hm hle
      cases Nat.lt_or_eq_of_le hle with
      | inl hlt => exact hnone m hm (Nat.le_of_lt_succ hlt)
      | inr heq =>
        subst heq
        exact hlast hm
    split
    · trivial
    · split
      · rename_i hrows
        intro m hm chain
        by_cases hle : m ≤ n
        · exact hnone m hm hle chain
        · exact not_isWitness_of_levelRows (by omega) hrows chain
      · split
        · rename_i hwindow
          have hadds := @adds_descend budgets targets start (levelsFrom idx relation inbound (n + 1) [start])
            [start] { descents := cost.descents }
          generalize descend budgets targets start (levelsFrom idx relation inbound (n + 1) [start]) [start]
            { descents := cost.descents } = rebuilt at hadds ⊢
          have hsound : ∀ chain ∈ rebuilt.chains,
              IsWitness (idx.Hop relation inbound) targets start (n + 1) chain := by
            intro chain hchain
            exact mem_chainsFrom.mp ((hadds.sound chain hchain).resolve_left not_mem_nil)
          split
          · rename_i hfound
            refine ⟨n + 1, rfl, hwindow.1, by omega, hfound, hsound, ?_, ?_⟩
            · intro m hm hlt
              exact hnone m hm (Nat.le_of_lt_succ hlt)
            · intro hcut hcap
              apply hadds.whole
              intro hstopped
              cases hstopped with
              | inl hexceeded => rw [hcut] at hexceeded; cases hexceeded
              | inr hexceeded => rw [hcap] at hexceeded; cases hexceeded
          · rename_i hempty
            rw [not_not] at hempty
            split
            · trivial
            · rename_i hcut
              apply ih (by omega) (hnext _)
              intro _ _ hchain
              have hall : rebuilt.chains = [] ++ chainsThrough targets start
                  (levelsFrom idx relation inbound (n + 1) [start]) [start] := by
                apply hadds.whole
                intro hstopped
                cases hstopped with
                | inl hexceeded => exact hcut hexceeded
                | inr hexceeded => rw [hempty] at hexceeded; simp at hexceeded
              have hmem := mem_chainsFrom.mpr hchain
              rw [← nil_append (chainsThrough _ _ _ _), ← hall, hempty] at hmem
              cases hmem
        · rename_i hwindow
          apply ih (by omega) (hnext _)
          intro hmin
          apply not_isWitness_of_level
          rw [← Bool.not_eq_true]
          exact fun hany => hwindow ⟨hmin, hany⟩

/-! ## All starts -/

/-- A witness of the least length in the window at which its start has one. -/
structure Index.IsLeastWitness (idx : Index) (relation : RelationDesc) (inbound : Bool) (minDepth maxDepth : ℤ)
    (targets : List ℤ) (start : ℤ) (n : ℕ) (chain : List ℤ) : Prop where
  witness : IsWitness (idx.Hop relation inbound) targets start n chain
  window : minDepth ≤ n ∧ n ≤ maxDepth
  least : ∀ m : ℕ, minDepth ≤ m → m < n → idx.NoWitness relation inbound targets start m

theorem chainWitness_steps {depth : ℤ} {chain : List ℤ} :
    (chainWitness idx budgets relation inbound depth chain).1.steps.map (·.nodeId) = chain := by
  cases chain with
  | nil => rfl
  | cons =>
    have hzip : ∀ xs ys : List ℤ, ys.length ≤ xs.length → (xs.zip ys).map Prod.snd = ys :=
      fun xs ys h => map_snd_zip h
    simp only [chainWitness, head?_cons, Option.map_some, Option.toList_some, tail_cons,
      map_cons, map_map, singleton_append, cons.injEq]
    exact ⟨rfl, hzip _ _ (by simp)⟩

/-- The search after some starts. -/
structure Exec.Searched (idx : Index) (relation : RelationDesc) (inbound : Bool) (budgets : Budgets)
    (minDepth maxDepth : ℤ) (targets starts : List ℤ) (acc : Exec.PathSearch) : Prop where
  sound : ∀ witness ∈ acc.results, ∃ start ∈ starts, ∃ n chain,
    idx.IsLeastWitness relation inbound minDepth maxDepth targets start n chain ∧
      witness = (Exec.chainWitness idx budgets relation inbound n chain).1
  whole : acc.stopped = false → acc.incomplete = false → acc.results.Nodup ∧
    (∀ start ∈ starts, ∀ n chain, idx.IsLeastWitness relation inbound minDepth maxDepth targets start n chain →
      (Exec.chainWitness idx budgets relation inbound n chain).1 ∈ acc.results)
  none : acc.stopped = false → acc.incomplete = false → ∀ start ∈ starts,
    (∀ n chain, ¬ idx.IsLeastWitness relation inbound minDepth maxDepth targets start n chain) →
      ∀ m : ℕ, minDepth ≤ m → idx.NoWitness relation inbound targets start m

section Starts

variable {minDepth maxDepth : ℤ} {targets starts : List ℤ} {acc : Exec.PathSearch}

theorem sound_search (hmin : 1 ≤ minDepth) (targets : List ℤ) (start : ℤ) (cost : SearchCost) :
    SearchEnd.Sound idx relation inbound budgets minDepth maxDepth.toNat targets start
      (searchFrom idx budgets relation inbound minDepth targets start maxDepth.toNat 1 [start] []
        cost).1 := by
  have h := @sound_searchFrom idx relation inbound budgets minDepth maxDepth.toNat maxDepth.toNat 0 targets start
    cost (Nat.zero_add _)
  apply h
  intro _ _ _
  omega

section

variable (h : Exec.Searched idx relation inbound budgets minDepth maxDepth targets starts acc)
include h

/-- The results before the next start stay where they are. -/
theorem Exec.Searched.sound_append (start : ℤ) : ∀ witness ∈ acc.results, ∃ other ∈ starts ++ [start], ∃ n chain,
      idx.IsLeastWitness relation inbound minDepth maxDepth targets other n chain ∧
        witness = (chainWitness idx budgets relation inbound n chain).1 := by
  intro witness hwitness
  obtain ⟨other, hother, hrest⟩ := h.sound witness hwitness
  exact ⟨other, mem_append_left _ hother, hrest⟩

variable {after : Exec.PathSearch}

/-- A start that ends without witnesses adds nothing. -/
theorem Exec.Searched.append_none {start : ℤ} (hresults : after.results = acc.results)
    (hflags : after.stopped = false → after.incomplete = false →
      acc.stopped = false ∧ acc.incomplete = false ∧
        ∀ m : ℕ, minDepth ≤ m → idx.NoWitness relation inbound targets start m) :
    Exec.Searched idx relation inbound budgets minDepth maxDepth targets (starts ++ [start]) after := by
  constructor
  · rw [hresults]
    exact h.sound_append start
  · intro hstopped hincomplete
    obtain ⟨hstopped', hincomplete', hnone⟩ := hflags hstopped hincomplete
    obtain ⟨hnodup, hall⟩ := h.whole hstopped' hincomplete'
    rw [hresults]
    refine ⟨hnodup, ?_⟩
    intro other hother n chain hleast
    cases mem_append.mp hother with
    | inl hother => exact hall other hother n chain hleast
    | inr hother =>
      cases mem_singleton.mp hother
      exact absurd hleast.witness (hnone n hleast.window.1 chain)
  · intro hstopped hincomplete other hother hnoLeast
    obtain ⟨hstopped', hincomplete', hnone⟩ := hflags hstopped hincomplete
    cases mem_append.mp hother with
    | inl hother => exact h.none hstopped' hincomplete' other hother hnoLeast
    | inr hother =>
      cases mem_singleton.mp hother
      exact hnone

/-- A start that ends with witnesses adds them. -/
theorem Exec.Searched.append_found {start : ℤ} (hnew : start ∉ starts) {n : ℕ} {chains : List (List ℤ)}
    (hfound : chains ≠ [])
    (hchains : ∀ chain ∈ chains, idx.IsLeastWitness relation inbound minDepth maxDepth targets start n chain)
    (hresults : after.results = acc.results ++ (budgets.resultCap.cut chains).map fun chain =>
        (chainWitness idx budgets relation inbound n chain).1)
    (hflags : after.stopped = false → after.incomplete = false →
      acc.stopped = false ∧ acc.incomplete = false ∧ budgets.resultCap.exceeded chains.length = false ∧
        chains = chainsThrough targets start (levelsFrom idx relation inbound n [start]) [start]) :
    Exec.Searched idx relation inbound budgets minDepth maxDepth targets (starts ++ [start]) after := by
  have hinj : ∀ chain chain' : List ℤ, (chainWitness idx budgets relation inbound n chain).1 =
      (chainWitness idx budgets relation inbound n chain').1 → chain = chain' := by
    intro chain _ heq
    rw [← @chainWitness_steps idx relation inbound budgets n chain, heq, chainWitness_steps]
  constructor
  · intro witness hwitness
    rw [hresults] at hwitness
    cases mem_append.mp hwitness with
    | inl hbefore => exact h.sound_append start witness hbefore
    | inr hadded =>
      obtain ⟨chain, hchain, rfl⟩ := mem_map.mp hadded
      exact ⟨start, by simp, n, chain, hchains chain (Budget.mem_of_mem_cut hchain), rfl⟩
  · intro hstopped hincomplete
    obtain ⟨hstopped', hincomplete', hcap, hall⟩ := hflags hstopped hincomplete
    obtain ⟨hnodup, hleast⟩ := h.whole hstopped' hincomplete'
    rw [hresults, Budget.cut_eq_self hcap]
    constructor
    · apply hnodup.append
      · apply List.Nodup.map hinj
        rw [hall]
        exact (nodup_chainsThrough _ _).1
      · -- The witnesses of other starts start elsewhere.
        intro witness hbefore hadded
        obtain ⟨_, hother, _, chain, hchain, rfl⟩ := h.sound witness hbefore
        obtain ⟨chain', hchain', heq⟩ := mem_map.mp hadded
        have hsame : chain' = chain := by
          rw [← @chainWitness_steps idx relation inbound budgets n chain', heq, chainWitness_steps]
        subst hsame
        have hhead := (hchains chain' hchain').witness.head.symm.trans hchain.witness.head
        rw [Option.some_inj.mp hhead] at hnew
        exact hnew hother
    · intro other hother m chain hchain
      cases mem_append.mp hother with
      | inl hother => exact mem_append_left _ (hleast other hother m chain hchain)
      | inr hother =>
        cases mem_singleton.mp hother
        obtain ⟨_, hchain'⟩ := exists_mem_of_ne_nil _ hfound
        have hsame : m = n := by
          apply le_antisymm
          · exact Nat.le_of_not_lt fun hlt =>
              hchain.least n (hchains _ hchain').window.1 hlt _ (hchains _ hchain').witness
          · exact Nat.le_of_not_lt fun hlt =>
              (hchains _ hchain').least m hchain.window.1 hlt _ hchain.witness
        subst hsame
        apply mem_append_right
        apply mem_map_of_mem
        rw [hall]
        exact mem_chainsFrom.mpr hchain.witness
  · intro hstopped hincomplete other hother hnoLeast
    obtain ⟨hstopped', hincomplete', _⟩ := hflags hstopped hincomplete
    cases mem_append.mp hother with
    | inl hother => exact h.none hstopped' hincomplete' other hother hnoLeast
    | inr hother =>
      cases mem_singleton.mp hother
      obtain ⟨chain, hchain⟩ := exists_mem_of_ne_nil _ hfound
      exact absurd (hchains chain hchain) (hnoLeast n chain)

theorem Exec.Searched.next
    (hmin : 1 ≤ minDepth) {start : ℤ} (hnew : start ∉ starts) :
    Exec.Searched idx relation inbound budgets minDepth maxDepth targets (starts ++ [start])
      (searchStart idx budgets relation inbound minDepth maxDepth targets acc start) := by
  have hsearch := @sound_search idx relation inbound budgets minDepth maxDepth hmin targets start acc.cost
  unfold searchStart
  split
  · rename_i hstopped
    apply h.append_none rfl
    intro hnot
    rw [hstopped] at hnot
    cases hnot
  · rename_i hgo
    rw [Bool.not_eq_true] at hgo
    generalize searchFrom idx budgets relation inbound minDepth targets start maxDepth.toNat 1 [start] []
      acc.cost = searched at hsearch ⊢
    obtain ⟨finish, _⟩ := searched
    cases finish with
    | truncated =>
      refine h.append_none (by rfl) ?_
      intro hnot
      cases hnot
    | exhausted =>
      refine h.append_none (by rfl) ?_
      exact fun _ hincomplete => ⟨hgo, hincomplete, hsearch⟩
    | depthReached =>
      obtain ⟨rfl, hnone⟩ := hsearch
      refine h.append_none (by rfl) ?_
      intro _ hincomplete
      obtain ⟨hincomplete, hrows⟩ := Bool.or_eq_false_iff.mp hincomplete
      refine ⟨hgo, hincomplete, ?_⟩
      intro m hm chain
      by_cases hle : m ≤ maxDepth.toNat
      · exact hnone m hm hle chain
      · apply not_isWitness_of_levelRows (Nat.lt_of_not_le hle)
        simpa using hrows
    | found =>
      obtain ⟨_, rfl, hlow, _, hfound, hchains, hleast, hall⟩ := hsearch
      apply h.append_found hnew hfound
      · intro chain hchain
        exact ⟨hchains chain hchain, ⟨hlow, by omega⟩, hleast⟩
      · show acc.results ++ _ = _
        rw [map_map]
        rfl
      · intro hcut hincomplete
        obtain ⟨hincomplete, _⟩ := Bool.or_eq_false_iff.mp hincomplete
        obtain ⟨hincomplete, hcap⟩ := Bool.or_eq_false_iff.mp hincomplete
        exact ⟨hgo, hincomplete, hcap, hall hcut hcap⟩

end

theorem Exec.searched_searchPaths (hmin : 1 ≤ minDepth) (starts : List ℤ) :
    Exec.Searched idx relation inbound budgets minDepth maxDepth targets (sortUnique starts)
      (searchPaths idx budgets relation inbound minDepth maxDepth targets starts) := by
  unfold searchPaths
  have hnodup := nodup_sortUnique starts
  generalize sortUnique starts = distinct at hnodup ⊢
  induction distinct using List.reverseRecOn with
  | nil =>
    refine ⟨fun witness hwitness => ?_, fun _ _ => ⟨nodup_nil, fun start hstart => ?_⟩,
      fun _ _ start hstart => ?_⟩
    · cases hwitness
    · cases hstart
    · cases hstart
  | append_singleton _ _ ih =>
    rw [nodup_append] at hnodup
    rw [foldl_append]
    apply (ih hnodup.1).next hmin
    intro hmem
    exact hnodup.2.2 _ hmem _ (mem_singleton.mpr rfl) rfl

end Starts

/-- `path` reports simple walks of their stated length from a start to a target. Where it is not flagged,
it reports the first of all witnesses of the least lengths in order, and a start without one has none of any
length from `min_depth` on. -/
theorem pathStage_exact {idx : Index} {budgets : Budgets} {st sub out : Stream} {name : RelationName}
    {minDepth maxDepth shortest : ℤ} {inbound : Bool} (hmin : 1 ≤ minDepth)
    (hout : Exec.pathStage idx budgets st sub name minDepth maxDepth shortest inbound = .ok out) :
    ∃ relation, resolveRelation name st.view inbound = some relation ∧
      (∀ witness ∈ out.paths, ∃ start ∈ st.ids, ∃ n : ℕ, witness.length = n ∧ minDepth ≤ n ∧ n ≤ maxDepth ∧
        IsWitness (idx.Hop relation inbound) sub.ids start n (witness.steps.map (·.nodeId))) ∧
      (out.truncated = false → ∃ all : List PathWitness, all.Nodup ∧
        (∀ witness, witness ∈ all ↔ ∃ start ∈ st.ids, ∃ n chain,
          idx.IsLeastWitness relation inbound minDepth maxDepth sub.ids start n chain ∧
            witness = (Exec.chainWitness idx budgets relation inbound n chain).1) ∧
        FirstOf PathWitness.key (capOf shortest) all out.paths ∧
        ∀ start ∈ st.ids, (∀ witness ∈ all, witness.steps.head?.map (·.nodeId) ≠ some start) →
          ∀ n : ℕ, minDepth ≤ n → idx.NoWitness relation inbound sub.ids start n) := by
  unfold Exec.pathStage at hout
  split at hout
  · cases hout
  · rename_i relation hrelation
    cases hout
    have hsearched : Exec.Searched idx relation inbound budgets minDepth maxDepth sub.ids (sortUnique st.ids)
      (Exec.searchPaths idx budgets relation inbound minDepth maxDepth sub.ids st.ids) :=
        Exec.searched_searchPaths hmin st.ids
    refine ⟨relation, hrelation, ?_, ?_⟩
    · intro witness hwitness
      dsimp only [Exec.withPaths] at hwitness
      obtain ⟨start, hstart, n, _, hleast, rfl⟩ :=
        hsearched.sound witness (mem_of_mem_sortAndCapWitnesses hwitness)
      refine ⟨start, mem_sortUnique.mp hstart, n, rfl, hleast.window.1, hleast.window.2, ?_⟩
      rw [chainWitness_steps]
      exact hleast.witness
    · intro hflag
      obtain ⟨hloop, hfirst⟩ := firstOf_sortAndCapWitnesses (Bool.or_eq_false_iff.mp hflag).2
      obtain ⟨hstopped, hincomplete⟩ := Bool.or_eq_false_iff.mp hloop
      obtain ⟨hnodup, hall⟩ := hsearched.whole hstopped hincomplete
      refine ⟨_, hnodup, ?_, hfirst, ?_⟩
      · intro witness
        constructor
        · intro hwitness
          obtain ⟨start, hstart, hrest⟩ := hsearched.sound witness hwitness
          exact ⟨start, mem_sortUnique.mp hstart, hrest⟩
        · intro h
          obtain ⟨start, hstart, n, chain, hleast, rfl⟩ := h
          exact hall start (mem_sortUnique.mpr hstart) n chain hleast
      · intro start hstart hnoWitness
        apply hsearched.none hstopped hincomplete start (mem_sortUnique.mpr hstart)
        intro n chain hleast
        apply hnoWitness _ (hall start (mem_sortUnique.mpr hstart) n chain hleast)
        rw [← head?_map, chainWitness_steps]
        exact hleast.witness.head

/-- The path through a chain of two calls, within the budgets. -/
theorem pathStage_exact_callChain : ∃ out,
    Exec.pathStage (.ofDb callChain) .code { view := .symbol, ids := [1] } { view := .symbol, ids := [3] }
      ⟨none, "calls"⟩ 1 8 0 false = .ok out ∧
    out.truncated = false ∧ out.paths.map (fun witness => witness.steps.map (·.nodeId)) = [[1, 2, 3]] ∧
    ∃ relation, resolveRelation ⟨none, "calls"⟩ .symbol false = some relation ∧
      ∃ all, FirstOf PathWitness.key (capOf 0) all out.paths ∧ ∀ witness ∈ all, ∃ n chain,
        (Index.ofDb callChain).IsLeastWitness relation false 1 8 [3] 1 n chain ∧
          witness = (Exec.chainWitness (.ofDb callChain) .code relation false n chain).1 := by
  obtain ⟨out, hout, hflag, hpaths⟩ : ∃ out,
      Exec.pathStage (.ofDb callChain) .code { view := .symbol, ids := [1] } { view := .symbol, ids := [3] }
        ⟨none, "calls"⟩ 1 8 0 false = .ok out ∧ out.truncated = false ∧
      out.paths.map (fun witness => witness.steps.map (·.nodeId)) = [[1, 2, 3]] := by
    refine ⟨_, rfl, ?_, ?_⟩ <;> decide +kernel
  obtain ⟨relation, hrelation, _, hexact⟩ := pathStage_exact le_rfl hout
  obtain ⟨all, _, hmem, hfirst, _⟩ := hexact hflag
  refine ⟨out, hout, hflag, hpaths, relation, hrelation, all, hfirst, ?_⟩
  intro witness hwitness
  obtain ⟨_, hstart, hleast⟩ := (hmem witness).mp hwitness
  cases mem_singleton.mp hstart
  exact hleast

end CppIndexer.Query
