/-
# Breadth-first search

A search visits what a start leads to, one level of hops after another, and stops early on a condition
on what it has just visited. Every visit is at the distance its level says, and a search that does not
stop early misses nothing within its last level.

The nodes are read from items, by a read that may fail; a search that returns has read all it needs.
-/

import Mathlib.Data.List.Chain
import Mathlib.Data.List.Nodup
import CppIndexer.Lib.ExceptResults

namespace BreadthFirst

open List

/-! ## Distances -/

section Distances

variable {κ : Type*} {leads finds : κ → κ → Prop} {first last : κ} {n m : ℕ}

/-- That many hops lead from `first` to `last`. -/
def Hops (leads : κ → κ → Prop) (first : κ) : ℕ → κ → Prop
  | 0, last => last = first
  | n + 1, last => ∃ middle, Hops leads first n middle ∧ leads middle last

/-- So many hops lead from `first` to `last`, and no fewer. -/
def IsAway (leads : κ → κ → Prop) (first : κ) (n : ℕ) (last : κ) : Prop :=
  Hops leads first n last ∧ ∀ m < n, ¬ Hops leads first m last

theorem Hops.mono (h : Hops finds first n last) (hsub : ∀ x y, finds x y → leads x y) :
    Hops leads first n last := by
  induction n generalizing last with
  | zero => exact h
  | succ _ ih =>
    obtain ⟨middle, hmiddle, hlast⟩ := h
    exact ⟨middle, ih hmiddle, hsub _ _ hlast⟩

theorem Hops.exists_away (h : Hops leads first n last) : ∃ m ≤ n, IsAway leads first m last := by
  induction n using Nat.strong_induction_on with
  | _ n ih =>
    by_cases hshort : ∃ m < n, Hops leads first m last
    · obtain ⟨m, hm, hhops⟩ := hshort
      obtain ⟨k, hk, haway⟩ := ih m hm hhops
      exact ⟨k, hk.trans hm.le, haway⟩
    · exact ⟨n, le_rfl, h, fun m hm hhops => hshort ⟨m, hm, hhops⟩⟩

theorem IsAway.zero : IsAway leads first 0 first :=
  ⟨rfl, fun _ hm => absurd hm (Nat.not_lt_zero _)⟩

theorem IsAway.le (h : IsAway leads first n last) (hother : Hops leads first m last) : n ≤ m :=
  not_lt.mp fun hlt => h.2 m hlt hother

theorem IsAway.unique (h : IsAway leads first n last) (hother : IsAway leads first m last) : n = m :=
  le_antisymm (h.le hother.1) (hother.le h.1)

theorem IsAway.predecessor (h : IsAway leads first (n + 1) last) :
    ∃ middle, IsAway leads first n middle ∧ leads middle last := by
  obtain ⟨middle, hmiddle, hlast⟩ := h.1
  apply Exists.intro middle
  refine ⟨⟨hmiddle, ?_⟩, hlast⟩
  intro m _ hhops
  exact h.2 (m + 1) (by omega) ⟨middle, hhops, hlast⟩

theorem IsAway.next (h : IsAway leads first n last) {other : κ} (hother : leads last other)
    (hnew : ∀ m ≤ n, ¬ IsAway leads first m other) : IsAway leads first (n + 1) other := by
  refine ⟨⟨last, h.1, hother⟩, ?_⟩
  intro _ _ hhops
  obtain ⟨k, _, haway⟩ := hhops.exists_away
  exact hnew k (by omega) haway

theorem IsAway.below (h : ∀ last, ¬ IsAway leads first n last) (hm : n ≤ m) :
    ¬ IsAway leads first m last := by
  induction m, hm using Nat.le_induction generalizing last with
  | base => exact h last
  | succ _ _ ih =>
    intro haway
    obtain ⟨_, hmiddle, _⟩ := haway.predecessor
    exact ih hmiddle

theorem IsAway.of_finds (h : IsAway finds first n last) (hsub : ∀ x y, finds x y → leads x y)
    (hkeeps : ∀ m < n, Hops leads first m last → ∃ k ≤ m, Hops finds first k last) :
    IsAway leads first n last := by
  refine ⟨h.1.mono hsub, ?_⟩
  intro m hm hhops
  obtain ⟨k, _, hfinds⟩ := hkeeps m hm hhops
  exact h.2 k (by omega) hfinds

/-- A chain of hops. -/
structure IsPath (leads : κ → κ → Prop) (first last : κ) (path : List κ) : Prop where
  first : path.head? = some first
  last : path.getLast? = some last
  hops : path.IsChain leads

theorem IsPath.single : IsPath leads first first [first] :=
  ⟨rfl, rfl, List.IsChain.singleton _⟩

variable {path : List κ}

theorem IsPath.snoc (h : IsPath leads first last path) {other : κ}
    (hother : leads last other) : IsPath leads first other (path ++ [other]) where
  first := by
    cases path with
    | nil => cases h.first
    | cons => exact h.first
  last := by simp
  hops := by
    apply isChain_append.mpr
    refine ⟨h.hops, List.IsChain.singleton _, ?_⟩
    intro _ hx _ hy
    cases hy
    have hlast := h.last
    rw [Option.mem_def.mp hx] at hlast
    rwa [Option.some_inj.mp hlast]

theorem IsPath.mono (h : IsPath finds first last path)
    (hsub : ∀ x y, finds x y → leads x y) : IsPath leads first last path :=
  ⟨h.first, h.last, h.hops.imp hsub⟩

end Distances

/-! ## The search -/

/-- A node that has been visited, at which level, and the node it was found at. -/
structure Visit (κ β : Type) where
  item : β
  depth : ℕ
  parent : Option κ

/-- The state within a level: what has been visited, which nodes are new, and whether the search has
stopped. -/
structure Progress (κ β : Type) where
  seen : List (Visit κ β)
  fresh : List κ := []
  stopped : Bool := false

section Search

variable {κ β ε : Type} [DecidableEq κ] (key : β → κ) (next : κ → Except ε (List β))
  (stop : ℕ → κ → Bool)

/-- The nodes that have been visited. -/
def keysOf (seen : List (Visit κ β)) : List κ := seen.map fun visit => key visit.item

/-- Visit those of the items that are new, until the search stops. -/
def visitAll (depth : ℕ) (parent : κ) : List β → Progress κ β → Progress κ β
  | [], progress => progress
  | item :: rest, progress =>
    if key item ∈ keysOf key progress.seen then visitAll depth parent rest progress
    else
      let seen := progress.seen ++ [⟨item, depth, some parent⟩]
      let fresh := progress.fresh ++ [key item]
      if stop seen.length (key item) then ⟨seen, fresh, true⟩
      else visitAll depth parent rest ⟨seen, fresh, progress.stopped⟩

/-- Visit what the nodes of a level lead to. -/
def expand (depth : ℕ) : List κ → Progress κ β → Except ε (Progress κ β)
  | [], progress => .ok progress
  | node :: rest, progress => do
      let items ← next node
      let progress := visitAll key stop depth node items progress
      if progress.stopped then pure progress else expand depth rest progress

/-- One level after another, as long as there are new nodes. -/
def levels : ℕ → ℕ → List κ → List (Visit κ β) → Except ε (Progress κ β)
  | 0, _, _, seen => .ok { seen := seen }
  | left + 1, depth, frontier, seen => do
      let progress ← expand key next stop (depth + 1) frontier { seen := seen }
      if progress.stopped ∨ progress.fresh = [] then pure progress
      else levels left (depth + 1) progress.fresh progress.seen

/-- A search of so many levels. -/
def search (limit : ℕ) (start : β) : Except ε (Progress κ β) :=
  levels key next stop limit 0 [key start] [⟨start, 0, none⟩]

/-- The node a node was found at, the node that one was found at, and so on. -/
def parents (seen : List (Visit κ β)) : ℕ → κ → List κ
  | 0, node => [node]
  | fuel + 1, node =>
    match (seen.find? fun visit => key visit.item = node).bind (·.parent) with
    | some parent => node :: parents seen fuel parent
    | none => [node]

/-- The search finds `last` at `first`. -/
def Finds (first last : κ) : Prop := ∃ items, next first = .ok items ∧ last ∈ items.map key

/-! ## What a search keeps -/

/-- Every visit is at its distance, and its parent is one hop nearer. -/
structure Visited (start : κ) (seen : List (Visit κ β)) : Prop where
  nodup : (keysOf key seen).Nodup
  away : ∀ visit ∈ seen, IsAway (Finds key next) start visit.depth (key visit.item)
  root : ∀ visit ∈ seen, visit.parent = none → visit.depth = 0
  parent : ∀ visit ∈ seen, ∀ parent, visit.parent = some parent →
    Finds key next parent (key visit.item) ∧
      ∃ other ∈ seen, key other.item = parent ∧ other.depth + 1 = visit.depth

/-- No visit is beyond the limit, and the search stops at a visit exactly if it has to. -/
structure Sound (start : κ) (limit : ℕ) (progress : Progress κ β) : Prop
    extends Visited key next start progress.seen where
  within : ∀ visit ∈ progress.seen, visit.depth ≤ limit
  going : progress.stopped = false → ∀ visit ∈ progress.seen, visit.parent ≠ none →
    ∃ count, stop count (key visit.item) = false
  stopped : progress.stopped = true →
    ∃ visit ∈ progress.seen, stop progress.seen.length (key visit.item) = true

/-- Within a level, nothing nearer is missing and the new nodes are those of the next level. -/
structure Level (start : κ) (depth : ℕ) (progress : Progress κ β) : Prop
    extends Sound key next stop start (depth + 1) progress where
  reached : ∀ n ≤ depth, ∀ last, IsAway (Finds key next) start n last →
    last ∈ keysOf key progress.seen
  fresh : ∀ node, node ∈ progress.fresh ↔
    ∃ visit ∈ progress.seen, visit.depth = depth + 1 ∧ key visit.item = node

/-- At the end, nothing within the limit is missing unless the search has stopped. -/
structure Outcome (start : κ) (limit : ℕ) (progress : Progress κ β) : Prop
    extends Sound key next stop start limit progress where
  complete : progress.stopped = false → ∀ n ≤ limit, ∀ last,
    IsAway (Finds key next) start n last → last ∈ keysOf key progress.seen

variable {key next stop} {start : κ} {limit depth : ℕ} {progress : Progress κ β}

omit [DecidableEq κ] in
theorem mem_keysOf {seen : List (Visit κ β)} {node : κ} :
    node ∈ keysOf key seen ↔ ∃ visit ∈ seen, key visit.item = node := by
  simp [keysOf]

omit [DecidableEq κ] in
theorem keysOf_append (seen more : List (Visit κ β)) :
    keysOf key (seen ++ more) = keysOf key seen ++ keysOf key more :=
  map_append

omit [DecidableEq κ] in
/-- The start alone. -/
theorem Level.initial (item : β) :
    Level key next stop (key item) 0 { seen := [⟨item, 0, none⟩] } where
  nodup := nodup_singleton _
  away := by simp [IsAway.zero]
  root := by simp
  parent := by simp
  within := by simp
  going := by simp
  stopped := by simp
  reached := by
    intro _ hn last haway
    obtain rfl := Nat.le_zero.mp hn
    simp [keysOf, show last = key item from haway.1]
  fresh := by simp

omit [DecidableEq κ] in
/-- A visit of a new node that is found at a node of the level. -/
theorem Level.visit (h : Level key next stop start depth progress) (hgoing : progress.stopped = false)
    {parent : κ} (hparent : ∃ other ∈ progress.seen, key other.item = parent ∧ other.depth = depth)
    {item : β} (hfinds : Finds key next parent (key item))
    (hnew : key item ∉ keysOf key progress.seen) :
    Level key next stop start depth ⟨progress.seen ++ [⟨item, depth + 1, some parent⟩],
      progress.fresh ++ [key item], stop (progress.seen.length + 1) (key item)⟩ where
  nodup := by
    rw [keysOf_append]
    exact h.nodup.append (nodup_singleton _) (by simpa [keysOf] using hnew)
  away := by
    obtain ⟨other, hother, rfl, hdepth⟩ := hparent
    intro visit hvisit
    rcases mem_append.mp hvisit with hvisit | hvisit
    · exact h.away visit hvisit
    · rw [mem_singleton.mp hvisit]
      have haway := h.away other hother
      rw [hdepth] at haway
      apply haway.next hfinds
      intro m hm hitem
      exact hnew (h.reached m hm _ hitem)
  root := by
    intro visit hvisit hroot
    rcases mem_append.mp hvisit with hvisit | hvisit
    · exact h.root visit hvisit hroot
    · rw [mem_singleton.mp hvisit] at hroot
      cases hroot
  parent := by
    intro visit hvisit above habove
    rcases mem_append.mp hvisit with hvisit | hvisit
    · obtain ⟨hfound, other, hother, hkey⟩ := h.parent visit hvisit above habove
      exact ⟨hfound, other, mem_append_left _ hother, hkey⟩
    · rw [mem_singleton.mp hvisit] at habove ⊢
      cases habove
      obtain ⟨other, hother, hkey, hdepth⟩ := hparent
      exact ⟨hfinds, other, mem_append_left _ hother, hkey, by rw [hdepth]⟩
  within := by
    intro visit hvisit
    rcases mem_append.mp hvisit with hvisit | hvisit
    · exact h.within visit hvisit
    · rw [mem_singleton.mp hvisit]
  going := by
    intro hstop visit hvisit hroot
    rcases mem_append.mp hvisit with hvisit | hvisit
    · exact h.going hgoing visit hvisit hroot
    · rw [mem_singleton.mp hvisit]
      exact ⟨_, hstop⟩
  stopped := by
    intro hstop
    refine ⟨⟨item, depth + 1, some parent⟩, by simp, ?_⟩
    rw [length_append]
    exact hstop
  reached := by
    intro n hn last haway
    rw [keysOf_append]
    exact mem_append_left _ (h.reached n hn last haway)
  fresh := by
    intro _
    rw [mem_append, h.fresh]
    simp only [mem_append, mem_singleton, or_and_right, exists_or]
    apply or_congr_right
    simp [eq_comm]

theorem Level.visitAll {parent : κ} {items : List β}
    (hitems : ∀ item ∈ items, Finds key next parent (key item)) :
    ∀ {progress : Progress κ β}, Level key next stop start depth progress →
      progress.stopped = false →
      (∃ other ∈ progress.seen, key other.item = parent ∧ other.depth = depth) →
      Level key next stop start depth (visitAll key stop (depth + 1) parent items progress) ∧
        progress.seen ⊆ (visitAll key stop (depth + 1) parent items progress).seen ∧
        ((visitAll key stop (depth + 1) parent items progress).stopped = false →
          ∀ item ∈ items, key item ∈
            keysOf key (visitAll key stop (depth + 1) parent items progress).seen) := by
  induction items with
  | nil =>
    intro _ h _ _
    exact ⟨h, List.Subset.refl _, fun _ item hitem => by cases hitem⟩
  | cons item _ ih =>
    intro progress h hgoing hparent
    have hrest := fun other hother => hitems other (mem_cons_of_mem _ hother)
    rw [BreadthFirst.visitAll]
    by_cases hseen : key item ∈ keysOf key progress.seen
    · rw [if_pos hseen]
      obtain ⟨hlevel, hsub, hall⟩ := ih hrest h hgoing hparent
      refine ⟨hlevel, hsub, ?_⟩
      intro hend other hother
      rcases mem_cons.mp hother with rfl | hother
      · exact map_subset _ hsub hseen
      · exact hall hend other hother
    · rw [if_neg hseen]
      have hvisit := h.visit hgoing hparent (hitems item mem_cons_self) hseen
      have hgrows := subset_append_left progress.seen
        [⟨item, depth + 1, some parent⟩]
      have hmem : key item ∈ keysOf key (progress.seen ++ [⟨item, depth + 1, some parent⟩]) := by
        simp [keysOf]
      dsimp only
      rw [length_append, length_singleton]
      by_cases hstop : stop (progress.seen.length + 1) (key item) = true
      · rw [if_pos hstop]
        rw [hstop] at hvisit
        exact ⟨hvisit, hgrows, fun hend => by cases hend⟩
      · rw [if_neg hstop, hgoing]
        rw [Bool.not_eq_true _ |>.mp hstop] at hvisit
        obtain ⟨other, hother, hkey⟩ := hparent
        obtain ⟨hlevel, hsub, hall⟩ := ih hrest hvisit rfl ⟨other, hgrows hother, hkey⟩
        refine ⟨hlevel, List.Subset.trans hgrows hsub, ?_⟩
        intro hend other hother
        rcases mem_cons.mp hother with rfl | hother
        · exact map_subset _ hsub hmem
        · exact hall hend other hother

/-- Visiting what the nodes of the level lead to. -/
theorem Level.expand {frontier : List κ} :
    ∀ {progress after : Progress κ β}, Level key next stop start depth progress →
      progress.stopped = false →
      (∀ node ∈ frontier, ∃ other ∈ progress.seen, key other.item = node ∧ other.depth = depth) →
      expand key next stop (depth + 1) frontier progress = .ok after →
      Level key next stop start depth after ∧ progress.seen ⊆ after.seen ∧
        (after.stopped = false → ∀ node ∈ frontier, ∀ last, Finds key next node last →
          last ∈ keysOf key after.seen) := by
  induction frontier with
  | nil =>
    intro _ _ h _ _ hafter
    cases hafter
    exact ⟨h, List.Subset.refl _, fun _ node hnode => by cases hnode⟩
  | cons node rest ih =>
    intro progress _ h hgoing hfrontier hafter
    obtain ⟨items, hitems, hafter⟩ := Except.ok_of_bind hafter
    have hfinds : ∀ item ∈ items, Finds key next node (key item) :=
      fun item hitem => ⟨items, hitems, mem_map_of_mem hitem⟩
    obtain ⟨hlevel, hsub, hall⟩ := h.visitAll hfinds hgoing (hfrontier node mem_cons_self)
    by_cases hstopped : (BreadthFirst.visitAll key stop (depth + 1) node items progress).stopped = true
    · rw [if_pos hstopped] at hafter
      cases hafter
      exact ⟨hlevel, hsub, fun hend => by rw [hstopped] at hend; cases hend⟩
    · rw [if_neg hstopped] at hafter
      have hstopped := Bool.not_eq_true _ |>.mp hstopped
      have hrest : ∀ other ∈ rest, ∃ visit ∈
          (BreadthFirst.visitAll key stop (depth + 1) node items progress).seen,
          key visit.item = other ∧ visit.depth = depth := by
        intro other hother
        obtain ⟨visit, hvisit, hkey⟩ := hfrontier other (mem_cons_of_mem _ hother)
        exact ⟨visit, hsub hvisit, hkey⟩
      obtain ⟨hafterLevel, hafterSub, hafterAll⟩ := ih hlevel hstopped hrest hafter
      refine ⟨hafterLevel, List.Subset.trans hsub hafterSub, ?_⟩
      intro hend other hother last hlast
      rcases mem_cons.mp hother with rfl | hother
      · obtain ⟨_, hfound, hmem⟩ := hlast
        rw [hitems] at hfound
        cases hfound
        obtain ⟨item, hitem, rfl⟩ := mem_map.mp hmem
        exact map_subset _ hafterSub (hall hstopped item hitem)
      · exact hafterAll hend other hother last hlast

omit [DecidableEq κ] in
/-- Behind a whole level, the next one begins. -/
theorem Level.whole (h : Level key next stop start depth progress) (hgoing : progress.stopped = false)
    (hreached : ∀ last, IsAway (Finds key next) start (depth + 1) last →
      last ∈ keysOf key progress.seen) :
    Level key next stop start (depth + 1) { seen := progress.seen } where
  toVisited := h.toVisited
  within := fun visit hvisit => (h.within visit hvisit).trans (Nat.le_succ _)
  going := fun _ => h.going hgoing
  stopped := by simp
  reached := by
    intro n hn last haway
    rcases Nat.lt_or_eq_of_le hn with hn | rfl
    · exact h.reached n (Nat.le_of_lt_succ hn) last haway
    · exact hreached last haway
  fresh := by
    intro _
    simp only [not_mem_nil, false_iff, not_exists, not_and]
    intro visit hvisit _
    have hwithin := h.within visit hvisit
    omega

theorem Level.levels {left : ℕ} :
    ∀ {depth : ℕ} {frontier : List κ} {seen : List (Visit κ β)} {after : Progress κ β},
      Level key next stop start depth { seen := seen } →
      (∀ node, node ∈ frontier ↔ ∃ visit ∈ seen, visit.depth = depth ∧ key visit.item = node) →
      levels key next stop left depth frontier seen = .ok after →
      Outcome key next stop start (depth + left) after := by
  induction left with
  | zero =>
    intro _ _ _ _ h _ hafter
    cases hafter
    refine ⟨⟨h.toVisited, ?_, h.going, h.stopped⟩, fun _ => h.reached⟩
    intro visit hvisit
    by_contra hdepth
    have hwithin := h.within visit hvisit
    have hfresh := (h.fresh (key visit.item)).mpr ⟨visit, hvisit, by omega, rfl⟩
    cases hfresh
  | succ _ ih =>
    intro depth frontier seen _ h hfrontier hafter
    obtain ⟨progress, hprogress, hafter⟩ := Except.ok_of_bind hafter
    have hnodes : ∀ node ∈ frontier, ∃ other ∈ seen, key other.item = node ∧ other.depth = depth := by
      intro node hnode
      obtain ⟨visit, hvisit, hdepth, hkey⟩ := (hfrontier node).mp hnode
      exact ⟨visit, hvisit, hkey, hdepth⟩
    obtain ⟨hlevel, _, hall⟩ := h.expand rfl hnodes hprogress
    have hreached : progress.stopped = false →
        ∀ last, IsAway (Finds key next) start (depth + 1) last → last ∈ keysOf key progress.seen := by
      intro hgoing last haway
      obtain ⟨middle, hmiddle, hlast⟩ := haway.predecessor
      obtain ⟨visit, hvisit, rfl⟩ := mem_keysOf.mp (h.reached depth le_rfl middle hmiddle)
      have hdepth := (h.away visit hvisit).unique hmiddle
      exact hall hgoing _ ((hfrontier _).mpr ⟨visit, hvisit, hdepth, rfl⟩) last hlast
    by_cases hend : progress.stopped = true ∨ progress.fresh = []
    · rw [if_pos hend] at hafter
      cases hafter
      refine ⟨⟨hlevel.toVisited, ?_, hlevel.going, hlevel.stopped⟩, ?_⟩
      · intro visit hvisit
        have hwithin := hlevel.within visit hvisit
        omega
      · intro hgoing
        have hfresh := hend.resolve_left (by simp [hgoing])
        -- A level without new nodes has nothing behind it.
        have hnone : ∀ last, ¬ IsAway (Finds key next) start (depth + 1) last := by
          intro last haway
          obtain ⟨visit, hvisit, rfl⟩ := mem_keysOf.mp (hreached hgoing last haway)
          have hdepth := (hlevel.away visit hvisit).unique haway
          have hmem := (hlevel.fresh _).mpr ⟨visit, hvisit, hdepth, rfl⟩
          rw [hfresh] at hmem
          cases hmem
        intro n _ last haway
        rcases Nat.lt_or_ge depth n with hn | hn
        · exact absurd haway (IsAway.below hnone hn)
        · exact hlevel.reached n hn last haway
    · rw [if_neg hend] at hafter
      rw [not_or, Bool.not_eq_true] at hend
      have hnext := ih (hlevel.whole hend.1 (hreached hend.1)) hlevel.fresh hafter
      rwa [Nat.add_right_comm, Nat.add_assoc] at hnext

theorem outcome_search {item : β} {after : Progress κ β}
    (h : search key next stop limit item = .ok after) :
    Outcome key next stop (key item) limit after := by
  have hinitial : Level key next stop (key item) 0 { seen := [⟨item, 0, none⟩] } := Level.initial item
  have hlevels := hinitial.levels (by simp [eq_comm]) h
  rwa [Nat.zero_add] at hlevels

namespace Outcome

variable {seen : List (Visit κ β)}

omit [DecidableEq κ] in
theorem mem_iff (h : Outcome key next stop start limit progress) (hgoing : progress.stopped = false)
    {last : κ} : last ∈ keysOf key progress.seen ↔
      ∃ n ≤ limit, Hops (Finds key next) start n last := by
  constructor
  · intro hmem
    obtain ⟨visit, hvisit, rfl⟩ := mem_keysOf.mp hmem
    exact ⟨visit.depth, h.within visit hvisit, (h.away visit hvisit).1⟩
  · intro hhops
    obtain ⟨_, hn, hhops⟩ := hhops
    obtain ⟨m, hm, haway⟩ := hhops.exists_away
    exact h.complete hgoing m (hm.trans hn) last haway

end Outcome

/-! ## The way back -/

/-- The parents of a visit lead back to the start. -/
theorem Visited.parents {seen : List (Visit κ β)} (h : Visited key next start seen) :
    ∀ {fuel : ℕ} {visit : Visit κ β}, visit ∈ seen → visit.depth ≤ fuel →
      IsPath (Finds key next) start (key visit.item) (parents key seen fuel (key visit.item)).reverse ∧
        (parents key seen fuel (key visit.item)).length = visit.depth + 1 := by
  have hfind : ∀ visit ∈ seen, seen.find? (fun other => key other.item = key visit.item) = some visit := by
    intro visit hvisit
    have hsome : (seen.find? fun other => key other.item = key visit.item).isSome := by
      rw [find?_isSome]
      exact ⟨visit, hvisit, by simp⟩
    obtain ⟨other, hother⟩ := Option.isSome_iff_exists.mp hsome
    have hkey : key other.item = key visit.item := by simpa using find?_some hother
    rw [hother, inj_on_of_nodup_map h.nodup (mem_of_find?_eq_some hother) hvisit hkey]
  have hstart : ∀ visit ∈ seen, visit.depth = 0 → key visit.item = start := by
    intro visit hvisit hdepth
    have haway := h.away visit hvisit
    rw [hdepth] at haway
    exact haway.1
  intro fuel
  induction fuel with
  | zero =>
    intro visit hvisit hdepth
    have hdepth := Nat.le_zero.mp hdepth
    rw [hdepth, hstart visit hvisit hdepth]
    exact ⟨IsPath.single, rfl⟩
  | succ _ ih =>
    intro visit hvisit _
    rw [BreadthFirst.parents, hfind visit hvisit, Option.bind_some]
    cases hparent : visit.parent with
    | none =>
      have hzero := h.root visit hvisit hparent
      rw [hzero, hstart visit hvisit hzero]
      exact ⟨IsPath.single, rfl⟩
    | some parent =>
      obtain ⟨hfinds, _, hother, rfl, hother'⟩ := h.parent visit hvisit parent hparent
      obtain ⟨hpath, hlength⟩ := ih hother (by omega)
      rw [reverse_cons, length_cons, hlength, hother']
      exact ⟨hpath.snoc hfinds, rfl⟩

end Search

end BreadthFirst
