/-
# The plan of owned headers

Every translation unit offers itself and the headers it meets.  A unit keeps its
own candidates; a header has one owner, the least offer by translation unit,
discovery ordinal and path.  The selection is an online minimum over offers in
no particular order, the routes are sorted afterwards, and handles are given out
in that order, so that nothing of the order of arrival is left: routes, handles
and token are a function of the set of candidates.

The handle of a route belongs to its key, the texts of translation unit, path
and partition with a NUL between them.  Two routes share a handle where they
share the key, as a unit's own candidate does with an offer of the same file for
the same partition.

A plan is refused where a candidate lacks a name.  It is never finished where
the search for a handle does not end, which a plan of up to a hundred thousand
candidates rules out.
-/

import CppIndexer.Ast.HandleProbing
import CppIndexer.Lib.ExceptResults
import Mathlib.Data.List.Sort
import Mathlib.Data.Prod.Lex
import Mathlib.Data.Rat.Defs

namespace CppIndexer.Ast

open Util (Bytes ascii)
open Util.Json (decimalNat)
open List CollisionSafeHandleIndex AssocMap

inductive PlannedFileRole where
  | translationUnit
  | ownedHeader
  deriving DecidableEq

/-- `std::to_underlying`, and the `role_order` of the sort. -/
def PlannedFileRole.underlying : PlannedFileRole → ℕ
  | .translationUnit => 0
  | .ownedHeader => 1

structure PlannedSourceSnapshot where
  mtime : Option ℚ
  md5 : Option Bytes
  deriving DecidableEq

structure OwnedHeaderRouteCandidate where
  role : PlannedFileRole
  translationUnit : Bytes
  translationUnitFileId : ℤ
  path : Bytes
  discoveryOrdinal : ℕ
  existingFileId : Option ℤ
  snapshot : PlannedSourceSnapshot
  compileOptions : Option (List Bytes)
  driver : Option Bytes
  cleanupSymbols : Bool
  partition : FactPartitionKey
  deriving DecidableEq

structure FactRoutePartition where
  partition : FactPartitionKey
  transientFileHandle : ℤ

structure PlannedFileRoute where
  role : PlannedFileRole
  translationUnit : Bytes
  translationUnitFileId : ℤ
  path : Bytes
  discoveryOrdinal : ℕ
  existingFileId : Option ℤ
  snapshot : PlannedSourceSnapshot
  compileOptions : Option (List Bytes)
  driver : Option Bytes
  cleanupSymbols : Bool
  extraction : FactRoutePartition

/-- `OwnedHeaderRoutePlan::Data`. -/
structure OwnedHeaderRoutePlan where
  generation : Bytes
  token : Bytes
  routes : List PlannedFileRoute

/-- Why there is no plan: a candidate without a name, or a search for a handle
that never ends. -/
inductive PlanStop where
  | invalidArgument
  | endlessProbing

/-! ## The source -/

/-- `candidate_order`. -/
def candidateOrder (c : OwnedHeaderRouteCandidate) : Bytes ×ₗ ℕ ×ₗ Bytes :=
  toLex (c.translationUnit, toLex (c.discoveryOrdinal, c.path))

/-- What the final sort compares. -/
def routeOrder (c : OwnedHeaderRouteCandidate) : Bytes ×ₗ ℕ ×ₗ ℕ ×ₗ Bytes :=
  toLex (c.translationUnit, toLex (c.role.underlying, toLex (c.discoveryOrdinal, c.path)))

def offer (headers : AssocMap Bytes OwnedHeaderRouteCandidate) (c : OwnedHeaderRouteCandidate) :
    AssocMap Bytes OwnedHeaderRouteCandidate :=
  match headers.find? c.path with
  | none => headers.insertOrAssign c.path c
  | some held =>
    if candidateOrder c < candidateOrder held then headers.insertOrAssign c.path c else headers

/-- The loop over the candidates. -/
def collect : List OwnedHeaderRouteCandidate → List OwnedHeaderRouteCandidate →
    AssocMap Bytes OwnedHeaderRouteCandidate →
    Except PlanStop (List OwnedHeaderRouteCandidate × AssocMap Bytes OwnedHeaderRouteCandidate)
  | [], selected, headers => .ok (selected, headers)
  | c :: rest, selected, headers =>
    if c.translationUnit = [] ∨ c.path = [] then .error .invalidArgument
    else if c.role = .translationUnit then collect rest (selected ++ [c]) headers
    else collect rest selected (offer headers c)

/-- The values of the map, in the order of their paths. -/
def inPathOrder (headers : AssocMap Bytes OwnedHeaderRouteCandidate) : List OwnedHeaderRouteCandidate :=
  (headers.entries.mergeSort fun a b => a.1 ≤ b.1).map Prod.snd

/-- The candidates that become routes, sorted. -/
def select (candidates : List OwnedHeaderRouteCandidate) :
    Except PlanStop (List OwnedHeaderRouteCandidate) := do
  let (selected, headers) ← collect candidates [] .empty
  return (selected ++ inPathOrder headers).mergeSort fun a b => routeOrder a ≤ routeOrder b

def routeKey (translationUnit path : Bytes) (partition : FactPartitionKey) : Bytes :=
  translationUnit ++ [0] ++ path ++ [0] ++ partition.stableString

/-- `planned_route`, with the handle at hand. -/
def plannedRoute (c : OwnedHeaderRouteCandidate) (handle : ℤ) : PlannedFileRoute where
  role := c.role
  translationUnit := c.translationUnit
  translationUnitFileId := c.translationUnitFileId
  path := c.path
  discoveryOrdinal := c.discoveryOrdinal
  existingFileId := c.existingFileId
  snapshot := c.snapshot
  compileOptions := c.compileOptions
  driver := c.driver
  cleanupSymbols := c.cleanupSymbols
  extraction := { partition := c.partition, transientFileHandle := handle }

/-- The loop over the selected candidates, with the index at its end. -/
def plannedRoutes (handles : CollisionSafeHandleIndex) : List OwnedHeaderRouteCandidate →
    Except PlanStop (List PlannedFileRoute × CollisionSafeHandleIndex)
  | [] => .ok ([], handles)
  | c :: rest =>
    match handles.findOrInsert (routeKey c.translationUnit c.path c.partition) with
    | none => .error .endlessProbing
    | some (handle, handles) =>
      match plannedRoutes handles rest with
      | .error stop => .error stop
      | .ok (routes, handles) => .ok (plannedRoute c handle :: routes, handles)

variable (generation : Bytes)

/-- `plan_token`. -/
def planToken (routes : List PlannedFileRoute) : Bytes :=
  decimalNat (stableFactHash (generation ++ routes.flatMap fun route =>
    [0] ++ decimalNat route.role.underlying ++ [0] ++ route.translationUnit ++ [0] ++ route.path ++
      [0] ++ route.snapshot.md5.getD (ascii "<missing>") ++ [0] ++
      route.extraction.partition.stableString)).toNat

/-- `plan_owned_header_routes`. -/
def planOwnedHeaderRoutes (candidates : List OwnedHeaderRouteCandidate) :
    Except PlanStop OwnedHeaderRoutePlan := do
  let selected ← select candidates
  let (routes, _) ← plannedRoutes (.create stableFactHash) selected
  return { generation := generation, token := planToken generation routes, routes := routes }

/-! ## The offers -/

def LeastOffer (candidates : List OwnedHeaderRouteCandidate) (path : Bytes)
    (c : OwnedHeaderRouteCandidate) : Prop :=
  c ∈ candidates ∧ c.role = .ownedHeader ∧ c.path = path ∧
    ∀ d ∈ candidates, d.role = .ownedHeader → d.path = path → candidateOrder c ≤ candidateOrder d

def PlannedFileRoute.Serves (route : PlannedFileRoute) (c : OwnedHeaderRouteCandidate) : Prop :=
  route = plannedRoute c route.extraction.transientFileHandle

/-- The key of a route's handle. -/
def PlannedFileRoute.key (route : PlannedFileRoute) : Bytes :=
  routeKey route.translationUnit route.path route.extraction.partition

variable {headers : AssocMap Bytes OwnedHeaderRouteCandidate} {path : Bytes}
  {handles : CollisionSafeHandleIndex} {candidates selected : List OwnedHeaderRouteCandidate}
  {routes : List PlannedFileRoute} {a b c : OwnedHeaderRouteCandidate}

theorem routeOrder_eq_iff : routeOrder a = routeOrder b ↔
    a.translationUnit = b.translationUnit ∧ a.role = b.role ∧
      a.discoveryOrdinal = b.discoveryOrdinal ∧ a.path = b.path := by
  have hrole : a.role.underlying = b.role.underlying ↔ a.role = b.role := by
    cases a.role <;> cases b.role <;> decide
  simp [routeOrder, hrole]

theorem candidateOrder_eq_iff :
    candidateOrder a = candidateOrder b ↔ a.translationUnit = b.translationUnit ∧
      a.discoveryOrdinal = b.discoveryOrdinal ∧ a.path = b.path := by
  simp [candidateOrder]

/-- No two candidates agree in translation unit, role, ordinal and path. -/
def Distinct (candidates : List OwnedHeaderRouteCandidate) : Prop :=
  candidates.Pairwise fun a b => routeOrder a ≠ routeOrder b

theorem Distinct.nodup (h : Distinct candidates) : candidates.Nodup :=
  List.Pairwise.imp (fun hne heq => hne (by rw [heq])) h

theorem Distinct.eq_of_routeOrder (h : Distinct candidates) (ha : a ∈ candidates)
    (hb : b ∈ candidates) (heq : routeOrder a = routeOrder b) : a = b := by
  have hnodup : (candidates.map routeOrder).Nodup := pairwise_map.mpr h
  exact inj_on_of_nodup_map hnodup ha hb heq

theorem LeastOffer.unique (h : Distinct candidates) (ha : LeastOffer candidates path a)
    (hb : LeastOffer candidates path b) : a = b := by
  have hle := ha.2.2.2 b hb.1 hb.2.1 hb.2.2.1
  have hge := hb.2.2.2 a ha.1 ha.2.1 ha.2.2.1
  have horder := candidateOrder_eq_iff.mp (le_antisymm hle hge)
  apply h.eq_of_routeOrder ha.1 hb.1
  rw [routeOrder_eq_iff]
  exact ⟨horder.1, ha.2.1.trans hb.2.1.symm, horder.2⟩

/-- The map holds the least offer of each path. -/
def Owners (headers : AssocMap Bytes OwnedHeaderRouteCandidate)
    (offers : List OwnedHeaderRouteCandidate) : Prop :=
  ∀ path, match headers.find? path with
    | none => ∀ d ∈ offers, d.path ≠ path
    | some c => c ∈ offers ∧ c.path = path ∧
        ∀ d ∈ offers, d.path = path → candidateOrder c ≤ candidateOrder d

variable {final : CollisionSafeHandleIndex} {shuffled offers : List OwnedHeaderRouteCandidate}

theorem Owners.offer (h : Owners headers offers)
    (c : OwnedHeaderRouteCandidate) : Owners (Ast.offer headers c) (offers ++ [c]) := by
  intro path
  have hpath := h path
  by_cases hsame : path = c.path
  · rw [hsame] at hpath ⊢
    unfold Ast.offer
    cases hheld : headers.find? c.path with
    | none =>
      rw [hheld] at hpath
      simp only [find?_insertOrAssign, if_true]
      refine ⟨by simp, trivial, ?_⟩
      intro d hd hdpath
      cases mem_append.mp hd with
      | inl hearlier => exact absurd hdpath (hpath d hearlier)
      | inr hlast => rw [mem_singleton.mp hlast]
    | some held =>
      rw [hheld] at hpath
      obtain ⟨hmem, hheldpath, hleast⟩ := hpath
      by_cases hlt : candidateOrder c < candidateOrder held
      · simp only [if_pos hlt, find?_insertOrAssign, if_true]
        refine ⟨by simp, trivial, ?_⟩
        intro d hd hdpath
        cases mem_append.mp hd with
        | inl hearlier => exact hlt.le.trans (hleast d hearlier hdpath)
        | inr hlast => rw [mem_singleton.mp hlast]
      · simp only [if_neg hlt, hheld]
        refine ⟨by simp [hmem], hheldpath, ?_⟩
        intro d hd hdpath
        cases mem_append.mp hd with
        | inl hearlier => exact hleast d hearlier hdpath
        | inr hlast =>
          rw [mem_singleton.mp hlast]
          exact not_lt.mp hlt
  · have hfind : (Ast.offer headers c).find? path = headers.find? path := by
      unfold Ast.offer
      split
      · simp [hsame]
      · split
        · simp [hsame]
        · rfl
    rw [hfind]
    cases hheld : headers.find? path with
    | none =>
      rw [hheld] at hpath
      intro d hd
      cases mem_append.mp hd with
      | inl hearlier => exact hpath d hearlier
      | inr hlast =>
        rw [mem_singleton.mp hlast]
        exact fun heq => hsame heq.symm
    | some =>
      rw [hheld] at hpath
      refine ⟨by simp [hpath.1], hpath.2.1, ?_⟩
      intro d hd hdpath
      cases mem_append.mp hd with
      | inl hearlier => exact hpath.2.2 d hearlier hdpath
      | inr hlast =>
        rw [mem_singleton.mp hlast] at hdpath
        exact absurd hdpath.symm hsame

theorem Owners.foldl (h : Owners headers offers) (more : List OwnedHeaderRouteCandidate) :
    Owners (more.foldl Ast.offer headers) (offers ++ more) := by
  induction more generalizing headers offers with
  | nil =>
    rw [append_nil]
    exact h
  | cons c _ ih =>
    rw [append_cons]
    exact ih (h.offer c)

theorem owners_empty : Owners .empty [] := by
  intro _
  simp

/-! ## The selection -/

/-- A candidate without a name. -/
def unnamed (c : OwnedHeaderRouteCandidate) : Bool := c.translationUnit = [] ∨ c.path = []

def isUnit (c : OwnedHeaderRouteCandidate) : Bool := c.role = .translationUnit

theorem collect_eq (candidates selected : List OwnedHeaderRouteCandidate)
    (headers : AssocMap Bytes OwnedHeaderRouteCandidate) : collect candidates selected headers =
      if candidates.any unnamed then .error .invalidArgument
      else .ok (selected ++ candidates.filter isUnit,
        (candidates.filter fun c => !isUnit c).foldl offer headers) := by
  induction candidates generalizing selected headers with
  | nil => simp [collect]
  | cons c _ ih =>
    by_cases hunnamed : c.translationUnit = [] ∨ c.path = []
    · rw [collect, if_pos hunnamed]
      simp [unnamed, hunnamed]
    · by_cases hunit : c.role = .translationUnit
      · rw [collect, if_neg hunnamed, if_pos hunit, ih]
        simp [unnamed, hunnamed, isUnit, hunit]
      · rw [collect, if_neg hunnamed, if_neg hunit, ih]
        simp [unnamed, hunnamed, isUnit, hunit]

/-- The owners the offers of some candidates leave. -/
def ownersOf (candidates : List OwnedHeaderRouteCandidate) : AssocMap Bytes OwnedHeaderRouteCandidate :=
  (candidates.filter fun c => !isUnit c).foldl offer .empty

/-- The selected candidates before the sort. -/
def chosen (candidates : List OwnedHeaderRouteCandidate) : List OwnedHeaderRouteCandidate :=
  candidates.filter isUnit ++ inPathOrder (ownersOf candidates)

theorem select_eq (candidates : List OwnedHeaderRouteCandidate) :
    select candidates = if candidates.any unnamed then .error .invalidArgument
      else .ok ((chosen candidates).mergeSort fun a b => routeOrder a ≤ routeOrder b) := by
  rw [select, collect_eq]
  split <;> rfl

theorem find?_ownersOf (h : Distinct candidates) :
    (ownersOf candidates).find? path = some c ↔ LeastOffer candidates path c := by
  have hmem : ∀ d, d ∈ candidates.filter (fun c => !isUnit c) ↔
      d ∈ candidates ∧ d.role = .ownedHeader := by
    intro d
    have hrole : isUnit d = false ↔ d.role = .ownedHeader := by
      cases hd : d.role <;> simp [isUnit, hd]
    simp [hrole]
  have howners := owners_empty.foldl (candidates.filter fun c => !isUnit c) path
  rw [nil_append] at howners
  have hfound : ∀ owner, (ownersOf candidates).find? path = some owner →
      LeastOffer candidates path owner := by
    intro owner hfind
    rw [ownersOf] at hfind
    rw [hfind] at howners
    obtain ⟨hin, hpath, hleast⟩ := howners
    exact ⟨((hmem owner).mp hin).1, ((hmem owner).mp hin).2, hpath,
      fun d hd hrole => hleast d ((hmem d).mpr ⟨hd, hrole⟩)⟩
  constructor
  · exact hfound c
  · intro hleast
    cases hfind : (ownersOf candidates).find? path with
    | none =>
      rw [ownersOf] at hfind
      rw [hfind] at howners
      exact absurd hleast.2.2.1 (howners c ((hmem c).mpr ⟨hleast.1, hleast.2.1⟩))
    | some owner => rw [(hfound owner hfind).unique h hleast]

theorem mem_inPathOrder : c ∈ inPathOrder headers ↔ ∃ path, headers.find? path = some c := by
  simp [inPathOrder, find?_eq_some_iff]

section

variable (h : Distinct candidates)
include h

theorem mem_chosen : c ∈ chosen candidates ↔
      c ∈ candidates ∧ c.role = .translationUnit ∨ LeastOffer candidates c.path c := by
  rw [chosen, mem_append, mem_inPathOrder, mem_filter, isUnit, decide_eq_true_eq]
  apply or_congr_right
  constructor
  · rintro ⟨_, hfind⟩
    have hleast := (find?_ownersOf h).mp hfind
    rwa [← hleast.2.2.1] at hleast
  · intro hleast
    exact ⟨c.path, (find?_ownersOf h).mpr hleast⟩

theorem chosen_subset (hc : c ∈ chosen candidates) : c ∈ candidates := by
  cases (mem_chosen h).mp hc with
  | inl hunit => exact hunit.1
  | inr hleast => exact hleast.1

theorem nodup_inPathOrder : (inPathOrder (ownersOf candidates)).Nodup := by
  have hperm := (ownersOf candidates).entries.mergeSort_perm fun a b => decide (a.1 ≤ b.1)
  apply (hperm.map Prod.snd).nodup_iff.mpr
  apply List.Nodup.map_on
  · intro a ha b hb heq
    have hleft := (find?_ownersOf h).mp ((find?_eq_some_iff _ _ _).mpr ha)
    have hright := (find?_ownersOf h).mp ((find?_eq_some_iff _ _ _).mpr hb)
    have hpath : a.1 = b.1 := by rw [← hleft.2.2.1, ← hright.2.2.1, heq]
    exact Prod.ext hpath heq
  · exact List.Nodup.of_map _ (ownersOf candidates).nodup

theorem nodup_chosen : (chosen candidates).Nodup := by
  apply List.Nodup.append (h.nodup.filter _) (nodup_inPathOrder h)
  intro _ hunit hheader
  obtain ⟨_, hfind⟩ := mem_inPathOrder.mp hheader
  have hrole := ((find?_ownersOf h).mp hfind).2.1
  rw [mem_filter, isUnit, hrole] at hunit
  exact absurd hunit.2 (by decide)

theorem Distinct.perm (hperm : shuffled.Perm candidates) : Distinct shuffled :=
  hperm.symm.pairwise h fun hab hba => hab hba.symm

/-- The order of the candidates leaves no trace in the selection. -/
theorem select_perm (hperm : shuffled.Perm candidates) : select shuffled = select candidates := by
  have hshuffled := h.perm hperm
  have hleast : ∀ path c, LeastOffer shuffled path c ↔ LeastOffer candidates path c := by
    intro _ _
    simp [LeastOffer, hperm.mem_iff]
  have hchosen : (chosen shuffled).Perm (chosen candidates) := by
    apply (perm_ext_iff_of_nodup (nodup_chosen hshuffled) (nodup_chosen h)).mpr
    intro _
    rw [mem_chosen hshuffled, mem_chosen h, hperm.mem_iff, hleast]
  have hsorted : ∀ xs : List OwnedHeaderRouteCandidate,
      (xs.mergeSort fun a b => routeOrder a ≤ routeOrder b).Pairwise
        fun a b => routeOrder a ≤ routeOrder b := by
    intro xs
    have hpairwise := @List.pairwise_mergeSort _ (fun a b => decide (routeOrder a ≤ routeOrder b))
      (fun a b c hab hbc => by simpa using le_trans (by simpa using hab) (by simpa using hbc))
      (fun a b => by simpa using le_total (routeOrder a) (routeOrder b)) xs
    simpa using hpairwise
  have hsort : ((chosen shuffled).mergeSort fun a b => routeOrder a ≤ routeOrder b) =
      (chosen candidates).mergeSort fun a b => routeOrder a ≤ routeOrder b := by
    apply List.Perm.eq_of_pairwise _ (hsorted _) (hsorted _)
    · exact (mergeSort_perm _ _).trans (hchosen.trans (mergeSort_perm _ _).symm)
    · intro _ _ ha hb hab hba
      have hina := chosen_subset hshuffled ((mergeSort_perm _ _).mem_iff.mp ha)
      have hinb := chosen_subset h ((mergeSort_perm _ _).mem_iff.mp hb)
      exact h.eq_of_routeOrder (hperm.mem_iff.mp hina) hinb (le_antisymm hab hba)
  rw [select_eq, select_eq, hsort, hperm.any_eq]

end

/-! ## The routes -/

/-- One step keeps the handles given out before it. -/
theorem plannedRoutes_keeps
    (h : plannedRoutes handles selected = .ok (routes, final)) {key : Bytes} {handle : ℤ}
    (hfind : handles.handlesByKey.find? key = some handle) :
    final.handlesByKey.find? key = some handle := by
  induction selected generalizing handles routes with
  | nil =>
    cases h
    exact hfind
  | cons c rest ih =>
    rw [plannedRoutes] at h
    split at h
    · cases h
    · rename_i number after hinsert
      split at h
      · cases h
      · rename_i routes' final' hrest
        cases h
        apply ih hrest
        rw [findOrInsert_handles hinsert]
        by_cases hkey : key = routeKey c.translationUnit c.path c.partition
        · rw [if_pos hkey]
          rw [hkey] at hfind
          exact findOrInsert_known hinsert hfind
        · rw [if_neg hkey]
          exact hfind

/-- Each candidate has its route, whose handle is the one of its key in the
index at the end. -/
theorem plannedRoutes_serve (h : plannedRoutes handles selected = .ok (routes, final)) :
    List.Forall₂ (fun c route => route.Serves c ∧
      final.handlesByKey.find? route.key = some route.extraction.transientFileHandle)
      selected routes := by
  induction selected generalizing handles routes with
  | nil =>
    cases h
    exact .nil
  | cons c rest ih =>
    rw [plannedRoutes] at h
    split at h
    · cases h
    · rename_i handle after hinsert
      split at h
      · cases h
      · rename_i routes' final' hrest
        cases h
        have hown : after.handlesByKey.find? (routeKey c.translationUnit c.path c.partition) =
            some handle := by
          rw [findOrInsert_handles hinsert, if_pos rfl]
        exact .cons ⟨rfl, plannedRoutes_keeps hrest hown⟩ (ih hrest)

/-- Up to a hundred thousand routes, every search ends. -/
theorem plannedRoutes_ends (hfew : handles.keysByHandle.entries.length + selected.length ≤ 100000) :
    ∃ result, plannedRoutes handles selected = .ok result := by
  induction selected generalizing handles with
  | nil => exact ⟨_, rfl⟩
  | cons c _ ih =>
    rw [length_cons] at hfew
    cases hinsert : handles.findOrInsert (routeKey c.translationUnit c.path c.partition) with
    | none =>
      exact absurd hinsert (findOrInsert_ne_none (by omega) _)
    | some found =>
      have hgrowth := findOrInsert_length hinsert
      obtain ⟨result, hrest⟩ := @ih found.2 (by omega)
      exact ⟨(plannedRoute c found.1 :: result.1, result.2), by simp [plannedRoutes, hinsert, hrest]⟩

/-! ## The plan -/

theorem planOwnedHeaderRoutes_eq (candidates : List OwnedHeaderRouteCandidate) :
    planOwnedHeaderRoutes generation candidates =
      match select candidates with
      | .error stop => .error stop
      | .ok selected =>
        match plannedRoutes (.create stableFactHash) selected with
        | .error stop => .error stop
        | .ok (routes, _) =>
          .ok { generation := generation, token := planToken generation routes, routes := routes } := by
  rw [planOwnedHeaderRoutes]
  cases select candidates with
  | error => rfl
  | ok selected =>
    change (plannedRoutes (.create stableFactHash) selected >>= fun result => pure _) =
      match plannedRoutes (.create stableFactHash) selected with
      | .error stop => .error stop
      | .ok (routes, _) => .ok _
    cases plannedRoutes (.create stableFactHash) selected with
    | error => rfl
    | ok => rfl

theorem plannedRoutes_error {stop : PlanStop}
    (h : plannedRoutes handles selected = .error stop) : stop = .endlessProbing := by
  induction selected generalizing handles with
  | nil => cases h
  | cons c rest ih =>
    rw [plannedRoutes] at h
    split at h
    · cases h
      rfl
    · split at h
      · rename_i hrest
        cases h
        exact ih hrest
      · cases h

theorem any_unnamed_iff :
    candidates.any unnamed = true ↔ ∃ c ∈ candidates, c.translationUnit = [] ∨ c.path = [] := by
  simp [unnamed]

theorem plan_refused_iff (candidates : List OwnedHeaderRouteCandidate) :
    planOwnedHeaderRoutes generation candidates = .error .invalidArgument ↔
      ∃ c ∈ candidates, c.translationUnit = [] ∨ c.path = [] := by
  rw [← any_unnamed_iff, planOwnedHeaderRoutes_eq, select_eq]
  cases hany : candidates.any unnamed with
  | true => simp
  | false =>
    simp only [Bool.false_eq_true, if_false, iff_false]
    split
    · rename_i stop hroutes
      rw [plannedRoutes_error hroutes]
      simp
    · simp

theorem length_chosen_le (h : Distinct candidates) : (chosen candidates).length ≤ candidates.length :=
  ((nodup_chosen h).subperm fun _ hc => chosen_subset h hc).length_le

theorem plan_ends (generation : Bytes) (h : Distinct candidates) (hfew : candidates.length ≤ 100000) :
    planOwnedHeaderRoutes generation candidates ≠ .error .endlessProbing := by
  rw [planOwnedHeaderRoutes_eq, select_eq]
  cases hany : candidates.any unnamed with
  | true => simp
  | false =>
    simp only [Bool.false_eq_true, if_false]
    have hlength := length_chosen_le h
    have hcount : (create stableFactHash).keysByHandle.entries.length +
        ((chosen candidates).mergeSort fun a b => routeOrder a ≤ routeOrder b).length ≤ 100000 := by
      rw [length_mergeSort]
      show 0 + _ ≤ 100000
      omega
    obtain ⟨_, hroutes⟩ := plannedRoutes_ends hcount
    rw [hroutes]
    simp

/-- What the routes of a plan are: one for each chosen candidate, with handles
that stand for their keys. -/
theorem plan_routes {generation : Bytes}
    {plan : OwnedHeaderRoutePlan} (h : planOwnedHeaderRoutes generation candidates = .ok plan) :
    ∃ selected, selected.Perm (chosen candidates) ∧
      List.Forall₂ (fun c route => PlannedFileRoute.Serves route c) selected plan.routes ∧
      ∀ r ∈ plan.routes, ∀ s ∈ plan.routes,
        r.extraction.transientFileHandle = s.extraction.transientFileHandle ↔ r.key = s.key := by
  rw [planOwnedHeaderRoutes_eq, select_eq] at h
  cases hany : candidates.any unnamed with
  | true => simp [hany] at h
  | false =>
    simp only [hany, Bool.false_eq_true, if_false] at h
    split at h
    · cases h
    · rename_i routes final hroutes
      cases h
      have hserve := plannedRoutes_serve hroutes
      refine ⟨_, mergeSort_perm _ _, hserve.imp fun _ _ hboth => hboth.1, ?_⟩
      intro r hr s hs
      have hheld : ∀ route ∈ routes, final.handlesByKey.find? route.key =
          some route.extraction.transientFileHandle := by
        intro _ hroute
        obtain ⟨_, -, hboth⟩ := hserve.exists_left hroute
        exact hboth.2
      constructor
      · intro hhandle
        apply key_unique (hheld r hr)
        rw [hhandle]
        exact hheld s hs
      · intro hkey
        have hleft := hheld r hr
        rw [hkey, hheld s hs] at hleft
        exact (Option.some.inj hleft).symm

def PlannedFileRoute.heads (path : Bytes) (route : PlannedFileRoute) : Bool :=
  route.role = .ownedHeader ∧ route.path = path

theorem PlannedFileRoute.Serves.heads {route : PlannedFileRoute}
    (h : route.Serves c) (path : Bytes) :
    route.heads path = decide (c.role = .ownedHeader ∧ c.path = path) := by
  rw [h, PlannedFileRoute.heads, plannedRoute]

theorem serves_filter_header
    (h : List.Forall₂ (fun c route => PlannedFileRoute.Serves route c) selected routes)
    (path : Bytes) : List.Forall₂ (fun c route => PlannedFileRoute.Serves route c)
      (selected.filter fun c => decide (c.role = .ownedHeader ∧ c.path = path))
      (routes.filter (PlannedFileRoute.heads path)) := by
  induction h with
  | nil => exact .nil
  | cons hserves _ ih =>
    rw [filter_cons, filter_cons, hserves.heads path]
    split
    · exact .cons hserves ih
    · exact ih

/-- The chosen candidates of a header are its owner alone. -/
theorem chosen_filter_header (h : Distinct candidates) (hperm : selected.Perm (chosen candidates))
    {owner : OwnedHeaderRouteCandidate} (howner : LeastOffer candidates path owner) :
    selected.filter (fun c => decide (c.role = .ownedHeader ∧ c.path = path)) = [owner] := by
  apply perm_singleton.mp
  apply (perm_ext_iff_of_nodup _ (nodup_singleton owner)).mpr
  · intro _
    rw [mem_filter, mem_singleton, hperm.mem_iff, mem_chosen h, decide_eq_true_eq]
    constructor
    · rintro ⟨hunit | hleast, hrole, hpath⟩
      · rw [hrole] at hunit
        cases hunit.2
      · rw [hpath] at hleast
        exact hleast.unique h howner
    · intro hc
      rw [hc]
      refine ⟨.inr ?_, howner.2.1, howner.2.2.1⟩
      rw [howner.2.2.1]
      exact howner
  · exact (hperm.nodup_iff.mpr (nodup_chosen h)).filter _

/-- Some offer of a path is the least. -/
theorem exists_leastOffer (h : Distinct candidates)
    (hc : c ∈ candidates) (hrole : c.role = .ownedHeader) :
    ∃ owner, LeastOffer candidates c.path owner := by
  have howners := owners_empty.foldl (candidates.filter fun c => !isUnit c) c.path
  rw [nil_append] at howners
  cases hfind : (ownersOf candidates).find? c.path with
  | some owner => exact ⟨owner, (find?_ownersOf h).mp hfind⟩
  | none =>
    rw [ownersOf] at hfind
    rw [hfind] at howners
    have hmem : c ∈ candidates.filter fun c => !isUnit c := by
      rw [mem_filter, isUnit, hrole]
      exact ⟨hc, by decide⟩
    exact absurd rfl (howners c hmem)

/-! ## Keys -/

theorem append_nul_inj {a b x y : Bytes} (ha : 0 ∉ a) (hb : 0 ∉ b)
    (h : a ++ 0 :: x = b ++ 0 :: y) : a = b ∧ x = y := by
  induction a generalizing b with
  | nil =>
    cases b with
    | nil => exact ⟨rfl, (cons.inj h).2⟩
    | cons => exact absurd (by rw [(cons.inj h).1]; simp) hb
  | cons _ _ ih =>
    cases b with
    | nil => exact absurd (by rw [← (cons.inj h).1]; simp) ha
    | cons =>
      have hcons := cons.inj h
      simp only [mem_cons, not_or] at ha hb
      have hrest := ih ha.2 hb.2 hcons.2
      exact ⟨by rw [hcons.1, hrest.1], hrest.2⟩

/-- Without NULs in the names, the key has all three parts. -/
theorem routeKey_inj {unit unit' path' : Bytes} {partition partition' : FactPartitionKey}
    (hunit : 0 ∉ unit) (hunit' : 0 ∉ unit') (hpath : 0 ∉ path) (hpath' : 0 ∉ path') :
    routeKey unit path partition = routeKey unit' path' partition' ↔
      unit = unit' ∧ path = path' ∧ partition = partition' := by
  constructor
  · intro h
    simp only [routeKey, append_assoc, singleton_append] at h
    have hfirst := append_nul_inj hunit hunit' h
    have hsecond := append_nul_inj hpath hpath' hfirst.2
    have hthird := FactPartitionKey.delimits_stableString.injective hsecond.2
    exact ⟨hfirst.1, hsecond.1, hthird⟩
  · rintro ⟨rfl, rfl, rfl⟩
    rfl

/-! ## One file, offered twice -/

/-- A unit `"a"` that meets its own file as a header, for the same partition. -/
def selfOffers : List OwnedHeaderRouteCandidate :=
  let partition : FactPartitionKey :=
    { file := { componentPath := [], directoryPath := [], fileName := ascii "a" }
      configuration :=
        { semanticUniverse := [], translationUnit := ascii "a", normalizedConfiguration := []
          identitySource := ascii "a"
          content :=
            { driver := none, workingDir := none, arguments := [], langMode := none
              resourceDir := none } } }
  let candidate (role : PlannedFileRole) (ordinal : ℕ) : OwnedHeaderRouteCandidate :=
    { role := role, translationUnit := ascii "a", translationUnitFileId := 1, path := ascii "a"
      discoveryOrdinal := ordinal, existingFileId := none
      snapshot := { mtime := none, md5 := none }, compileOptions := none, driver := none
      cleanupSymbols := true, partition := partition }
  [candidate .translationUnit 0, candidate .ownedHeader 1]

theorem distinct_selfOffers : Distinct selfOffers := by
  apply List.Pairwise.cons
  · intro _ hc
    rw [mem_singleton.mp hc, Ne, routeOrder_eq_iff]
    decide
  · exact pairwise_singleton _ _

/-! ## The plan, whatever the order -/

/-- The plan is a function of the set of candidates, refused for missing names
alone.  It has the candidate of every unit and, for every header offered, the
least offer and no other; and two routes have one handle exactly when they have
one key. -/
theorem plan_owned_header_routes_determined (generation : Bytes)
    {candidates : List OwnedHeaderRouteCandidate} (hdistinct : Distinct candidates) :
    (∀ shuffled : List OwnedHeaderRouteCandidate, shuffled.Perm candidates →
      planOwnedHeaderRoutes generation shuffled = planOwnedHeaderRoutes generation candidates) ∧
    (planOwnedHeaderRoutes generation candidates = .error .invalidArgument ↔
      ∃ c ∈ candidates, c.translationUnit = [] ∨ c.path = []) ∧
    (candidates.length ≤ 100000 → planOwnedHeaderRoutes generation candidates ≠ .error .endlessProbing) ∧
    ∀ plan, planOwnedHeaderRoutes generation candidates = .ok plan →
      (∀ route ∈ plan.routes, ∃ c ∈ candidates, route.Serves c) ∧
      (∀ c ∈ candidates, c.role = .translationUnit → ∃ route ∈ plan.routes, route.Serves c) ∧
      (∀ c ∈ candidates, c.role = .ownedHeader →
        ∃ owner route, LeastOffer candidates c.path owner ∧ route.Serves owner ∧
          plan.routes.filter (PlannedFileRoute.heads c.path) = [route]) ∧
      (∀ r ∈ plan.routes, ∀ s ∈ plan.routes,
        r.extraction.transientFileHandle = s.extraction.transientFileHandle ↔ r.key = s.key) ∧
      ∀ r s : PlannedFileRoute, 0 ∉ r.translationUnit → 0 ∉ s.translationUnit →
        0 ∉ r.path → 0 ∉ s.path →
        (r.key = s.key ↔ r.translationUnit = s.translationUnit ∧ r.path = s.path ∧
          r.extraction.partition = s.extraction.partition) := by
  refine ⟨?_, plan_refused_iff generation candidates, plan_ends generation hdistinct, ?_⟩
  · intro _ hperm
    rw [planOwnedHeaderRoutes_eq, planOwnedHeaderRoutes_eq, select_perm hdistinct hperm]
  · intro plan hplan
    obtain ⟨_, hperm, hserve, hhandles⟩ := plan_routes hplan
    refine ⟨?_, ?_, ?_, hhandles, ?_⟩
    · intro _ hroute
      obtain ⟨c, hc, hserves⟩ := hserve.exists_left hroute
      exact ⟨c, chosen_subset hdistinct (hperm.mem_iff.mp hc), hserves⟩
    · intro _ hc hrole
      have hselected := hperm.mem_iff.mpr ((mem_chosen hdistinct).mpr (.inl ⟨hc, hrole⟩))
      exact hserve.flip.exists_left hselected
    · intro c hc hrole
      obtain ⟨owner, howner⟩ := exists_leastOffer hdistinct hc hrole
      have hfiltered := serves_filter_header hserve c.path
      rw [chosen_filter_header hdistinct hperm howner] at hfiltered
      cases hroutes : plan.routes.filter (PlannedFileRoute.heads c.path) with
      | nil =>
        rw [hroutes] at hfiltered
        cases hfiltered
      | cons route =>
        rw [hroutes] at hfiltered
        cases hfiltered with
        | cons hserves hrest =>
          cases hrest
          exact ⟨owner, route, howner, hserves, rfl⟩
    · intro _ _ hr hs hrpath hspath
      exact routeKey_inj hr hs hrpath hspath

theorem plan_owned_header_routes_determined_reversed : Distinct selfOffers ∧
      planOwnedHeaderRoutes [] selfOffers.reverse = planOwnedHeaderRoutes [] selfOffers :=
  ⟨distinct_selfOffers, (plan_owned_header_routes_determined [] distinct_selfOffers).1 _ (reverse_perm _)⟩

/-- Distinct routes may share their transient handle. -/
theorem distinct_routes_share_a_handle :
    Distinct selfOffers ∧ ∃ plan, planOwnedHeaderRoutes [] selfOffers = .ok plan ∧
      ∃ r ∈ plan.routes, ∃ s ∈ plan.routes, r ≠ s ∧
        r.extraction.transientFileHandle = s.extraction.transientFileHandle := by
  refine ⟨distinct_selfOffers, ?_⟩
  have hnames : planOwnedHeaderRoutes [] selfOffers ≠ .error .invalidArgument := by
    rw [Ne, plan_refused_iff]
    decide
  have hends := plan_ends [] distinct_selfOffers (by decide)
  cases hplan : planOwnedHeaderRoutes [] selfOffers with
  | error stop =>
    cases stop with
    | invalidArgument => exact absurd hplan hnames
    | endlessProbing => exact absurd hplan hends
  | ok plan =>
    obtain ⟨_, hperm, hserve, hhandles⟩ := plan_routes hplan
    have hroute : ∀ c ∈ selfOffers, ∃ route ∈ plan.routes, route.Serves c := by
      intro c _
      apply hserve.flip.exists_left
      apply hperm.mem_iff.mpr
      rw [mem_chosen distinct_selfOffers]
      revert c
      unfold LeastOffer
      decide
    obtain ⟨r, hr, hrserves⟩ := hroute selfOffers[0] (by decide)
    obtain ⟨s, hs, hsserves⟩ := hroute selfOffers[1] (by decide)
    refine ⟨plan, rfl, r, hr, s, hs, ?_, ?_⟩
    · intro heq
      have hrole : r.role = s.role := by rw [heq]
      rw [hrserves, hsserves] at hrole
      cases hrole
    · rw [hhandles r hr s hs, hrserves, hsserves]
      rfl

end CppIndexer.Ast
