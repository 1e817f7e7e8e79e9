/-
# Cached source identities

The service remembers the identities of paths and the keys of universes it was asked for. An operation
that may change an identity empties the first memory, and one that may change a key removes that key
from the second. Rolling a transaction back restores the rows and neither memory, so what was asked
for inside it may outlive the rows it was computed from.
-/

import CppIndexer.Storage.Corpus

namespace CppIndexer.Sources

open Util (Bytes ascii)
open Util.PathUtil
open Occurrences (insertNew find?_insertNew_of_some find?_nextRowId)
open Option Corpus AssocMap Forgets

/-! ## The service -/

/-- The rows, those to roll back to inside a transaction, and both caches. -/
structure Service where
  corpus : Corpus := {}
  journal : Option Corpus := none
  sourceIdentities : AssocMap Bytes Bytes := .empty
  universeKeys : AssocMap ℕ Bytes := .empty

/-- What a caller does with the service. -/
inductive Event
  | operation (op : Operation)
  | identity (path : Bytes)
  | universeKey (universeId : ℕ)
  | begin_
  | commit
  | rollback

section

variable (s : Surroundings)

namespace Service

variable (service : Service)

def forget : Forgets → Service
  | .nothing => service
  | .sources => { service with sourceIdentities := .empty }
  | .universe id => { service with universeKeys := service.universeKeys.eraseWhere fun key _ => key = id }

/-- An operation; one that throws changes nothing. -/
def operate (op : Operation) : Service :=
  match service.corpus.run s op with
  | .ok (corpus, forgets) => { service with corpus := corpus }.forget forgets
  | .error _ => service

/-- `portable_source_identity_for_path`. -/
def portableSourceIdentityForPath (path : Bytes) : Bytes × Service :=
  let abs := resolveAbs s path
  match service.sourceIdentities.find? abs with
  | some identity => (identity, service)
  | none =>
    let identity := service.corpus.sourceIdentity s abs
    (identity, { service with
      sourceIdentities := service.sourceIdentities.insertOrAssign abs identity })

/-- `semantic_universe_key`. -/
def semanticUniverseKey (universeId : ℕ) : Bytes × Service :=
  match service.universeKeys.find? universeId with
  | some key => (key, service)
  | none =>
    let key := service.corpus.universeKey universeId
    (key, { service with universeKeys := service.universeKeys.insertOrAssign universeId key })

/-- `Transaction::Transaction`; a nested one throws. -/
def beginTransaction : Service :=
  match service.journal with
  | some _ => service
  | none => { service with journal := some service.corpus }

/-- `Transaction::commit`. -/
def commit : Service := { service with journal := none }

/-- `Transaction::rollback`, and the destructor of a transaction that was not committed. -/
def rollback : Service :=
  match service.journal with
  | some corpus => { service with corpus := corpus, journal := none }
  | none => service

def step : Event → Service
  | .operation op => service.operate s op
  | .identity path => (service.portableSourceIdentityForPath s path).2
  | .universeKey universeId => (service.semanticUniverseKey universeId).2
  | .begin_ => service.beginTransaction
  | .commit => service.commit
  | .rollback => service.rollback

def play (events : List Event) : Service := events.foldl (step s) service

/-! ## What is to hold -/

/-- Both queries answer what a service without caches computes from the same rows. -/
structure Fresh : Prop where
  identity : ∀ path, (service.portableSourceIdentityForPath s path).1 =
    service.corpus.sourceIdentity s (resolveAbs s path)
  universeKey : ∀ universeId, (service.semanticUniverseKey universeId).1 =
    service.corpus.universeKey universeId

/-- A transaction that is rolled back changed the identity of no path and the key of no universe that
is cached. -/
def KeepsCached : Event → Prop
  | .rollback => ∀ before, service.journal = some before →
      (∀ abs, (service.sourceIdentities.find? abs).isSome →
        before.sourceIdentity s abs = service.corpus.sourceIdentity s abs) ∧
      ∀ id, (service.universeKeys.find? id).isSome →
        before.universeKey id = service.corpus.universeKey id
  | _ => True

end Service

/-! ## What identities depend on -/

variable {s}

theorem scan_mapValues {ν : Type} (table : AssocMap ℕ ν) (f : ℕ → ν → ν) :
    scan (table.mapValues f) = (scan table).map fun entry => (entry.1, f entry.1 entry.2) := by
  symm
  apply List.map_insertionSort
  intro _ _ _ _
  rfl

namespace Corpus

/-- Rows that differ only in what no identity depends on. -/
structure SameOwners (corpus corpus' : Corpus) (f : ℕ → Component → Component) : Prop where
  components : corpus'.components = corpus.components.mapValues f
  path : ∀ id c, (f id c).path = c.path
  version : ∀ id c, (f id c).version = c.version
  repositoryId : ∀ id c, (f id c).repositoryId = c.repositoryId
  clones : corpus'.clones = corpus.clones
  repositories : ∀ id,
    (corpus'.repositories.find? id).map (fun r => (r.name, r.remoteUrl, r.activeCloneId)) =
      (corpus.repositories.find? id).map fun r => (r.name, r.remoteUrl, r.activeCloneId)

namespace SameOwners

variable {corpus corpus' : Corpus} {f : ℕ → Component → Component}

section

variable (h : SameOwners corpus corpus' f)
include h

theorem effectiveRoot (id : ℕ) (c : Component) : (f id c).effectiveRoot = c.effectiveRoot := by
  rw [Component.effectiveRoot, Component.effectiveRoot, h.version, h.path]

theorem activeCloneRoot (repositoryId : Option ℕ) :
    corpus'.activeCloneRoot s repositoryId = corpus.activeCloneRoot s repositoryId := by
  cases repositoryId with
  | none => rfl
  | some id =>
    have hrow := h.repositories id
    unfold Corpus.activeCloneRoot
    rw [h.clones]
    cases hleft : corpus'.repositories.find? id <;> cases hright : corpus.repositories.find? id <;>
      rw [hleft, hright] at hrow <;> simp_all

theorem componentAbsBase (id : ℕ) (c : Component) :
    corpus'.componentAbsBase s (f id c) = corpus.componentAbsBase s c := by
  unfold Corpus.componentAbsBase
  rw [h.repositoryId, h.path, h.effectiveRoot, h.activeCloneRoot]

theorem ownerText (id : ℕ) (c : Component) : corpus'.ownerText (f id c) = corpus.ownerText c := by
  unfold Corpus.ownerText
  rw [h.repositoryId, h.effectiveRoot]
  cases c.repositoryId with
  | none => rfl
  | some repositoryId =>
    have hrow := h.repositories repositoryId
    rw [bind_some, bind_some]
    cases hleft : corpus'.repositories.find? repositoryId <;>
      cases hright : corpus.repositories.find? repositoryId <;>
      rw [hleft, hright] at hrow <;> simp_all

theorem componentForPath (path : Bytes) : corpus'.componentForPath s path =
      (corpus.componentForPath s path).map fun row => (row.1, f row.1 row.2) := by
  have hroot : ∀ id c, corpus'.ownerRoot s (f id c) = corpus.ownerRoot s c := by
    intro _ _
    rw [ownerRoot, h.componentAbsBase, ownerRoot]
  have hstep : ∀ (best : Option (ℕ × Component)) (row : ℕ × Component),
      corpus'.betterOwner s (abspath s.cwd path) (best.map fun row => (row.1, f row.1 row.2))
        (row.1, f row.1 row.2) =
      (corpus.betterOwner s (abspath s.cwd path) best row).map fun row => (row.1, f row.1 row.2) := by
    intro _ _
    unfold betterOwner
    simp only [hroot, all_map]
    split <;> rfl
  unfold Corpus.componentForPath
  rw [h.components, scan_mapValues]
  generalize scan corpus.components = rows
  suffices hfold : ∀ best : Option (ℕ × Component),
      (rows.map fun entry => (entry.1, f entry.1 entry.2)).foldl
          (corpus'.betterOwner s (abspath s.cwd path)) (best.map fun row => (row.1, f row.1 row.2)) =
        (rows.foldl (corpus.betterOwner s (abspath s.cwd path)) best).map
          fun row => (row.1, f row.1 row.2) from hfold none
  induction rows with
  | nil => exact fun best => rfl
  | cons _ _ ih =>
    intro _
    rw [List.map_cons, List.foldl_cons, List.foldl_cons, hstep, ih]

theorem sourceIdentity (abs : Bytes) : corpus'.sourceIdentity s abs = corpus.sourceIdentity s abs := by
  unfold Corpus.sourceIdentity
  rw [h.componentForPath]
  cases corpus.componentForPath s abs with
  | none => rfl
  | some row =>
    obtain ⟨_, _⟩ := row
    dsimp only [map_some]
    rw [h.ownerText, h.effectiveRoot, h.componentAbsBase]

end

end SameOwners

variable {corpus corpus' : Corpus} {forgets : Forgets} {op : Operation}

/-- What an operation may do, by what it forgets. -/
structure Spares (s : Surroundings) (corpus corpus' : Corpus) (forgets : Forgets) : Prop where
  identity : forgets ≠ .sources → ∀ abs, corpus'.sourceIdentity s abs = corpus.sourceIdentity s abs
  universeKey : ∀ id, forgets ≠ .universe id → corpus'.universeKey id = corpus.universeKey id

theorem spares_of_sources (h : corpus'.universes = corpus.universes) :
    Spares s corpus corpus' .sources where
  identity hne := absurd rfl hne
  universeKey id _ := by rw [universeKey, h, universeKey]

theorem spares_refl (corpus : Corpus) (forgets : Forgets) : Spares s corpus corpus forgets :=
  ⟨fun _ _ => rfl, fun _ _ => rfl⟩

variable {path name : Bytes} {kind : Kind} {universeId : Option ℕ} {repositoryId componentId : ℕ}

theorem spares_addSemanticUniverse {key policy : Bytes}
    (h : corpus.addSemanticUniverse key name policy = .ok (corpus', forgets)) :
    Spares s corpus corpus' forgets := by
  unfold addSemanticUniverse at h
  dsimp only at h
  split at h
  · cases h
  · split at h
    · rename_i id hid
      cases h
      refine ⟨fun _ _ => rfl, ?_⟩
      intro id' hne
      have hother : id' ≠ id := fun heq => hne (by rw [heq])
      simp only [universeKey, updateRow, find?_mapValues, if_neg hother]
      cases corpus.universes.find? id' <;> rfl
    · cases h
      refine ⟨fun _ _ => rfl, ?_⟩
      intro id' hne
      have hother : id' ≠ Storage.nextRowId (corpus.universes.entries.map Prod.fst) :=
        fun heq => hne (by rw [heq])
      simp [universeKey, insertNew, if_neg hother]

theorem spares_setRepositorySemanticUniverse
    (h : corpus.setRepositorySemanticUniverse repositoryId universeId = .ok (corpus', forgets)) :
    Spares s corpus corpus' forgets := by
  unfold setRepositorySemanticUniverse at h
  split at h
  · cases h
  · cases h
    refine ⟨fun _ => SameOwners.sourceIdentity (f := fun _ c => c) ?_, fun _ _ => rfl⟩
    refine ⟨?_, fun _ _ => rfl, fun _ _ => rfl, fun _ _ => rfl, rfl, ?_⟩
    · exact (mapValues_eq_self fun _ _ _ => rfl).symm
    · intro _
      simp only [updateRow, find?_mapValues, map_map]
      apply Option.map_congr
      intro _ _
      split <;> rfl

theorem spares_setComponentSemanticUniverse
    (h : corpus.setComponentSemanticUniverse componentId universeId = .ok (corpus', forgets)) :
    Spares s corpus corpus' forgets := by
  unfold setComponentSemanticUniverse at h
  split at h
  · cases h
  · cases h
    refine ⟨fun _ => SameOwners.sourceIdentity (f := fun id c =>
      if id = componentId then { c with universeId := universeId } else c) ?_, fun _ _ => rfl⟩
    refine ⟨rfl, ?_, ?_, ?_, rfl, fun _ => rfl⟩
    all_goals
      intro _ _
      split <;> rfl

theorem spares_setComponentEffectiveVersion {version : Bytes}
    (h : corpus.setComponentEffectiveVersion s name version = .ok (corpus', forgets)) :
    Spares s corpus corpus' forgets := by
  unfold setComponentEffectiveVersion at h
  split at h
  · dsimp only at h
    split at h
    · split at h
      · cases h
      · cases h
        exact spares_of_sources rfl
    · cases h
      exact spares_of_sources rfl
  · cases h
    exact spares_refl _ _

theorem spares_relativizeComponent {cloneRoot : Bytes}
    (h : corpus.relativizeComponent s componentId cloneRoot = .ok (corpus', forgets)) :
    Spares s corpus corpus' forgets := by
  unfold relativizeComponent at h
  split at h
  · cases h
    exact spares_refl _ _
  · split at h
    · cases h
      exact spares_refl _ _
    · split at h
      · cases h
        exact spares_refl _ _
      · split at h
        · cases h
        · cases h
          exact spares_of_sources rfl

theorem spares_setComponentRepository {repositoryId : Option ℕ}
    (h : corpus.setComponentRepository componentId repositoryId = .ok (corpus', forgets)) :
    Spares s corpus corpus' forgets := by
  unfold setComponentRepository at h
  split at h
  · cases h
    exact spares_refl _ _
  · split at h
    · cases h
    · split at h
      · cases h
      · cases h
        exact spares_of_sources rfl

theorem spares_addComponent {version : Option Bytes}
    (h : corpus.addComponent s name path kind version = .ok (corpus', forgets)) :
    Spares s corpus corpus' forgets := by
  unfold addComponent at h
  dsimp only at h
  split at h <;> cases h <;> exact spares_of_sources rfl

theorem spares_addRepository {remoteUrl : Option Bytes}
    (h : corpus.addRepository name kind remoteUrl universeId = .ok (corpus', forgets)) :
    Spares s corpus corpus' forgets := by
  unfold addRepository at h
  split at h
  · cases h
  · split at h <;> cases h <;> exact spares_of_sources rfl

theorem spares_addClone {label : Option Bytes}
    (h : corpus.addClone s repositoryId path label = .ok (corpus', forgets)) :
    Spares s corpus corpus' forgets := by
  unfold addClone at h
  split at h
  · cases h
  · split at h <;> cases h <;> exact spares_of_sources rfl

/-- An operation changes only what it forgets. -/
theorem spares_run (h : corpus.run s op = .ok (corpus', forgets)) : Spares s corpus corpus' forgets := by
  cases op with
  | addSemanticUniverse => exact spares_addSemanticUniverse h
  | setRepositorySemanticUniverse =>
    exact spares_setRepositorySemanticUniverse h
  | setComponentSemanticUniverse =>
    exact spares_setComponentSemanticUniverse h
  | addComponent => exact spares_addComponent h
  | setComponentEffectiveVersion => exact spares_setComponentEffectiveVersion h
  | relativizeComponent => exact spares_relativizeComponent h
  | setComponentRepository => exact spares_setComponentRepository h
  | addRepository => exact spares_addRepository h
  | addClone => exact spares_addClone h
  | updateComponentMeta | setComponentVersion | deleteComponent | setActiveClone
  | deleteRepository | deleteClone =>
    cases h
    exact spares_of_sources rfl

end Corpus

namespace Service

variable {service : Service}

/-! ## Caches that agree -/

/-- Both caches hold what the rows give. -/
structure Cached (s : Surroundings) (service : Service) : Prop where
  identity : ∀ abs identity, service.sourceIdentities.find? abs = some identity →
    identity = service.corpus.sourceIdentity s abs
  universeKey : ∀ id key, service.universeKeys.find? id = some key →
    key = service.corpus.universeKey id

/-- What is cached was asked for. -/
def Asked (s : Surroundings) (service : Service) : Prop :=
  ∀ abs, (service.sourceIdentities.find? abs).isSome → ∃ path, resolveAbs s path = abs

theorem Cached.fresh (h : Cached s service) : Fresh s service where
  identity path := by
    unfold portableSourceIdentityForPath
    dsimp only
    split
    · rename_i identity hidentity
      exact h.identity _ _ hidentity
    · rfl
  universeKey id := by
    unfold semanticUniverseKey
    split
    · rename_i key hkey
      exact h.universeKey _ _ hkey
    · rfl

theorem Fresh.cached (h : Fresh s service) (hasked : Asked s service) : Cached s service where
  identity abs identity hidentity := by
    obtain ⟨path, rfl⟩ := hasked abs (by rw [hidentity]; rfl)
    have hanswer := h.identity path
    unfold portableSourceIdentityForPath at hanswer
    dsimp only at hanswer
    rw [hidentity] at hanswer
    exact hanswer
  universeKey id key hkey := by
    have hanswer := h.universeKey id
    unfold semanticUniverseKey at hanswer
    rw [hkey] at hanswer
    exact hanswer

theorem corpus_forget (forgets : Forgets) : (service.forget forgets).corpus = service.corpus := by
  cases forgets <;> rfl

variable {forgets : Forgets}

theorem find?_sourceIdentities_forget {abs identity : Bytes}
    (h : (service.forget forgets).sourceIdentities.find? abs = some identity) :
    forgets ≠ .sources ∧ service.sourceIdentities.find? abs = some identity := by
  cases forgets with
  | nothing | «universe» id => exact ⟨Forgets.noConfusion, h⟩
  | sources => cases h

theorem find?_universeKeys_forget {id : ℕ} {key : Bytes}
    (h : (service.forget forgets).universeKeys.find? id = some key) :
    forgets ≠ .universe id ∧ service.universeKeys.find? id = some key := by
  cases forgets with
  | nothing | sources => exact ⟨Forgets.noConfusion, h⟩
  | «universe» id' =>
    rw [forget, find?_eraseWhere, filter_eq_some_iff] at h
    refine ⟨?_, h.1⟩
    intro heq
    cases heq
    simp at h

section

variable (h : Cached s service)
include h

theorem Cached.operate (op : Operation) : Cached s (service.operate s op) := by
  unfold Service.operate
  split
  · rename_i corpus forgets hrun
    have hspares := spares_run hrun
    constructor
    · intro abs identity hfind
      obtain ⟨hne, hcached⟩ := find?_sourceIdentities_forget hfind
      rw [corpus_forget, hspares.identity hne]
      exact h.identity abs identity hcached
    · intro id key hfind
      obtain ⟨hne, hcached⟩ := find?_universeKeys_forget hfind
      rw [corpus_forget, hspares.universeKey id hne]
      exact h.universeKey id key hcached
  · exact h

theorem Cached.identity_asked (path : Bytes) :
    Cached s (service.portableSourceIdentityForPath s path).2 := by
  unfold portableSourceIdentityForPath
  dsimp only
  split
  · exact h
  · refine ⟨?_, h.universeKey⟩
    intro abs identity hfind
    rw [find?_insertOrAssign] at hfind
    split at hfind
    · rename_i heq
      cases hfind
      rw [heq]
    · exact h.identity abs identity hfind

theorem Cached.universeKey_asked (id : ℕ) : Cached s (service.semanticUniverseKey id).2 := by
  unfold semanticUniverseKey
  split
  · exact h
  · refine ⟨h.identity, ?_⟩
    intro id' key hfind
    rw [find?_insertOrAssign] at hfind
    split at hfind
    · rename_i heq
      cases hfind
      rw [heq]
    · exact h.universeKey id' key hfind

/-- Rolling back keeps the caches in agreement exactly when the transaction changed nothing that is
cached. -/
theorem cached_rollback_iff : Cached s service.rollback ↔ KeepsCached s service .rollback := by
  unfold rollback KeepsCached
  cases service.journal with
  | none => exact ⟨fun _ before hbefore => (some_ne_none _ hbefore.symm).elim, fun _ => h⟩
  | some before =>
    constructor
    · intro hafter _ hbefore
      cases hbefore
      constructor
      · intro abs hsome
        obtain ⟨identity, hidentity⟩ := isSome_iff_exists.mp hsome
        exact (hafter.identity abs identity hidentity).symm.trans (h.identity abs identity hidentity)
      · intro id hsome
        obtain ⟨key, hkey⟩ := isSome_iff_exists.mp hsome
        exact (hafter.universeKey id key hkey).symm.trans (h.universeKey id key hkey)
    · intro hkeeps
      obtain ⟨hidentity, hkey⟩ := hkeeps before rfl
      constructor
      · intro abs identity hfind
        exact (h.identity abs identity hfind).trans (hidentity abs (by rw [hfind]; rfl)).symm
      · intro id key hfind
        exact (h.universeKey id key hfind).trans (hkey id (by rw [hfind]; rfl)).symm

/-- One event keeps the caches in agreement exactly when it keeps what is cached. -/
theorem cached_step_iff (e : Event) : Cached s (service.step s e) ↔ KeepsCached s service e := by
  cases e with
  | operation op => exact ⟨fun _ => trivial, fun _ => h.operate op⟩
  | identity path => exact ⟨fun _ => trivial, fun _ => h.identity_asked path⟩
  | universeKey id => exact ⟨fun _ => trivial, fun _ => h.universeKey_asked id⟩
  | begin_ =>
    refine ⟨fun _ => trivial, fun _ => ?_⟩
    rw [step, beginTransaction]
    split
    · exact h
    · exact ⟨h.identity, h.universeKey⟩
  | commit => exact ⟨fun _ => trivial, fun _ => ⟨h.identity, h.universeKey⟩⟩
  | rollback => exact cached_rollback_iff h

end

theorem asked_step (h : Asked s service) (e : Event) : Asked s (service.step s e) := by
  cases e with
  | operation =>
    rw [step, operate]
    split
    · intro abs hsome
      obtain ⟨_, hidentity⟩ := isSome_iff_exists.mp hsome
      apply h abs
      rw [(find?_sourceIdentities_forget hidentity).2]
      rfl
    · exact h
  | identity path =>
    rw [step, portableSourceIdentityForPath]
    split
    · exact h
    · intro abs hsome
      rw [find?_insertOrAssign] at hsome
      split at hsome
      · rename_i heq
        exact ⟨path, heq.symm⟩
      · exact h abs hsome
  | universeKey =>
    rw [step, semanticUniverseKey]
    split <;> exact h
  | begin_ =>
    rw [step, beginTransaction]
    split <;> exact h
  | commit => exact h
  | rollback =>
    rw [step, rollback]
    split <;> exact h

theorem cached_init : Cached s {} where
  identity _ _ h := by cases h
  universeKey _ _ h := by cases h

theorem asked_play (events : List Event) : Asked s (play s {} events) := by
  induction events using List.reverseRecOn with
  | nil =>
    intro _ hsome
    cases hsome
  | append_singleton _ e ih =>
    rw [play, List.foldl_append]
    exact asked_step ih e

/-- Every answer along a sequence of events is fresh exactly when no transaction is rolled back that
changed what is cached at that moment. -/
theorem identities_fresh_iff (s : Surroundings) (events : List Event) :
    (∀ front back, events = front ++ back → Fresh s (play s {} front)) ↔
      ∀ front e back, events = front ++ e :: back → KeepsCached s (play s {} front) e := by
  constructor
  · intro hfresh front e back hevents
    have hbefore := (hfresh front (e :: back) hevents).cached (asked_play front)
    have hafter := (hfresh (front ++ [e]) back (by rw [hevents]; simp)).cached (asked_play _)
    rw [play, List.foldl_append] at hafter
    exact (cached_step_iff hbefore e).mp hafter
  · intro hkeeps front back hevents
    apply Cached.fresh
    induction front using List.reverseRecOn generalizing back with
    | nil => exact cached_init
    | append_singleton front e ih =>
      rw [List.append_assoc] at hevents
      rw [play, List.foldl_append]
      exact (cached_step_iff (ih _ hevents) e).mpr (hkeeps front e back hevents)

/-- Surroundings without variables and homes. -/
def plainSurroundings : Surroundings where
  getenv _ := none
  ownHome := none
  homeOf _ := none
  cwd := ascii "/"
  cwd_abs := rfl

/-- A component is added, a path below it is asked for, and the transaction is rolled back. -/
def rolledBackComponent : List Event :=
  [.begin_, .operation (.addComponent (ascii "lib") (ascii "/lib") .repo none),
   .identity (ascii "/lib/a.h"), .rollback]

/-- The path keeps the identity of the component that is gone. -/
theorem rolledBackComponent_stale :
    ¬∀ front back, rolledBackComponent = front ++ back →
      Fresh plainSurroundings (play plainSurroundings {} front) := by
  intro h
  have hanswer := (h rolledBackComponent [] (by simp)).identity (ascii "/lib/a.h")
  revert hanswer
  decide +kernel

end Service

end

end CppIndexer.Sources
