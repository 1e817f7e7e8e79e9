/-
# Transient handles

The recorder gives identities their handles.  A handle is drawn as in
`CollisionSafeHandleIndex`, and the pair of its kind and number is entered as an
identity of its own, so that no other identity of the kind draws it again; a
handle that comes from outside is bound without that entry, and may belong to
several keys.

A cache of two generations stands in front of the index and remembers what was
not found as well as what was.  When the current generation is full it becomes
the previous one, and what was in the previous one is forgotten.  Whatever is
remembered is what the index says, because every entry of the index is put into
the cache right behind it.
-/

import CppIndexer.Ast.IdentityIndexContents

namespace CppIndexer.Ast

open Util (Bytes ascii)
open Util.Json (decimal decimalNat)
open SpillableIdentityIndex

/-- What a call of the recorder throws, or that it never returns. -/
inductive RecorderError where
  | index (error : IdentityError)
  | conflictingIdentity
  | handleCollision
  | endlessProbing
  deriving DecidableEq

/-- The identities of a `FactBatchRecorder`. -/
structure IdentityRecorder where
  primaryHasher : Bytes → UInt64
  index : SpillableIdentityIndex
  cache : AssocMap Bytes (Option Int64)
  previousCache : AssocMap Bytes (Option Int64)

namespace IdentityRecorder

variable (primaryHasher : Bytes → UInt64) (options : SpillableIdentityIndexOptions)

/-- The recorder after `set_extraction_limits`. -/
def create : IdentityRecorder where
  primaryHasher := primaryHasher
  index := .create options
  cache := .empty
  previousCache := .empty

/-- `kResidentIdentityCacheGenerationEntries`. -/
def generationEntries : ℕ := 4096 / 2

variable (faults : ℕ → DiskFault) (recorder : IdentityRecorder) (key : IdentityKey)

/-- `cached_identity_lookup`. -/
def cachedIdentityLookup : Option (Option Int64) :=
  match recorder.cache.find? (encodedKey key) with
  | some found => some found
  | none => recorder.previousCache.find? (encodedKey key)

/-- The swap of the generations, when the current one is full. -/
def rotate : IdentityRecorder :=
  if recorder.cache.entries.length ≥ generationEntries then
    { recorder with previousCache := recorder.cache, cache := .empty }
  else recorder

/-- `cache_identity`. -/
def cacheIdentity (handle : Option Int64) : IdentityRecorder :=
  if (recorder.cache.find? (encodedKey key)).isSome then
    { recorder with cache := recorder.cache.insertOrAssign (encodedKey key) handle }
  else if (recorder.previousCache.find? (encodedKey key)).isSome then
    { recorder with
      previousCache := recorder.previousCache.insertOrAssign (encodedKey key) handle }
  else
    { recorder.rotate with
      cache := recorder.rotate.cache.insertOrAssign (encodedKey key) handle }

/-- `lookup_identity`. -/
def lookupIdentity : Except RecorderError (Option Int64) × IdentityRecorder :=
  match recorder.cachedIdentityLookup key with
  | some found => (.ok found, recorder)
  | none =>
    match recorder.index.lookup key with
    | .error error => (.error (.index error), recorder)
    | .ok found => (.ok found, recorder.cacheIdentity key found)

/-- `handle_key`. -/
def handleKey (kind : FactIdentityKind) (handle : Int64) : IdentityKey :=
  toLex (.handle, decimalNat kind.underlying ++ ascii ":" ++ decimal handle.toInt)

/-- The entry of a handle, after that of its identity. -/
def enterHandle (kind : FactIdentityKind) (handle : Int64) :
    Except RecorderError Int64 × IdentityRecorder :=
  match recorder.index.insert faults (handleKey kind handle) handle with
  | (.error error, index) => (.error (.index error), { recorder with index := index })
  | (.ok result, index) =>
    if result ≠ .inserted then (.error .handleCollision, { recorder with index := index })
    else
      (.ok handle, { recorder with index := index }.cacheIdentity (handleKey kind handle) (some handle))

/-- The loop of `identity_handle`. -/
def probe (key : IdentityKey) : ℕ → ℕ → IdentityRecorder → Except RecorderError Int64 × IdentityRecorder
  | 0, _, recorder => (.error .endlessProbing, recorder)
  | fuel + 1, attempt, recorder =>
    let text := (ofLex key).2
    let handle := Int64.ofInt (mixedHandle (recorder.primaryHasher text) text attempt)
    match recorder.lookupIdentity (handleKey (ofLex key).1 handle) with
    | (.error error, recorder) => (.error error, recorder)
    | (.ok (some _), recorder) => probe key fuel (attempt + 1) recorder
    | (.ok none, recorder) =>
      match recorder.index.insert faults key handle with
      | (.error error, index) => (.error (.index error), { recorder with index := index })
      | (.ok result, index) =>
        if result ≠ .inserted then
          probe key fuel (attempt + 1) { recorder with index := index }
        else
          ({ recorder with index := index }.cacheIdentity key (some handle)).enterHandle
            faults (ofLex key).1 handle

/-- `identity_handle`. -/
def identityHandle : Except RecorderError Int64 × IdentityRecorder :=
  match recorder.lookupIdentity key with
  | (.error error, recorder) => (.error error, recorder)
  | (.ok (some found), recorder) => (.ok found, recorder)
  | (.ok none, recorder) => probe faults key attempts 0 recorder

/-- `bind_identity`. -/
def bindIdentity (handle : Int64) : Except RecorderError Unit × IdentityRecorder :=
  match recorder.lookupIdentity key with
  | (.error error, recorder) => (.error error, recorder)
  | (.ok (some existing), recorder) =>
    if existing ≠ handle then (.error .conflictingIdentity, recorder)
    else (.ok (), recorder.cacheIdentity key (some handle))
  | (.ok none, recorder) =>
    match recorder.index.insert faults key handle with
    | (.error error, index) => (.error (.index error), { recorder with index := index })
    | (.ok result, index) =>
      if result = .conflict then (.error .conflictingIdentity, { recorder with index := index })
      else (.ok (), { recorder with index := index }.cacheIdentity key (some handle))

/-! ## The cache -/

variable {faults : ℕ → DiskFault} {recorder : IdentityRecorder}
  {map : IdentityKey → Option Int64}
  {other key : IdentityKey} {after : IdentityRecorder} {answer handle : Int64}

attribute [local simp] cachedIdentityLookup

theorem cachedIdentityLookup_cacheIdentity {handle found : Option Int64}
    (h : (recorder.cacheIdentity key handle).cachedIdentityLookup other = some found) :
    other = key ∧ found = handle ∨
      other ≠ key ∧ recorder.cachedIdentityLookup other = some found := by
  by_cases hkey : other = key
  · refine .inl ⟨hkey, ?_⟩
    rw [hkey] at h
    unfold cacheIdentity at h
    split at h
    · simp at h
      exact h.symm
    · rename_i hcurrent
      rw [Bool.not_eq_true, Option.isSome_eq_false_iff, Option.isNone_iff_eq_none] at hcurrent
      split at h
      · simp [hcurrent] at h
        exact h.symm
      · simp at h
        exact h.symm
  · refine .inr ⟨hkey, ?_⟩
    have hencoded : encodedKey other ≠ encodedKey key := fun heq => hkey (encodedKey_injective heq)
    unfold cacheIdentity at h
    split at h
    · simpa [hencoded] using h
    · split at h
      · simpa [hencoded] using h
      · unfold rotate at h
        split at h
        · have hold : recorder.cache.find? (encodedKey other) = some found := by
            simpa [hencoded] using h
          rw [cachedIdentityLookup, hold]
        · simpa [hencoded] using h

theorem cacheIdentity_index (key : IdentityKey) (handle : Option Int64) :
    (recorder.cacheIdentity key handle).index = recorder.index := by
  unfold cacheIdentity rotate
  split
  · rfl
  · split
    · rfl
    · split <;> rfl

/-- The index means the map, and the cache remembers nothing else. -/
structure Coherent (recorder : IdentityRecorder) (map : IdentityKey → Option Int64) : Prop where
  means : Means recorder.index map
  remembered : ∀ key found, recorder.cachedIdentityLookup key = some found → found = map key

theorem coherent_create : Coherent (create primaryHasher options) fun _ => none := by
  refine ⟨means_create options, ?_⟩
  intro _ _ h
  simp [create] at h

theorem Coherent.cacheIdentity (h : Coherent recorder map) (key : IdentityKey) :
    Coherent (recorder.cacheIdentity key (map key)) map := by
  constructor
  · rw [cacheIdentity_index]
    exact h.means
  · intro other found hfound
    cases cachedIdentityLookup_cacheIdentity hfound with
    | inl hnew => rw [hnew.2, hnew.1]
    | inr hold => exact h.remembered other found hold.2

theorem Coherent.inserted (h : Coherent recorder map)
    {index : SpillableIdentityIndex} (hmeans : Means index (updated map key handle)) :
    Coherent ({ recorder with index := index }.cacheIdentity key (some handle))
      (updated map key handle) := by
  constructor
  · rw [cacheIdentity_index]
    exact hmeans
  · intro other found hfound
    cases cachedIdentityLookup_cacheIdentity hfound with
    | inl hnew => rw [updated, if_pos hnew.1, hnew.2]
    | inr hold =>
      rw [updated, if_neg hold.1]
      exact h.remembered other found hold.2

/-! ## The calls -/

theorem Coherent.lookupIdentity (h : Coherent recorder map) (key : IdentityKey) :
    ∃ after, recorder.lookupIdentity key = (.ok (map key), after) ∧ Coherent after map := by
  unfold IdentityRecorder.lookupIdentity
  cases hcached : recorder.cachedIdentityLookup key with
  | some found =>
    rw [h.remembered key found hcached]
    exact ⟨_, rfl, h⟩
  | none =>
    simp only [h.means.lookup]
    exact ⟨_, rfl, h.cacheIdentity key⟩

theorem updated_of_eq (h : map key = some handle) : updated map key handle = map := by
  funext other
  by_cases hkey : other = key
  · rw [updated, if_pos hkey, hkey, h]
  · rw [updated, if_neg hkey]

section

variable (h : Coherent recorder map)
include h

theorem Coherent.enterHandle {kind : FactIdentityKind}
    (hreturned : recorder.enterHandle faults kind handle = (.ok answer, after)) :
    answer = handle ∧ map (handleKey kind handle) = none ∧
      Coherent after (updated map (handleKey kind handle) handle) := by
  unfold IdentityRecorder.enterHandle at hreturned
  split at hreturned
  · cases hreturned
  · rename_i result index hinsert
    split at hreturned
    · cases hreturned
    · rename_i hresult
      cases hreturned
      obtain ⟨hexisting, -⟩ | ⟨hconflict, -⟩ | ⟨-, hfree, hmeans⟩ := h.means.insert hinsert
      · rw [hexisting] at hresult
        exact absurd (by decide) hresult
      · rw [hconflict] at hresult
        exact absurd (by decide) hresult
      · exact ⟨rfl, hfree, h.inserted hmeans⟩

/-- An identity without a handle is given a free one. -/
theorem Coherent.probe (hkey : map key = none) {fuel attempt : ℕ}
    (hreturned : IdentityRecorder.probe faults key fuel attempt recorder = (.ok answer, after)) :
    map (handleKey (ofLex key).1 answer) = none ∧ handleKey (ofLex key).1 answer ≠ key ∧
      Coherent after (updated (updated map key answer) (handleKey (ofLex key).1 answer) answer) := by
  induction fuel generalizing attempt recorder with
  | zero => cases hreturned
  | succ fuel ih =>
    rw [IdentityRecorder.probe] at hreturned
    generalize Int64.ofInt (mixedHandle _ _ attempt) = handle at hreturned
    obtain ⟨looked, hlookup, hlooked⟩ := h.lookupIdentity (handleKey (ofLex key).1 handle)
    rw [hlookup] at hreturned
    cases hheld : map (handleKey (ofLex key).1 handle) with
    | some =>
      rw [hheld] at hreturned
      exact ih hlooked hreturned
    | none =>
      rw [hheld] at hreturned
      simp only [] at hreturned
      split at hreturned
      · cases hreturned
      · rename_i result index hinsert
        obtain ⟨-, hsome, -⟩ | ⟨-, ⟨_, -, hsome⟩, -⟩ | ⟨hinserted, -, hmeans⟩ :=
          hlooked.means.insert hinsert
        · rw [hkey] at hsome
          cases hsome
        · rw [hkey] at hsome
          cases hsome
        · rw [if_neg (by simp [hinserted])] at hreturned
          obtain ⟨hanswer, hfree, hcoherent⟩ := (hlooked.inserted hmeans).enterHandle hreturned
          rw [hanswer]
          refine ⟨hheld, ?_, hcoherent⟩
          intro heq
          rw [heq, updated, if_pos rfl] at hfree
          cases hfree

/-- `identity_handle` answers with the handle of the identity, or gives it a free
one and enters that. -/
theorem Coherent.identityHandle (hreturned : recorder.identityHandle faults key = (.ok answer, after)) :
    map key = some answer ∧ Coherent after map ∨
      map key = none ∧ map (handleKey (ofLex key).1 answer) = none ∧
        handleKey (ofLex key).1 answer ≠ key ∧ Coherent after
          (updated (updated map key answer) (handleKey (ofLex key).1 answer) answer) := by
  unfold IdentityRecorder.identityHandle at hreturned
  obtain ⟨_, hlookup, hlooked⟩ := h.lookupIdentity key
  rw [hlookup] at hreturned
  cases hfound : map key with
  | some =>
    rw [hfound] at hreturned
    cases hreturned
    exact .inl ⟨rfl, hlooked⟩
  | none =>
    rw [hfound] at hreturned
    exact .inr ⟨rfl, hlooked.probe hfound hreturned⟩

theorem Coherent.bindIdentity (hreturned : recorder.bindIdentity faults key handle = (.ok (), after)) :
    (map key = none ∨ map key = some handle) ∧ Coherent after (updated map key handle) := by
  unfold IdentityRecorder.bindIdentity at hreturned
  obtain ⟨looked, hlookup, hlooked⟩ := h.lookupIdentity key
  rw [hlookup] at hreturned
  cases hfound : map key with
  | some =>
    rw [hfound] at hreturned
    simp only [ne_eq, ite_not] at hreturned
    split at hreturned
    · rename_i hsame
      cases hreturned
      rw [hsame] at hfound ⊢
      rw [updated_of_eq hfound, ← hfound]
      exact ⟨.inr rfl, hlooked.cacheIdentity key⟩
    · cases hreturned
  | none =>
    rw [hfound] at hreturned
    simp only [] at hreturned
    split at hreturned
    · cases hreturned
    · rename_i result index hinsert
      split at hreturned
      · cases hreturned
      · cases hreturned
        obtain ⟨-, hsome, -⟩ | ⟨-, ⟨_, -, hsome⟩, -⟩ | ⟨-, -, hmeans⟩ :=
          hlooked.means.insert hinsert
        · rw [hfound] at hsome
          cases hsome
        · rw [hfound] at hsome
          cases hsome
        · exact ⟨.inl rfl, hlooked.inserted hmeans⟩

end

/-! ## Runs -/

inductive IdentityCall where
  | handle (key : IdentityKey) (answer : Int64)
  | bind (key : IdentityKey) (handle : Int64)
  | lookup (key : IdentityKey) (answer : Option Int64)

variable {calls : List IdentityCall}

def Returns (faults : ℕ → DiskFault) (recorder : IdentityRecorder) (call : IdentityCall)
    (after : IdentityRecorder) : Prop :=
  match call with
  | .handle key answer => recorder.identityHandle faults key = (.ok answer, after)
  | .bind key handle => recorder.bindIdentity faults key handle = (.ok (), after)
  | .lookup key answer => recorder.lookupIdentity key = (.ok answer, after)

/-- A run whose calls all return. -/
inductive Runs (faults : ℕ → DiskFault) (start : IdentityRecorder) :
    List IdentityCall → IdentityRecorder → Prop
  | nil : Runs faults start [] start
  | snoc {calls : List IdentityCall} {recorder after : IdentityRecorder} {call : IdentityCall}
      (before : Runs faults start calls recorder)
      (returns : Returns faults recorder call after) : Runs faults start (calls ++ [call]) after

/-- The pairs a call assigns: the one it is about, and, where it draws a new
handle, the entry of the handle. -/
def IdentityCall.assign (map : IdentityKey → Option Int64) (call : IdentityCall) :
    IdentityKey → Option Int64 :=
  match call with
  | .handle key answer =>
    match map key with
    | some _ => updated map key answer
    | none => updated (updated map key answer) (handleKey (ofLex key).1 answer) answer
  | .bind key given => updated map key given
  | .lookup _ _ => map

def lastAssigned (calls : List IdentityCall) : IdentityKey → Option Int64 :=
  calls.foldl IdentityCall.assign fun _ => none

theorem lastAssigned_snoc (calls : List IdentityCall) (call : IdentityCall) :
    lastAssigned (calls ++ [call]) = call.assign (lastAssigned calls) := by
  rw [lastAssigned, List.foldl_append]
  rfl

/-- The key was bound to a handle from outside. -/
def Bound (calls : List IdentityCall) (key : IdentityKey) : Prop :=
  ∃ handle, IdentityCall.bind key handle ∈ calls

/-- Drawn handles are entered, and drawn once. -/
structure Drawn (calls : List IdentityCall) (map : IdentityKey → Option Int64) : Prop where
  entered : ∀ key handle, (ofLex key).1 ≠ .handle → map key = some handle →
    Bound calls key ∨ map (handleKey (ofLex key).1 handle) ≠ none
  once : ∀ key other handle, (ofLex key).1 = (ofLex other).1 → (ofLex key).1 ≠ .handle →
    map key = some handle → map other = some handle →
    key = other ∨ Bound calls key ∨ Bound calls other
  answered : ∀ key answer, IdentityCall.handle key answer ∈ calls → map key = some answer

theorem Bound.mono (h : Bound calls key) (call : IdentityCall) : Bound (calls ++ [call]) key := by
  obtain ⟨handle, hmem⟩ := h
  exact ⟨handle, List.mem_append_left _ hmem⟩

theorem bound_last (calls : List IdentityCall) (key : IdentityKey) (handle : Int64) :
    Bound (calls ++ [.bind key handle]) key := ⟨handle, by simp⟩

theorem Drawn.same (h : Drawn calls map) {call : IdentityCall}
    (hanswered : ∀ key answer, call = .handle key answer → map key = some answer) :
    Drawn (calls ++ [call]) map := by
  constructor
  · intro key handle hkind hkey
    cases h.entered key handle hkind hkey with
    | inl hbound => exact .inl (hbound.mono call)
    | inr hentered => exact .inr hentered
  · intro key other handle hkinds hkind hkey hother
    obtain heq | hbound | hbound := h.once key other handle hkinds hkind hkey hother
    · exact .inl heq
    · exact .inr (.inl (hbound.mono call))
    · exact .inr (.inr (hbound.mono call))
  · intro key answer hmem
    cases List.mem_append.mp hmem with
    | inl hearlier => exact h.answered key answer hearlier
    | inr hlast => exact hanswered key answer (List.mem_singleton.mp hlast).symm

theorem updated_of_some {held : Int64} (hfree : map key = none)
    (hheld : map other = some held) : updated map key handle other = some held := by
  have hne : other ≠ key := by
    intro heq
    rw [heq, hfree] at hheld
    cases hheld
  rw [updated, if_neg hne, hheld]

theorem updated_ne_none (h : map other ≠ none) : updated map key handle other ≠ none := by
  unfold updated
  split
  · simp
  · exact h

theorem Drawn.bind (h : Drawn calls map) (hkey : map key = none ∨ map key = some handle) :
    Drawn (calls ++ [.bind key handle]) (updated map key handle) := by
  cases hkey with
  | inr hsame =>
    rw [updated_of_eq hsame]
    apply h.same
    intro _ _ heq
    cases heq
  | inl hfree =>
    constructor
    · intro other held hkind hheld
      by_cases hother : other = key
      · rw [hother]
        exact .inl (bound_last calls key handle)
      · rw [updated, if_neg hother] at hheld
        cases h.entered other held hkind hheld with
        | inl hbound => exact .inl (hbound.mono _)
        | inr hentered => exact .inr (updated_ne_none hentered)
    · intro first second held hkinds hkind hfirst hsecond
      by_cases hfirstKey : first = key
      · rw [hfirstKey]
        exact .inr (.inl (bound_last calls key handle))
      · by_cases hsecondKey : second = key
        · rw [hsecondKey]
          exact .inr (.inr (bound_last calls key handle))
        · rw [updated, if_neg hfirstKey] at hfirst
          rw [updated, if_neg hsecondKey] at hsecond
          obtain heq | hbound | hbound := h.once first second held hkinds hkind hfirst hsecond
          · exact .inl heq
          · exact .inr (.inl (hbound.mono _))
          · exact .inr (.inr (hbound.mono _))
    · intro other answer hmem
      cases List.mem_append.mp hmem with
      | inl hearlier => exact updated_of_some hfree (h.answered other answer hearlier)
      | inr hlast => cases List.mem_singleton.mp hlast

theorem Drawn.draw (h : Drawn calls map)
    (hkey : map key = none) (hfree : map (handleKey (ofLex key).1 answer) = none)
    (hne : handleKey (ofLex key).1 answer ≠ key) : Drawn (calls ++ [.handle key answer])
      (updated (updated map key answer) (handleKey (ofLex key).1 answer) answer) := by
  -- Away from the kind of the entries the new map has one pair more.
  have hafter : ∀ other held, (ofLex other).1 ≠ .handle →
      updated (updated map key answer) (handleKey (ofLex key).1 answer) answer other = some held →
      other = key ∧ held = answer ∨ map other = some held := by
    intro other _ hkind hheld
    have hentry : other ≠ handleKey (ofLex key).1 answer := by
      intro heq
      rw [heq] at hkind
      exact hkind rfl
    rw [updated, if_neg hentry, updated] at hheld
    by_cases hother : other = key
    · rw [if_pos hother, Option.some.injEq] at hheld
      exact .inl ⟨hother, hheld.symm⟩
    · rw [if_neg hother] at hheld
      exact .inr hheld
  -- An old pair of the kind with this handle was bound.
  have hold : ∀ other, (ofLex other).1 = (ofLex key).1 → (ofLex other).1 ≠ .handle →
      map other = some answer → Bound calls other := by
    intro other hkinds hkind hheld
    cases h.entered other answer hkind hheld with
    | inl hbound => exact hbound
    | inr hentered =>
      rw [hkinds] at hentered
      exact absurd hfree hentered
  have hfree' : updated map key answer (handleKey (ofLex key).1 answer) = none := by
    rw [updated, if_neg hne, hfree]
  constructor
  · intro other held hkind hheld
    cases hafter other held hkind hheld with
    | inl hnew =>
      right
      rw [hnew.1, hnew.2, updated, if_pos rfl]
      simp
    | inr hearlier =>
      cases h.entered other held hkind hearlier with
      | inl hbound => exact .inl (hbound.mono _)
      | inr hentered => exact .inr (updated_ne_none (updated_ne_none hentered))
  · intro first second held hkinds hkind hfirst hsecond
    have hkind' : (ofLex second).1 ≠ .handle := by
      rw [← hkinds]
      exact hkind
    cases hafter first held hkind hfirst with
    | inl hfirstNew =>
      cases hafter second held hkind' hsecond with
      | inl hsecondNew => exact .inl (hfirstNew.1.trans hsecondNew.1.symm)
      | inr hsecondOld =>
        rw [hfirstNew.2] at hsecondOld
        rw [hfirstNew.1] at hkinds
        exact .inr (.inr ((hold second hkinds.symm hkind' hsecondOld).mono _))
    | inr hfirstOld =>
      cases hafter second held hkind' hsecond with
      | inl hsecondNew =>
        rw [hsecondNew.2] at hfirstOld
        rw [hsecondNew.1] at hkinds
        exact .inr (.inl ((hold first hkinds hkind hfirstOld).mono _))
      | inr hsecondOld =>
        obtain heq | hbound | hbound :=
          h.once first second held hkinds hkind hfirstOld hsecondOld
        · exact .inl heq
        · exact .inr (.inl (hbound.mono _))
        · exact .inr (.inr (hbound.mono _))
  · intro other held hmem
    cases List.mem_append.mp hmem with
    | inl hearlier =>
      exact updated_of_some hfree' (updated_of_some hkey (h.answered other held hearlier))
    | inr hlast =>
      cases List.mem_singleton.mp hlast
      apply updated_of_some hfree'
      rw [updated, if_pos rfl]

/-- What a run leaves: the cache and the index mean the last assignment, and
drawn handles are drawn once. -/
theorem Runs.invariant {primaryHasher : Bytes → UInt64} {options : SpillableIdentityIndexOptions}
    (h : Runs faults (create primaryHasher options) calls recorder) :
    Coherent recorder (lastAssigned calls) ∧ Drawn calls (lastAssigned calls) := by
  induction h with
  | nil =>
    refine ⟨coherent_create primaryHasher options, ?_, ?_, ?_⟩
    · intro _ _ _ hkey
      cases hkey
    · intro _ _ _ _ _ hkey
      cases hkey
    · intro _ _ hmem
      cases hmem
  | snoc before returns ih =>
    rename_i calls recorder after call
    obtain ⟨hcoherent, hdrawn⟩ := ih
    rw [lastAssigned_snoc]
    cases call with
    | handle key answer =>
      cases hcoherent.identityHandle returns with
      | inl hknown =>
        have hassign : (IdentityCall.handle key answer).assign (lastAssigned calls) =
            lastAssigned calls := by
          rw [IdentityCall.assign, hknown.1]
          exact updated_of_eq hknown.1
        rw [hassign]
        refine ⟨hknown.2, hdrawn.same ?_⟩
        intro _ _ heq
        cases heq
        exact hknown.1
      | inr hnew =>
        have hassign : (IdentityCall.handle key answer).assign (lastAssigned calls) =
            updated (updated (lastAssigned calls) key answer)
              (handleKey (ofLex key).1 answer) answer := by
          rw [IdentityCall.assign, hnew.1]
        rw [hassign]
        exact ⟨hnew.2.2.2, hdrawn.draw hnew.1 hnew.2.1 hnew.2.2.1⟩
    | bind =>
      have hbound := hcoherent.bindIdentity returns
      exact ⟨hbound.2, hdrawn.bind hbound.1⟩
    | lookup key answer =>
      obtain ⟨_, hlookup, hlooked⟩ := hcoherent.lookupIdentity key
      have hreturns : recorder.lookupIdentity key = (.ok answer, after) := returns
      rw [hlookup] at hreturns
      cases hreturns
      refine ⟨hlooked, hdrawn.same ?_⟩
      intro _ _ heq
      cases heq

/-- After a run whose calls all return, a lookup answers with the handle last
assigned, the index lists the assigned pairs, and two keys of one kind were
answered with one handle only where one of them was bound to it. -/
theorem lookup_is_last_assigned (faults : ℕ → DiskFault) (primaryHasher : Bytes → UInt64)
    (options : SpillableIdentityIndexOptions) (calls : List IdentityCall) (recorder : IdentityRecorder)
    (hruns : Runs faults (create primaryHasher options) calls recorder) :
    (∀ key, (recorder.lookupIdentity key).1 = .ok (lastAssigned calls key)) ∧
    (∃ entries, recorder.index.entries = .ok entries ∧
      ∀ key, entries.find? key = lastAssigned calls key) ∧
    ∀ (kind : FactIdentityKind) (text other : Bytes) (handle : Int64), kind ≠ .handle →
      .handle (toLex (kind, text)) handle ∈ calls → .handle (toLex (kind, other)) handle ∈ calls →
      text = other ∨ Bound calls (toLex (kind, text)) ∨ Bound calls (toLex (kind, other)) := by
  obtain ⟨hcoherent, hdrawn⟩ := hruns.invariant
  refine ⟨?_, hcoherent.means.entries_eq, ?_⟩
  · intro key
    obtain ⟨_, hlookup, -⟩ := hcoherent.lookupIdentity key
    rw [hlookup]
  · intro kind text other handle hkind htext hother
    have honce := hdrawn.once (toLex (kind, text)) (toLex (kind, other)) handle rfl hkind
      (hdrawn.answered _ _ htext) (hdrawn.answered _ _ hother)
    obtain heq | hbound | hbound := honce
    · exact .inl (Prod.mk.inj (toLex_inj.mp heq)).2
    · exact .inr (.inl hbound)
    · exact .inr (.inr hbound)

/-- Room for everything below. -/
def roomyOptions : SpillableIdentityIndexOptions where
  maxResidentIdentityBytes := 4096
  maxIdentityEntries := 16
  maxIdentityRuns := 8
  maxTotalBytes := 4096

/-- A run that binds two keys to one handle. -/
def boundTwice : List IdentityCall :=
  [.bind (toLex (.symbol, ascii "a")) 5, .bind (toLex (.symbol, ascii "b")) 5]

def afterBoundTwice : IdentityRecorder :=
  (((create stableFactHash roomyOptions).bindIdentity noFaults (toLex (.symbol, ascii "a")) 5).2
    |>.bindIdentity noFaults (toLex (.symbol, ascii "b")) 5).2

theorem runs_boundTwice :
    Runs noFaults (create stableFactHash roomyOptions) boundTwice afterBoundTwice := by
  have hfirst : Returns noFaults (create stableFactHash roomyOptions)
      (.bind (toLex (.symbol, ascii "a")) 5) _ := Prod.ext (by decide +kernel) rfl
  have hsecond : Returns noFaults _ (.bind (toLex (.symbol, ascii "b")) 5) afterBoundTwice :=
    Prod.ext (by decide +kernel) rfl
  exact .snoc (.snoc .nil hfirst) hsecond

theorem lookup_is_last_assigned_bound :
    (afterBoundTwice.lookupIdentity (toLex (.symbol, ascii "b"))).1 = .ok (some 5) ∧
      (afterBoundTwice.lookupIdentity (toLex (.symbol, ascii "c"))).1 = .ok none := by
  have hlookup := (lookup_is_last_assigned noFaults stableFactHash roomyOptions boundTwice
    afterBoundTwice runs_boundTwice).1
  constructor
  · rw [hlookup]
    decide +kernel
  · rw [hlookup]
    decide +kernel

/-- `identity_handle` answers with one handle for two keys that were bound to
it. -/
theorem one_handle_for_two_keys : ∃ recorder, Runs noFaults (create stableFactHash roomyOptions)
      (boundTwice ++ [.handle (toLex (.symbol, ascii "a")) 5] ++
        [.handle (toLex (.symbol, ascii "b")) 5]) recorder := by
  have hfirst : Returns noFaults afterBoundTwice (.handle (toLex (.symbol, ascii "a")) 5) _ :=
    Prod.ext (by decide +kernel) rfl
  have hsecond : Returns noFaults
      (afterBoundTwice.identityHandle noFaults (toLex (.symbol, ascii "a"))).2
      (.handle (toLex (.symbol, ascii "b")) 5) _ := Prod.ext (by decide +kernel) rfl
  exact ⟨_, .snoc (.snoc runs_boundTwice hfirst) hsecond⟩

end IdentityRecorder

end CppIndexer.Ast
