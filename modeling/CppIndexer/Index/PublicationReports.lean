/-
# Publication reports

The publish callback of `run_parallel_index` over a storage that fails. It hands the units of a
window to `apply_window`, tells the observer of each unit whether it was published, and revokes the
header grants of the units the writer refused.

`apply` begins its transaction outside of the `try` that turns a failure into a result. In a replay
an exception can therefore leave `apply_window` behind items that are already committed, and the
callback, which has no results then, reports all of them as failed. The reports are truthful exactly
in the windows where that does not happen.
-/

import CppIndexer.Index.ParallelRunner
import CppIndexer.Storage.TransactionFaults

namespace CppIndexer.Index

open Storage List Option PublicationResult SessionM

/-- What the publish callback reads of an extraction's outcome. -/
structure ExtractedUnit (β α κ : Type) where
  parseFailed : Bool := false
  sourceChanged : Bool := false
  publication : Option (WindowItem β α κ) := none
  error : String := ""

/-- What the callback tells the observer about a unit, and whether it revoked the unit's grants. -/
structure UnitReport where
  rank : ℕ
  published : Bool := false
  revoked : Bool := false
  parseFailed : Bool
  error : String
  deriving DecidableEq

variable {β α κ δ : Type}

/-- The outcome of a unit once its extraction error is in it. -/
def withExtractionError (path : ℕ → String)
    (entry : RankedParallelResult (ExtractedUnit β α κ)) : ExtractedUnit β α κ :=
  let outcome := entry.result.payload
  match entry.result.error with
  | none => outcome
  | some error =>
    { outcome with
      parseFailed := true
      error := if outcome.error = "" then path entry.rank ++ ": extraction failed: " ++ error
        else outcome.error }

/-- The item a unit gives to the writer; `publication_context` injects no failure. -/
def writerItem (outcome : ExtractedUnit β α κ) : Option (WindowItem β α κ) :=
  if !outcome.parseFailed && !outcome.sourceChanged then
    outcome.publication.map fun item => { item with failure := .none }
  else none

/-- The outcome of a unit when the writer starts. -/
def prepared (path : ℕ → String) (entry : RankedParallelResult (ExtractedUnit β α κ)) :
    ExtractedUnit β α κ :=
  let outcome := withExtractionError path entry
  if (writerItem outcome).isNone && !outcome.parseFailed && !outcome.sourceChanged then
    { outcome with
      parseFailed := true
      error := if outcome.error = "" then "FactBatch extraction produced no publication batch"
        else outcome.error }
  else outcome

/-- `writer_items`. -/
def writerItems (path : ℕ → String) (window : List (RankedParallelResult (ExtractedUnit β α κ))) :
    List (WindowItem β α κ) :=
  window.filterMap fun entry => writerItem (withExtractionError path entry)

/-- `writer_positions`. -/
def writerPositions (path : ℕ → String)
    (window : List (RankedParallelResult (ExtractedUnit β α κ))) : List ℕ :=
  (window.zipIdx.filter fun entry =>
    (writerItem (withExtractionError path entry.1)).isSome).map Prod.snd

def windowMode (path : ℕ → String) (window : List (RankedParallelResult (ExtractedUnit β α κ))) :
    WindowMode :=
  if (writerItems path window).length = window.length then .speculative else .replayOnly

variable (publisher : Publisher β α κ δ)

/-- `applied.results`. An exception takes the results with it. -/
def appliedResults (path : ℕ → String) (faults : StorageFaults)
    (window : List (RankedParallelResult (ExtractedUnit β α κ))) (s : Session δ) :
    List PublicationResult × Session δ :=
  let items := writerItems path window
  if items.isEmpty then ([], s)
  else match SessionM.applyWindow publisher faults (windowMode path window) items s with
    | .ok applied s => (applied.results, s)
    | .error error s =>
      (items.map fun _ =>
        { committed := false, error := some ("FactBatch publication failed: " ++ error) }, s)

variable (positions : List ℕ)

/-- `by_position`. -/
def byPosition (results : List PublicationResult) (position : ℕ) : Option PublicationResult :=
  (positions.idxOf? position).bind fun index => results[index]?

def settleUnit (path : ℕ → String) (entry : RankedParallelResult (ExtractedUnit β α κ))
    (result : Option PublicationResult) : UnitReport :=
  let outcome := prepared path entry
  match result with
  | none => { rank := entry.rank, parseFailed := outcome.parseFailed, error := outcome.error }
  | some result =>
    if result.ok then
      { rank := entry.rank, published := true, parseFailed := outcome.parseFailed
        error := outcome.error }
    else
      { rank := entry.rank, revoked := true, parseFailed := true
        error := result.error.getD "FactBatch publication failed" }

/-- The publish callback: the report of every unit, how far the observer wants to go on, and the
session that is left. -/
def publishUnits (path : ℕ → String) (observer : UnitReport → Bool) (cancelled : Bool)
    (faults : StorageFaults) (window : List (RankedParallelResult (ExtractedUnit β α κ)))
    (s : Session δ) : List UnitReport × ParallelWindowPublication × Session δ :=
  let applied := appliedResults publisher path faults window s
  let reports := window.zipIdx.map fun entry =>
    settleUnit path entry.1 (byPosition (writerPositions path window) applied.1 entry.2)
  let continuing := reports.takeWhile observer
  (reports,
    { itemsPublished := continuing.length
      stopStatus := if continuing.length = window.length then .none
        else if cancelled then .cancelled else .publicationStopped },
    applied.2)

/-- The session between two windows: the durable database, and what a transaction that could not be
rolled back left open. -/
def betweenWindows (db : δ) (left : Option δ) : Session δ :=
  ⟨⟨db, []⟩, left.map fun db => ⟨db, []⟩, false⟩

/-- The facts of the unit at a position are durable. -/
def DurableAt (s : Session δ) (position : ℕ) : Prop :=
  ∃ index ∈ s.durable.items, positions[index]? = some position

/-- Exactly the units whose facts are durable are reported as published, and no grant of theirs is
revoked. -/
def Truthful (reports : List UnitReport) (s : Session δ) : Prop :=
  ∀ position report, reports[position]? = some report →
    (report.published = true ↔ DurableAt positions s position) ∧
      (report.revoked = true → ¬ DurableAt positions s position)

/-! ## Positions -/

section Positions

variable {path : ℕ → String} {window : List (RankedParallelResult (ExtractedUnit β α κ))}

theorem length_writerPositions : (writerPositions path window).length =
    (writerItems path window).length := by
  unfold writerPositions writerItems
  rw [length_map, ← countP_eq_length_filter, length_filterMap_eq_countP]
  have hfst : (window.zipIdx.map Prod.fst).countP
      (fun entry => (writerItem (withExtractionError path entry)).isSome) =
      window.countP fun entry => (writerItem (withExtractionError path entry)).isSome := by
    rw [zipIdx_map_fst]
  rw [← hfst, countP_map]
  rfl

theorem nodup_writerPositions : (writerPositions path window).Nodup := by
  have hsub : (writerPositions path window).Sublist (window.zipIdx.map Prod.snd) :=
    filter_sublist.map _
  rw [zipIdx_map_snd] at hsub
  exact hsub.nodup nodup_range'

theorem idxOf?_eq_some {positions : List ℕ} (hnodup : positions.Nodup) {position index : ℕ} :
    positions.idxOf? position = some index ↔ positions[index]? = some position := by
  rw [idxOf?_eq_some_iff, List.getElem?_eq_some_iff]
  constructor
  · rintro ⟨hlt, hindex, _⟩
    exact ⟨hlt, hindex⟩
  · rintro ⟨hlt, hindex⟩
    refine ⟨hlt, hindex, fun j hj hsame => ?_⟩
    have := (hnodup.getElem_inj_iff).mp (hsame.trans hindex.symm)
    omega

theorem failure_writerItems : ∀ item ∈ writerItems path window, item.failure = .none := by
  intro _ hitem
  obtain ⟨_, _, hentry⟩ := mem_filterMap.mp hitem
  unfold writerItem at hentry
  split at hentry
  · obtain ⟨_, _, rfl⟩ := map_eq_some_iff.mp hentry
    rfl
  · cases hentry

theorem mem_committedFrom {index k : ℕ} {results : List PublicationResult} :
    k ∈ committedFrom index results ↔
      ∃ i result, results[i]? = some result ∧ result.ok = true ∧ k = index + i := by
  unfold committedFrom
  simp only [List.mem_map, mem_filter, Prod.exists, mk_mem_zipIdx_iff_le_and_getElem?_sub]
  constructor
  · rintro ⟨result, i, ⟨⟨_, hget⟩, hok⟩, rfl⟩
    exact ⟨i - index, result, hget, hok, by omega⟩
  · rintro ⟨i, result, hget, hok, rfl⟩
    exact ⟨result, index + i, ⟨⟨by omega, by simpa using hget⟩, hok⟩, rfl⟩

variable {position : ℕ}

theorem lt_of_mem_writerPositions (h : position ∈ writerPositions path window) :
    position < window.length := by
  obtain ⟨_, hentry, rfl⟩ := List.mem_map.mp h
  have hget := mem_zipIdx_iff_getElem?.mp (mem_filter.mp hentry).1
  exact (List.getElem?_eq_some_iff.mp hget).1

end Positions

/-! ## What the reports say -/

theorem published_settleUnit (path : ℕ → String) (entry : RankedParallelResult (ExtractedUnit β α κ))
    (result : Option PublicationResult) : (settleUnit path entry result).published = result.any ok := by
  cases result with
  | none => rfl
  | some result => cases hok : result.ok <;> simp [settleUnit, hok]

theorem revoked_settleUnit (path : ℕ → String) (entry : RankedParallelResult (ExtractedUnit β α κ))
    (result : Option PublicationResult) :
    (settleUnit path entry result).revoked = result.any fun result => !result.ok := by
  cases result with
  | none => rfl
  | some result => cases hok : result.ok <;> simp [settleUnit, hok]

variable {window : List (RankedParallelResult (ExtractedUnit β α κ))}
  {results : List PublicationResult} {positions : List ℕ} {s : Session δ} {path : ℕ → String}

/-- A unit whose grants are revoked is not reported as published, so that only the published flags
matter. -/
theorem truthful_iff : Truthful positions (window.zipIdx.map fun entry =>
        settleUnit path entry.1 (byPosition positions results entry.2)) s ↔
      ∀ position < window.length, (byPosition positions results position).any ok =
        true ↔ DurableAt positions s position := by
  constructor
  · intro h position hlt
    rw [← (h position (settleUnit path window[position] (byPosition positions results position))
      (by simp [hlt])).1, published_settleUnit]
  · intro h position _ hreport
    rw [getElem?_map, map_eq_some_iff] at hreport
    obtain ⟨⟨entry, _⟩, hentry, rfl⟩ := hreport
    rw [getElem?_zipIdx, map_eq_some_iff] at hentry
    obtain ⟨_, hget, hpair⟩ := hentry
    obtain ⟨rfl, rfl⟩ := Prod.mk.inj hpair
    have hposition := h (0 + position) (by simpa using (List.getElem?_eq_some_iff.mp hget).1)
    rw [Nat.zero_add] at hposition ⊢
    rw [published_settleUnit, revoked_settleUnit]
    refine ⟨hposition, fun hrevoked hdurable => ?_⟩
    have hok := hposition.mpr hdurable
    rw [Option.any_eq_true] at hrevoked
    obtain ⟨_, hresult, hfailed⟩ := hrevoked
    simp [hresult] at hok hfailed
    simp [hok] at hfailed

variable {position : ℕ}

theorem any_ok_byPosition (hnodup : positions.Nodup) :
    (byPosition positions results position).any ok = true ↔
      ∃ (index : ℕ) (result : PublicationResult), positions[index]? = some position ∧
        results[index]? = some result ∧ result.ok = true := by
  unfold byPosition
  rw [Option.any_eq_true]
  constructor
  · rintro ⟨result, hresult, hok⟩
    obtain ⟨index, hindex, hget⟩ := bind_eq_some_iff.mp hresult
    exact ⟨index, result, (idxOf?_eq_some hnodup).mp hindex, hget, hok⟩
  · rintro ⟨_, result, hindex, hget, hok⟩
    exact ⟨result, by rw [(idxOf?_eq_some hnodup).mpr hindex, bind_some, hget], hok⟩

theorem durableAt_of_returned (hnodup : positions.Nodup)
    (h : s.durable.items = committedFrom 0 results) (position : ℕ) :
    (byPosition positions results position).any ok = true ↔ DurableAt positions s position := by
  rw [any_ok_byPosition hnodup]
  unfold DurableAt
  simp only [h, mem_committedFrom, Nat.zero_add]
  constructor
  · rintro ⟨index, result, hindex, hget, hok⟩
    exact ⟨index, ⟨index, result, hget, hok, rfl⟩, hindex⟩
  · rintro ⟨index, ⟨_, result, hget, hok, rfl⟩, hindex⟩
    exact ⟨index, result, hindex, hget, hok⟩

theorem any_ok_of_thrown {τ : Type} (hnodup : positions.Nodup) (items : List τ)
    (message : String) (position : ℕ) :
    ¬ (byPosition positions (items.map fun _ =>
      ({ committed := false, error := some message } : PublicationResult)) position).any
        ok = true := by
  intro hany
  obtain ⟨_, _, _, hget, hok⟩ := (any_ok_byPosition hnodup).mp hany
  rw [getElem?_map, map_eq_some_iff] at hget
  obtain ⟨_, _, rfl⟩ := hget
  cases hok

theorem not_durableAt_iff (h : ∀ k ∈ s.durable.items, k < (writerItems path window).length) :
    (∀ position < window.length, ¬ DurableAt (writerPositions path window) s position) ↔
      s.durable.items = [] := by
  constructor
  · intro hnone
    rw [eq_nil_iff_forall_not_mem]
    intro k hk
    have hlt : k < (writerPositions path window).length := length_writerPositions ▸ h k hk
    exact hnone _ (lt_of_mem_writerPositions (getElem_mem hlt))
      ⟨k, hk, getElem?_eq_getElem hlt⟩
  · rintro hnil _ _ ⟨_, hindex, _⟩
    rw [hnil] at hindex
    cases hindex

/-- The units of a window are reported truthfully unless a transaction of its replay fails to begin
behind a committed one; and the next window starts between two windows again. -/
theorem publishUnits_truthful_iff (path : ℕ → String) (observer : UnitReport → Bool)
    (cancelled : Bool) (faults : StorageFaults)
    (window : List (RankedParallelResult (ExtractedUnit β α κ))) (db : δ) (left : Option δ) :
    let published := publishUnits publisher path observer cancelled faults window
      (betweenWindows db left)
    let items := writerItems path window
    (Truthful (writerPositions path window) published.1 published.2.2 ↔
      (replays publisher faults (windowMode path window) items db = true →
        beginsBehind publisher faults.replay false left.isSome 0 items db = true)) ∧
    published.2.2.inTxn = false := by
  intro published items
  have hnodup : (writerPositions path window).Nodup := nodup_writerPositions
  obtain ⟨results, s, happlied⟩ : ∃ results s,
      appliedResults publisher path faults window (betweenWindows db left) = (results, s) := ⟨_, _, rfl⟩
  have hpublished : published.1 = window.zipIdx.map (fun entry =>
      settleUnit path entry.1 (byPosition (writerPositions path window) results entry.2)) ∧
      published.2.2 = s := by
    simp [published, publishUnits, happlied]
  rw [hpublished.1, hpublished.2, truthful_iff]
  unfold appliedResults at happlied
  by_cases hitems : items = []
  · rw [if_pos (by simpa using hitems)] at happlied
    obtain ⟨rfl, rfl⟩ := Prod.mk.inj happlied
    refine ⟨iff_of_true (fun position _ => durableAt_of_returned hnodup rfl position) ?_, rfl⟩
    intro _
    rw [hitems]
    rfl
  · rw [if_neg (by simpa using hitems)] at happlied
    obtain ⟨out, t, hrun, htxn, hends⟩ := SessionM.applyWindow_ends publisher faults
      (windowMode path window) hitems failure_writerItems ⟨db, []⟩ (left.map fun db => ⟨db, []⟩)
    rw [isSome_map] at hends
    have hclean : (!replays publisher faults (windowMode path window) items db ||
        beginsBehind publisher faults.replay false left.isSome 0 items db) = true ↔
        (replays publisher faults (windowMode path window) items db = true →
          beginsBehind publisher faults.replay false left.isSome 0 items db = true) := by
      rw [Bool.or_eq_true, Bool.not_eq_true', ← Bool.not_eq_true, imp_iff_not_or]
    rw [← hclean]
    cases hwindow : SessionM.applyWindow publisher faults (windowMode path window) items
        (betweenWindows db left) with
    | ok applied u =>
      obtain ⟨rfl, rfl⟩ := Prod.mk.inj (hrun.symm.trans (congrArg SessionM.outcome hwindow))
      rw [hwindow] at happlied
      obtain ⟨rfl, rfl⟩ := Prod.mk.inj happlied
      generalize hout : Option.map WindowResult.results (some applied) = out at hends
      cases hends with
      | returned _ _ hdurable hyes =>
        cases hout
        exact ⟨iff_of_true (fun position _ => durableAt_of_returned hnodup hdurable position) hyes,
          htxn⟩
      | thrown => cases hout
    | error error u =>
      obtain ⟨rfl, rfl⟩ := Prod.mk.inj (hrun.symm.trans (congrArg SessionM.outcome hwindow))
      rw [hwindow] at happlied
      obtain ⟨rfl, rfl⟩ := Prod.mk.inj happlied
      cases hends with
      | thrown _ hdurable hdone hyes =>
        rw [nil_append] at hdurable
        refine ⟨?_, htxn⟩
        rw [hyes, ← hdurable]
        have hbound : ∀ k ∈ t.durable.items, k < (writerItems path window).length := by
          intro k hk
          exact (Nat.zero_add (writerItems path window).length) ▸ (hdone k (hdurable ▸ hk)).2
        rw [← not_durableAt_iff hbound]
        simp only [true_and]
        exact forall₂_congr fun position _ =>
          iff_false_left (any_ok_of_thrown hnodup items _ position)

/-- Two units to publish and one that failed to parse. -/
def mixedWindow : List (RankedParallelResult (ExtractedUnit ℕ ℕ Unit)) :=
  [⟨0, { payload := { publication := some { batch := some 1, context := () } } }⟩,
    ⟨1, { payload := { publication := some { batch := some 2, context := () } } }⟩,
    ⟨2, { payload := { parseFailed := true, error := "no such file" } }⟩]

/-- The second transaction of the replay does not begin. -/
def secondBeginFails : StorageFaults where
  replay index := if index = 1 then { begin_ := some "disk I/O error" } else {}

/-- What the callback makes of it. -/
def afterSecondBegin : List UnitReport × ParallelWindowPublication × Session (List ℕ) :=
  publishUnits numberPublisher (fun _ => "") (fun _ => true) false secondBeginFails mixedWindow
    (betweenWindows [] none)

/-- The first unit is durable, is reported as failed, and loses its grants. -/
theorem publishUnits_untruthful :
    ¬ Truthful (writerPositions (fun _ => "") mixedWindow) afterSecondBegin.1 afterSecondBegin.2.2 := by
  intro h
  have hdurable : DurableAt (writerPositions (fun _ => "") mixedWindow) afterSecondBegin.2.2 0 :=
    ⟨0, by decide +kernel, rfl⟩
  have hreport : afterSecondBegin.1[0]? = some
      { rank := 0, revoked := true, parseFailed := true,
        error := "FactBatch publication failed: disk I/O error" } := by decide +kernel
  exact (h 0 _ hreport).2 rfl hdurable

end CppIndexer.Index
