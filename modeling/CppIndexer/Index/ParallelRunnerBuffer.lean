/-
# The bounded reorder buffer

The reorder buffer is bounded by an item count and a byte budget, except for the
rank the publisher waits for, which is always admitted. The bookkeeping is one
64-bit byte counter, and both the admission test and the counter wrap. The bounds
hold along every run in which no admission makes the counter overflow.
-/

import CppIndexer.Index.ParallelRunnerOrder
import Mathlib.Algebra.Order.BigOperators.Group.List
import Mathlib.Algebra.Order.Ring.Nat

namespace CppIndexer.Index

open Transition List WorkerState

variable {Payload Shared Frame Choice : Type}

namespace RunnerState

/-- The bytes of some results, without wrapping. -/
def totalBytes (entries : List (RankedParallelResult Payload)) : ℕ :=
  (entries.map fun entry => entry.result.bytes.toNat).sum

variable (s : RunnerState Payload Shared Frame)

/-- The buffered results other than the rank the publisher waits for. -/
def behind : List (RankedParallelResult Payload) :=
  s.ready.filter fun entry => entry.rank ≠ s.nextPublish

/-- The publisher waits for the next rank. -/
def Waits (count : ℕ) (s : RunnerState Payload Shared Frame) : Prop :=
  (∃ windowBytes, s.publisher = .collecting [] windowBytes) ∧ s.nextPublish < count ∧
    s.stopping = false ∧ s.find? s.nextPublish = .none

/-- The bounds on the reorder buffer. The byte counter is meaningful until the
function returns, which clears the buffer and drops the counter. -/
structure Bounded (plan : ParallelPlan) (s : RunnerState Payload Shared Frame) : Prop where
  bytes : s.publisher ≠ .finished → s.bufferedBytes.toNat = totalBytes s.ready
  items : s.behind.length ≤ plan.maxQueueItems
  budget : totalBytes s.behind ≤ plan.maxQueueBytes.toNat
  ranks : ∀ entry ∈ s.ready, s.nextPublish ≤ entry.rank ∧ entry.rank < s.nextDispatch

/-- The awaited rank is never held back once its extraction is over. -/
def HeadAdmitted (plan : ParallelPlan) (count : ℕ) (s : RunnerState Payload Shared Frame) : Prop :=
  s.Waits count → (∃ entry ∈ s.produced, entry.rank = s.nextPublish) →
    ∃ (index : ℕ) (result : ParallelResult Payload), s.workers[index]? = some (.admitting s.nextPublish result) ∧
      s.admits plan s.nextPublish result = true

/-- A result that enters the buffer does not make the byte counter overflow. -/
def BytesFit : RunnerLabel Choice → Prop
  | .emplace index =>
    match s.workers[index]? with
    | some (.admitting _ result) =>
      s.stopping = false → s.bufferedBytes.toNat + result.bytes.toNat < 2 ^ 64
    | _ => True
  | _ => True

variable {after before : List (RankedParallelResult Payload)}

theorem totalBytes_perm (h : before.Perm after) : totalBytes before = totalBytes after :=
  (h.map _).sum_nat

theorem totalBytes_sublist (h : before.Sublist after) : totalBytes before ≤ totalBytes after :=
  (h.map _).sum_le_sum (by simp)

section Bounds

variable {plan : ParallelPlan} {count : ℕ} {s t : RunnerState Payload Shared Frame}

theorem bounded_init (shared : Shared) :
    Bounded plan ({ shared := shared } : RunnerState Payload Shared Frame) where
  bytes := fun _ => rfl
  items := Nat.zero_le _
  budget := Nat.zero_le _
  ranks := by simp

theorem Bounded.stands (h : Bounded plan s) (hready : t.ready = s.ready)
    (hbytes : t.bufferedBytes = s.bufferedBytes) (hnext : t.nextPublish = s.nextPublish)
    (hdispatch : s.nextDispatch ≤ t.nextDispatch) (hpub : s.publisher ≠ .finished) : Bounded plan t where
  bytes := by
    intro _
    rw [hbytes, hready]
    exact h.bytes hpub
  items := by
    rw [behind, hready, hnext]
    exact h.items
  budget := by
    rw [behind, hready, hnext]
    exact h.budget
  ranks := by
    rw [hready, hnext]
    intro entry hmem
    exact ⟨(h.ranks entry hmem).1, (h.ranks entry hmem).2.trans_le hdispatch⟩

variable {index rank : ℕ}

theorem Accounted.held_ranks (h : Accounted count s)
    {worker : WorkerState Payload Frame} (hworker : s.workers[index]? = some worker)
    (hrank : rank ∈ worker.held) : s.nextPublish ≤ rank ∧ rank < s.nextDispatch := by
  have hheld : rank ∈ s.workers.flatMap held :=
    mem_flatMap.mpr ⟨worker, mem_of_getElem? hworker, hrank⟩
  have hcount := perm_iff_count.mp h.places rank
  have hone := nodup_iff_count_le_one.mp (nodup_range (n := s.nextDispatch)) rank
  have hpos := count_pos_iff.mpr hheld
  simp only [whereabouts, count_append] at hcount
  constructor
  · by_contra hlt
    have htaken : rank ∈ (s.handed ++ s.window).map (·.rank) := by
      rw [h.inOrder]
      exact mem_range.mpr (Nat.lt_of_not_le hlt)
    have hpos' := count_pos_iff.mpr htaken
    rw [map_append, count_append] at hpos'
    omega
  · exact mem_range.mp (count_pos_iff.mp (by omega))

/-- An admission that does not overflow keeps the bounds. -/
theorem Bounded.emplace (h : Bounded plan s) (haccounted : Accounted count s)
    {result : ParallelResult Payload}
    (hworker : s.workers[index]? = some (.admitting rank result))
    (hpub : s.publisher ≠ .finished) (hrun : s.stopping = false)
    (hadmits : s.admits plan rank result = true)
    (hfit : s.bufferedBytes.toNat + result.bytes.toNat < 2 ^ 64) :
    Bounded plan ((s.emplace ⟨rank, result⟩).setWorker index .dispatching) := by
  have hinsert := perm_orderedInsert (fun a b => a.rank ≤ b.rank)
    (⟨rank, result⟩ : RankedParallelResult Payload) s.ready
  have htotal : totalBytes (s.ready.orderedInsert (fun a b => a.rank ≤ b.rank) ⟨rank, result⟩) =
      result.bytes.toNat + totalBytes s.ready := totalBytes_perm hinsert
  have hbehind : ((s.emplace ⟨rank, result⟩).setWorker index .dispatching).behind.Perm
      ((⟨rank, result⟩ :: s.ready).filter fun entry => entry.rank ≠ s.nextPublish) :=
    hinsert.filter _
  have hbytes := h.bytes hpub
  have hranks := haccounted.held_ranks hworker (mem_singleton_self rank)
  -- The head adds nothing to what waits behind it; any other rank passed both budgets.
  have hadmitted : rank = s.nextPublish ∨ s.ready.length < plan.maxQueueItems ∧
      result.bytes.toNat + totalBytes s.ready ≤ plan.maxQueueBytes.toNat := by
    simp only [admits, hrun, Bool.false_or, Bool.or_eq_true, Bool.and_eq_true,
      decide_eq_true_eq, UInt64.le_iff_toNat_le, UInt64.toNat_add] at hadmits
    rw [Nat.mod_eq_of_lt hfit, hbytes, Nat.add_comm] at hadmits
    exact hadmits
  exact {
    bytes := by
      intro _
      change (s.bufferedBytes + result.bytes).toNat = totalBytes (List.orderedInsert _ _ _)
      rw [htotal, UInt64.toNat_add, Nat.mod_eq_of_lt hfit, hbytes, Nat.add_comm]
    items := by
      rw [hbehind.length_eq]
      cases hadmitted with
      | inl hhead =>
        rw [filter_cons_of_neg (by simp [hhead])]
        exact h.items
      | inr hroom =>
        exact (length_filter_le _ _).trans hroom.1
    budget := by
      rw [totalBytes_perm hbehind]
      cases hadmitted with
      | inl hhead =>
        rw [filter_cons_of_neg (by simp [hhead])]
        exact h.budget
      | inr hroom =>
        exact (totalBytes_sublist filter_sublist).trans hroom.2
    ranks := by
      intro entry hmem
      cases mem_cons.mp (hinsert.mem_iff.mp hmem) with
      | inl heq =>
        cases heq
        exact hranks
      | inr hbefore => exact h.ranks entry hbefore }

/-- Taking the awaited rank keeps the bounds. -/
theorem Bounded.take (h : Bounded plan s) (haccounted : Accounted count s)
    {before : List (RankedParallelResult Payload)} {windowBytes windowBytes' : UInt64}
    {entry : RankedParallelResult Payload}
    (hpub : s.publisher = .collecting before windowBytes)
    (hfind : s.find? s.nextPublish = some entry) :
    Bounded plan { s with
      publisher := .collecting (before ++ [entry]) windowBytes'
      ready := s.ready.filter fun other => other.rank ≠ s.nextPublish
      bufferedBytes := s.bufferedBytes - entry.result.bytes
      nextPublish := s.nextPublish + 1 } := by
  have hmem : entry ∈ s.ready := mem_of_find?_eq_some hfind
  have hrank : entry.rank = s.nextPublish := by
    simpa using find?_some hfind
  have hpending : s.pending = s.ready := by
    simp [pending, hpub]
  have hsplit := perm_cons_filter_rank_ne (hpending ▸ haccounted.nodup_pending) hmem
  rw [hrank] at hsplit
  have htotal : totalBytes s.ready = entry.result.bytes.toNat + totalBytes s.behind :=
    totalBytes_perm hsplit
  have hbytes := h.bytes (by simp [hpub])
  have hsub : (s.behind.filter fun other => other.rank ≠ s.nextPublish + 1).Sublist s.behind :=
    filter_sublist
  exact {
    bytes := by
      intro _
      change (s.bufferedBytes - entry.result.bytes).toNat = totalBytes s.behind
      rw [UInt64.toNat_sub_of_le, hbytes, htotal, Nat.add_sub_cancel_left]
      rw [UInt64.le_iff_toNat_le, hbytes, htotal]
      exact Nat.le_add_right _ _
    items := hsub.length_le.trans h.items
    budget := (totalBytes_sublist hsub).trans h.budget
    ranks := by
      intro other hother
      have hkept := mem_filter.mp hother
      have hne : other.rank ≠ s.nextPublish := by simpa using hkept.2
      have hbounds := h.ranks other hkept.1
      exact ⟨Nat.lt_of_le_of_ne hbounds.1 (Ne.symm hne), hbounds.2⟩ }

/-- Every transition whose admission does not overflow keeps the bounds. -/
theorem Bounded.moves [Inhabited Payload] {callbacks : Callbacks Payload Shared Frame Choice}
    {l : RunnerLabel Choice} (hphase : Phased count s) (haccounted : Accounted count s)
    (h : Bounded plan s) (hfit : BytesFit s l) (hmove : Moves callbacks plan count s l t) :
    Bounded plan t := by
  have hworkers : ∀ {index : ℕ} {worker : WorkerState Payload Frame},
      s.workers[index]? = some worker → worker ≠ .exited → s.publisher ≠ .finished := by
    intro _ worker hworker hne hfinished
    exact hne (hphase.joined (by simp [hfinished, PublisherState.joined]) worker
      (mem_of_getElem? hworker))
  cases hmove with
  | exit hworker _ | extract hworker _ | produce hworker _ _ | stop hworker _ | abandon hworker =>
    exact h.stands rfl rfl rfl le_rfl (hworkers hworker (by simp))
  | dispatch hworker =>
    exact h.stands rfl rfl rfl (Nat.le_succ _) (hworkers hworker (by simp))
  | emplace hworker hrun hadmits =>
    simp only [BytesFit, hworker] at hfit
    exact h.emplace haccounted hworker (hworkers hworker (by simp)) hrun hadmits (hfit hrun)
  | take hpub _ _ hfind => exact h.take haccounted hpub hfind
  | finish =>
    exact ⟨fun hne => absurd rfl hne, Nat.zero_le _, Nat.zero_le _, by simp⟩
  | spawn hpub | spawnFails hpub | cancel hpub | poll hpub | pollThrows hpub | leave hpub _
  | hand hpub _ | published hpub _ _ | publishedLast hpub _ _ | publishThrows hpub _
  | joinUnwinding hpub _ | join hpub _ | drain hpub =>
    exact h.stands rfl rfl rfl le_rfl (by simp [hpub])

/-- While the publisher waits for a dispatched rank, a worker holds it. -/
theorem Accounted.holder (h : Accounted count s) (hphase : Phased count s) (hwaits : s.Waits count)
    (hlt : s.nextPublish < s.nextDispatch) :
    ∃ (index : ℕ) (worker : WorkerState Payload Frame), s.workers[index]? = some worker ∧
      s.nextPublish ∈ worker.held ∧ ∀ rank, worker ≠ .abandoning rank := by
  obtain ⟨⟨_, hpub⟩, _, hrun, hfind⟩ := hwaits
  have hmem : s.nextPublish ∈ s.whereabouts := h.places.mem_iff.mpr (mem_range.mpr hlt)
  have hready : s.nextPublish ∉ s.pending.map (·.rank) := by
    simpa [pending, hpub] using find?_eq_none.mp hfind
  have htaken : s.nextPublish ∉ (s.handed ++ s.window).map (·.rank) := by
    rw [h.inOrder]
    exact not_mem_range_self
  have habandoned := hphase.abandoning hrun
  simp only [whereabouts, mem_append, habandoned.1, not_mem_nil, or_false] at hmem
  rw [map_append, mem_append, not_or] at htaken
  have hheld : s.nextPublish ∈ s.workers.flatMap held :=
    ((hmem.resolve_right htaken.1).resolve_right htaken.2).resolve_right hready
  obtain ⟨worker, hworker, hrank⟩ := mem_flatMap.mp hheld
  obtain ⟨index, hindex⟩ := mem_iff_getElem?.mp hworker
  refine ⟨index, worker, hindex, hrank, ?_⟩
  rintro rank rfl
  exact habandoned.2 rank hworker

/-- The awaited rank, once extracted, is in the hands of a worker that may enter. -/
theorem Accounted.headAdmitted (h : Accounted count s) (hphase : Phased count s) :
    HeadAdmitted plan count s := by
  rintro hwaits ⟨entry, hproduced, hrank⟩
  have hover : s.nextPublish ∈ s.produced.map (·.rank) := mem_map.mpr ⟨entry, hproduced, hrank⟩
  have hlt : s.nextPublish < s.nextDispatch := by
    have hmem : s.nextPublish ∈ s.extractions := mem_append_right _ hover
    exact mem_range.mp (h.once.mem_iff.mp hmem)
  obtain ⟨index, worker, hworker, hheld, habandon⟩ := h.holder hphase hwaits hlt
  cases worker with
  | dispatching | exited => cases hheld
  | abandoning rank => exact absurd rfl (habandon rank)
  | extracting =>
    -- A running extraction has produced nothing.
    have hrunning : s.nextPublish ∈ s.workers.flatMap running :=
      mem_flatMap.mpr ⟨_, mem_of_getElem? hworker, hheld⟩
    have hnodup := h.once.nodup_iff.mpr nodup_range
    exact absurd rfl ((nodup_append.mp hnodup).2.2 _ hrunning _ hover)
  | admitting _ result =>
    cases mem_singleton.mp hheld
    exact ⟨index, result, hworker, by simp [admits]⟩

end Bounds

/-! ## Progress -/

section Progress

variable {callbacks : Callbacks Payload Shared Frame Choice} {plan : ParallelPlan}
  {count maxWindowItems : ℕ} {s : RunnerState Payload Shared Frame}

theorem waits_of_collect_eq_none {window : List (RankedParallelResult Payload)}
    {windowBytes : UInt64} (hpub : s.publisher = .collecting window windowBytes)
    (h : s.collect plan count maxWindowItems window windowBytes = .none) : s.Waits count := by
  unfold collect at h
  split at h
  · cases h
  · rename_i hfull
    simp only [Bool.or_eq_true, decide_eq_true_eq, not_or, not_le] at hfull
    split at h
    · cases h
    · rename_i hrun hfind
      split at h
      · rename_i hempty
        cases List.isEmpty_iff.mp hempty
        exact ⟨⟨windowBytes, hpub⟩, hfull.2, hrun, hfind⟩
      · cases h
    · split at h <;> cases h

/-- While the publisher waits for a rank that is not dispatched yet, a worker is
free to dispatch it. -/
theorem Accounted.dispatcher (h : Accounted count s) (hphase : Phased count s)
    (hwaits : s.Waits count) (hle : s.nextDispatch ≤ s.nextPublish) :
    ∃ index : ℕ, s.workers[index]? = some .dispatching := by
  obtain ⟨⟨_, hpub⟩, _, hrun, _⟩ := hwaits
  have hpool : s.workers ≠ [] := (hphase.pool hrun).resolve_left (by simp [hpub])
  obtain ⟨first, _, hworkers⟩ := exists_cons_of_ne_nil hpool
  have hfirst : s.workers[0]? = some first := by simp [hworkers]
  cases first with
  | dispatching => exact ⟨0, hfirst⟩
  | exited =>
    cases hphase.exited (mem_of_getElem? hfirst) with
    | inl hstop => simp [hrun] at hstop
    | inr => omega
  | extracting rank frame | admitting rank result | abandoning rank =>
    have hranks := h.held_ranks hfirst (mem_singleton_self rank)
    omega

attribute [local simp] runParallelExtractionWindowed

/-- A run that has not stopped is held up by nothing but the extraction of the
rank the publisher waits for. -/
theorem Accounted.enabled_or_extracting [Inhabited Payload] [Nonempty Choice]
    (h : Accounted count s) (hphase : Phased count s) (hrun : s.stopping = false) :
    (runParallelExtractionWindowed callbacks plan count maxWindowItems).Enabled s ∨
      ∃ (index : ℕ) (frame : Frame), s.workers[index]? = some (.extracting s.nextPublish frame) := by
  cases hpub : s.publisher with
  | spawning => exact .inl ⟨.spawn, by simp [step, hpub]⟩
  | polling => exact .inl ⟨.poll false, by simp [step, hpub]⟩
  | publishing =>
    obtain ⟨choice⟩ := ‹Nonempty Choice›
    refine .inl ⟨.publish choice, ?_⟩
    simp only [runParallelExtractionWindowed, step, hpub]
    split
    · rfl
    · split <;> rfl
  | joining | draining | finished | unwound =>
    simp [hphase.stopping, hpub, PublisherState.leaving] at hrun
  | collecting window windowBytes =>
    cases hcollect : s.collect plan count maxWindowItems window windowBytes with
    | some =>
      exact .inl ⟨.collect, by simp [step, hpub, hcollect]⟩
    | none =>
      have hwaits := waits_of_collect_eq_none hpub hcollect
      by_cases hlt : s.nextPublish < s.nextDispatch
      · obtain ⟨index, worker, hworker, hheld, habandon⟩ := h.holder hphase hwaits hlt
        cases worker with
        | dispatching | exited => cases hheld
        | abandoning rank => exact absurd rfl (habandon rank)
        | extracting _ frame =>
          cases mem_singleton.mp hheld
          exact .inr ⟨index, frame, hworker⟩
        | admitting =>
          cases mem_singleton.mp hheld
          refine .inl ⟨.emplace index, ?_⟩
          simp [step, hworker, admits, hrun]
      · obtain ⟨index, hworker⟩ := h.dispatcher hphase hwaits (Nat.le_of_not_lt hlt)
        refine .inl ⟨.dispatch index, ?_⟩
        simp only [runParallelExtractionWindowed, step, hworker]
        split <;> rfl

end Progress

end RunnerState

open RunnerState

/-- In every run whose admissions do not overflow the byte counter, the buffer
keeps its bounds and never holds back the rank the publisher waits for. -/
theorem bounded_of_bytesFit [Inhabited Payload]
    (callbacks : Callbacks Payload Shared Frame Choice) (plan : ParallelPlan)
    (count maxWindowItems : ℕ) (s : RunnerState Payload Shared Frame)
    (h : (runParallelExtractionWindowed callbacks plan count maxWindowItems).ReachableWithin
      BytesFit s) : Bounded plan s ∧ HeadAdmitted plan count s := by
  constructor
  · exact h.invariant_with
      (fun _ hs => And.intro (phased_of_reachable hs.reachable)
        (accounted_of_reachable hs.reachable))
      (bounded_init _)
      fun _ _ _ hbase hinv hfit hstep => hinv.moves hbase.1 hbase.2 hfit (moves_of_step hstep)
  · exact (accounted_of_reachable h.reachable).headAdmitted (phased_of_reachable h.reachable)

instance (s : RunnerState Payload Shared Frame) : DecidablePred (BytesFit s : RunnerLabel Choice → Prop)
  | .emplace index =>
    match h : s.workers[index]? with
    | some (.admitting rank result) =>
      decidable_of_iff
        (s.stopping = false → s.bufferedBytes.toNat + result.bytes.toNat < 2 ^ 64)
        (by simp [BytesFit, h])
    | some .dispatching | some .exited | some (.extracting _ _) | some (.abandoning _) | .none =>
      isTrue (by simp [BytesFit, h])
  | .spawn | .spawnFails | .dispatch _ | .extractStep _ _ | .abandon _ | .poll _
  | .pollThrows | .collect | .publish _ | .join | .drain => isTrue trivial

/-- Three workers over three ranks with a budget of ten bytes. -/
def threeWorkers (bytes : ℕ → UInt64) : System (RunnerState ℕ Unit Unit) (RunnerLabel Bool) :=
  runParallelExtractionWindowed (instantCallbacks bytes)
    { workers := 3, maxQueueItems := 10, maxQueueBytes := 10 } 3 1

/-- Every extraction ends and the ranks enter the buffer in the given order. -/
def fillBuffer (first second third : ℕ) : List (RunnerLabel Bool) :=
  [.spawn, .spawn, .spawn, .dispatch 0, .dispatch 1, .dispatch 2, .extractStep 0 false,
    .extractStep 1 false, .extractStep 2 false, .emplace first, .emplace second, .emplace third]

/-- The head exceeds the byte budget by itself and enters last; the others wait
behind it within the budget. -/
theorem bounded_of_large_head :
    ∃ s, (threeWorkers fun rank => if rank = 0 then 100 else 5).ReachableWithin BytesFit s ∧
      (s.ready.map (·.rank) = [0, 1, 2] ∧ s.bufferedBytes = 110) ∧
      (Bounded { workers := 3, maxQueueItems := 10, maxQueueBytes := 10 } s ∧
        HeadAdmitted { workers := 3, maxQueueItems := 10, maxQueueBytes := 10 } 3 s) := by
  have hplay : ∃ s, (threeWorkers fun rank => if rank = 0 then 100 else 5).ReachableWithin
      BytesFit s ∧ s.ready.map (·.rank) = [0, 1, 2] ∧ s.bufferedBytes = 110 :=
    ⟨_, System.reachableWithin_of_playWithin .init (fillBuffer 1 2 0) rfl, by decide, by decide⟩
  obtain ⟨s, hrun, hfull⟩ := hplay
  exact ⟨s, hrun, hfull, bounded_of_bytesFit _ _ _ _ _ hrun⟩

/-- A head of 2^64 - 1 bytes enters first and wraps the counter: eleven bytes wait
behind it with a budget of ten. -/
theorem budget_exceeded_on_counter_overflow :
    ∃ s, (threeWorkers fun rank => if rank = 0 then 0xFFFFFFFFFFFFFFFF else
        if rank = 1 then 5 else 6).Reachable s ∧
      ¬ Bounded { workers := 3, maxQueueItems := 10, maxQueueBytes := 10 } s := by
  refine ⟨_, System.reachable_of_play .init (fillBuffer 0 1 2) rfl, ?_⟩
  intro h
  have hbudget := h.budget
  revert hbudget
  decide

end CppIndexer.Index
