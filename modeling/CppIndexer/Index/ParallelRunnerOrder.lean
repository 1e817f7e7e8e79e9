/-
# Ordering and abandonment in the parallel runner

Every dispatched rank is in exactly one place: held by a worker, in the reorder
buffer, in the window being collected or published, handed to `publish`, or
abandoned. The places are listed by `whereabouts`, and the invariant says that
the list is a rearrangement of the dispatched ranks. What the runner delivers
follows by reading the list where the run ends.

The buffer is drained only after a normal exit of the publication loop. An
exception that leaves the guarded scope (a refused thread, a throwing
cancellation predicate) destroys the buffer with its ranks, so the runs that
keep the contract are those where such an exception finds the buffer empty.
-/

import CppIndexer.Index.ParallelRunner
import Mathlib.Data.List.Perm.Basic

namespace CppIndexer.Index

open Transition List WorkerState PublisherState

variable {Payload Shared Frame Choice : Type}

/-- The dispatched rank a worker answers for. -/
def WorkerState.held : WorkerState Payload Frame → List ℕ
  | .extracting rank _ | .admitting rank _ | .abandoning rank => [rank]
  | .dispatching | .exited => []

/-- The rank whose `extract` call is running. -/
def WorkerState.running : WorkerState Payload Frame → List ℕ
  | .extracting rank _ => [rank]
  | _ => []

/-- The publisher is past its loop. -/
def PublisherState.leaving : PublisherState Payload → Bool
  | .joining _ | .draining _ | .finished | .unwound => true
  | _ => false

/-- The pool has been joined. -/
def PublisherState.joined : PublisherState Payload → Bool
  | .draining _ | .finished | .unwound => true
  | _ => false

/-- The loop was left without an exception. -/
def PublisherState.normal : PublisherState Payload → Bool
  | .joining false | .draining _ | .finished => true
  | _ => false

/-- The call is over, by a return or by an exception. -/
def PublisherState.over : PublisherState Payload → Bool
  | .finished | .unwound => true
  | _ => false

/-- Nobody will look at the buffer again. -/
def PublisherState.cleared : PublisherState Payload → Bool
  | .joining true | .unwound | .finished => true
  | _ => false

namespace RunnerState

variable (s : RunnerState Payload Shared Frame)

/-- The window being collected or published. -/
def window : List (RankedParallelResult Payload) :=
  match s.publisher with
  | .collecting window _ | .publishing window => window
  | _ => []

/-- The buffered results that nobody has taken or abandoned yet. -/
def pending : List (RankedParallelResult Payload) :=
  match s.publisher with
  | .draining rest => rest
  | _ => s.ready

/-- What `publish` was called with so far, in order. -/
def handed : List (RankedParallelResult Payload) :=
  s.windows.flatten

/-- Every place a dispatched rank can be. -/
def whereabouts : List ℕ :=
  s.workers.flatMap WorkerState.held ++ s.pending.map (·.rank) ++ s.window.map (·.rank) ++
    s.handed.map (·.rank) ++ s.abandoned

/-- The extractions that run and those that are over. -/
def extractions : List ℕ :=
  s.workers.flatMap WorkerState.running ++ s.produced.map (·.rank)

/-! ## The control invariant -/

/-- What the positions of the threads say about the shared flags. -/
structure Phased (count : ℕ) (s : RunnerState Payload Shared Frame) : Prop where
  stopping : s.stopping = s.publisher.leaving
  joined : s.publisher.joined = true → ∀ worker ∈ s.workers, worker = .exited
  abandoning : s.stopping = false → s.abandoned = [] ∧ ∀ rank, .abandoning rank ∉ s.workers
  exited : .exited ∈ s.workers → s.stopping = true ∨ count ≤ s.nextDispatch
  pool : s.stopping = false → (∃ index, s.publisher = .spawning index) ∨ s.workers ≠ []
  complete : s.publisher.normal = true → s.status = .none → count ≤ s.nextPublish

section Control

variable {count : ℕ} {s t : RunnerState Payload Shared Frame}

attribute [local simp] PublisherState.joined normal

theorem phased_init (shared : Shared) :
    Phased count ({ shared := shared } : RunnerState Payload Shared Frame) where
  stopping := rfl
  joined := by simp
  abandoning := by simp
  exited := by simp
  pool := by simp
  complete := by simp

variable {windows : List (List (RankedParallelResult Payload))}
  {ready : List (RankedParallelResult Payload)} {abandoned : List ℕ}
  {publisher : PublisherState Payload} {shared : Shared} {bufferedBytes : UInt64} {index : ℕ}
  {old new : WorkerState Payload Frame}

/-- A worker moves while the publisher stands still. Only a stopping run abandons,
and only a worker with nothing left to do exits. -/
theorem Phased.worker (h : Phased count s) {nextDispatch : ℕ}
    {produced : List (RankedParallelResult Payload)}
    (hworker : s.workers[index]? = some old) (hold : old ≠ .exited)
    (hdispatch : s.nextDispatch ≤ nextDispatch)
    (habandon : (abandoned = s.abandoned ∧ ∀ rank, new ≠ .abandoning rank) ∨ s.stopping = true)
    (hexit : new = .exited → s.stopping = true ∨ count ≤ s.nextDispatch) : Phased count { s with
      workers := s.workers.set index new, nextDispatch := nextDispatch, shared := shared,
      bufferedBytes := bufferedBytes, ready := ready, produced := produced,
      abandoned := abandoned } where
  stopping := h.stopping
  joined := by
    intro hjoined
    exact absurd (h.joined hjoined old (mem_of_getElem? hworker)) hold
  abandoning := by
    intro hrun
    cases habandon with
    | inr hstop => exact absurd hrun (by simp [hstop])
    | inl hsame =>
      refine ⟨hsame.1 ▸ (h.abandoning hrun).1, fun rank hmem => ?_⟩
      cases mem_or_eq_of_mem_set hmem with
      | inl hbefore => exact (h.abandoning hrun).2 rank hbefore
      | inr heq => exact hsame.2 rank heq.symm
  exited := by
    intro hmem
    cases mem_or_eq_of_mem_set hmem with
    | inl hbefore => exact (h.exited hbefore).imp_right (le_trans · hdispatch)
    | inr heq => exact (hexit heq.symm).imp_right (le_trans · hdispatch)
  pool := by
    intro hrun
    simpa using h.pool hrun
  complete := h.complete

attribute [local simp] RunnerState.leaveScope

theorem phased_leaveScope {unwinding : Bool} {status : ParallelRunStatus}
    (hstatus : unwinding = false → status = .none → count ≤ s.nextPublish) :
    Phased count { s.leaveScope unwinding with
      shared := shared, windows := windows, status := status } where
  stopping := rfl
  joined := by simp
  abandoning := by simp
  exited := by simp
  pool := by simp
  complete := by
    cases unwinding with
    | false => exact fun _ => hstatus rfl
    | true => simp

theorem Phased.loop (h : Phased count s) {nextPublish : ℕ}
    (hbefore : s.publisher.leaving = false) (hspawn : ∀ index, s.publisher ≠ .spawning index)
    (hafter : publisher.leaving = false) : Phased count { s with
      publisher := publisher, shared := shared, nextPublish := nextPublish, ready := ready,
      bufferedBytes := bufferedBytes, windows := windows } where
  stopping := by
    rw [h.stopping, hbefore, hafter]
  joined := by
    intro _
    cases publisher <;> simp_all [leaving]
  abandoning := h.abandoning
  exited := h.exited
  pool := by
    intro hrun
    exact (h.pool hrun).imp_left fun hspawning => absurd hspawning.choose_spec (hspawn _)
  complete := by
    intro _
    cases publisher <;> simp_all [normal, leaving]

theorem Phased.after (h : Phased count s)
    (hbefore : s.publisher.leaving = true) (hafter : publisher.joined = true)
    (hexited : ∀ worker ∈ s.workers, worker = .exited)
    (hnormal : publisher.normal = true → s.publisher.normal = true) : Phased count { s with
      publisher := publisher, shared := shared, ready := ready, abandoned := abandoned } where
  stopping := by
    rw [h.stopping, hbefore]
    cases publisher <;> simp_all [leaving]
  joined := fun _ => hexited
  abandoning := by
    intro hrun
    cases (h.stopping.trans hbefore).symm.trans hrun
  exited := h.exited
  pool := by
    intro hrun
    cases (h.stopping.trans hbefore).symm.trans hrun
  complete := fun hafter' => h.complete (hnormal hafter')

theorem Phased.spawn (h : Phased count s) (hpub : s.publisher = .spawning index)
    (hafter : publisher.leaving = false) :
    Phased count { s with workers := s.workers ++ [.dispatching], publisher := publisher } where
  stopping := by
    rw [h.stopping, hpub, hafter]
    rfl
  joined := by
    intro _
    cases publisher <;> simp_all [leaving]
  abandoning := by
    intro hrun
    simpa using h.abandoning hrun
  exited := by
    intro hmem
    exact h.exited (by simpa using hmem)
  pool := by simp
  complete := by
    intro _
    cases publisher <;> simp_all [normal, leaving]

attribute [local simp] PublisherState.leaving

variable {callbacks : Callbacks Payload Shared Frame Choice} {l : RunnerLabel Choice}
  {plan : ParallelPlan}

/-- Every transition keeps the control invariant. -/
theorem Phased.moves [Inhabited Payload] (h : Phased count s)
    (hmove : Moves callbacks plan count s l t) : Phased count t := by
  cases hmove with
  | exit hworker hdone =>
    exact h.worker hworker (by simp) le_rfl (.inl ⟨rfl, by simp⟩) (fun _ => hdone)
  | dispatch hworker =>
    exact h.worker hworker (by simp) (Nat.le_succ _) (.inl ⟨rfl, by simp⟩) (by simp)
  | extract hworker | produce hworker | emplace hworker =>
    exact h.worker hworker (by simp) le_rfl (.inl ⟨rfl, by simp⟩) (by simp)
  | stop hworker hstop =>
    exact h.worker hworker (by simp) le_rfl (.inr hstop) (by simp)
  | @abandon index rank hworker =>
    have hstop : s.stopping = true := by
      by_contra hrun
      exact (h.abandoning (by simpa using hrun)).2 rank (mem_of_getElem? hworker)
    exact h.worker hworker (by simp) le_rfl (.inr hstop) (fun _ => .inl hstop)
  | spawn hpub =>
    apply h.spawn hpub
    split <;> rfl
  | spawnFails | pollThrows | publishThrows | cancel => exact phased_leaveScope (by simp)
  | publishedLast _ _ hstop => exact phased_leaveScope (fun _ hnone => absurd hnone hstop)
  | leave hpub hend =>
    have hcount : count ≤ s.nextPublish := by
      cases hend with
      | inl hle => exact hle
      | inr hstop => simp [h.stopping, hpub] at hstop
    exact phased_leaveScope (fun _ _ => hcount)
  | poll hpub | hand hpub | take hpub | published hpub =>
    exact h.loop (by simp [hpub]) (by simp [hpub]) rfl
  | joinUnwinding hpub hexited =>
    exact h.after (by simp [hpub]) rfl hexited
      (by simp)
  | join hpub hexited =>
    exact h.after (by simp [hpub]) rfl hexited
      (by simp [hpub])
  | drain hpub | finish hpub =>
    exact h.after (by simp [hpub]) rfl
      (h.joined (by simp [hpub])) (by simp [hpub])

end Control

/-! ## Where the ranks are -/

theorem count_flatMap_set {α : Type} {workers : List α} {index : ℕ} {old : α} (f : α → List ℕ)
    (hworker : workers[index]? = some old) (new : α) (rank : ℕ) :
    ((workers.set index new).flatMap f).count rank + (f old).count rank =
      (workers.flatMap f).count rank + (f new).count rank := by
  obtain ⟨hlt, hget⟩ := List.getElem?_eq_some_iff.mp hworker
  have hafter := ((set_perm_cons_eraseIdx hlt new).flatMap_right f).count_eq rank
  have hbefore := ((getElem_cons_eraseIdx_perm hlt).flatMap_right f).count_eq rank
  rw [flatMap_cons, count_append] at hafter hbefore
  rw [hget] at hbefore
  omega

theorem count_cons_eq {α : Type} [DecidableEq α] (a b : α) (rest : List α) :
    (b :: rest).count a = [b].count a + rest.count a := by
  rw [← singleton_append, count_append]

variable {entry : RankedParallelResult Payload}

theorem perm_cons_filter_rank_ne {entries : List (RankedParallelResult Payload)}
    (hnodup : (entries.map (·.rank)).Nodup) (hmem : entry ∈ entries) :
    entries.Perm (entry :: entries.filter fun other => other.rank ≠ entry.rank) := by
  induction entries with
  | nil => cases hmem
  | cons first rest ih =>
    rw [map_cons, nodup_cons] at hnodup
    cases mem_cons.mp hmem with
    | inl heq =>
      subst heq
      have hkeep : rest.filter (fun other => other.rank ≠ entry.rank) = rest := by
        apply filter_eq_self.mpr
        intro other hother
        have hne : other.rank ≠ entry.rank := fun hrank =>
          hnodup.1 (mem_map.mpr ⟨other, hother, hrank⟩)
        simpa using hne
      rw [filter_cons_of_neg (by simp), hkeep]
    | inr hrest =>
      have hne : first.rank ≠ entry.rank := fun hrank =>
        hnodup.1 (mem_map.mpr ⟨entry, hrest, hrank.symm⟩)
      rw [filter_cons_of_pos (by simpa using hne)]
      exact ((ih hnodup.2 hrest).cons first).trans (.swap _ _ _)

/-- Every dispatched rank is in one place and is extracted once; what the
publisher holds and has handed over is a prefix of the ranks with the results
their own extractions produced. -/
structure Accounted (count : ℕ) (s : RunnerState Payload Shared Frame) : Prop where
  bound : s.nextDispatch ≤ count
  places : s.whereabouts.Perm (List.range s.nextDispatch)
  once : s.extractions.Perm (List.range s.nextDispatch)
  holding : ∀ rank result, .admitting rank result ∈ s.workers → ⟨rank, result⟩ ∈ s.produced
  own : ∀ entry ∈ s.pending ++ s.window ++ s.handed, entry ∈ s.produced
  inOrder : (s.handed ++ s.window).map (·.rank) = List.range s.nextPublish


section Places

variable {count : ℕ} {s t : RunnerState Payload Shared Frame}

attribute [local simp] pending

theorem accounted_init (shared : Shared) :
    Accounted count ({ shared := shared } : RunnerState Payload Shared Frame) where
  bound := Nat.zero_le _
  places := .refl _
  once := .refl _
  holding := by simp
  own := by simp [window, handed]
  inOrder := rfl

variable {shared : Shared} {old : WorkerState Payload Frame} {new : WorkerState Payload Frame}

/-- A worker moves and the publisher's holdings stay. The worker may pick up the
next rank, pass its rank on to the abandoned ones, or end its extraction. -/
theorem Accounted.worker (h : Accounted count s) {index nextDispatch : ℕ}
    {produced : List (RankedParallelResult Payload)} {abandoned : List ℕ}
    (hworker : s.workers[index]? = some old) (hbound : nextDispatch ≤ count)
    (hplaces : ∀ rank, (new.held ++ abandoned).count rank + (List.range s.nextDispatch).count rank =
      (old.held ++ s.abandoned).count rank + (List.range nextDispatch).count rank)
    (honce : ∀ rank, (new.running ++ produced.map (·.rank)).count rank +
        (List.range s.nextDispatch).count rank =
      (old.running ++ s.produced.map (·.rank)).count rank + (List.range nextDispatch).count rank)
    (hproduced : s.produced ⊆ produced)
    (hholding : ∀ rank result, new = .admitting rank result → ⟨rank, result⟩ ∈ produced) :
    Accounted count { s with
      workers := s.workers.set index new, nextDispatch := nextDispatch, shared := shared,
      produced := produced, abandoned := abandoned } where
  bound := hbound
  places := by
    rw [perm_iff_count]
    intro rank
    have hset := count_flatMap_set held hworker new rank
    have hbefore := perm_iff_count.mp h.places rank
    have hnew := hplaces rank
    simp only [whereabouts, pending, window, handed, count_append] at hbefore hnew ⊢
    omega
  once := by
    rw [perm_iff_count]
    intro rank
    have hset := count_flatMap_set running hworker new rank
    have hbefore := perm_iff_count.mp h.once rank
    have hnew := honce rank
    simp only [extractions, count_append] at hbefore hnew ⊢
    omega
  holding := by
    intro rank result hmem
    cases mem_or_eq_of_mem_set hmem with
    | inl hbefore => exact hproduced (h.holding rank result hbefore)
    | inr heq => exact hholding rank result heq.symm
  own := fun entry hmem => hproduced (h.own entry hmem)
  inOrder := h.inOrder

/-- The publisher moves while the workers stand still: what it holds is
rearranged. -/
theorem Accounted.publisher (h : Accounted count s) (hworkers : t.workers = s.workers)
    (hdispatch : t.nextDispatch = s.nextDispatch) (hproduced : t.produced = s.produced)
    (hplaces : ∀ rank, ((t.pending ++ t.window ++ t.handed).map (·.rank)).count rank +
        t.abandoned.count rank =
      ((s.pending ++ s.window ++ s.handed).map (·.rank)).count rank + s.abandoned.count rank)
    (hown : ∀ entry ∈ t.pending ++ t.window ++ t.handed, entry ∈ s.pending ++ s.window ++ s.handed)
    (hinOrder : (t.handed ++ t.window).map (·.rank) = List.range t.nextPublish) : Accounted count t where
  bound := hdispatch ▸ h.bound
  places := by
    rw [perm_iff_count]
    intro rank
    have hbefore := perm_iff_count.mp h.places rank
    have hmoved := hplaces rank
    simp only [whereabouts, map_append, count_append] at hbefore hmoved ⊢
    rw [hworkers, hdispatch]
    omega
  once := by
    rw [extractions, hworkers, hproduced, hdispatch]
    exact h.once
  holding := by
    rw [hworkers, hproduced]
    exact h.holding
  own := fun entry hmem => hproduced ▸ h.own entry (hown entry hmem)
  inOrder := hinOrder

theorem Accounted.stands (h : Accounted count s) (hworkers : t.workers = s.workers)
    (hdispatch : t.nextDispatch = s.nextDispatch) (hproduced : t.produced = s.produced)
    (hpending : t.pending = s.pending) (hwindow : t.window = s.window)
    (hhanded : t.handed = s.handed) (habandoned : t.abandoned = s.abandoned)
    (hnext : t.nextPublish = s.nextPublish) : Accounted count t := by
  apply h.publisher hworkers hdispatch hproduced
  · rw [hpending, hwindow, hhanded, habandoned]
    exact fun _ => rfl
  · rw [hpending, hwindow, hhanded]
    exact fun _ => id
  · rw [hwindow, hhanded, hnext]
    exact h.inOrder

theorem pending_eq_ready (hpub : s.publisher.leaving = false) : s.pending = s.ready := by
  unfold pending
  cases hcase : s.publisher <;> simp_all [leaving]

theorem Accounted.nodup_pending (h : Accounted count s) : (s.pending.map (·.rank)).Nodup := by
  have hall := h.places.nodup_iff.mpr nodup_range
  simp only [whereabouts, nodup_append] at hall
  exact hall.1.1.1.2.1

variable {publisher : PublisherState Payload}

section

variable (h : Accounted count s)
include h

theorem Accounted.spawn {index : ℕ} (hpub : s.publisher = .spawning index)
    (hafter : publisher = .spawning (index + 1) ∨ publisher = .polling) : Accounted count
      { s with workers := s.workers ++ [.dispatching], publisher := publisher } := by
  have hkeep : Accounted count { s with publisher := publisher } := by
    refine h.stands rfl rfl rfl ?_ ?_ rfl rfl rfl
    · cases hafter with
      | inl hnext => simp [hpub, hnext]
      | inr hnext => simp [hpub, hnext]
    · cases hafter with
      | inl hnext | inr hnext => simp [window, hpub, hnext]
  exact {
    bound := hkeep.bound
    places := by
      simpa [whereabouts, pending, window, handed, held] using hkeep.places
    once := by simpa [extractions, running] using hkeep.once
    holding := by
      intro rank result hmem
      exact hkeep.holding rank result (by simpa using hmem)
    own := hkeep.own
    inOrder := hkeep.inOrder }

/-- A worker passes its result on to the buffer. -/
theorem Accounted.emplace {index rank : ℕ} {result : ParallelResult Payload}
    (hworker : s.workers[index]? = some (.admitting rank result))
    (hpub : s.publisher.leaving = false) :
    Accounted count ((s.emplace ⟨rank, result⟩).setWorker index .dispatching) := by
  have hready := pending_eq_ready hpub
  have hreadyAfter : ((s.emplace ⟨rank, result⟩).setWorker index .dispatching).pending =
      s.ready.orderedInsert (fun a b => a.rank ≤ b.rank) ⟨rank, result⟩ := pending_eq_ready hpub
  have hinsert := perm_orderedInsert (fun a b => a.rank ≤ b.rank)
    (⟨rank, result⟩ : RankedParallelResult Payload) s.ready
  have hheld : ⟨rank, result⟩ ∈ s.produced :=
    h.holding rank result (mem_of_getElem? hworker)
  exact {
    bound := h.bound
    places := by
      rw [perm_iff_count]
      intro other
      have hset := count_flatMap_set held hworker .dispatching other
      have hbefore := perm_iff_count.mp h.places other
      have hmoved := (hinsert.map (·.rank)).count_eq other
      rw [map_cons, count_cons_eq] at hmoved
      rw [whereabouts, hreadyAfter]
      simp only [whereabouts, hready, count_append, setWorker, window, handed,
        RunnerState.emplace, held, count_nil] at hbefore hset hmoved ⊢
      omega
    once := by
      rw [perm_iff_count]
      intro other
      have hset := count_flatMap_set running hworker .dispatching other
      have hbefore := perm_iff_count.mp h.once other
      simp only [extractions, count_append, setWorker, RunnerState.emplace,
        running, count_nil] at hbefore hset ⊢
      omega
    holding := by
      intro other result' hmem
      cases mem_or_eq_of_mem_set hmem with
      | inl hbefore => exact h.holding other result' hbefore
      | inr heq => cases heq
    own := by
      intro _ hmem
      rw [hreadyAfter] at hmem
      rw [append_assoc, mem_append, hinsert.mem_iff, mem_cons, or_assoc] at hmem
      cases hmem with
      | inl heq => exact heq ▸ hheld
      | inr hbefore =>
        apply h.own
        rw [hready, append_assoc, mem_append]
        exact hbefore
    inOrder := h.inOrder }

/-- The publisher moves the awaited rank from the buffer to its window. -/
theorem Accounted.take
    {before : List (RankedParallelResult Payload)} {windowBytes windowBytes' bytes : UInt64}
    (hpub : s.publisher = .collecting before windowBytes)
    (hfind : s.find? s.nextPublish = some entry) : Accounted count { s with
      publisher := .collecting (before ++ [entry]) windowBytes'
      ready := s.ready.filter fun other => other.rank ≠ s.nextPublish
      bufferedBytes := bytes
      nextPublish := s.nextPublish + 1 } := by
  have hmem : entry ∈ s.ready := mem_of_find?_eq_some hfind
  have hrank : entry.rank = s.nextPublish := by
    simpa using find?_some hfind
  have hwindow : s.window = before := by
    simp [window, hpub]
  have hpending : s.pending = s.ready := by
    simp [hpub]
  have hsplit := perm_cons_filter_rank_ne (hpending ▸ h.nodup_pending) hmem
  refine h.publisher rfl rfl rfl ?_ ?_ ?_
  · intro rank
    have hfilter := (hsplit.map (·.rank)).count_eq rank
    rw [map_cons, count_cons_eq, hrank] at hfilter
    simp only [pending, window, handed, hpub, map_append, map_cons, map_nil,
      count_append, hrank] at hfilter ⊢
    omega
  · intro _ hother
    simp only [pending, window, handed, hpub, mem_append, mem_filter, mem_singleton] at hother ⊢
    rcases hother with (hkept | hold | rfl) | hdone
    · exact .inl (.inl hkept.1)
    · exact .inl (.inr hold)
    · exact .inl (.inl hmem)
    · exact .inr hdone
  · have hbefore := h.inOrder
    rw [hwindow] at hbefore
    simp only [window, handed, map_append, map_cons, map_nil] at hbefore ⊢
    rw [← append_assoc, hbefore, hrank, range_succ]

/-- The window passes to `publish`. -/
theorem Accounted.published {batch : List (RankedParallelResult Payload)}
    {stopping : Bool} {status : ParallelRunStatus} (hpub : s.publisher = .publishing batch)
    (hafter : publisher = .polling ∨ ∃ unwinding, publisher = .joining unwinding) :
    Accounted count { s with
      shared := shared, windows := s.windows ++ [batch], publisher := publisher,
      stopping := stopping, status := status } := by
  have hbatch : s.window = batch := by
    simp [window, hpub]
  have hpending : s.pending = s.ready := by
    simp [hpub]
  generalize ht : ({ s with
      shared := shared, windows := s.windows ++ [batch], publisher := publisher,
      stopping := stopping, status := status } : RunnerState Payload Shared Frame) = t
  have hwindow' : t.window = [] := by
    subst ht
    rcases hafter with rfl | ⟨unwinding, rfl⟩ <;> rfl
  have hpending' : t.pending = s.ready := by
    subst ht
    rcases hafter with rfl | ⟨unwinding, rfl⟩ <;> rfl
  have hhanded' : t.handed = s.handed ++ batch := by
    subst ht
    simp [handed]
  apply h.publisher (by rw [← ht]) (by rw [← ht]) (by rw [← ht])
  · intro _
    have habandoned : t.abandoned = s.abandoned := by rw [← ht]
    simp only [hwindow', hpending', hhanded', hpending, hbatch, habandoned, map_append,
      count_append, map_nil, count_nil]
    omega
  · intro _ hmem
    simp only [hwindow', hpending', hhanded', hpending, hbatch, mem_append,
      not_mem_nil, or_false] at hmem ⊢
    tauto
  · have hbefore := h.inOrder
    rw [hwindow', hhanded', append_nil, ← hbatch, hbefore, ← ht]

theorem Accounted.drain {rest : List (RankedParallelResult Payload)}
    (hpub : s.publisher = .draining (entry :: rest)) : Accounted count { s with
      publisher := .draining rest, shared := shared, abandoned := entry.rank :: s.abandoned } := by
  have hinOrder := h.inOrder
  refine h.publisher rfl rfl rfl ?_ ?_ ?_
  · intro rank
    simp only [pending, window, handed, hpub, map_append, map_cons, count_append]
    rw [count_cons_eq rank entry.rank s.abandoned,
      count_cons_eq rank entry.rank (rest.map (·.rank))]
    omega
  · intro _ hmem
    simp only [pending, window, handed, hpub, mem_append, mem_cons] at hmem ⊢
    tauto
  · simpa [window, handed, hpub] using hinOrder

end

variable {callbacks : Callbacks Payload Shared Frame Choice} {plan : ParallelPlan} {l : RunnerLabel Choice}

/-- Every transition keeps the ranks accounted for. -/
theorem Accounted.moves [Inhabited Payload] (hphase : Phased count s)
    (h : Accounted count s) (hmove : Moves callbacks plan count s l t) : Accounted count t := by
  cases hmove with
  | exit hworker | extract hworker | stop hworker | abandon hworker =>
    exact h.worker hworker h.bound (fun _ => rfl) (fun _ => rfl) (fun _ => id) (by simp)
  | dispatch hworker _ hmore =>
    refine h.worker hworker hmore ?_ ?_ (fun _ => id) (by simp)
    · intro _
      simp only [setWorker, held, range_succ, count_append, count_nil]
      omega
    · intro _
      simp only [setWorker, running, range_succ, count_append, count_nil]
      omega
  | produce hworker =>
    exact h.worker hworker h.bound (fun _ => rfl) (fun _ => rfl) (subset_cons_self _ _)
      (by simp [RunnerState.produce])
  | emplace hworker hrun =>
    exact h.emplace hworker (hphase.stopping ▸ hrun)
  | spawn hpub =>
    apply h.spawn hpub
    split
    · exact .inl rfl
    · exact .inr rfl
  | take hpub _ _ hfind => exact h.take hpub hfind
  | published hpub => exact h.published hpub (.inl rfl)
  | publishedLast hpub => exact h.published hpub (.inr ⟨false, rfl⟩)
  | publishThrows hpub => exact h.published hpub (.inr ⟨true, rfl⟩)
  | drain hpub => exact h.drain hpub
  | spawnFails hpub | cancel hpub | poll hpub | pollThrows hpub | leave hpub _ | hand hpub _
  | joinUnwinding hpub _ | join hpub _ | finish hpub =>
    refine h.stands rfl rfl rfl ?_ ?_ rfl rfl rfl
    · simp [hpub, leaveScope]
    · simp [window, hpub, leaveScope]

end Places

/-! ## The delivery contract -/

/-- The publish callback does not throw. -/
def PublishReturns (callbacks : Callbacks Payload Shared Frame Choice)
    (s : RunnerState Payload Shared Frame) : RunnerLabel Choice → Prop
  | .publish choice => (callbacks.publish s.shared s.window choice).2 ≠ .threw
  | _ => True

/-- An exception that leaves the guarded scope finds the buffer empty. -/
def UnwindsEmpty : RunnerLabel Choice → Prop
  | .spawnFails | .pollThrows => s.ready = []
  | _ => True

instance (callbacks : Callbacks Payload Shared Frame Choice)
    (s : RunnerState Payload Shared Frame) : DecidablePred (PublishReturns callbacks s)
  | .publish choice =>
    inferInstanceAs (Decidable ((callbacks.publish s.shared s.window choice).2 ≠ .threw))
  | .spawn | .spawnFails | .dispatch _ | .extractStep _ _ | .emplace _ | .abandon _ | .poll _
  | .pollThrows | .collect | .join | .drain => inferInstanceAs (Decidable True)

instance (s : RunnerState Payload Shared Frame) :
    DecidablePred (UnwindsEmpty s : RunnerLabel Choice → Prop)
  | .spawnFails | .pollThrows => decidable_of_iff (s.ready.isEmpty = true) List.isEmpty_iff
  | .spawn | .dispatch _ | .extractStep _ _ | .emplace _ | .abandon _ | .poll _
  | .collect | .publish _ | .join | .drain => inferInstanceAs (Decidable True)

/-- What the runner promises about the windows it hands to `publish` and the ranks
it passes to `on_abandon`. -/
structure Delivered (count : ℕ) (s : RunnerState Payload Shared Frame) : Prop where
  /-- The windows together are the ranks below some bound, in order. -/
  inOrder : ∃ k, s.handed.map (·.rank) = List.range k
  /-- Each is paired with the one result its own extraction produced. -/
  own : ∀ entry ∈ s.handed, ∀ other, other ∈ s.produced ∧ other.rank = entry.rank ↔ other = entry
  /-- Once the call is over, exactly the dispatched ranks that were not handed over
  have been abandoned, each once. -/
  abandoned : s.publisher.over = true → ∀ rank, s.abandoned.count rank =
    if rank < s.nextDispatch ∧ rank ∉ s.handed.map (·.rank) then 1 else 0
  /-- At any time, no other rank has been. -/
  noOther : ∀ rank ∈ s.abandoned, rank < s.nextDispatch ∧ rank ∉ s.handed.map (·.rank)
  /-- A run that returns no status handed over everything. -/
  complete : s.publisher = .finished → s.status = .none →
    s.handed.map (·.rank) = List.range count

section Delivery

variable {count : ℕ} {s t : RunnerState Payload Shared Frame}

/-- No buffered rank is left behind. -/
def NothingLeft (s : RunnerState Payload Shared Frame) : Prop :=
  s.publisher.cleared = true → s.ready = []

variable {callbacks : Callbacks Payload Shared Frame Choice} {l : RunnerLabel Choice} {plan : ParallelPlan}

theorem NothingLeft.moves [Inhabited Payload] (hphase : Phased count s)
    (h : s.NothingLeft) (hreturns : PublishReturns callbacks s l) (hempty : UnwindsEmpty s l)
    (hmove : Moves callbacks plan count s l t) : t.NothingLeft := by
  intro hcleared
  cases hmove with
  | exit | dispatch | extract | produce | stop | abandon => exact h hcleared
  | emplace _ hrun =>
    rw [hphase.stopping] at hrun
    change s.publisher.cleared = true at hcleared
    cases hpub : s.publisher <;> simp_all [cleared, leaving]
  | spawn =>
    simp only at hcleared
    split at hcleared <;> cases hcleared
  | spawnFails hpub | pollThrows hpub => exact hempty
  | publishThrows hpub hcall => simp [PublishReturns, window, hpub, hcall] at hreturns
  | joinUnwinding hpub => exact h (by simp [hpub, cleared])
  | finish => rfl
  | cancel | poll | leave | hand | take | published | publishedLast | join | drain => cases hcleared

section

variable (h : Accounted count s)
include h

/-- Where the call is over, the ranks are those left in the buffer, those handed
over and those abandoned. -/
theorem Accounted.over (hphase : Phased count s) (hover : s.publisher.over = true) :
    (s.ready.map (·.rank) ++ s.handed.map (·.rank) ++ s.abandoned).Perm (List.range s.nextDispatch) := by
  have hidle : s.workers.flatMap held = [] := by
    apply flatMap_eq_nil_iff.mpr
    intro worker hmem
    have hjoined : s.publisher.joined = true := by
      cases hpub : s.publisher <;> simp_all [PublisherState.over, PublisherState.joined]
    rw [hphase.joined hjoined worker hmem]
    rfl
  have hpending : s.pending = s.ready := by
    unfold pending
    cases hpub : s.publisher <;> simp_all [PublisherState.over]
  have hwindow : s.window = [] := by
    unfold window
    cases hpub : s.publisher <;> simp_all [PublisherState.over]
  simpa [whereabouts, hidle, hpending, hwindow] using h.places

theorem Accounted.nextPublish_le : s.nextPublish ≤ s.nextDispatch := by
  have hprefix : (List.range s.nextPublish).Subperm (List.range s.nextDispatch) := by
    refine List.Subperm.trans ?_ h.places.subperm
    rw [← h.inOrder, map_append]
    refine subperm_ext_iff.mpr fun rank _ => ?_
    simp only [whereabouts, count_append]
    omega
  simpa using hprefix.length_le

theorem Accounted.handed_ranks : ∃ k ≤ count, s.handed.map (·.rank) = List.range k := by
  have hprefix : s.handed.map (·.rank) <+: List.range s.nextPublish := by
    rw [← h.inOrder, map_append]
    exact prefix_append _ _
  exact ⟨_, (min_le_right _ _).trans (h.nextPublish_le.trans h.bound),
    (prefix_iff_eq_take.mp hprefix).trans take_range⟩

theorem Accounted.noOther {rank : ℕ} (hmem : rank ∈ s.abandoned) :
    rank < s.nextDispatch ∧ rank ∉ s.handed.map (·.rank) := by
  have hcount := perm_iff_count.mp h.places rank
  have hpos : 0 < s.abandoned.count rank := count_pos_iff.mpr hmem
  simp only [whereabouts, count_append] at hcount
  have hle := nodup_iff_count_le_one.mp (nodup_range (n := s.nextDispatch)) rank
  constructor
  · exact mem_range.mp (count_pos_iff.mp (by omega))
  · intro hhanded
    have hpos' : 0 < (s.handed.map (·.rank)).count rank := count_pos_iff.mpr hhanded
    omega

theorem Accounted.own_iff (hmem : entry ∈ s.handed) (other : RankedParallelResult Payload) :
    other ∈ s.produced ∧ other.rank = entry.rank ↔ other = entry := by
  have hentry : entry ∈ s.produced := h.own entry (by simp [hmem])
  have hnodup : (s.produced.map (·.rank)).Nodup := by
    have hall := h.once.nodup_iff.mpr nodup_range
    exact (nodup_append.mp hall).2.1
  constructor
  · rintro ⟨hother, hrank⟩
    exact inj_on_of_nodup_map hnodup hother hentry hrank
  · rintro rfl
    exact ⟨hentry, rfl⟩

theorem Accounted.complete (hphase : Phased count s) (hfinished : s.publisher = .finished)
    (hstatus : s.status = .none) : s.handed.map (·.rank) = List.range count := by
  have hwindow : s.window = [] := by
    simp [window, hfinished]
  have hall := hphase.complete (by simp [hfinished, PublisherState.normal]) hstatus
  have hcount : s.nextPublish = count :=
    le_antisymm (h.nextPublish_le.trans h.bound) hall
  have hhanded := h.inOrder
  rwa [hwindow, append_nil, hcount] at hhanded

theorem Accounted.delivered (hphase : Phased count s) (hempty : s.NothingLeft) : Delivered count s where
  inOrder := h.handed_ranks.imp fun _ hranks => hranks.2
  own := fun entry hmem other => h.own_iff hmem other
  abandoned := by
    intro hover rank
    have hcleared : s.publisher.cleared = true := by
      cases hpub : s.publisher <;> simp_all [PublisherState.over, PublisherState.cleared]
    have hperm := perm_iff_count.mp (h.over hphase hover) rank
    rw [hempty hcleared, map_nil, nil_append, count_append, count_range] at hperm
    split
    · rename_i hleft
      rw [count_eq_zero_of_not_mem hleft.2, if_pos hleft.1, Nat.zero_add] at hperm
      exact hperm
    · rename_i hleft
      apply count_eq_zero_of_not_mem
      exact fun hmem => hleft (h.noOther hmem)
  noOther := fun rank hmem => h.noOther hmem
  complete := h.complete hphase

end

end Delivery

end RunnerState

open RunnerState

section Runs

variable [Inhabited Payload] {callbacks : Callbacks Payload Shared Frame Choice}
  {plan : ParallelPlan} {count maxWindowItems : ℕ} {s : RunnerState Payload Shared Frame}

section

variable (h : (runParallelExtractionWindowed callbacks plan count maxWindowItems).Reachable s)
include h

theorem phased_of_reachable : Phased count s :=
  h.invariant (phased_init _) fun _ _ _ hphase hstep => hphase.moves (moves_of_step hstep)

theorem accounted_of_reachable : Accounted count s :=
  h.invariant_with (fun _ => phased_of_reachable) (accounted_init _)
    fun _ _ _ hphase haccounted _ hstep => haccounted.moves hphase (moves_of_step hstep)

end

end Runs

/-- In every run whose publish callback does not throw and whose unwinding
exceptions find the buffer empty, the windows handed to `publish` are the ranks in
order with their own results, and exactly the other dispatched ranks are
abandoned. -/
theorem delivered_of_unwindsEmpty [Inhabited Payload]
    (callbacks : Callbacks Payload Shared Frame Choice) (plan : ParallelPlan)
    (count maxWindowItems : ℕ) (s : RunnerState Payload Shared Frame)
    (h : (runParallelExtractionWindowed callbacks plan count maxWindowItems).ReachableWithin
      (fun s l => PublishReturns callbacks s l ∧ UnwindsEmpty s l) s) : Delivered count s := by
  have hleft : s.NothingLeft :=
    h.invariant_with (fun _ hs => phased_of_reachable hs.reachable) (fun _ => rfl)
      fun _ _ _ hphase hinv hok hstep => hinv.moves hphase hok.1 hok.2 (moves_of_step hstep)
  exact (accounted_of_reachable h.reachable).delivered (phased_of_reachable h.reachable) hleft

/-- Whatever is thrown and wherever the run stops: every dispatched rank is extracted
once, the ranks handed to `publish` are the first ones, in order and with their own
results, no rank is handed over or abandoned twice, a run that is over has lost only
what its buffer still holds, and one that returns unstopped has handed over all. -/
theorem conserved_of_reachable [Inhabited Payload]
    (callbacks : Callbacks Payload Shared Frame Choice) (plan : ParallelPlan)
    (count maxWindowItems : ℕ) (s : RunnerState Payload Shared Frame)
    (h : (runParallelExtractionWindowed callbacks plan count maxWindowItems).Reachable s) :
    s.extractions.Perm (List.range s.nextDispatch) ∧
      (∃ k ≤ count, s.handed.map (·.rank) = List.range k) ∧ (∀ entry ∈ s.handed, ∀ other,
        other ∈ s.produced ∧ other.rank = entry.rank ↔ other = entry) ∧
      (s.handed.map (·.rank) ++ s.abandoned).Nodup ∧ (s.publisher.over = true →
        (s.ready.map (·.rank) ++ s.handed.map (·.rank) ++ s.abandoned).Perm
          (List.range s.nextDispatch)) ∧
      (s.publisher = .finished → s.status = .none → s.handed.map (·.rank) = List.range count) := by
  have haccounted := accounted_of_reachable h
  have hnodup : s.whereabouts.Nodup := haccounted.places.nodup_iff.mpr nodup_range
  rw [whereabouts, append_assoc] at hnodup
  exact ⟨haccounted.once, haccounted.handed_ranks, fun entry hmem => haccounted.own_iff hmem,
    (nodup_append.mp hnodup).2.1, haccounted.over (phased_of_reachable h),
    haccounted.complete (phased_of_reachable h)⟩

/-- Callbacks whose extraction ends at once with a payload of the given size and
whose publication stops the run on demand. -/
def instantCallbacks (bytes : ℕ → UInt64) : Callbacks ℕ Unit Unit Bool where
  shared := ()
  extract _ _ := ()
  advance _ rank _ _ := some ((), .returned { payload := rank, bytes := bytes rank })
  publish _ _ stop :=
    ((), .returned { stopStatus := if stop then .publicationStopped else .none })
  onAbandon _ _ := ()

/-- Two workers over two ranks, published one at a time. -/
def twoWorkers : System (RunnerState ℕ Unit Unit) (RunnerLabel Bool) :=
  runParallelExtractionWindowed (instantCallbacks fun _ => 1)
    { workers := 2, maxQueueItems := 4, maxQueueBytes := 100 } 2 1

/-- Both ranks are extracted, the first is published and stops the run, the second
is abandoned. -/
theorem delivered_of_stopped_publication : ∃ s, twoWorkers.ReachableWithin
        (fun s l => PublishReturns (instantCallbacks fun _ => 1) s l ∧ UnwindsEmpty s l) s ∧
      (s.publisher = .finished ∧ s.handed.map (·.rank) = [0] ∧ s.abandoned = [1]) ∧ Delivered 2 s := by
  have hplay : ∃ s, twoWorkers.ReachableWithin
      (fun s l => PublishReturns (instantCallbacks fun _ => 1) s l ∧ UnwindsEmpty s l) s ∧
      s.publisher = .finished ∧ s.handed.map (·.rank) = [0] ∧ s.abandoned = [1] :=
    ⟨_, System.reachableWithin_of_playWithin .init
      [.spawn, .spawn, .dispatch 0, .dispatch 1, .extractStep 1 false, .extractStep 0 false,
        .emplace 1, .emplace 0, .poll false, .collect, .collect, .publish true, .dispatch 0,
        .dispatch 1, .join, .drain, .drain] rfl, rfl, by decide, rfl⟩
  obtain ⟨s, hrun, hend⟩ := hplay
  exact ⟨s, hrun, hend, delivered_of_unwindsEmpty _ _ _ _ _ hrun⟩

/-- The second thread cannot be created after the first worker's result entered
the buffer. The exception unwinds past the drain loop: rank 0 was dispatched and is
neither published nor abandoned. -/
theorem buffered_rank_dropped_on_failed_spawn :
    ∃ s, twoWorkers.ReachableWithin (PublishReturns (instantCallbacks fun _ => 1)) s ∧
      s.publisher = .unwound ∧ ¬ Delivered 2 s := by
  refine ⟨_, System.reachableWithin_of_playWithin .init
    [.spawn, .dispatch 0, .extractStep 0 false, .emplace 0, .spawnFails, .dispatch 0, .join] rfl,
    rfl, ?_⟩
  intro h
  have habandoned := h.abandoned rfl 0
  revert habandoned
  decide

/-- In that run the buffer keeps the rank. -/
theorem conserved_of_failed_spawn : ∃ s, twoWorkers.Reachable s ∧
    (s.publisher = .unwound ∧ s.ready.map (·.rank) = [0]) ∧
    (s.ready.map (·.rank) ++ s.handed.map (·.rank) ++ s.abandoned).Perm (List.range s.nextDispatch) := by
  have hplay : ∃ s, twoWorkers.Reachable s ∧ s.publisher = .unwound ∧
      s.ready.map (·.rank) = [0] :=
    ⟨_, System.reachableWithin_of_playWithin .init
      [.spawn, .dispatch 0, .extractStep 0 false, .emplace 0, .spawnFails, .dispatch 0, .join]
      rfl, rfl, rfl⟩
  obtain ⟨s, hrun, hend⟩ := hplay
  exact ⟨s, hrun, hend, (conserved_of_reachable _ _ _ _ _ hrun).2.2.2.2.1 (by rw [hend.1]; rfl)⟩

end CppIndexer.Index
