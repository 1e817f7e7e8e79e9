/-
# The windowed parallel runner

Model of `run_parallel_extraction_windowed` in `index/parallel_runner_impl.hpp`
as a labelled transition system. A step is one critical section of the runner's
mutex, or one step of a caller-supplied callback. Blocking waits are guards: a
label that would wait gives `none`. Each write to a variable of a waiting
predicate is followed by a notification of its condition variable, so a waiter
whose predicate became true does re-evaluate it.

The callbacks are a parameter. `extract` is itself a process that may take many
steps over state it shares with the other callbacks, so that the production
binding, whose extraction waits at an ordered gate, is an instance.

Metrics are write-only counters and clock readings and are left out, with
`in_flight`, which only feeds them.
-/

import CppIndexer.Lib.Transition
import Mathlib.Data.List.Sort

namespace CppIndexer.Index

open Transition Option

/-- The part of the plan the runner reads. -/
structure ParallelPlan where
  workers : ℕ := 1
  maxQueueItems : ℕ := 1
  maxQueueBytes : UInt64 := 0

/-- Why a run stopped early. -/
inductive ParallelRunStatus
  | none
  | publicationStopped
  | cancelled
  deriving DecidableEq

/-- One unit of work as the runner sees it. -/
structure ParallelResult (Payload : Type) where
  payload : Payload
  bytes : UInt64 := 0
  error : Option String := .none

structure RankedParallelResult (Payload : Type) where
  rank : ℕ
  result : ParallelResult Payload

/-- What the publish callback reports about one window. -/
structure ParallelWindowPublication where
  itemsPublished : ℕ := 0
  stopStatus : ParallelRunStatus := .none
  deriving DecidableEq

/-- Where one step leaves an `extract` call. An exception carries `what()`, or
nothing when it is not a `std::exception`. -/
inductive ExtractStep (Frame Payload : Type)
  | running (frame : Frame)
  | returned (result : ParallelResult Payload)
  | threw (what : Option String)

/-- How a call of the publish callback ends. -/
inductive PublishStep
  | returned (publication : ParallelWindowPublication)
  | threw
  deriving DecidableEq

/-- The caller-supplied callbacks over the state they share. `Frame` is the
program point inside one `extract` call and `Choice` resolves what the callbacks
decide for themselves. -/
structure Callbacks (Payload Shared Frame Choice : Type) where
  shared : Shared
  extract : (workerIndex rank : ℕ) → Frame
  advance : Shared → (rank : ℕ) → Frame → Choice → Option (Shared × ExtractStep Frame Payload)
  publish : Shared → List (RankedParallelResult Payload) → Choice → Shared × PublishStep
  onAbandon : Shared → (rank : ℕ) → Shared

/-- Where a worker thread is in `worker_body`. -/
inductive WorkerState (Payload Frame : Type)
  /-- At the top of the loop. -/
  | dispatching
  /-- Inside `extract`. -/
  | extracting (rank : ℕ) (frame : Frame)
  /-- Waiting to be admitted to the reorder buffer. -/
  | admitting (rank : ℕ) (result : ParallelResult Payload)
  /-- Woken by `stopping`; about to call `on_abandon`. -/
  | abandoning (rank : ℕ)
  | exited

/-- Where the calling thread is. -/
inductive PublisherState (Payload : Type)
  /-- About to create the worker of this index. -/
  | spawning (index : ℕ)
  /-- At the top of the publication loop. -/
  | polling
  /-- Collecting a window. -/
  | collecting (window : List (RankedParallelResult Payload)) (windowBytes : UInt64)
  /-- Inside the publish callback. -/
  | publishing (window : List (RankedParallelResult Payload))
  /-- In the pool guard's destructor, during a normal exit or an unwind. -/
  | joining (unwinding : Bool)
  /-- In the loop that abandons what was extracted but never published. -/
  | draining (rest : List (RankedParallelResult Payload))
  | finished
  | unwound

/-- The variables of the function, the state behind the callbacks, and a record
of what the callbacks were called with: the results extractions produced, the
windows handed to `publish` and the ranks passed to `on_abandon`. -/
structure RunnerState (Payload Shared Frame : Type) where
  shared : Shared
  workers : List (WorkerState Payload Frame) := []
  publisher : PublisherState Payload := .spawning 0
  ready : List (RankedParallelResult Payload) := []
  nextDispatch : ℕ := 0
  nextPublish : ℕ := 0
  bufferedBytes : UInt64 := 0
  stopping : Bool := false
  status : ParallelRunStatus := .none
  produced : List (RankedParallelResult Payload) := []
  windows : List (List (RankedParallelResult Payload)) := []
  abandoned : List ℕ := []

/-- One atomic step of a worker, named by its index, or of the calling thread. -/
inductive RunnerLabel (Choice : Type)
  | spawn
  /-- The operating system refuses the next thread. -/
  | spawnFails
  | dispatch (worker : ℕ)
  | extractStep (worker : ℕ) (choice : Choice)
  | emplace (worker : ℕ)
  | abandon (worker : ℕ)
  | poll (cancelled : Bool)
  /-- `cancelled()` throws, or the window cannot be reserved. -/
  | pollThrows
  | collect
  | publish (choice : Choice)
  | join
  | drain

/-- The pool size: at least one worker and no more than there is work for. -/
def poolSize (plan : ParallelPlan) (count : ℕ) : ℕ :=
  max (min plan.workers (if count = 0 then 1 else count)) 1

namespace RunnerState

variable {Payload Shared Frame Choice : Type}

/-- `ready.find(rank)`. -/
def find? (s : RunnerState Payload Shared Frame) (rank : ℕ) : Option (RankedParallelResult Payload) :=
  s.ready.find? fun entry => entry.rank = rank

/-- The admission predicate of a worker that holds `result` for `rank`. The rank
the publisher waits for is always admitted. The byte sum wraps at 64 bits. -/
def admits (plan : ParallelPlan) (s : RunnerState Payload Shared Frame) (rank : ℕ)
    (result : ParallelResult Payload) : Bool :=
  s.stopping || rank = s.nextPublish ||
    (s.ready.length < plan.maxQueueItems &&
      s.bufferedBytes + result.bytes ≤ plan.maxQueueBytes)

/-- Put an admitted result into the buffer, which is ordered by rank. -/
def emplace (s : RunnerState Payload Shared Frame) (entry : RankedParallelResult Payload) :
    RunnerState Payload Shared Frame :=
  { s with
    bufferedBytes := s.bufferedBytes + entry.result.bytes
    ready := s.ready.orderedInsert (fun a b => a.rank ≤ b.rank) entry }

/-- Leave the guarded scope: the guard raises `stopping` and joins the pool. -/
def leaveScope (s : RunnerState Payload Shared Frame) (unwinding : Bool) :
    RunnerState Payload Shared Frame :=
  { s with stopping := true, publisher := .joining unwinding }

/-- Move worker `index` to a new program point. -/
def setWorker (s : RunnerState Payload Shared Frame) (index : ℕ)
    (worker : WorkerState Payload Frame) : RunnerState Payload Shared Frame :=
  { s with workers := s.workers.set index worker }

/-- The inner loop of the publisher ends: an empty window leaves the outer loop
too, any other is published. -/
def endWindow (s : RunnerState Payload Shared Frame)
    (window : List (RankedParallelResult Payload)) : RunnerState Payload Shared Frame :=
  if window.isEmpty then s.leaveScope false else { s with publisher := .publishing window }

/-- One iteration of the loop that collects a window. Only an empty window waits
for its next rank. -/
def collect (plan : ParallelPlan) (count maxWindowItems : ℕ)
    (s : RunnerState Payload Shared Frame) (window : List (RankedParallelResult Payload))
    (windowBytes : UInt64) : Option (RunnerState Payload Shared Frame) :=
  if max maxWindowItems 1 ≤ window.length || count ≤ s.nextPublish then
    some (s.endWindow window)
  else
    match s.stopping, s.find? s.nextPublish with
    | true, _ => some (s.endWindow window)
    | false, .none => if window.isEmpty then .none else some (s.endWindow window)
    | false, some entry =>
      if !window.isEmpty && plan.maxQueueBytes != 0 &&
          plan.maxQueueBytes < windowBytes + entry.result.bytes then
        some (s.endWindow window)
      else
        some { s with
          publisher := .collecting (window ++ [entry]) (windowBytes + entry.result.bytes)
          ready := s.ready.filter fun other => other.rank ≠ s.nextPublish
          bufferedBytes := s.bufferedBytes - entry.result.bytes
          nextPublish := s.nextPublish + 1 }

/-- The runner turns an exception of `extract` into a result that carries it. -/
def failedResult [Inhabited Payload] (what : Option String) : ParallelResult Payload :=
  { payload := default, error := some (what.getD "unknown extraction failure") }

/-- An extraction is over: its result waits for admission. -/
def produce (s : RunnerState Payload Shared Frame) (index rank : ℕ)
    (result : ParallelResult Payload) : RunnerState Payload Shared Frame :=
  { s.setWorker index (.admitting rank result) with produced := ⟨rank, result⟩ :: s.produced }

/-- One step of the calling thread or of a worker. -/
def step [Inhabited Payload] (callbacks : Callbacks Payload Shared Frame Choice)
    (plan : ParallelPlan) (count maxWindowItems : ℕ) (s : RunnerState Payload Shared Frame) :
    RunnerLabel Choice → Option (RunnerState Payload Shared Frame)
  | .spawn =>
    match s.publisher with
    | .spawning index =>
      some { s with
        workers := s.workers ++ [.dispatching]
        publisher := if index + 1 < poolSize plan count then .spawning (index + 1)
          else .polling }
    | _ => .none
  | .spawnFails =>
    match s.publisher with
    | .spawning _ => some (s.leaveScope true)
    | _ => .none
  | .dispatch index =>
    match s.workers[index]? with
    | some .dispatching =>
      if s.stopping || count ≤ s.nextDispatch then some (s.setWorker index .exited)
      else
        some { s.setWorker index
            (.extracting s.nextDispatch (callbacks.extract index s.nextDispatch)) with
          nextDispatch := s.nextDispatch + 1 }
    | _ => .none
  | .extractStep index choice =>
    match s.workers[index]? with
    | some (.extracting rank frame) =>
      match callbacks.advance s.shared rank frame choice with
      | .none => .none
      | some (shared, .running next) =>
        some { s.setWorker index (.extracting rank next) with shared := shared }
      | some (shared, .returned result) =>
        some { s.produce index rank result with shared := shared }
      | some (shared, .threw what) =>
        some { s.produce index rank (failedResult what) with shared := shared }
    | _ => .none
  | .emplace index =>
    match s.workers[index]? with
    | some (.admitting rank result) =>
      if s.admits plan rank result then
        if s.stopping then some (s.setWorker index (.abandoning rank))
        else some ((s.emplace ⟨rank, result⟩).setWorker index .dispatching)
      else .none
    | _ => .none
  | .abandon index =>
    match s.workers[index]? with
    | some (.abandoning rank) =>
      some { s.setWorker index .exited with
        shared := callbacks.onAbandon s.shared rank
        abandoned := rank :: s.abandoned }
    | _ => .none
  | .poll cancelled =>
    match s.publisher with
    | .polling =>
      if cancelled then some { s.leaveScope false with status := .cancelled }
      else some { s with publisher := .collecting [] 0 }
    | _ => .none
  | .pollThrows =>
    match s.publisher with
    | .polling => some (s.leaveScope true)
    | _ => .none
  | .collect =>
    match s.publisher with
    | .collecting window windowBytes => s.collect plan count maxWindowItems window windowBytes
    | _ => .none
  | .publish choice =>
    match s.publisher with
    | .publishing window =>
      let answer := callbacks.publish s.shared window choice
      let s := { s with shared := answer.1, windows := s.windows ++ [window] }
      match answer.2 with
      | .threw => some (s.leaveScope true)
      | .returned publication =>
        if publication.stopStatus = .none then some { s with publisher := .polling }
        else some { s.leaveScope false with status := publication.stopStatus }
    | _ => .none
  | .join =>
    match s.publisher with
    | .joining unwinding =>
      if s.workers.all fun worker => worker matches .exited then
        some { s with publisher := if unwinding then .unwound else .draining s.ready }
      else .none
    | _ => .none
  | .drain =>
    match s.publisher with
    | .draining [] => some { s with publisher := .finished, ready := [] }
    | .draining (entry :: rest) =>
      some { s with
        publisher := .draining rest
        shared := callbacks.onAbandon s.shared entry.rank
        abandoned := entry.rank :: s.abandoned }
    | _ => .none

/-! ## What a step can do -/

section Moves

variable [Inhabited Payload] (callbacks : Callbacks Payload Shared Frame Choice)
  (plan : ParallelPlan) (count maxWindowItems : ℕ)

/-- The transitions of `step`, one constructor for each way through it. -/
inductive Moves : RunnerState Payload Shared Frame → RunnerLabel Choice →
    RunnerState Payload Shared Frame → Prop
  | spawn {s} {index : ℕ} (hpub : s.publisher = .spawning index) :
      Moves s .spawn { s with
        workers := s.workers ++ [.dispatching]
        publisher := if index + 1 < poolSize plan count then .spawning (index + 1)
          else .polling }
  | spawnFails {s} {index : ℕ} (hpub : s.publisher = .spawning index) :
      Moves s .spawnFails (s.leaveScope true)
  | exit {s} {index : ℕ} (hworker : s.workers[index]? = some .dispatching)
      (hdone : s.stopping = true ∨ count ≤ s.nextDispatch) :
      Moves s (.dispatch index) (s.setWorker index .exited)
  | dispatch {s} {index : ℕ} (hworker : s.workers[index]? = some .dispatching)
      (hrun : s.stopping = false) (hmore : s.nextDispatch < count) :
      Moves s (.dispatch index) { s.setWorker index
          (.extracting s.nextDispatch (callbacks.extract index s.nextDispatch)) with
        nextDispatch := s.nextDispatch + 1 }
  | extract {s} {index rank : ℕ} {frame next : Frame} {shared : Shared} {choice : Choice}
      (hworker : s.workers[index]? = some (.extracting rank frame))
      (hadvance : callbacks.advance s.shared rank frame choice = some (shared, .running next)) :
      Moves s (.extractStep index choice)
        { s.setWorker index (.extracting rank next) with shared := shared }
  | produce {s} {index rank : ℕ} {frame : Frame} {shared : Shared} {choice : Choice}
      {ending : ExtractStep Frame Payload} {result : ParallelResult Payload}
      (hworker : s.workers[index]? = some (.extracting rank frame))
      (hadvance : callbacks.advance s.shared rank frame choice = some (shared, ending))
      (hending : ending = .returned result ∨ ∃ what, ending = .threw what ∧ result = failedResult what) :
      Moves s (.extractStep index choice) { s.produce index rank result with shared := shared }
  | stop {s} {index rank : ℕ} {result : ParallelResult Payload}
      (hworker : s.workers[index]? = some (.admitting rank result)) (hstop : s.stopping = true) :
      Moves s (.emplace index) (s.setWorker index (.abandoning rank))
  | emplace {s} {index rank : ℕ} {result : ParallelResult Payload}
      (hworker : s.workers[index]? = some (.admitting rank result)) (hrun : s.stopping = false)
      (hadmits : s.admits plan rank result = true) :
      Moves s (.emplace index) ((s.emplace ⟨rank, result⟩).setWorker index .dispatching)
  | abandon {s} {index rank : ℕ} (hworker : s.workers[index]? = some (.abandoning rank)) :
      Moves s (.abandon index) { s.setWorker index .exited with
        shared := callbacks.onAbandon s.shared rank
        abandoned := rank :: s.abandoned }
  | cancel {s} (hpub : s.publisher = .polling) :
      Moves s (.poll true) { s.leaveScope false with status := .cancelled }
  | poll {s} (hpub : s.publisher = .polling) :
      Moves s (.poll false) { s with publisher := .collecting [] 0 }
  | pollThrows {s} (hpub : s.publisher = .polling) : Moves s .pollThrows (s.leaveScope true)
  | leave {s} {windowBytes : UInt64} (hpub : s.publisher = .collecting [] windowBytes)
      (hend : count ≤ s.nextPublish ∨ s.stopping = true) :
      Moves s .collect (s.leaveScope false)
  | hand {s} {window : List (RankedParallelResult Payload)} {windowBytes : UInt64}
      (hpub : s.publisher = .collecting window windowBytes) (hwindow : window ≠ []) :
      Moves s .collect { s with publisher := .publishing window }
  | take {s} {window : List (RankedParallelResult Payload)} {windowBytes : UInt64}
      {entry : RankedParallelResult Payload}
      (hpub : s.publisher = .collecting window windowBytes) (hmore : s.nextPublish < count)
      (hrun : s.stopping = false) (hfind : s.find? s.nextPublish = some entry) :
      Moves s .collect { s with
        publisher := .collecting (window ++ [entry]) (windowBytes + entry.result.bytes)
        ready := s.ready.filter fun other => other.rank ≠ s.nextPublish
        bufferedBytes := s.bufferedBytes - entry.result.bytes
        nextPublish := s.nextPublish + 1 }
  | published {s} {window : List (RankedParallelResult Payload)} {shared : Shared}
      {choice : Choice} {publication : ParallelWindowPublication}
      (hpub : s.publisher = .publishing window)
      (hcall : callbacks.publish s.shared window choice = (shared, .returned publication))
      (hgo : publication.stopStatus = .none) :
      Moves s (.publish choice) { s with
        shared := shared, windows := s.windows ++ [window], publisher := .polling }
  | publishedLast {s} {window : List (RankedParallelResult Payload)} {shared : Shared}
      {choice : Choice} {publication : ParallelWindowPublication}
      (hpub : s.publisher = .publishing window)
      (hcall : callbacks.publish s.shared window choice = (shared, .returned publication))
      (hstop : publication.stopStatus ≠ .none) :
      Moves s (.publish choice) { s.leaveScope false with
        shared := shared, windows := s.windows ++ [window], status := publication.stopStatus }
  | publishThrows {s} {window : List (RankedParallelResult Payload)} {shared : Shared}
      {choice : Choice} (hpub : s.publisher = .publishing window)
      (hcall : callbacks.publish s.shared window choice = (shared, .threw)) :
      Moves s (.publish choice) { s.leaveScope true with
        shared := shared, windows := s.windows ++ [window] }
  | joinUnwinding {s} (hpub : s.publisher = .joining true)
      (hexited : ∀ worker ∈ s.workers, worker = .exited) :
      Moves s .join { s with publisher := .unwound }
  | join {s} (hpub : s.publisher = .joining false)
      (hexited : ∀ worker ∈ s.workers, worker = .exited) :
      Moves s .join { s with publisher := .draining s.ready }
  | drain {s} {entry : RankedParallelResult Payload}
      {rest : List (RankedParallelResult Payload)} (hpub : s.publisher = .draining (entry :: rest)) :
      Moves s .drain { s with
        publisher := .draining rest
        shared := callbacks.onAbandon s.shared entry.rank
        abandoned := entry.rank :: s.abandoned }
  | finish {s} (hpub : s.publisher = .draining []) :
      Moves s .drain { s with publisher := .finished, ready := [] }

variable {callbacks plan count maxWindowItems}
  {s t : RunnerState Payload Shared Frame} {l : RunnerLabel Choice}

theorem moves_of_collect {window : List (RankedParallelResult Payload)} {windowBytes : UInt64}
    (hpub : s.publisher = .collecting window windowBytes)
    (h : s.collect plan count maxWindowItems window windowBytes = some t) :
    Moves callbacks plan count s .collect t := by
  have hend : window ≠ [] ∨ (window = [] ∧ (count ≤ s.nextPublish ∨ s.stopping = true)) →
      Moves callbacks plan count s .collect (s.endWindow window) := by
    intro hclosed
    cases hclosed with
    | inl hne =>
      have : s.endWindow window = { s with publisher := .publishing window } := by
        simp [endWindow, hne]
      exact this ▸ .hand hpub hne
    | inr hempty =>
      cases hempty.1
      exact .leave hpub hempty.2
  by_cases hne : window = []
  · cases hne
    simp only [collect, List.length_nil, Nat.le_zero, Bool.or_eq_true, decide_eq_true_eq] at h
    split at h
    · rename_i hfull
      cases h
      exact hend (.inr ⟨rfl, .inl (hfull.resolve_left (by omega))⟩)
    · rename_i hfull
      split at h
      · rename_i hstop
        cases h
        exact hend (.inr ⟨rfl, .inr hstop⟩)
      · simp at h
      · rename_i entry hstop hfind
        simp only [List.isEmpty_nil, Bool.not_true, Bool.false_and, Bool.false_eq_true,
          ↓reduceIte, some.injEq] at h
        exact h ▸ .take hpub (by omega) hstop hfind
  · have hclosed := hend (.inl hne)
    unfold collect at h
    split at h
    · exact some.inj h ▸ hclosed
    · rename_i hfull
      split at h
      · exact some.inj h ▸ hclosed
      · rw [if_neg (by simpa using hne)] at h
        exact some.inj h ▸ hclosed
      · rename_i entry hstop hfind
        split at h
        · exact some.inj h ▸ hclosed
        · have hmore : s.nextPublish < count := by
            simp only [Bool.or_eq_true, decide_eq_true_eq] at hfull
            omega
          exact some.inj h ▸ .take hpub hmore hstop hfind

variable {choice : Choice}

theorem moves_of_publish (h : s.step callbacks plan count maxWindowItems (.publish choice) = some t) :
    Moves callbacks plan count s (.publish choice) t := by
  simp only [step] at h
  split at h
  · rename_i window hpub
    cases hcall : callbacks.publish s.shared window choice with
    | mk shared answer =>
      rw [hcall] at h
      cases answer with
      | threw =>
        cases h
        exact .publishThrows hpub hcall
      | returned =>
        simp only at h
        split at h
        · rename_i hgo
          cases h
          exact .published hpub hcall hgo
        · rename_i hstop
          cases h
          exact .publishedLast hpub hcall hstop
  · cases h

theorem moves_of_extractStep {index : ℕ}
    (h : s.step callbacks plan count maxWindowItems (.extractStep index choice) = some t) :
    Moves callbacks plan count s (.extractStep index choice) t := by
  simp only [step] at h
  split at h
  · rename_i rank frame hworker
    split at h
    · cases h
    · rename_i shared next hadvance
      cases h
      exact .extract hworker hadvance
    · rename_i shared result hadvance
      cases h
      exact .produce hworker hadvance (.inl rfl)
    · rename_i shared what hadvance
      cases h
      exact .produce hworker hadvance (.inr ⟨what, rfl, rfl⟩)
  · cases h

theorem moves_of_worker {index : ℕ} (hl : l = .dispatch index ∨ l = .emplace index ∨
      l = .abandon index)
    (h : s.step callbacks plan count maxWindowItems l = some t) :
    Moves callbacks plan count s l t := by
  rcases hl with rfl | rfl | rfl
  · simp only [step] at h
    split at h
    · rename_i hworker
      split at h
      · rename_i hdone
        cases h
        exact .exit hworker (by simpa using hdone)
      · rename_i hmore
        simp only [Bool.or_eq_true, decide_eq_true_eq, not_or, Bool.not_eq_true, not_le] at hmore
        cases h
        exact .dispatch hworker hmore.1 hmore.2
    · cases h
  · simp only [step] at h
    split at h
    · rename_i rank result hworker
      split at h
      · rename_i hadmits
        split at h
        · rename_i hstop
          cases h
          exact .stop hworker hstop
        · rename_i hrun
          cases h
          exact .emplace hworker (by simpa using hrun) hadmits
      · cases h
    · cases h
  · simp only [step] at h
    split at h
    · rename_i rank hworker
      cases h
      exact .abandon hworker
    · cases h

theorem moves_of_step (h : s.step callbacks plan count maxWindowItems l = some t) :
    Moves callbacks plan count s l t := by
  cases l with
  | dispatch => exact moves_of_worker (.inl rfl) h
  | emplace => exact moves_of_worker (.inr (.inl rfl)) h
  | abandon => exact moves_of_worker (.inr (.inr rfl)) h
  | extractStep => exact moves_of_extractStep h
  | publish => exact moves_of_publish h
  | spawn =>
    simp only [step] at h
    split at h
    · rename_i index hpub
      cases h
      exact .spawn hpub
    · cases h
  | spawnFails =>
    simp only [step] at h
    split at h
    · rename_i index hpub
      cases h
      exact .spawnFails hpub
    · cases h
  | poll cancelled =>
    simp only [step] at h
    split at h
    · rename_i hpub
      cases cancelled with
      | true =>
        cases h
        exact .cancel hpub
      | false =>
        cases h
        exact .poll hpub
    · cases h
  | pollThrows =>
    simp only [step] at h
    split at h
    · rename_i hpub
      cases h
      exact .pollThrows hpub
    · cases h
  | collect =>
    simp only [step] at h
    split at h
    · rename_i window windowBytes hpub
      exact moves_of_collect hpub h
    · cases h
  | join =>
    simp only [step] at h
    split at h
    · rename_i unwinding hpub
      split at h
      · rename_i hall
        have hexited : ∀ worker ∈ s.workers, worker = .exited := by
          intro worker hworker
          have hmatch := List.all_eq_true.mp hall worker hworker
          cases worker <;> simp_all
        cases unwinding with
        | true =>
          cases h
          exact .joinUnwinding hpub hexited
        | false =>
          cases h
          exact .join hpub hexited
      · cases h
    · cases h
  | drain =>
    simp only [step] at h
    split at h
    · rename_i hpub
      cases h
      exact .finish hpub
    · rename_i entry rest hpub
      cases h
      exact .drain hpub
    · cases h

end Moves

end RunnerState

/-- All interleavings of one call of `run_parallel_extraction_windowed`. -/
def runParallelExtractionWindowed {Payload Shared Frame Choice : Type} [Inhabited Payload]
    (callbacks : Callbacks Payload Shared Frame Choice) (plan : ParallelPlan)
    (count maxWindowItems : ℕ) :
    System (RunnerState Payload Shared Frame) (RunnerLabel Choice) where
  init := { shared := callbacks.shared }
  step := RunnerState.step callbacks plan count maxWindowItems

end CppIndexer.Index
