/-
# Admission to the live UI server

`serve_live` claims one of `max_concurrent` slots on its accept thread, hands the
request to a connection thread, and that thread hands the provider call to a
worker. The worker gives the slot back with its last statement, so a connection
that is abandoned while its provider still runs keeps its slot.

Threads meet in two atomics only: `active_work` and the `done` flag of a worker,
which is where its program counter stands. A step below is one access to an
atomic, or the work between two of them.
-/

import Mathlib.Data.List.Basic
import Mathlib.Tactic.Ring
import CppIndexer.Lib.Transition

namespace CppIndexer.Ui

open Transition

/-- Where a worker stands. -/
inductive Worker
  | providing
  /-- The provider has returned or thrown; `done` is still to be stored. -/
  | provided
  | done
  /-- `fetch_sub` has been made and the thread ends. -/
  | released
  deriving DecidableEq

/-- Where `run_provider_route` stands. -/
inductive Route
  /-- Before the worker exists: four `make_shared` and the `std::thread`. -/
  | starting
  | polling
  /-- `done` was not set when it was read. -/
  | watching
  | joining
  | responding
  /-- The socket is closed and `route_finished` is set. -/
  | finished
  deriving DecidableEq

/-- An admitted request. -/
structure Connection where
  route : Route := .starting
  worker : Option Worker := none
  cancelRequested : Bool := false
  deriving DecidableEq

/-- Where the accept loop stands. -/
inductive Accept
  | accepting
  /-- In `try_admit`, with the value of `current` once it is loaded. -/
  | admitting (current : Option ℤ)
  /-- Past the loop, joining the connection threads. -/
  | draining
  | returned
  deriving DecidableEq

/-- Connections are kept in order of admission, reaped ones as well: reaping
joins threads that have nothing left to do. -/
structure ServerState where
  activeWork : ℤ := 0
  shuttingDown : Bool := false
  accept : Accept := .accepting
  connections : List Connection := []
  deriving DecidableEq

/-- What one turn of the accept loop receives. -/
inductive Received
  /-- A request for a provider. -/
  | provider
  | shutdown
  /-- Any other request, well formed or not: answered on this thread. -/
  | other
  /-- `accept` fails. -/
  | failure

inductive RouteChoice
  /-- An allocation or the construction of the worker's thread throws. -/
  | throws
  | spawns
  | reads
  | looks (peerDisconnected : Bool)
  | joins
  /-- The answer is sent, or building it throws: the socket is closed either way. -/
  | responds

inductive Label
  | receive (received : Received)
  | load
  /-- A weak exchange may fail although the expected value was found. -/
  | exchange (spurious : Bool)
  | refuse
  | drained
  | route (index : ℕ) (choice : RouteChoice)
  | worker (index : ℕ)

/-- One step of `run_provider_route`. -/
def Connection.advance (shuttingDown : Bool) (c : Connection) : RouteChoice → Option Connection
  | .throws => if c.route = .starting then some { c with route := .finished } else none
  | .spawns =>
    if c.route = .starting then some { c with route := .polling, worker := some .providing }
    else none
  | .reads =>
    if c.route = .polling then
      if c.worker = some .done ∨ c.worker = some .released then some { c with route := .joining }
      else some { c with route := .watching }
    else none
  | .looks peerDisconnected =>
    if c.route = .watching then
      if peerDisconnected || shuttingDown then
        -- The worker is detached and goes on by itself.
        some { c with route := .finished, cancelRequested := true }
      else some { c with route := .polling }
    else none
  | .joins =>
    if c.route = .joining ∧ c.worker = some .released then some { c with route := .responding }
    else none
  | .responds => if c.route = .responding then some { c with route := .finished } else none

def Worker.next : Worker → Option Worker
  | .providing => some .provided
  | .provided => some .done
  | .done => some .released
  | .released => none

variable (maxConcurrent : ℤ)

def ServerState.step (s : ServerState) : Label → Option ServerState
  | .receive received =>
    if s.accept = .accepting then
      match received with
      | .provider => some { s with accept := .admitting none }
      | .shutdown => some { s with shuttingDown := true, accept := .draining }
      | .other => some s
      | .failure => some { s with accept := .draining }
    else none
  | .load =>
    if s.accept = .admitting none then some { s with accept := .admitting (some s.activeWork) }
    else none
  | .exchange spurious =>
    match s.accept with
    | .admitting (some current) =>
      if current < maxConcurrent then
        if s.activeWork = current ∧ spurious = false then
          some { s with
            activeWork := current + 1, accept := .accepting, connections := s.connections ++ [{}] }
        else some { s with accept := .admitting (some s.activeWork) }
      else none
    | _ => none
  | .refuse =>
    match s.accept with
    | .admitting (some current) =>
      if current < maxConcurrent then none else some { s with accept := .accepting }
    | _ => none
  | .drained =>
    if s.accept = .draining ∧ ∀ c ∈ s.connections, c.route = .finished then
      some { s with accept := .returned }
    else none
  | .route index choice =>
    match s.connections[index]? with
    | none => none
    | some c => (c.advance s.shuttingDown choice).map fun c =>
        { s with connections := s.connections.set index c }
  | .worker index =>
    match s.connections[index]? with
    | none => none
    | some c => (c.worker.bind Worker.next).map fun worker =>
        { s with
          activeWork := if worker = .released then s.activeWork - 1 else s.activeWork
          connections := s.connections.set index { c with worker := some worker } }

/-- `serve_live` with `max_concurrent_requests`. -/
def serveLive (maxConcurrentRequests : ℤ) : System ServerState Label where
  init := {}
  step := ServerState.step (max 1 maxConcurrentRequests)

/-- The slot was not given back. -/
def Connection.Holding (c : Connection) : Prop := c.worker ≠ some .released

instance : DecidablePred Connection.Holding := fun _ => inferInstanceAs (Decidable (_ ≠ _))

/-- The provider is still to be called, or has not returned. -/
def Connection.Pending (c : Connection) : Prop :=
  c.route = .starting ∨ c.worker = some .providing

instance : DecidablePred Connection.Pending := fun _ => inferInstanceAs (Decidable (_ ∨ _))

/-! ## Steps -/

variable {maxConcurrent} {s t : ServerState} {l : Label}

/-- A step leaves the connections alone, admits one, or moves a thread of one. -/
theorem step_cases (h : s.step maxConcurrent l = some t) :
    (t.connections = s.connections ∧ t.activeWork = s.activeWork) ∨
    (t.connections = s.connections ++ [({} : Connection)] ∧ t.activeWork = s.activeWork + 1 ∧
      s.activeWork < maxConcurrent) ∨
    ∃ index c c', s.connections[index]? = some c ∧ t.connections = s.connections.set index c' ∧
      ((∃ choice, l = .route index choice ∧ c.advance s.shuttingDown choice = some c' ∧
          t.activeWork = s.activeWork) ∨
        ∃ worker next, c.worker = some worker ∧ worker.next = some next ∧
          c' = { c with worker := some next } ∧
          t.activeWork = if next = .released then s.activeWork - 1 else s.activeWork) := by
  cases l with
  | receive received =>
    simp only [ServerState.step, Option.ite_none_right_eq_some] at h
    cases received <;> cases h.2 <;> exact .inl ⟨rfl, rfl⟩
  | load | drained =>
    obtain ⟨-, rfl⟩ := taken h
    exact .inl ⟨rfl, rfl⟩
  | exchange spurious =>
    simp only [ServerState.step] at h
    split at h
    · simp only [Option.ite_none_right_eq_some] at h
      obtain ⟨hroom, h⟩ := h
      split at h
      · rename_i hfound
        cases h
        exact .inr (.inl ⟨rfl, by rw [hfound.1], by rw [hfound.1]; exact hroom⟩)
      · cases h
        exact .inl ⟨rfl, rfl⟩
    · cases h
  | refuse =>
    simp only [ServerState.step] at h
    split at h
    · simp only [Option.ite_none_left_eq_some] at h
      cases h.2
      exact .inl ⟨rfl, rfl⟩
    · cases h
  | route index choice =>
    simp only [ServerState.step] at h
    split at h
    · cases h
    · rename_i c hc
      obtain ⟨c', hadvance, rfl⟩ := Option.map_eq_some_iff.mp h
      exact .inr (.inr ⟨index, c, c', hc, rfl, .inl ⟨choice, rfl, hadvance, rfl⟩⟩)
  | worker index =>
    simp only [ServerState.step] at h
    split at h
    · cases h
    · rename_i c hc
      obtain ⟨next, hnext, rfl⟩ := Option.map_eq_some_iff.mp h
      obtain ⟨worker, hworker, hnext⟩ := Option.bind_eq_some_iff.mp hnext
      exact .inr (.inr ⟨index, c, _, hc, rfl, .inr ⟨worker, next, hworker, hnext, rfl, rfl⟩⟩)

theorem Connection.advance_cases {c c' : Connection} {shuttingDown : Bool} {choice : RouteChoice}
    (h : c.advance shuttingDown choice = some c') :
    c.route = .starting ∧ (choice = .spawns ∧ c'.worker = some .providing ∨
        choice = .throws ∧ c'.worker = c.worker) ∧ c'.route ≠ .starting ∨
      c.route ≠ .starting ∧ c'.route ≠ .starting ∧ c'.worker = c.worker := by
  cases choice with
  | spawns =>
    obtain ⟨hroute, rfl⟩ := taken h
    exact .inl ⟨hroute, .inl ⟨rfl, rfl⟩, nofun⟩
  | throws =>
    obtain ⟨hroute, rfl⟩ := taken h
    exact .inl ⟨hroute, .inr ⟨rfl, rfl⟩, nofun⟩
  | joins =>
    obtain ⟨hroute, rfl⟩ := taken h
    exact .inr ⟨by simp [hroute.1], nofun, rfl⟩
  | responds =>
    obtain ⟨hroute, rfl⟩ := taken h
    exact .inr ⟨by simp [hroute], nofun, rfl⟩
  | reads | looks =>
    simp only [advance, Option.ite_none_right_eq_some] at h
    obtain ⟨hroute, h⟩ := h
    split at h <;> cases h <;> exact .inr ⟨by simp [hroute], nofun, rfl⟩

/-- A property of every connection: a new one has it and its threads keep it. -/
theorem forall_connections {P : Connection → Prop} (hnew : P {})
    (hroute : ∀ index choice c c', l = .route index choice → P c →
      c.advance s.shuttingDown choice = some c' → P c')
    (hworker : ∀ c worker next, P c → c.worker = some worker → P { c with worker := some next })
    (h : ∀ c ∈ s.connections, P c) (hstep : s.step maxConcurrent l = some t) :
    ∀ c ∈ t.connections, P c := by
  rcases step_cases hstep with ⟨hsame, -⟩ | ⟨hadmitted, -⟩ | ⟨index, c, c', hc, hset, hmoved⟩
  · rw [hsame]
    exact h
  · rw [hadmitted]
    intro c hc
    rcases List.mem_append.mp hc with hc | hc
    · exact h c hc
    · rw [List.mem_singleton.mp hc]
      exact hnew
  · have hheld := h c (List.mem_of_getElem? hc)
    have hnext : P c' := by
      rcases hmoved with ⟨choice, hl, hadvance, -⟩ | ⟨worker, next, hthread, -, rfl, -⟩
      · exact hroute index choice c c' hl hheld hadvance
      · exact hworker c worker next hheld hthread
    rw [hset]
    intro other hother
    rcases List.mem_or_eq_of_mem_set hother with hother | rfl
    · exact h other hother
    · exact hnext

/-! ## The slots -/

theorem countP_set {α : Type*} (p : α → Bool) {l : List α} {i : ℕ} {a : α} (h : l[i]? = some a)
    (b : α) : ((l.set i b).countP p : ℤ) =
      l.countP p - (if p a then 1 else 0) + (if p b then 1 else 0) := by
  induction l generalizing i with
  | nil => cases h
  | cons x rest ih =>
    cases i with
    | zero =>
      cases h
      simp only [List.set_cons_zero, List.countP_cons, Nat.cast_add, Nat.cast_ite, Nat.cast_one,
        Nat.cast_zero]
      ring
    | succ =>
      simp only [List.set_cons_succ, List.countP_cons, Nat.cast_add, Nat.cast_ite, Nat.cast_one,
        Nat.cast_zero, ih h]
      ring

/-- One slot for each connection that holds one, and no more than there are. -/
structure Accounted (maxConcurrent : ℤ) (s : ServerState) : Prop where
  count : s.activeWork = s.connections.countP (·.Holding)
  bounded : s.activeWork ≤ maxConcurrent
  unstarted : ∀ c ∈ s.connections, c.route = .starting → c.worker = none

attribute [local simp] Connection.Holding

theorem Accounted.step (h : Accounted maxConcurrent s)
    (hstep : s.step maxConcurrent l = some t) : Accounted maxConcurrent t := by
  have hunstarted : ∀ c ∈ t.connections, c.route = .starting → c.worker = none := by
    refine forall_connections (fun _ => rfl) ?_ ?_ h.unstarted hstep
    · intro _ _ c c' _ _ hadvance hstarting
      rcases Connection.advance_cases hadvance with ⟨-, -, hnot⟩ | ⟨-, hnot, -⟩ <;>
        exact absurd hstarting hnot
    · intro c worker next hc hworker hstarting
      rw [hc hstarting] at hworker
      cases hworker
  rcases step_cases hstep with ⟨hsame, hactive⟩ | ⟨hadmitted, hactive, hroom⟩ |
    ⟨index, c, c', hc, hset, hmoved⟩
  · exact ⟨by rw [hactive, hsame, h.count], by rw [hactive]; exact h.bounded, hunstarted⟩
  · refine ⟨?_, by omega, hunstarted⟩
    rw [hactive, hadmitted, List.countP_append, h.count]
    rfl
  · have hcount := countP_set (·.Holding) hc c'
    rw [← hset, ← h.count] at hcount
    rcases hmoved with ⟨choice, -, hadvance, hactive⟩ | ⟨worker, next, hworker, hnext, rfl, hactive⟩
    · have hsame : c'.Holding ↔ c.Holding := by
        rcases Connection.advance_cases hadvance with ⟨hstarting, hthread, -⟩ | ⟨-, -, hthread⟩
        · have hnone := h.unstarted c (List.mem_of_getElem? hc) hstarting
          rcases hthread with ⟨-, hthread⟩ | ⟨-, hthread⟩ <;>
            simp [hthread, hnone]
        · simp [hthread]
      refine ⟨?_, by rw [hactive]; exact h.bounded, hunstarted⟩
      simp only [hsame] at hcount
      rw [hactive, hcount]
      ring
    · have hheld : c.Holding := by
        rw [Connection.Holding, hworker]
        rintro ⟨⟩
        cases hnext
      by_cases hreleased : next = .released
      · simp only [hreleased, if_true] at hactive
        refine ⟨?_, by have := h.bounded; omega, hunstarted⟩
        have hgiven : ¬ Connection.Holding { c with worker := some next } := by
          simp [hreleased]
        simp only [hheld, hgiven, decide_true, if_true, decide_false, Bool.false_eq_true,
          if_false] at hcount
        omega
      · simp only [hreleased, if_false] at hactive
        refine ⟨?_, by rw [hactive]; exact h.bounded, hunstarted⟩
        have hkept : Connection.Holding { c with worker := some next } := by
          simpa [Connection.Holding] using hreleased
        simp only [hheld, hkept, decide_true, if_true] at hcount
        rw [hactive, hcount]
        ring

variable {maxConcurrentRequests : ℤ}

theorem accounted_of_reachable (h : (serveLive maxConcurrentRequests).Reachable s) :
    Accounted (max 1 maxConcurrentRequests) s :=
  h.invariant ⟨rfl, by simp [serveLive], by simp [serveLive]⟩ fun _ _ _ hinv => hinv.step

/-- No allocation of a route throws, nor the construction of its worker. -/
def WorkersStart (_ : ServerState) : Label → Prop
  | .route _ .throws => False
  | _ => True

instance (s : ServerState) : DecidablePred (WorkersStart s)
  | .route _ .throws => isFalse id
  | .route _ .spawns | .route _ .reads | .route _ (.looks _) | .route _ .joins
  | .route _ .responds | .receive _ | .load | .exchange _ | .refuse | .drained | .worker _ =>
    isTrue trivial

theorem starting_of_workersStart (h : (serveLive maxConcurrentRequests).ReachableWithin WorkersStart s) :
    ∀ c ∈ s.connections, c.worker = none → c.route = .starting := by
  refine @System.ReachableWithin.invariant _ _ _ _ _
    (fun s => ∀ c ∈ s.connections, c.worker = none → c.route = .starting)
    (by simp [serveLive]) (fun s l t hinv hok hstep => ?_) h
  refine @forall_connections _ s t l (fun c => c.worker = none → c.route = .starting)
    (fun _ => rfl) ?_ (fun _ _ _ _ _ => nofun) hinv hstep
  rintro index choice c c' rfl hc hadvance hnone
  rcases Connection.advance_cases hadvance with ⟨-, hthread, -⟩ | ⟨hroute, -, hthread⟩
  · rcases hthread with ⟨-, hthread⟩ | ⟨rfl, -⟩
    · rw [hthread] at hnone
      cases hnone
    · exact absurd hok id
  · rw [hthread] at hnone
    exact absurd (hc hnone) hroute

theorem slots_accounted (maxConcurrentRequests : ℤ) :
    (∀ s, (serveLive maxConcurrentRequests).Reachable s →
      0 ≤ s.activeWork ∧ s.activeWork ≤ max 1 maxConcurrentRequests) ∧
    ∀ s, (serveLive maxConcurrentRequests).ReachableWithin WorkersStart s →
      s.activeWork = s.connections.countP (·.Holding) ∧
      (∀ c ∈ s.connections, c.worker = none → c.route = .starting) ∧
      (s.connections.countP (·.Pending) : ℤ) ≤ s.activeWork ∧
      ((∀ c ∈ s.connections, c.worker = some .released) → s.activeWork = 0) := by
  constructor
  · intro s h
    have haccounted := accounted_of_reachable h
    exact ⟨by rw [haccounted.count]; exact Int.natCast_nonneg _, haccounted.bounded⟩
  · intro s h
    have haccounted := accounted_of_reachable h.reachable
    refine ⟨haccounted.count, starting_of_workersStart h, ?_, ?_⟩
    · rw [haccounted.count, Int.ofNat_le]
      apply List.countP_mono_left
      intro c hc hpending
      have hpending : c.Pending := of_decide_eq_true hpending
      apply decide_eq_true
      rcases hpending with hstarting | hworker
      · simp [haccounted.unstarted c hc hstarting]
      · simp [hworker]
    · intro hreleased
      rw [haccounted.count, List.countP_eq_zero.mpr fun c hc => by
        simp [hreleased c hc]]
      rfl

/-- A request is admitted and its provider has returned. -/
theorem slots_accounted_once : ∃ s, (serveLive 1).ReachableWithin WorkersStart s ∧
    s.connections.map (·.worker) = [some .provided] ∧
    s.activeWork = s.connections.countP (·.Holding) := by
  have hplay : ∃ s, (serveLive 1).ReachableWithin WorkersStart s ∧
      s.connections.map (·.worker) = [some .provided] :=
    ⟨_, System.reachableWithin_of_playWithin .init
      [.receive .provider, .load, .exchange false, .route 0 .spawns, .worker 0] rfl, rfl⟩
  obtain ⟨s, hrun, hworkers⟩ := hplay
  exact ⟨s, hrun, hworkers, ((slots_accounted 1).2 s hrun).1⟩

/-- A slot outlives its provider for two steps, and for ever when the worker
was never made. -/
theorem slot_held_without_provider : (∃ s, (serveLive 1).ReachableWithin WorkersStart s ∧
      s.activeWork = 1 ∧ s.connections.countP (·.Pending) = 0) ∧
    ∃ s, (serveLive 1).Reachable s ∧ s.accept = .returned ∧
      s.activeWork = 1 ∧ s.connections.countP (·.Pending) = 0 :=
  ⟨⟨_, System.reachableWithin_of_playWithin .init
    [.receive .provider, .load, .exchange false, .route 0 .spawns, .worker 0] rfl, rfl, rfl⟩,
   ⟨_, System.reachable_of_play .init
    [.receive .provider, .load, .exchange false, .route 0 .throws, .receive .shutdown, .drained]
    rfl, rfl, rfl, rfl⟩⟩

end CppIndexer.Ui
