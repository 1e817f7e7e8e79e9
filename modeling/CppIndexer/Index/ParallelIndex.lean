/-
# The parallel index run

Model of `run_parallel_index` in `index/parallel_index.cpp`: the windowed runner
over the callbacks that extract and publish translation units, with the header
oracle as the state they share. An extraction is `run_index_one` of
`ast/index_engine.cpp` inside the bounded retry loop, cut at the points that touch
the oracle; every other part of it is one step whose outcome is left open.

Three mechanisms wait for each other: a claim waits at the ordered gate, a result
waits for room in the reorder buffer, and the publisher waits for the next rank.
The run can only stall at the gate, and the gate is open for the rank the
publisher waits for as soon as every lower rank has claimed or has been released.

`run_index_one` releases an unclaimed rank at its last statement. A failed
preflight of a build-declared PCH returns before it and an exception passes it by,
so the runs that cannot stall are those in which neither happens to a rank that
has not acted yet.
-/

import CppIndexer.Index.HeaderPublication
import CppIndexer.Index.ParallelRunnerBuffer

namespace CppIndexer.Index

open Transition OrderedGate RunnerState List SequencedHeaderClaimOracle

/-- What the publish callback reads of an extraction's outcome. -/
structure IndexOneOutcome where
  parseFailed : Bool := false
  sourceChanged : Bool := false
  /-- The extraction produced a batch to publish. -/
  publication : Bool := false
  deriving Inhabited

/-- The oracle, with a record of the ranks that claimed and of those passed to
`release_unclaimed`. -/
structure ClaimState where
  oracle : SequencedHeaderClaimOracle := {}
  claimed : List ℕ := []
  releasedUnclaimed : List ℕ := []

namespace ClaimState

variable (shared : ClaimState) (rank : ℕ)

/-- The rank claimed or was released. -/
def Acted : Prop :=
  rank ∈ shared.claimed ∨ rank ∈ shared.releasedUnclaimed

/-- `oracle.claim`, recorded. -/
def claim (configurationIdentity : String) (candidates : List HeaderClaimCandidate) : Option ClaimState :=
  (shared.oracle.claim rank configurationIdentity candidates).map fun answer =>
    { shared with oracle := answer.2, claimed := rank :: shared.claimed }

/-- `oracle.release_unclaimed`, recorded. -/
def releaseUnclaimed : ClaimState :=
  { shared with
    oracle := shared.oracle.releaseUnclaimed rank
    releasedUnclaimed := rank :: shared.releasedUnclaimed }

/-- `oracle.revoke_grants`. -/
def revokeGrants : ClaimState :=
  { shared with oracle := shared.oracle.revokeGrants rank }

end ClaimState

/-- Where one extraction is. `attempt` counts the retries made so far. -/
inductive IndexFrame
  /-- Before the front end: the worker's context, the source snapshot, the
  configuration and the preflight. -/
  | preparing (attempt : ℕ)
  /-- In the front end, before owned-header discovery. -/
  | parsing (attempt : ℕ)
  /-- Waiting in `claim`. -/
  | claiming (attempt : ℕ) (configurationIdentity : String)
      (candidates : List HeaderClaimCandidate)
  /-- In the rest of the front end and in `finalize_index_one`. -/
  | finalizing (attempt : ℕ) (claimed : Bool)
  /-- At the last statement of `run_index_one`, about to release the rank. -/
  | releasing (attempt : ℕ) (outcome : IndexOneOutcome)
  /-- Back in the extract callback with an outcome. -/
  | outcome (attempt : ℕ) (outcome : IndexOneOutcome)

/-- What happens inside the publish callback: the writer's answer and the
observer's for each rank, and how many ranks are settled before an exception. -/
structure PublishAnswers where
  writerOk : ℕ → Bool := fun _ => true
  observerContinues : ℕ → Bool := fun _ => true
  cancelled : Bool := false
  throwsAfter : Option ℕ := none

/-- The decisions left open by the model. -/
inductive IndexChoice
  | proceeds
  | throws (what : Option String)
  | preflightFails
  | discovers (configurationIdentity : String) (candidates : List HeaderClaimCandidate)
  /-- The front end ends without owned-header discovery. -/
  | parseFails
  | finalizes (outcome : IndexOneOutcome)
  /-- The retry loop's `cancelled()` and the size of the batch. -/
  | decides (cancelled : Bool) (bytes : UInt64)
  | publishes (answers : PublishAnswers)

/-- The answers a choice gives to the publish callback. -/
def IndexChoice.answers : IndexChoice → PublishAnswers
  | .publishes answers => answers
  | _ => {}

/-- One step of an extraction. -/
def advanceIndexOne (shared : ClaimState) (rank : ℕ) :
    IndexFrame → IndexChoice → Option (ClaimState × ExtractStep IndexFrame IndexOneOutcome)
  -- Nothing in `claim` throws; it waits.
  | .claiming attempt configurationIdentity candidates, .proceeds =>
    (shared.claim rank configurationIdentity candidates).map fun shared =>
      (shared, .running (.finalizing attempt true))
  | .preparing attempt, .proceeds => some (shared, .running (.parsing attempt))
  | .preparing attempt, .preflightFails =>
    some (shared, .running (.outcome attempt { parseFailed := true }))
  | .preparing _, .throws what => some (shared, .threw what)
  | .parsing attempt, .discovers configurationIdentity candidates =>
    some (shared, .running (.claiming attempt configurationIdentity candidates))
  | .parsing attempt, .parseFails => some (shared, .running (.finalizing attempt false))
  | .parsing _, .throws what => some (shared, .threw what)
  | .finalizing attempt true, .finalizes outcome =>
    some (shared, .running (.outcome attempt outcome))
  | .finalizing attempt false, .finalizes outcome =>
    some (shared, .running (.releasing attempt outcome))
  | .finalizing _ _, .throws what => some (shared, .threw what)
  | .releasing attempt outcome, .proceeds =>
    some (shared.releaseUnclaimed rank, .running (.outcome attempt outcome))
  | .outcome attempt outcome, .decides cancelled bytes =>
    if outcome.sourceChanged && attempt < kDefaultSourceChangeRetries && !cancelled then
      some (shared, .running (.preparing (attempt + 1)))
    else some (shared, .returned { payload := outcome, bytes := bytes })
  | .outcome _ _, .throws what => some (shared, .threw what)
  | _, _ => none

/-- The result goes to the writer. -/
def publishable (result : ParallelResult IndexOneOutcome) : Bool :=
  result.error.isNone && !result.payload.parseFailed && !result.payload.sourceChanged &&
    result.payload.publication

/-- Revoke the grants of every rank the writer refused. -/
def revokeRefused (answers : PublishAnswers) (shared : ClaimState)
    (window : List (RankedParallelResult IndexOneOutcome)) : ClaimState :=
  window.foldl (fun shared entry =>
    if publishable entry.result && !answers.writerOk entry.rank then
      shared.revokeGrants entry.rank
    else shared) shared

/-- The publish callback. The observer is called for every rank of the window,
also after it asked to stop. -/
def publishWindow (shared : ClaimState) (window : List (RankedParallelResult IndexOneOutcome))
    (choice : IndexChoice) : ClaimState × PublishStep :=
  match choice.answers.throwsAfter with
  | some settled => (revokeRefused choice.answers shared (window.take settled), .threw)
  | none =>
    let continuing := window.takeWhile fun entry => choice.answers.observerContinues entry.rank
    (revokeRefused choice.answers shared window, .returned {
      itemsPublished := continuing.length
      stopStatus := if continuing.length = window.length then .none
        else if choice.answers.cancelled then .cancelled else .publicationStopped })

/-- The callbacks `run_parallel_index` passes to the runner. -/
def indexCallbacks : Callbacks IndexOneOutcome ClaimState IndexFrame IndexChoice where
  shared := {}
  extract _ _ := .preparing 0
  advance := advanceIndexOne
  publish := publishWindow
  onAbandon := ClaimState.releaseUnclaimed

/-- All interleavings of `run_parallel_index` over `count` targets. A window is as
long as the queue. -/
def runParallelIndex (plan : ParallelPlan) (count : ℕ) :
    System (RunnerState IndexOneOutcome ClaimState IndexFrame) (RunnerLabel IndexChoice) :=
  runParallelExtractionWindowed indexCallbacks plan count plan.maxQueueItems

variable (s : RunnerState IndexOneOutcome ClaimState IndexFrame)

/-- No extraction leaves by a failed preflight or by an exception before its rank
has claimed or has been released. -/
def ActsBeforeLeaving : RunnerLabel IndexChoice → Prop
  | .extractStep index .preflightFails | .extractStep index (.throws _) =>
    ∀ rank frame, s.workers[index]? = some (.extracting rank frame) → s.shared.Acted rank
  | _ => True

/-! ## The gate -/

namespace ClaimState

/-- The gate's bookkeeping is that of the ranks that claimed or were released. -/
structure Gated (shared : ClaimState) : Prop where
  live : shared.oracle.cancelled = false
  gate : shared.oracle.gate.Represents { rank | shared.Acted rank }

variable {shared after : ClaimState} {rank : ℕ}

theorem gated_init : Gated {} where
  live := rfl
  gate := by
    convert Gate.represents_empty using 1
    ext rank
    simp [Acted]

theorem Gated.claim (h : shared.Gated) {configurationIdentity : String}
    {candidates : List HeaderClaimCandidate}
    (hclaim : shared.claim rank configurationIdentity candidates = some after) :
    after.Gated ∧ after.Acted rank ∧ ∀ other, shared.Acted other → after.Acted other := by
  obtain ⟨⟨_, oracle⟩, hanswer, hafter⟩ := Option.map_eq_some_iff.mp hclaim
  have hanswer := (claim_eq_some_iff h.live).mp hanswer
  have hframe := claimCandidates_gate shared.oracle rank
    configurationIdentity candidates
  subst hafter
  have hacted : { other | Acted { shared with oracle := oracle, claimed := rank :: shared.claimed }
      other } = insert rank { other | shared.Acted other } := by
    ext other
    simp [Acted, or_assoc]
  refine ⟨⟨?_, ?_⟩, .inl mem_cons_self, ?_⟩
  · rw [hanswer.2.2]
    exact hframe.2.trans h.live
  · rw [hacted, hanswer.2.2, release_gate, hframe.1]
    exact h.gate.release rank
  · intro _ hother
    exact hacted.symm.subset (Set.mem_insert_of_mem _ hother)

attribute [local simp] ClaimState.releaseUnclaimed

theorem Gated.releaseUnclaimed (h : shared.Gated) (rank : ℕ) : (shared.releaseUnclaimed rank).Gated := by
  have hacted : { other | (shared.releaseUnclaimed rank).Acted other } =
      insert rank { other | shared.Acted other } := by
    ext other
    simp [Acted, or_left_comm]
  by_cases hbehind : rank < shared.oracle.nextRank
  · have hsame : shared.oracle.releaseUnclaimed rank = shared.oracle := by
      simp [SequencedHeaderClaimOracle.releaseUnclaimed, hbehind]
    constructor
    · simpa [hsame] using h.live
    · rw [hacted, Set.insert_eq_of_mem (h.gate.below rank hbehind)]
      simpa [hsame] using h.gate
  · have hahead := releaseUnclaimed_of_le h.live
      (Nat.le_of_not_lt hbehind)
    constructor
    · simpa [hahead] using h.live
    · rw [hacted]
      simpa [hahead] using h.gate.release rank

theorem Gated.revokeRefused (h : shared.Gated) (answers : PublishAnswers)
    (window : List (RankedParallelResult IndexOneOutcome)) : (revokeRefused answers shared window).Gated ∧
      ∀ other, (revokeRefused answers shared window).Acted other ↔ shared.Acted other := by
  induction window generalizing shared with
  | nil => exact ⟨h, fun _ => Iff.rfl⟩
  | cons entry _ ih =>
    rw [Index.revokeRefused, foldl_cons]
    split
    · have hrevoked : (shared.revokeGrants entry.rank).Gated := ⟨h.live, h.gate⟩
      exact ih hrevoked
    · exact ih h

theorem Gated.publishWindow (h : shared.Gated)
    (window : List (RankedParallelResult IndexOneOutcome)) (choice : IndexChoice) :
    (publishWindow shared window choice).1.Gated ∧
      ∀ other, (publishWindow shared window choice).1.Acted other ↔ shared.Acted other := by
  unfold Index.publishWindow
  split <;> exact h.revokeRefused _ _

theorem Gated.claim_isSome (h : shared.Gated) (hlower : ∀ other < rank, shared.Acted other)
    (configurationIdentity : String) (candidates : List HeaderClaimCandidate) :
    (shared.claim rank configurationIdentity candidates).isSome := by
  have hanswer : shared.oracle.claim rank configurationIdentity candidates = some (_, _) :=
    (claim_eq_some_iff h.live).mpr
      ⟨h.gate.le_next hlower, rfl, rfl⟩
  simp [ClaimState.claim, hanswer]

end ClaimState

/-! ## The extraction -/

/-- From here on the rank has claimed or has been released. -/
def IndexFrame.settled : IndexFrame → Bool
  | .finalizing _ claimed => claimed
  | .outcome _ _ => true
  | _ => false

variable {frame : IndexFrame}

/-- What one step of an extraction does to the gate. A step that leaves the
extraction, or that enters a settled frame, leaves its rank recorded. -/
theorem advanceIndexOne_spec {shared after : ClaimState} {rank : ℕ}
    {choice : IndexChoice} {ending : ExtractStep IndexFrame IndexOneOutcome}
    (hgated : shared.Gated) (hsettled : frame.settled = true → shared.Acted rank)
    (hleave : choice = .preflightFails ∨ (∃ what, choice = .throws what) → shared.Acted rank)
    (h : advanceIndexOne shared rank frame choice = some (after, ending)) :
    after.Gated ∧ (∀ other, shared.Acted other → after.Acted other) ∧
      ((∃ next, ending = .running next ∧ next.settled = false) ∨ after.Acted rank) := by
  -- Every step but a claim and a release leaves the oracle alone.
  have hstays : (∃ next, ending = .running next ∧ next.settled = false) ∨ shared.Acted rank →
      after = shared → after.Gated ∧ (∀ other, shared.Acted other → after.Acted other) ∧
        ((∃ next, ending = .running next ∧ next.settled = false) ∨ after.Acted rank) := by
    rintro hend rfl
    exact ⟨hgated, fun _ => id, hend⟩
  unfold advanceIndexOne at h
  split at h
  case h_1 =>
    obtain ⟨_, hclaim, hnext⟩ := Option.map_eq_some_iff.mp h
    cases hnext
    obtain ⟨hafter, hrank, hothers⟩ := hgated.claim hclaim
    exact ⟨hafter, hothers, .inr hrank⟩
  case h_11 =>
    cases h
    exact ⟨hgated.releaseUnclaimed rank, fun _ hother => hother.imp_right (mem_cons_of_mem _),
      .inr (.inr mem_cons_self)⟩
  case h_12 =>
    split at h
    all_goals
      cases h
      exact hstays (.inr (hsettled rfl)) rfl
  case h_2 | h_5 | h_6 | h_9 =>
    cases h
    exact hstays (.inl ⟨_, rfl, rfl⟩) rfl
  case h_3 =>
    cases h
    exact hstays (.inr (hleave (.inl rfl))) rfl
  case h_4 | h_7 | h_10 | h_13 =>
    cases h
    exact hstays (.inr (hleave (.inr ⟨_, rfl⟩))) rfl
  case h_8 =>
    cases h
    exact hstays (.inr (hsettled rfl)) rfl
  case h_14 => cases h

theorem advanceIndexOne_enabled {shared : ClaimState} {rank : ℕ} (hgated : shared.Gated)
    (hlower : ∀ other < rank, shared.Acted other) (frame : IndexFrame) :
    ∃ choice, (advanceIndexOne shared rank frame choice).isSome := by
  cases frame with
  | preparing | releasing => exact ⟨.proceeds, rfl⟩
  | parsing => exact ⟨.parseFails, rfl⟩
  | claiming _ configurationIdentity candidates =>
    refine ⟨.proceeds, ?_⟩
    simpa [advanceIndexOne] using hgated.claim_isSome hlower configurationIdentity candidates
  | finalizing _ claimed =>
    refine ⟨.finalizes {}, ?_⟩
    cases claimed <;> rfl
  | outcome =>
    refine ⟨.decides true 0, ?_⟩
    simp [advanceIndexOne]

/-! ## The run -/

section Run

variable {plan : ParallelPlan} {count : ℕ}
  {s t : RunnerState IndexOneOutcome ClaimState IndexFrame} {l : RunnerLabel IndexChoice}

/-- The gate is kept, and every extraction that is over or settled has acted. -/
structure Releasing (s : RunnerState IndexOneOutcome ClaimState IndexFrame) : Prop where
  gated : s.shared.Gated
  settled : ∀ rank frame, .extracting rank frame ∈ s.workers → frame.settled = true →
    s.shared.Acted rank
  actedOn : ∀ entry ∈ s.produced, s.shared.Acted entry.rank

theorem releasing_init :
    Releasing ({ shared := {} } : RunnerState IndexOneOutcome ClaimState IndexFrame) where
  gated := ClaimState.gated_init
  settled := by simp
  actedOn := by simp

theorem Releasing.extends (h : Releasing s) (hgated : t.shared.Gated)
    (hacted : ∀ rank, s.shared.Acted rank → t.shared.Acted rank)
    (hworkers : ∀ rank frame, .extracting rank frame ∈ t.workers → frame.settled = true →
      .extracting rank frame ∈ s.workers ∨ t.shared.Acted rank)
    (hproduced : ∀ entry ∈ t.produced, entry ∈ s.produced ∨ t.shared.Acted entry.rank) : Releasing t where
  gated := hgated
  settled := by
    intro rank frame hmem hframe
    cases hworkers rank frame hmem hframe with
    | inl hbefore => exact hacted rank (h.settled rank frame hbefore hframe)
    | inr hnow => exact hnow
  actedOn := by
    intro entry hmem
    cases hproduced entry hmem with
    | inl hbefore => exact hacted entry.rank (h.actedOn entry hbefore)
    | inr hnow => exact hnow

variable {shared : ClaimState} {choice : IndexChoice} {index rank : ℕ}

theorem Releasing.worker (h : Releasing s) {nextDispatch : ℕ}
    {new : WorkerState IndexOneOutcome IndexFrame}
    {bufferedBytes : UInt64} {ready produced : List (RankedParallelResult IndexOneOutcome)}
    {abandoned : List ℕ} (hgated : shared.Gated)
    (hacted : ∀ rank, s.shared.Acted rank → shared.Acted rank)
    (hnew : ∀ rank frame, new = .extracting rank frame → frame.settled = true → shared.Acted rank)
    (hproduced : ∀ entry ∈ produced, entry ∈ s.produced ∨ shared.Acted entry.rank) :
    Releasing { s with
      workers := s.workers.set index new, nextDispatch := nextDispatch, shared := shared,
      bufferedBytes := bufferedBytes, ready := ready, produced := produced,
      abandoned := abandoned } := by
  refine h.extends hgated hacted ?_ hproduced
  intro rank frame hmem hframe
  cases mem_or_eq_of_mem_set hmem with
  | inl hbefore => exact .inl hbefore
  | inr heq => exact .inr (hnew rank frame heq.symm hframe)

theorem Releasing.publisher (h : Releasing s) (hgated : t.shared.Gated)
    (hacted : ∀ rank, s.shared.Acted rank → t.shared.Acted rank)
    (hworkers : ∀ rank frame, .extracting rank frame ∈ t.workers → .extracting rank frame ∈ s.workers)
    (hproduced : t.produced = s.produced) : Releasing t :=
  h.extends hgated hacted (fun rank frame hmem _ => .inl (hworkers rank frame hmem))
    (fun _ hmem => .inl (hproduced ▸ hmem))

theorem Releasing.published (h : Releasing s) {window : List (RankedParallelResult IndexOneOutcome)}
    {answer : PublishStep}
    (hcall : indexCallbacks.publish s.shared window choice = (shared, answer))
    (hshared : t.shared = shared) (hworkers : t.workers = s.workers)
    (hproduced : t.produced = s.produced) : Releasing t := by
  have hgate := h.gated.publishWindow window choice
  have hfirst : publishWindow s.shared window choice = (shared, answer) := hcall
  rw [hfirst] at hgate
  subst hshared
  exact h.publisher hgate.1 (fun rank => (hgate.2 rank).mpr) (fun _ _ => hworkers ▸ id) hproduced

theorem ActsBeforeLeaving.acted (h : ActsBeforeLeaving s (.extractStep index choice))
    (hworker : s.workers[index]? = some (.extracting rank frame))
    (hchoice : choice = .preflightFails ∨ ∃ what, choice = .throws what) : s.shared.Acted rank := by
  rcases hchoice with rfl | ⟨_, rfl⟩ <;> exact h rank frame hworker

theorem Releasing.moves (h : Releasing s) (hok : ActsBeforeLeaving s l)
    (hmove : Moves indexCallbacks plan count s l t) : Releasing t := by
  cases hmove with
  | exit | stop | emplace =>
    exact h.worker h.gated (fun _ => id) (by simp) (fun _ => .inl)
  | dispatch =>
    refine h.worker h.gated (fun _ => id) ?_ (fun _ => .inl)
    rintro rank frame heq hframe
    cases heq
    cases hframe
  | @extract index rank frame next shared choice hworker hadvance =>
    have hspec := advanceIndexOne_spec h.gated
      (h.settled rank frame (mem_of_getElem? hworker)) (hok.acted hworker) hadvance
    refine h.worker hspec.1 hspec.2.1 ?_ (fun _ => .inl)
    intro _ _ heq hframe
    cases heq
    cases hspec.2.2 with
    | inl hunsettled =>
      obtain ⟨_, heq, hfalse⟩ := hunsettled
      cases heq
      rw [hframe] at hfalse
      cases hfalse
    | inr hacted => exact hacted
  | @produce index rank frame shared choice ending result hworker hadvance hending =>
    have hspec := advanceIndexOne_spec h.gated
      (h.settled rank frame (mem_of_getElem? hworker)) (hok.acted hworker) hadvance
    have hacted : shared.Acted rank := by
      refine hspec.2.2.resolve_left ?_
      rintro ⟨_, rfl, -⟩
      rcases hending with hreturned | ⟨_, hthrew, -⟩
      · cases hreturned
      · cases hthrew
    refine h.worker hspec.1 hspec.2.1 (by simp) ?_
    intro _ hmem
    cases mem_cons.mp hmem with
    | inl heq => exact .inr (heq ▸ hacted)
    | inr hbefore => exact .inl hbefore
  | @abandon index rank hworker =>
    exact h.worker (h.gated.releaseUnclaimed rank)
      (fun _ hother => hother.imp_right (mem_cons_of_mem _)) (by simp) (fun _ => .inl)
  | drain =>
    exact h.publisher (h.gated.releaseUnclaimed _)
      (fun _ hother => hother.imp_right (mem_cons_of_mem _)) (fun _ _ => id) rfl
  | spawn =>
    exact h.publisher h.gated (fun _ => id) (by simp) rfl
  | published hpub hcall _ | publishedLast hpub hcall _ | publishThrows hpub hcall =>
    exact h.published hcall rfl rfl rfl
  | spawnFails | cancel | poll | pollThrows | leave | hand | take | joinUnwinding | join | finish =>
    exact h.publisher h.gated (fun _ => id) (fun _ _ => id) rfl

theorem releasing_of_reachableWithin
    (h : (runParallelIndex plan count).ReachableWithin ActsBeforeLeaving s) : Releasing s :=
  h.invariant releasing_init fun _ _ _ hinv hok hstep => hinv.moves hok (moves_of_step hstep)

theorem acted_of_lt_nextPublish (h : Releasing s) (haccounted : Accounted count s)
    (hlt : rank < s.nextPublish) : s.shared.Acted rank := by
  have hmem : rank ∈ (s.handed ++ s.window).map (·.rank) := by
    rw [haccounted.inOrder]
    exact mem_range.mpr hlt
  obtain ⟨entry, hentry, rfl⟩ := mem_map.mp hmem
  apply h.actedOn entry
  apply haccounted.own entry
  rw [append_assoc, mem_append, mem_append, Or.comm (a := entry ∈ s.window)]
  exact .inr (mem_append.mp hentry)

end Run

/-- In every run in which no extraction leaves by a failed preflight or an
exception before its rank has acted, a run that has not stopped and has ranks left
to publish can move, and every extraction that is over has claimed or has been
released. -/
theorem runParallelIndex_not_stuck (plan : ParallelPlan) (count : ℕ)
    (s : RunnerState IndexOneOutcome ClaimState IndexFrame)
    (h : (runParallelIndex plan count).ReachableWithin ActsBeforeLeaving s) :
    (s.stopping = false → (∃ rank < count, rank ∉ s.handed.map (·.rank)) →
      (runParallelIndex plan count).Enabled s) ∧ ∀ entry ∈ s.produced, s.shared.Acted entry.rank := by
  have hinv := releasing_of_reachableWithin h
  have haccounted : Accounted count s := accounted_of_reachable h.reachable
  have hphase : Phased count s := phased_of_reachable h.reachable
  refine ⟨fun hrun _ => ?_, hinv.actedOn⟩
  have : Nonempty IndexChoice := ⟨.proceeds⟩
  have hmove : (runParallelIndex plan count).Enabled s ∨ ∃ (index : ℕ) (frame : IndexFrame),
      s.workers[index]? = some (.extracting s.nextPublish frame) :=
    haccounted.enabled_or_extracting hphase hrun
  cases hmove with
  | inl henabled => exact henabled
  | inr hextracting =>
    obtain ⟨index, frame, hworker⟩ := hextracting
    obtain ⟨choice, hchoice⟩ := advanceIndexOne_enabled hinv.gated
      (fun _ hlt => acted_of_lt_nextPublish hinv haccounted hlt) frame
    refine ⟨.extractStep index choice, ?_⟩
    obtain ⟨⟨shared, ending⟩, hadvance⟩ := Option.isSome_iff_exists.mp hchoice
    have hcallback : indexCallbacks.advance s.shared s.nextPublish frame choice =
        some (shared, ending) := hadvance
    simp only [runParallelIndex, runParallelExtractionWindowed, step, hworker, hcallback]
    cases ending <;> rfl

/-- One worker over two targets. -/
def oneWorker : System (RunnerState IndexOneOutcome ClaimState IndexFrame) (RunnerLabel IndexChoice) :=
  runParallelIndex { workers := 1, maxQueueItems := 1, maxQueueBytes := 100 } 2

/-- The first target's build-declared PCH fails its preflight, so its rank is
published without having been released; the second target reaches `claim`. -/
def failedPreflight : List (RunnerLabel IndexChoice) :=
  [.spawn, .dispatch 0, .extractStep 0 .preflightFails, .extractStep 0 (.decides false 1),
    .emplace 0, .poll false, .collect, .collect, .publish (.publishes {}), .poll false,
    .dispatch 0, .extractStep 0 .proceeds, .extractStep 0 (.discovers "cfg" [])]

/-- After a failed preflight the next target waits at the gate and the publisher
waits for the next target, forever. -/
theorem stuck_after_failed_preflight :
    ∃ s, oneWorker.Reachable s ∧ s.stopping = false ∧ s.handed.map (·.rank) = [0] ∧
      ¬ oneWorker.Enabled s := by
  refine ⟨_, System.reachable_of_play .init failedPreflight rfl, rfl, by decide, ?_⟩
  rintro ⟨l, hl⟩
  cases l with
  | extractStep index choice =>
    cases index with
    | zero => cases choice <;> cases hl
    | succ => cases hl
  | dispatch index | emplace index | abandon index =>
    cases index with
    | zero => cases hl
    | succ => cases hl
  | spawn | spawnFails | poll | pollThrows | collect | publish | join | drain => cases hl

instance (shared : ClaimState) : DecidablePred shared.Acted := fun rank =>
  inferInstanceAs (Decidable (rank ∈ shared.claimed ∨ rank ∈ shared.releasedUnclaimed))

/-- The worker has no running extraction, or one whose rank has acted. -/
def workerActed (index : ℕ) : Bool :=
  match s.workers[index]? with
  | some (.extracting rank _) => decide (s.shared.Acted rank)
  | _ => true

theorem workerActed_iff {s : RunnerState IndexOneOutcome ClaimState IndexFrame} {index : ℕ} :
    workerActed s index = true ↔ ∀ rank frame,
      s.workers[index]? = some (.extracting rank frame) → s.shared.Acted rank := by
  unfold workerActed
  split
  · rename_i rank frame hworker
    simp [hworker]
  · rename_i hother
    simp only [true_iff]
    intro rank frame hworker
    exact absurd hworker (hother rank frame)

instance (s : RunnerState IndexOneOutcome ClaimState IndexFrame) : DecidablePred (ActsBeforeLeaving s)
  | .extractStep index .preflightFails | .extractStep index (.throws _) =>
    decidable_of_iff (workerActed s index = true) workerActed_iff
  | .extractStep _ .proceeds | .extractStep _ (.discovers _ _) | .extractStep _ .parseFails
  | .extractStep _ (.finalizes _) | .extractStep _ (.decides _ _) | .extractStep _ (.publishes _)
  | .spawn | .spawnFails | .dispatch _ | .emplace _ | .abandon _ | .poll _ | .pollThrows
  | .collect | .publish _ | .join | .drain => isTrue trivial

/-- The same two targets with a failed parse in place of the failed preflight: the
rank is released, so the second target's claim goes through. -/
theorem runParallelIndex_not_stuck_after_failed_parse :
    ∃ s, oneWorker.ReachableWithin ActsBeforeLeaving s ∧
      (s.stopping = false ∧ s.handed.map (·.rank) = [0] ∧ s.shared.releasedUnclaimed = [0]) ∧
      oneWorker.Enabled s := by
  have hplay : ∃ s, oneWorker.ReachableWithin ActsBeforeLeaving s ∧
      s.stopping = false ∧ s.handed.map (·.rank) = [0] ∧ s.shared.releasedUnclaimed = [0] :=
    ⟨_, System.reachableWithin_of_playWithin .init
      [.spawn, .dispatch 0, .extractStep 0 .proceeds, .extractStep 0 .parseFails,
        .extractStep 0 (.finalizes { parseFailed := true }), .extractStep 0 .proceeds,
        .extractStep 0 (.decides false 1), .emplace 0, .poll false, .collect, .collect,
        .publish (.publishes {}), .poll false, .dispatch 0, .extractStep 0 .proceeds,
        .extractStep 0 (.discovers "cfg" [])] rfl, rfl, by decide, by decide⟩
  obtain ⟨s, hrun, hend⟩ := hplay
  exact ⟨s, hrun, hend,
    (runParallelIndex_not_stuck _ _ s hrun).1 hend.1 ⟨1, by decide, by simp [hend.2.1]⟩⟩

end CppIndexer.Index
