/-
# The sequenced header-claim oracle

Model of `index/header_claims.cpp`. Under parallel extraction the scheduler, not
the worker, decides which translation unit extracts a shared header. A worker
asks once, after its parse, and waits at an ordered gate until every translation
unit of lower rank has asked or has been released.

Each member function takes the mutex for its whole body, so it is one atomic
function here. `claim` waits on a condition variable first; it is partial, and
`none` says that the calling worker is still waiting. Every write to a variable
of the waiting predicate is followed by a `notify_all`, so a waiter whose
predicate became true does re-evaluate it. The two timing fields of the metrics
are wall-clock readings and are left out.
-/

import CppIndexer.Lib.AssocMap
import CppIndexer.Lib.OrderedGate

namespace CppIndexer.Index

open OrderedGate

/-- One header a translation unit could own, in the engine's discovery order. -/
structure HeaderClaimCandidate where
  path : String
  /-- Digest of the bytes the parse saw. -/
  parsedMd5 : Option String
  /-- The answer the committed database gave before the run. -/
  alreadyIndexedInDatabase : Bool
  deriving DecidableEq

/-- One granted header: the digest it was granted for and the owning rank. -/
structure Grant where
  parsedMd5 : Option String
  owner : ℕ
  deriving DecidableEq

/-- Header path and normalized configuration hash. -/
abbrev ClaimKey := String × String

/-- Counters published with the run report. -/
structure HeaderClaimMetrics where
  candidates : ℕ := 0
  granted : ℕ := 0
  deniedAlreadyIndexed : ℕ := 0
  deniedInFlightOwner : ℕ := 0
  regrantedOnRetry : ℕ := 0
  revokedAfterPublishFailure : ℕ := 0
  deriving DecidableEq

/-- The state behind `SequencedHeaderClaimOracle::Impl`. The gate holds
`released_` and `next_rank_`. -/
structure SequencedHeaderClaimOracle where
  granted : AssocMap ClaimKey Grant := .empty
  gate : Gate := {}
  cancelled : Bool := false
  metrics : HeaderClaimMetrics := {}
  deriving DecidableEq

namespace SequencedHeaderClaimOracle

variable (oracle : SequencedHeaderClaimOracle)

/-- The least rank the gate still waits for. -/
abbrev nextRank : ℕ := oracle.gate.next

variable (rank : ℕ)

/-- Advance the gate past `rank` and every higher rank already released. -/
def release : SequencedHeaderClaimOracle :=
  { oracle with gate := oracle.gate.release rank }

variable (configurationIdentity : String)

/-- One iteration of the candidate loop of `claim`. -/
def claimCandidate (oracle : SequencedHeaderClaimOracle) (candidate : HeaderClaimCandidate) :
    Bool × SequencedHeaderClaimOracle :=
  let metrics := { oracle.metrics with candidates := oracle.metrics.candidates + 1 }
  if candidate.alreadyIndexedInDatabase then
    (false, { oracle with
      metrics := { metrics with deniedAlreadyIndexed := metrics.deniedAlreadyIndexed + 1 } })
  else
    let key : ClaimKey := (candidate.path, configurationIdentity)
    let grantIt : Bool × SequencedHeaderClaimOracle :=
      (true, { oracle with
        granted := oracle.granted.insertOrAssign key ⟨candidate.parsedMd5, rank⟩
        metrics := { metrics with granted := metrics.granted + 1 } })
    match oracle.granted.find? key with
    | none => grantIt
    | some existing =>
      if existing.parsedMd5 = candidate.parsedMd5 then
        if existing.owner = rank then
          -- The same translation unit asking again after a retry.
          (true, { oracle with
            metrics := { metrics with regrantedOnRetry := metrics.regrantedOnRetry + 1 } })
        else
          (false, { oracle with
            metrics :=
              { metrics with deniedInFlightOwner := metrics.deniedInFlightOwner + 1 } })
      else grantIt

/-- The candidate loop of `claim`: one flag per candidate, in order. -/
def claimCandidates (rank : ℕ) (configurationIdentity : String) :
    SequencedHeaderClaimOracle → List HeaderClaimCandidate → List Bool × SequencedHeaderClaimOracle
  | oracle, [] => ([], oracle)
  | oracle, candidate :: rest =>
    let answer := claimCandidate rank configurationIdentity oracle candidate
    let later := claimCandidates rank configurationIdentity answer.2 rest
    (answer.1 :: later.1, later.2)

/-- The waiting predicate of `claim`. A rank the gate already passed never
waits, so a second claim of the same rank goes through at once. -/
def admits : Bool :=
  oracle.cancelled || decide (rank ≤ oracle.nextRank)

/-- `claim`: wait for the gate, answer every candidate, release the rank. After a
cancellation every answer is non-owning and nothing is recorded. -/
def claim (candidates : List HeaderClaimCandidate) : Option (List Bool × SequencedHeaderClaimOracle) :=
  if oracle.admits rank then
    if oracle.cancelled then
      some (candidates.map fun _ => false, oracle)
    else
      let answer := claimCandidates rank configurationIdentity oracle candidates
      some (answer.1, answer.2.release rank)
  else none

/-- Release a rank that will never claim. -/
def releaseUnclaimed : SequencedHeaderClaimOracle :=
  if oracle.cancelled || decide (rank < oracle.nextRank) then oracle else oracle.release rank

/-- Drop every grant held by `rank`. -/
def revokeGrants : SequencedHeaderClaimOracle :=
  { oracle with
    granted := oracle.granted.eraseWhere fun _ grant => grant.owner = rank
    metrics := { oracle.metrics with
      revokedAfterPublishFailure := oracle.metrics.revokedAfterPublishFailure +
        (oracle.granted.entries.filter fun entry => entry.2.owner = rank).length } }

/-- Unblock every waiter and make all later claims non-owning. -/
def cancel : SequencedHeaderClaimOracle :=
  { oracle with cancelled := true }

/-! ## What one operation changes -/

section Frame

variable (oracle : SequencedHeaderClaimOracle) (rank : ℕ) (configurationIdentity : String)

@[simp]
theorem release_granted : (oracle.release rank).granted = oracle.granted := rfl

@[simp]
theorem release_gate : (oracle.release rank).gate = oracle.gate.release rank := rfl

@[simp]
theorem release_cancelled : (oracle.release rank).cancelled = oracle.cancelled := rfl

@[simp]
theorem revokeGrants_gate : (oracle.revokeGrants rank).gate = oracle.gate := rfl

@[simp]
theorem revokeGrants_cancelled : (oracle.revokeGrants rank).cancelled = oracle.cancelled := rfl

@[simp]
theorem find?_revokeGrants (key : ClaimKey) : (oracle.revokeGrants rank).granted.find? key =
      (oracle.granted.find? key).filter fun grant => grant.owner ≠ rank := by
  simp [revokeGrants]

@[simp]
theorem claimCandidate_gate (candidate : HeaderClaimCandidate) :
    (claimCandidate rank configurationIdentity oracle candidate).2.gate = oracle.gate := by
  unfold claimCandidate
  grind

@[simp]
theorem claimCandidate_cancelled (candidate : HeaderClaimCandidate) :
    (claimCandidate rank configurationIdentity oracle candidate).2.cancelled = oracle.cancelled := by
  unfold claimCandidate
  grind

theorem claimCandidates_gate (candidates : List HeaderClaimCandidate) :
    (claimCandidates rank configurationIdentity oracle candidates).2.gate = oracle.gate ∧
      (claimCandidates rank configurationIdentity oracle candidates).2.cancelled = oracle.cancelled := by
  induction candidates generalizing oracle with
  | nil => exact ⟨rfl, rfl⟩
  | cons _ _ ih =>
    simp only [claimCandidates]
    rw [(ih _).1, (ih _).2, claimCandidate_gate, claimCandidate_cancelled]
    exact ⟨rfl, rfl⟩

end Frame

/-- What one iteration of the candidate loop can do: grant the key to the rank,
confirm a grant the rank already holds, or deny it. -/
theorem claimCandidate_cases
    (candidate : HeaderClaimCandidate) :
    let answer := claimCandidate rank configurationIdentity oracle candidate
    let key : ClaimKey := (candidate.path, configurationIdentity)
    (answer.1 = true ∧ candidate.alreadyIndexedInDatabase = false ∧
        answer.2.granted = oracle.granted.insertOrAssign key ⟨candidate.parsedMd5, rank⟩) ∨
    (answer.1 = true ∧ candidate.alreadyIndexedInDatabase = false ∧ answer.2.granted = oracle.granted ∧
        ∃ grant, oracle.granted.find? key = some grant ∧ grant.owner = rank) ∨
    (answer.1 = false ∧ answer.2.granted = oracle.granted ∧ (candidate.alreadyIndexedInDatabase = true ∨
          ∃ grant, oracle.granted.find? key = some grant ∧
            grant.parsedMd5 = candidate.parsedMd5 ∧ grant.owner ≠ rank)) := by
  unfold claimCandidate
  grind

section Loop

variable (rank : ℕ) (configurationIdentity : String)

theorem find?_claimCandidates (candidates : List HeaderClaimCandidate)
    (oracle : SequencedHeaderClaimOracle) (key : ClaimKey) :
    let answer := claimCandidates rank configurationIdentity oracle candidates
    answer.2.granted.find? key = oracle.granted.find? key ∨
      ∃ grant, answer.2.granted.find? key = some grant ∧ grant.owner = rank ∧
        configurationIdentity = key.2 ∧
        ∃ reply ∈ candidates.zip answer.1, reply.1.path = key.1 ∧ reply.2 = true := by
  induction candidates generalizing oracle with
  | nil => exact Or.inl rfl
  | cons candidate rest ih =>
    simp only [claimCandidates, List.zip_cons_cons, List.mem_cons, exists_eq_or_imp]
    rcases ih (claimCandidate rank configurationIdentity oracle candidate).2 with
      hsame | ⟨grant, hfind, howner, hconf, hreply⟩
    · rw [hsame]
      rcases claimCandidate_cases oracle rank configurationIdentity candidate with
        ⟨hflag, -, hmap⟩ | ⟨-, -, hmap, -⟩ | ⟨-, hmap, -⟩
      · rw [hmap, AssocMap.find?_insertOrAssign]
        split
        · rename_i heq
          exact Or.inr ⟨_, rfl, rfl, by rw [heq], Or.inl ⟨by rw [heq], hflag⟩⟩
        · exact Or.inl rfl
      · exact Or.inl (by rw [hmap])
      · exact Or.inl (by rw [hmap])
    · exact Or.inr ⟨grant, hfind, howner, hconf, Or.inr hreply⟩

theorem grant_of_denied (candidates : List HeaderClaimCandidate)
    (oracle : SequencedHeaderClaimOracle) : ∀ reply ∈ candidates.zip
        (claimCandidates rank configurationIdentity oracle candidates).1,
      reply.1.alreadyIndexedInDatabase = false → reply.2 = false →
        ∃ grant, oracle.granted.find? (reply.1.path, configurationIdentity) = some grant ∧
          grant.parsedMd5 = reply.1.parsedMd5 ∧ grant.owner ≠ rank := by
  induction candidates generalizing oracle with
  | nil => simp
  | cons candidate _ ih =>
    simp only [claimCandidates, List.zip_cons_cons, List.mem_cons, forall_eq_or_imp]
    refine ⟨fun hindexed hflag => ?_, fun reply hreply hindexed hflag => ?_⟩
    · rcases claimCandidate_cases oracle rank configurationIdentity candidate with
        ⟨htrue, -⟩ | ⟨htrue, -⟩ | ⟨-, -, hold | hgrant⟩
      · rw [hflag] at htrue
        cases htrue
      · rw [hflag] at htrue
        cases htrue
      · rw [hindexed] at hold
        cases hold
      · exact hgrant
    · obtain ⟨grant, hfind, hdigest, howner⟩ := ih _ reply hreply hindexed hflag
      have hhead := find?_claimCandidates rank configurationIdentity [candidate] oracle
        (reply.1.path, configurationIdentity)
      simp only [claimCandidates] at hhead
      rw [hfind] at hhead
      rcases hhead with hsame | ⟨_, hother, hrank, -⟩
      · exact ⟨grant, hsame.symm, hdigest, howner⟩
      · exact absurd (Option.some.inj hother ▸ hrank) howner

theorem owned_of_reoffered (candidates : List HeaderClaimCandidate)
    (oracle : SequencedHeaderClaimOracle) {path : String}
    (hheld : ∃ grant, oracle.granted.find? (path, configurationIdentity) = some grant ∧
      grant.owner = rank)
    (hoffer : ∃ candidate ∈ candidates, candidate.path = path ∧
      candidate.alreadyIndexedInDatabase = false) :
    ∃ reply ∈ candidates.zip (claimCandidates rank configurationIdentity oracle candidates).1,
      reply.1.path = path ∧ reply.2 = true := by
  induction candidates generalizing oracle with
  | nil => simp at hoffer
  | cons candidate _ ih =>
    simp only [claimCandidates, List.zip_cons_cons, List.mem_cons, exists_eq_or_imp] at hoffer ⊢
    rcases hoffer with ⟨hpath, hindexed⟩ | hlater
    · obtain ⟨_, hfind, howner⟩ := hheld
      rcases claimCandidate_cases oracle rank configurationIdentity candidate with
        ⟨hflag, -⟩ | ⟨hflag, -⟩ | ⟨-, -, hold | ⟨other, hother, -, hne⟩⟩
      · exact Or.inl ⟨hpath, hflag⟩
      · exact Or.inl ⟨hpath, hflag⟩
      · rw [hindexed] at hold
        cases hold
      · rw [hpath, hfind] at hother
        exact absurd (Option.some.inj hother ▸ howner) hne
    · refine Or.inr (ih _ ?_ hlater)
      have hhead := find?_claimCandidates rank configurationIdentity [candidate] oracle
        (path, configurationIdentity)
      simp only [claimCandidates] at hhead
      rcases hhead with hsame | ⟨grant, hfind, howner, -⟩
      · rw [hsame]
        exact hheld
      · exact ⟨grant, hfind, howner⟩

end Loop

/-- A claim of an uncancelled oracle returns exactly when the gate has reached
the rank; it answers with the candidate loop and releases the rank. -/
theorem claim_eq_some_iff {oracle next : SequencedHeaderClaimOracle} {rank : ℕ}
    {configurationIdentity : String} {candidates : List HeaderClaimCandidate}
    {flags : List Bool} (hlive : oracle.cancelled = false) :
    oracle.claim rank configurationIdentity candidates = some (flags, next) ↔
      rank ≤ oracle.nextRank ∧
      flags = (claimCandidates rank configurationIdentity oracle candidates).1 ∧
      next = (claimCandidates rank configurationIdentity oracle candidates).2.release rank := by
  unfold claim admits
  simp only [hlive, Bool.false_or, decide_eq_true_eq, Bool.false_eq_true, if_false]
  split
  · rename_i hle
    simp [hle, eq_comm]
  · rename_i hgt
    simp [hgt]

theorem releaseUnclaimed_of_le {oracle : SequencedHeaderClaimOracle} {rank : ℕ}
    (hlive : oracle.cancelled = false) (hahead : oracle.nextRank ≤ rank) :
    oracle.releaseUnclaimed rank = oracle.release rank := by
  unfold releaseUnclaimed
  simp [hlive, Nat.not_lt.mpr hahead]

end SequencedHeaderClaimOracle

end CppIndexer.Index
