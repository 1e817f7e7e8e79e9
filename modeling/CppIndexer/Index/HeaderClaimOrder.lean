/-
# Header ownership is a function of rank order

Every translation unit makes one call on the oracle, `claim` or
`release_unclaimed`, and the calls return in an arbitrary interleaving. The
answers are compared with a serial run of the ranks in increasing order over a
log of grants.

The invariant ties the three parts of the oracle to that serial run: the ranks
below the gate have all returned, a rank that returned ahead of the gate was a
release, and the grant map holds the last serial grant of every key. A claim
that is let through is therefore always the awaited rank, whatever ran before it.
-/

import CppIndexer.Lib.Transition
import CppIndexer.Index.HeaderClaims
import Mathlib.Data.Finset.Range
import Mathlib.Order.Interval.Finset.Nat

namespace CppIndexer.Index

open OrderedGate Transition SequencedHeaderClaimOracle List

/-- The one call a translation unit makes on the oracle. -/
inductive RankCall
  | claim (configurationIdentity : String) (candidates : List HeaderClaimCandidate)
  | releaseUnclaimed
  deriving DecidableEq

/-! ## The serial run -/

/-- Grants in the order they were made, the latest first. -/
abbrev GrantLog := List (ClaimKey × Grant)

def lastGrant (log : GrantLog) (key : ClaimKey) : Option Grant :=
  (log.find? fun entry => entry.1 = key).map Prod.snd

theorem lastGrant_cons (entry : ClaimKey × Grant) (log : GrantLog) (key : ClaimKey) :
    lastGrant (entry :: log) key = if entry.1 = key then some entry.2 else lastGrant log key := by
  unfold lastGrant
  rw [find?_cons]
  by_cases h : entry.1 = key <;> simp [h]

/-- Whether a rank owns a candidate, given the last earlier grant of its key. -/
abbrev OwnershipRule := ℕ → HeaderClaimCandidate → Option Grant → Bool

/-- Owned unless already indexed or last granted for the same digest. -/
def digestRule : OwnershipRule := fun _ candidate last =>
  !candidate.alreadyIndexedInDatabase &&
    last.all fun grant => grant.parsedMd5 ≠ candidate.parsedMd5

/-- The digest rule, except that a rank's own grants never count against it. -/
def ownDigestRule : OwnershipRule := fun rank candidate last =>
  !candidate.alreadyIndexedInDatabase &&
    last.all fun grant => grant.parsedMd5 ≠ candidate.parsedMd5 || grant.owner = rank

/-- Answer one rank's candidates against the log, logging each grant. -/
def serialFlags (rule : OwnershipRule) (rank : ℕ) (configurationIdentity : String) :
    GrantLog → List HeaderClaimCandidate → List Bool × GrantLog
  | log, [] => ([], log)
  | log, candidate :: rest =>
    let key : ClaimKey := (candidate.path, configurationIdentity)
    let owned := rule rank candidate (lastGrant log key)
    let log' := if owned then (key, ⟨candidate.parsedMd5, rank⟩) :: log else log
    let later := serialFlags rule rank configurationIdentity log' rest
    (owned :: later.1, later.2)

/-- The log after the ranks below `rank` ran one after the other. -/
def serialLog (rule : OwnershipRule) (calls : ℕ → RankCall) : ℕ → GrantLog
  | 0 => []
  | rank + 1 =>
    match calls rank with
    | .claim configurationIdentity candidates =>
      (serialFlags rule rank configurationIdentity
        (serialLog rule calls rank) candidates).2
    | .releaseUnclaimed => serialLog rule calls rank

/-- The flags a rank gets in the serial run. -/
def serialAnswer (rule : OwnershipRule) (calls : ℕ → RankCall) (rank : ℕ) : List Bool :=
  match calls rank with
  | .claim configurationIdentity candidates =>
    (serialFlags rule rank configurationIdentity (serialLog rule calls rank) candidates).1
  | .releaseUnclaimed => []

/-- The flags a rank gets when its own list is judged against the lower ranks'
grants only. -/
def serialAnswerBelow (calls : ℕ → RankCall) (rank : ℕ) : List Bool :=
  match calls rank with
  | .claim configurationIdentity candidates =>
    candidates.map fun candidate => digestRule rank candidate
      (lastGrant (serialLog digestRule calls rank) (candidate.path, configurationIdentity))
  | .releaseUnclaimed => []

/-! ## The concurrent run -/

/-- The oracle, the ranks whose call returned, and the flags each claim got. -/
structure ClaimRun where
  oracle : SequencedHeaderClaimOracle := {}
  acted : Finset ℕ := ∅
  answers : List (ℕ × List Bool) := []

/-- The call of `rank` returns. Each of the `count` ranks makes one call. -/
def ClaimRun.step (count : ℕ) (calls : ℕ → RankCall) (run : ClaimRun) (rank : ℕ) : Option ClaimRun :=
  if rank < count ∧ rank ∉ run.acted then
    match calls rank with
    | .claim configurationIdentity candidates =>
      (run.oracle.claim rank configurationIdentity candidates).map fun answer =>
        { oracle := answer.2
          acted := insert rank run.acted
          answers := (rank, answer.1) :: run.answers }
    | .releaseUnclaimed =>
      some { run with
        oracle := run.oracle.releaseUnclaimed rank
        acted := insert rank run.acted }
  else none

/-- All interleavings of the calls of `count` translation units. -/
def claimSystem (count : ℕ) (calls : ℕ → RankCall) : System ClaimRun ℕ where
  init := {}
  step := ClaimRun.step count calls

/-- A rank is told to extract a header under a configuration. -/
def ClaimRun.Owns (run : ClaimRun) (calls : ℕ → RankCall) (rank : ℕ) (key : ClaimKey) : Prop :=
  ∃ candidates flags, calls rank = .claim key.2 candidates ∧ (rank, flags) ∈ run.answers ∧
    ∃ answer ∈ candidates.zip flags, answer.1.path = key.1 ∧ answer.2 = true

/-- A claiming rank offers a header that the database does not have. -/
def Offers (calls : ℕ → RankCall) (rank : ℕ) (key : ClaimKey) : Prop :=
  ∃ candidates, calls rank = .claim key.2 candidates ∧
    ∃ candidate ∈ candidates, candidate.path = key.1 ∧
      candidate.alreadyIndexedInDatabase = false

/-! ## One rank against the log -/

variable {next run : ClaimRun} {log : GrantLog} {oracle : SequencedHeaderClaimOracle}
  {rank count : ℕ} {calls : ℕ → RankCall}

attribute [local simp] ownDigestRule claimCandidate

/-- One iteration of the loop answers by the log's last grant and leaves the
grant map equal to the extended log. -/
theorem claimCandidate_eq_rule (hmap : ∀ key, oracle.granted.find? key = lastGrant log key)
    (rank : ℕ) (configurationIdentity : String) (candidate : HeaderClaimCandidate) :
    let key : ClaimKey := (candidate.path, configurationIdentity)
    let owned := ownDigestRule rank candidate (lastGrant log key)
    (claimCandidate rank configurationIdentity oracle candidate).1 = owned ∧
      ∀ key', (claimCandidate rank configurationIdentity oracle candidate).2.granted.find? key' =
        lastGrant (if owned then (key, ⟨candidate.parsedMd5, rank⟩) :: log else log) key' := by
  intro key owned
  have hkey := hmap key
  by_cases hindexed : candidate.alreadyIndexedInDatabase = true
  · simp [owned, hindexed, hmap]
  · cases hlast : lastGrant log key with
    | none =>
      have howned : owned = true := by simp [owned, hindexed, hlast]
      rw [hlast] at hkey
      refine ⟨?_, fun key' => ?_⟩
      · simp [hindexed, key, hkey, howned]
      · simp only [claimCandidate, hindexed, key, hkey, howned, if_true, lastGrant_cons,
          AssocMap.find?_insertOrAssign, hmap, eq_comm, Bool.false_eq_true, if_false]
    | some grant =>
      rw [hlast] at hkey
      by_cases hdigest : grant.parsedMd5 = candidate.parsedMd5
      · by_cases howner : grant.owner = rank
        · -- A re-grant logs the entry that is already the last one.
          have howned : owned = true := by
            simp [owned, hindexed, hlast, howner]
          refine ⟨?_, fun key' => ?_⟩
          · simp [hindexed, key, hkey, hdigest, howner, howned]
          · have hsame : grant = ⟨candidate.parsedMd5, rank⟩ := by
              cases grant
              simp_all
            simp only [claimCandidate, hindexed, key, hkey, hdigest, howner, howned,
              if_true, lastGrant_cons, Bool.false_eq_true, if_false, hmap]
            split
            · rename_i heq
              rw [← heq, hlast, hsame]
            · rfl
        · have howned : owned = false := by
            simp [owned, hlast, howner, hdigest]
          refine ⟨?_, fun key' => ?_⟩
          · simp [hindexed, key, hkey, hdigest, howner, howned]
          · simp [hindexed, key, hkey, hdigest, howner, howned, hmap]
      · have howned : owned = true := by
          simp [owned, hindexed, hlast, hdigest]
        refine ⟨?_, fun key' => ?_⟩
        · simp [hindexed, key, hkey, hdigest, howned]
        · simp only [claimCandidate, hindexed, key, hkey, hdigest, howned, if_true,
            lastGrant_cons, AssocMap.find?_insertOrAssign, hmap, eq_comm,
            Bool.false_eq_true, if_false]

/-- The candidate loop computes the serial flags and the serial log. -/
theorem claimCandidates_eq_serialFlags (hmap : ∀ key, oracle.granted.find? key = lastGrant log key)
    (rank : ℕ) (configurationIdentity : String) (candidates : List HeaderClaimCandidate) :
    (claimCandidates rank configurationIdentity oracle candidates).1 =
        (serialFlags ownDigestRule rank configurationIdentity log candidates).1 ∧
      ∀ key, (claimCandidates rank configurationIdentity oracle candidates).2.granted.find? key =
        lastGrant (serialFlags ownDigestRule rank configurationIdentity log candidates).2 key := by
  induction candidates generalizing oracle log with
  | nil => exact ⟨rfl, hmap⟩
  | cons candidate _ ih =>
    obtain ⟨hflag, hnext⟩ := claimCandidate_eq_rule hmap rank configurationIdentity candidate
    obtain ⟨hflags, hlog⟩ := ih hnext
    refine ⟨?_, hlog⟩
    simp only [claimCandidates, serialFlags]
    rw [hflag, hflags]

/-! ## The invariant -/

theorem serialLog_eq_of_released (rule : OwnershipRule) (calls : ℕ → RankCall)
    {low high : ℕ} (hle : low ≤ high)
    (hreleased : ∀ rank, low ≤ rank → rank < high → calls rank = .releaseUnclaimed) :
    serialLog rule calls high = serialLog rule calls low := by
  induction high, hle using Nat.le_induction with
  | base => rfl
  | succ high hle ih =>
    rw [serialLog, hreleased high hle (Nat.lt_succ_self high)]
    exact ih fun rank hlow hhigh => hreleased rank hlow (Nat.lt_succ_of_lt hhigh)

/-- The serial prefix behind every reachable state. -/
structure ClaimRun.Inv (count : ℕ) (calls : ℕ → RankCall) (run : ClaimRun) : Prop where
  live : run.oracle.cancelled = false
  gate : run.oracle.gate.Represents (run.acted : Set ℕ)
  bounded : ∀ rank ∈ run.acted, rank < count
  early : ∀ rank ∈ run.acted, run.oracle.nextRank ≤ rank → calls rank = .releaseUnclaimed
  grants : ∀ key, run.oracle.granted.find? key =
    lastGrant (serialLog ownDigestRule calls run.oracle.nextRank) key
  answered : ∀ rank flags, (rank, flags) ∈ run.answers →
    rank ∈ run.acted ∧ flags = serialAnswer ownDigestRule calls rank
  complete : ∀ rank ∈ run.acted, calls rank ≠ .releaseUnclaimed →
    ∃ flags, (rank, flags) ∈ run.answers

theorem ClaimRun.inv_init (count : ℕ) (calls : ℕ → RankCall) :
    ClaimRun.Inv count calls {} where
  live := rfl
  gate := by simpa using Gate.represents_empty
  bounded := by simp
  early := by simp
  grants := fun _ => rfl
  answered := by simp
  complete := by simp

/-- What one returning call does. -/
theorem ClaimRun.step_cases (hstep : run.step count calls rank = some next) :
    (rank < count ∧ rank ∉ run.acted) ∧ ((∃ configurationIdentity candidates flags oracle,
          calls rank = .claim configurationIdentity candidates ∧
          run.oracle.claim rank configurationIdentity candidates = some (flags, oracle) ∧
          next = ⟨oracle, insert rank run.acted, (rank, flags) :: run.answers⟩) ∨
        (calls rank = .releaseUnclaimed ∧
          next = ⟨run.oracle.releaseUnclaimed rank, insert rank run.acted, run.answers⟩)) := by
  unfold ClaimRun.step at hstep
  split at hstep
  · rename_i hguard
    refine ⟨hguard, ?_⟩
    cases hcall : calls rank with
    | claim =>
      rw [hcall] at hstep
      simp only [Option.map_eq_some_iff] at hstep
      obtain ⟨⟨flags, oracle⟩, hclaim, hnext⟩ := hstep
      exact Or.inl ⟨_, _, flags, oracle, rfl, hclaim, hnext.symm⟩
    | releaseUnclaimed =>
      rw [hcall] at hstep
      exact Or.inr ⟨rfl, (Option.some.inj hstep).symm⟩
  · cases hstep

theorem ClaimRun.Inv.skipped (h : run.Inv count calls) {later : ℕ}
    (habove : run.oracle.nextRank ≤ later)
    (hbelow : later < (run.oracle.gate.release rank).next) (hne : later ≠ rank) :
    calls later = .releaseUnclaimed := by
  have hacted := (h.gate.release rank).below later hbelow
  rcases Set.mem_insert_iff.mp hacted with heq | hmem
  · exact absurd heq hne
  · exact h.early later hmem habove

theorem ClaimRun.Inv.step (h : run.Inv count calls) (hstep : run.step count calls rank = some next) :
    next.Inv count calls := by
  obtain ⟨⟨hcount, hnew⟩, hcase⟩ := ClaimRun.step_cases hstep
  have hnew' : rank ∉ (run.acted : Set ℕ) := hnew
  have hahead : run.oracle.nextRank ≤ rank := by
    by_contra hlt
    exact hnew (h.gate.below rank (Nat.lt_of_not_le hlt))
  have hbounded : ∀ r ∈ insert rank run.acted, r < count := by
    intro r hr
    rcases Finset.mem_insert.mp hr with rfl | hr
    · exact hcount
    · exact h.bounded r hr
  have hgate := h.gate.release rank
  rw [← Finset.coe_insert] at hgate
  have hpassed : run.oracle.nextRank ≤ (run.oracle.gate.release rank).next :=
    hgate.le_next fun r hr => Finset.mem_insert_of_mem (h.gate.below r hr)
  rcases hcase with ⟨configurationIdentity, candidates, _, oracle, hcall, hclaim, rfl⟩ |
    ⟨hcall, rfl⟩
  · obtain ⟨hopen, rfl, rfl⟩ := (claim_eq_some_iff h.live).mp hclaim
    have hrank : rank = run.oracle.nextRank := h.gate.eq_next hnew' hopen
    obtain ⟨hflags, hlog⟩ := claimCandidates_eq_serialFlags h.grants rank
      configurationIdentity candidates
    have hframe := claimCandidates_gate run.oracle rank configurationIdentity candidates
    have hpast : rank < (run.oracle.gate.release rank).next :=
      hgate.lt_next fun r hr => by
        rcases Nat.lt_or_eq_of_le hr with hlt | heq
        · exact Finset.mem_insert_of_mem (h.gate.below r (hlt.trans_eq hrank))
        · exact heq ▸ Finset.mem_insert_self _ _
    have hskip : serialLog ownDigestRule calls (run.oracle.gate.release rank).next =
        serialLog ownDigestRule calls (rank + 1) :=
      serialLog_eq_of_released _ _ hpast fun r hlow hhigh =>
        h.skipped (by omega) hhigh (by omega)
    refine ⟨?_, ?_, hbounded, ?_, ?_, ?_, ?_⟩
    · simpa using hframe.2.trans h.live
    · simpa [hframe.1] using hgate
    · intro r hr hle
      simp only [nextRank, release_gate, hframe.1] at hle
      rcases Finset.mem_insert.mp hr with rfl | hr
      · omega
      · exact h.early r hr (by omega)
    · intro key
      simp only [release_granted, nextRank, release_gate, hframe.1]
      rw [hlog key, hskip, serialLog, hcall, ← hrank]
    · intro r rflags hmem
      rcases mem_cons.mp hmem with heq | hmem
      · obtain ⟨rfl, rfl⟩ := Prod.mk.inj heq
        refine ⟨Finset.mem_insert_self _ _, ?_⟩
        rw [hflags, serialAnswer, hcall, ← hrank]
      · obtain ⟨hacted, hflag⟩ := h.answered r rflags hmem
        exact ⟨Finset.mem_insert_of_mem hacted, hflag⟩
    · intro r hr hclaims
      rcases Finset.mem_insert.mp hr with rfl | hr
      · exact ⟨_, mem_cons_self⟩
      · obtain ⟨rflags, hmem⟩ := h.complete r hr hclaims
        exact ⟨rflags, mem_cons_of_mem _ hmem⟩
  · rw [releaseUnclaimed_of_le h.live hahead]
    have hskip : serialLog ownDigestRule calls (run.oracle.gate.release rank).next =
        serialLog ownDigestRule calls run.oracle.nextRank :=
      serialLog_eq_of_released _ _ hpassed fun r hlow hhigh => by
        by_cases heq : r = rank
        · exact heq ▸ hcall
        · exact h.skipped hlow hhigh heq
    refine ⟨h.live, hgate, hbounded, ?_, ?_, ?_, ?_⟩
    · intro r hr hle
      rcases Finset.mem_insert.mp hr with rfl | hr
      · exact hcall
      · exact h.early r hr (hpassed.trans hle)
    · intro key
      simp only [release_granted, nextRank, release_gate]
      rw [hskip, h.grants key]
    · intro r rflags hmem
      obtain ⟨hacted, hflag⟩ := h.answered r rflags hmem
      exact ⟨Finset.mem_insert_of_mem hacted, hflag⟩
    · intro r hr hclaims
      rcases Finset.mem_insert.mp hr with rfl | hr
      · exact absurd hcall hclaims
      · exact h.complete r hr hclaims

theorem ClaimRun.inv_of_reachable (h : (claimSystem count calls).Reachable run) : run.Inv count calls :=
  System.Reachable.invariant (ClaimRun.inv_init count calls)
    (fun _ _ _ hinv hstep => hinv.step hstep) h

/-- While some rank has not returned, the awaited rank's call can return. -/
theorem ClaimRun.Inv.enabled (h : run.Inv count calls) (hcount : rank < count) (hnew : rank ∉ run.acted) :
    ∃ r next, run.step count calls r = some next := by
  have hawaited : run.oracle.nextRank ∉ run.acted := h.gate.awaited
  have hle : run.oracle.nextRank ≤ rank := by
    by_contra hlt
    exact hnew (h.gate.below rank (Nat.lt_of_not_le hlt))
  refine ⟨run.oracle.nextRank, ?_⟩
  unfold ClaimRun.step
  rw [if_pos ⟨by omega, hawaited⟩]
  cases calls run.oracle.nextRank with
  | claim =>
    simp [claim, admits, h.live]
  | releaseUnclaimed => exact ⟨_, rfl⟩

/-! ## Lists without repeated paths -/

/-- Every grant logged by the serial run belongs to a lower rank. -/
theorem owner_lt_of_mem_serialLog (rule : OwnershipRule) (calls : ℕ → RankCall) (rank : ℕ) :
    ∀ entry ∈ serialLog rule calls rank, entry.2.owner < rank := by
  have hflags : ∀ (r : ℕ) (configurationIdentity : String)
      (candidates : List HeaderClaimCandidate) (log : GrantLog),
      (∀ entry ∈ log, entry.2.owner ≤ r) →
      ∀ entry ∈ (serialFlags rule r configurationIdentity log candidates).2,
        entry.2.owner ≤ r := by
    intro _ _ candidates
    induction candidates with
    | nil => exact fun log hlog => hlog
    | cons _ _ ih =>
      intro _ hlog
      apply ih
      intro entry hentry
      split at hentry
      · rcases mem_cons.mp hentry with rfl | hmem
        · exact le_rfl
        · exact hlog entry hmem
      · exact hlog entry hentry
  induction rank with
  | zero => simp [serialLog]
  | succ _ ih =>
    intro entry hentry
    rw [serialLog] at hentry
    split at hentry
    · exact Nat.lt_succ_of_le (hflags _ _ _ _ (fun e he => Nat.le_of_lt (ih e he)) entry hentry)
    · exact Nat.lt_succ_of_lt (ih entry hentry)

theorem mem_of_lastGrant {key : ClaimKey} {grant : Grant}
    (h : lastGrant log key = some grant) : (key, grant) ∈ log := by
  unfold lastGrant at h
  simp only [Option.map_eq_some_iff] at h
  obtain ⟨_, hfind, rfl⟩ := h
  have hkey := find?_some hfind
  simp only [decide_eq_true_eq] at hkey
  exact hkey ▸ mem_of_find?_eq_some hfind

/-- A rank that lists no path twice never meets one of its own grants, so the
two rules give it the same flags and the same log. -/
theorem serialFlags_eq_digestRule (rank : ℕ) (configurationIdentity : String)
    (candidates : List HeaderClaimCandidate) (log : GrantLog)
    (hpaths : (candidates.map HeaderClaimCandidate.path).Nodup)
    (hforeign : ∀ candidate ∈ candidates, ∀ grant,
      lastGrant log (candidate.path, configurationIdentity) = some grant → grant.owner ≠ rank) :
    serialFlags ownDigestRule rank configurationIdentity log candidates =
      serialFlags digestRule rank configurationIdentity log candidates := by
  induction candidates generalizing log with
  | nil => rfl
  | cons candidate _ ih =>
    rw [map_cons, nodup_cons] at hpaths
    have hrule : ownDigestRule rank candidate
          (lastGrant log (candidate.path, configurationIdentity)) =
        digestRule rank candidate
          (lastGrant log (candidate.path, configurationIdentity)) := by
      cases hlast : lastGrant log (candidate.path, configurationIdentity) with
      | none => rfl
      | some grant =>
        have hne := hforeign candidate mem_cons_self grant hlast
        simp [digestRule, hne]
    simp only [serialFlags, hrule]
    rw [ih _ hpaths.2]
    intro later hlater grant hgrant
    have hpath : candidate.path ≠ later.path := fun heq =>
      hpaths.1 (heq ▸ mem_map_of_mem hlater)
    refine hforeign later (mem_cons_of_mem _ hlater) grant ?_
    split at hgrant
    · rwa [lastGrant_cons, if_neg (by simp [hpath])] at hgrant
    · exact hgrant

/-- No rank lists the same path twice. -/
def DistinctPaths (calls : ℕ → RankCall) : Prop :=
  ∀ rank configurationIdentity candidates,
    calls rank = .claim configurationIdentity candidates →
      (candidates.map HeaderClaimCandidate.path).Nodup

variable {configurationIdentity : String}

theorem serialFlags_eq_digestRule_of_distinctPaths
    (hdistinct : DistinctPaths calls)
    {candidates : List HeaderClaimCandidate}
    (hcall : calls rank = .claim configurationIdentity candidates) :
    serialFlags ownDigestRule rank configurationIdentity
        (serialLog ownDigestRule calls rank) candidates =
      serialFlags digestRule rank configurationIdentity
        (serialLog ownDigestRule calls rank) candidates := by
  apply serialFlags_eq_digestRule
  · exact hdistinct rank configurationIdentity candidates hcall
  · intro _ _ _ hlast _
    have hlt := owner_lt_of_mem_serialLog ownDigestRule calls rank _ (mem_of_lastGrant hlast)
    simp only at hlt
    omega

theorem serialLog_eq_digestRule (hdistinct : DistinctPaths calls)
    (rank : ℕ) : serialLog ownDigestRule calls rank = serialLog digestRule calls rank := by
  induction rank with
  | zero => rfl
  | succ rank ih =>
    rw [serialLog, serialLog]
    cases hcall : calls rank with
    | claim =>
      simp only
      rw [serialFlags_eq_digestRule_of_distinctPaths hdistinct hcall, ih]
    | releaseUnclaimed => exact ih

theorem serialAnswer_eq_digestRule (hdistinct : DistinctPaths calls)
    (rank : ℕ) : serialAnswer ownDigestRule calls rank = serialAnswer digestRule calls rank := by
  unfold serialAnswer
  cases hcall : calls rank with
  | claim =>
    simp only
    rw [serialFlags_eq_digestRule_of_distinctPaths hdistinct hcall, serialLog_eq_digestRule hdistinct]
  | releaseUnclaimed => rfl

/-! ## One digest per header -/

section SharedDigest

variable {digest : Option String} {key : ClaimKey}

/-- A claim under another configuration grants nothing for the key. -/
theorem lastGrant_serialFlags_of_ne (rank : ℕ)
    (hne : configurationIdentity ≠ key.2) (candidates : List HeaderClaimCandidate) (log : GrantLog) :
    lastGrant (serialFlags ownDigestRule rank configurationIdentity log candidates).2 key =
      lastGrant log key := by
  induction candidates generalizing log with
  | nil => rfl
  | cons _ _ ih =>
    simp only [serialFlags]
    rw [ih]
    split
    · rw [lastGrant_cons, if_neg]
      intro heq
      exact hne (congrArg Prod.snd heq)
    · rfl

/-- Once the shared digest is granted, the grant stays, and any other rank is
denied. -/
theorem serialFlags_of_granted (rank : ℕ) {owner : ℕ} (candidates : List HeaderClaimCandidate)
    (hshared : ∀ candidate ∈ candidates, candidate.path = key.1 →
      candidate.alreadyIndexedInDatabase = false → candidate.parsedMd5 = digest)
    (log : GrantLog) (hlast : lastGrant log key = some ⟨digest, owner⟩) :
    lastGrant (serialFlags ownDigestRule rank key.2 log candidates).2 key =
        some ⟨digest, owner⟩ ∧
      (owner ≠ rank → ∀ answer ∈ candidates.zip
        (serialFlags ownDigestRule rank key.2 log candidates).1,
          answer.1.path = key.1 → answer.2 = false) := by
  induction candidates generalizing log with
  | nil => exact ⟨hlast, by simp⟩
  | cons candidate rest ih =>
    have hrest : ∀ c ∈ rest, c.path = key.1 →
        c.alreadyIndexedInDatabase = false → c.parsedMd5 = digest :=
      fun c hc => hshared c (mem_cons_of_mem _ hc)
    simp only [serialFlags, zip_cons_cons, mem_cons, forall_eq_or_imp]
    by_cases hpath : candidate.path = key.1
    · have hkey : (candidate.path, key.2) = key := Prod.ext hpath rfl
      rw [hkey, hlast]
      by_cases howned : ownDigestRule rank candidate (some ⟨digest, owner⟩) = true
      · -- Only the owner itself is told so again, for the digest it holds.
        have hindexed : candidate.alreadyIndexedInDatabase = false := by
          simp only [ownDigestRule, Bool.and_eq_true, Bool.not_eq_true'] at howned
          exact howned.1
        have hdigest := hshared candidate mem_cons_self hpath hindexed
        have howner : owner = rank := by
          simpa [hindexed, hdigest] using howned
        have hlast' : lastGrant ((key, ⟨candidate.parsedMd5, rank⟩) :: log) key =
            some ⟨digest, owner⟩ := by
          rw [lastGrant_cons, if_pos rfl, hdigest, howner]
        simp only [howned, if_true]
        obtain ⟨hkeep, _⟩ := ih hrest _ hlast'
        exact ⟨hkeep, fun hne => absurd howner hne⟩
      · simp only [Bool.not_eq_true] at howned
        simp only [howned, Bool.false_eq_true, if_false]
        obtain ⟨hkeep, hdeny⟩ := ih hrest log hlast
        exact ⟨hkeep, fun hne => ⟨fun _ => trivial, hdeny hne⟩⟩
    · have hlast' : lastGrant (if ownDigestRule rank candidate
            (lastGrant log (candidate.path, key.2)) = true then
            ((candidate.path, key.2), ⟨candidate.parsedMd5, rank⟩) :: log else log) key =
          some ⟨digest, owner⟩ := by
        split
        · rw [lastGrant_cons, if_neg fun heq => hpath (congrArg Prod.fst heq)]
          exact hlast
        · exact hlast
      obtain ⟨hkeep, hdeny⟩ := ih hrest _ hlast'
      exact ⟨hkeep, fun hne => ⟨fun heq => absurd heq hpath, hdeny hne⟩⟩

/-- Before any grant of the key, the first rank that offers it is granted it. -/
theorem serialFlags_of_fresh (rank : ℕ) (candidates : List HeaderClaimCandidate)
    (hshared : ∀ candidate ∈ candidates, candidate.path = key.1 →
      candidate.alreadyIndexedInDatabase = false → candidate.parsedMd5 = digest)
    (log : GrantLog) (hlast : lastGrant log key = none) :
    let answers := serialFlags ownDigestRule rank key.2 log candidates
    ((∃ candidate ∈ candidates, candidate.path = key.1 ∧ candidate.alreadyIndexedInDatabase = false) ∧
      lastGrant answers.2 key = some ⟨digest, rank⟩ ∧
      ∃ answer ∈ candidates.zip answers.1, answer.1.path = key.1 ∧ answer.2 = true) ∨
    ((¬ ∃ candidate ∈ candidates, candidate.path = key.1 ∧ candidate.alreadyIndexedInDatabase = false) ∧
      lastGrant answers.2 key = none ∧
      ∀ answer ∈ candidates.zip answers.1, answer.1.path = key.1 → answer.2 = false) := by
  induction candidates generalizing log with
  | nil => exact Or.inr ⟨by simp, hlast, by simp⟩
  | cons candidate rest ih =>
    have hrest : ∀ c ∈ rest, c.path = key.1 →
        c.alreadyIndexedInDatabase = false → c.parsedMd5 = digest :=
      fun c hc => hshared c (mem_cons_of_mem _ hc)
    simp only [serialFlags, zip_cons_cons, mem_cons, exists_eq_or_imp, forall_eq_or_imp]
    by_cases hoffer : candidate.path = key.1 ∧ candidate.alreadyIndexedInDatabase = false
    · obtain ⟨hpath, hindexed⟩ := hoffer
      have hkey : (candidate.path, key.2) = key := Prod.ext hpath rfl
      have hdigest := hshared candidate mem_cons_self hpath hindexed
      have howned : ownDigestRule rank candidate none = true := by
        simp [hindexed]
      have hlast' : lastGrant ((key, ⟨candidate.parsedMd5, rank⟩) :: log) key =
          some ⟨digest, rank⟩ := by
        rw [lastGrant_cons, if_pos rfl, hdigest]
      rw [hkey, hlast]
      simp only [howned, if_true]
      have hkeep := (serialFlags_of_granted rank rest hrest _ hlast').1
      exact Or.inl ⟨Or.inl ⟨hpath, hindexed⟩, hkeep, Or.inl ⟨hpath, trivial⟩⟩
    · have hdenied : candidate.path = key.1 →
          ownDigestRule rank candidate (lastGrant log (candidate.path, key.2)) = false := by
        intro hpath
        have hindexed : candidate.alreadyIndexedInDatabase = true := by
          by_contra hnot
          exact hoffer ⟨hpath, by simpa using hnot⟩
        simp [hindexed]
      have hlast' : lastGrant (if ownDigestRule rank candidate
            (lastGrant log (candidate.path, key.2)) = true then
            ((candidate.path, key.2), ⟨candidate.parsedMd5, rank⟩) :: log else log) key =
          none := by
        split
        · rename_i howned
          rw [lastGrant_cons, if_neg]
          · exact hlast
          · intro heq
            have hpath : candidate.path = key.1 := congrArg Prod.fst heq
            rw [hdenied hpath] at howned
            cases howned
        · exact hlast
      rcases ih hrest _ hlast' with ⟨hsome, hgrant, hown⟩ | ⟨hnone, hgrant, hdeny⟩
      · exact Or.inl ⟨Or.inr hsome, hgrant, Or.inr hown⟩
      · refine Or.inr ⟨?_, hgrant, hdenied, hdeny⟩
        rintro (hhere | hlater)
        · exact hoffer hhere
        · exact hnone hlater

/-- All candidates for the key that the database does not have carry one digest. -/
def SharesDigest (count : ℕ) (calls : ℕ → RankCall) (key : ClaimKey) (digest : Option String) : Prop :=
  ∀ rank < count, ∀ candidates, calls rank = .claim key.2 candidates →
    ∀ candidate ∈ candidates, candidate.path = key.1 →
      candidate.alreadyIndexedInDatabase = false → candidate.parsedMd5 = digest

variable {count first : ℕ} {calls : ℕ → RankCall}

/-- The serial log knows the key from its first offering rank on, and no later
rank takes it over. -/
theorem lastGrant_serialLog
    (hshared : SharesDigest count calls key digest) (hoffer : Offers calls first key)
    (hleast : ∀ rank < first, ¬ Offers calls rank key) {rank : ℕ} (hrank : rank ≤ count) :
    lastGrant (serialLog ownDigestRule calls rank) key =
      if first < rank then some ⟨digest, first⟩ else none := by
  induction rank with
  | zero => simp [serialLog, lastGrant]
  | succ rank ih =>
    have ih := ih (Nat.le_of_succ_le hrank)
    rw [serialLog]
    cases hcall : calls rank with
    | releaseUnclaimed =>
      have hne : first ≠ rank := by
        rintro rfl
        obtain ⟨_, hclaim, -⟩ := hoffer
        rw [hcall] at hclaim
        cases hclaim
      simp only [ih]
      split <;> split <;> first | rfl | omega
    | claim configurationIdentity candidates =>
      simp only
      by_cases hconf : configurationIdentity = key.2
      · subst hconf
        have hhere := hshared rank hrank candidates hcall
        by_cases hlt : first < rank
        · rw [if_pos hlt] at ih
          rw [(serialFlags_of_granted rank candidates hhere _ ih).1, if_pos (Nat.lt_succ_of_lt hlt)]
        · rw [if_neg hlt] at ih
          rcases serialFlags_of_fresh rank candidates hhere _ ih with
            ⟨hsome, hgrant, -⟩ | ⟨hnone, hgrant, -⟩
          · have heq : rank = first := by
              refine Nat.le_antisymm (Nat.le_of_not_lt hlt) ?_
              by_contra hless
              exact hleast rank (Nat.lt_of_not_le hless) ⟨candidates, hcall, hsome⟩
            rw [hgrant, if_pos (by omega), heq]
          · have hne : first ≠ rank := by
              rintro rfl
              obtain ⟨_, hclaim, hsome⟩ := hoffer
              rw [hcall] at hclaim
              cases hclaim
              exact hnone hsome
            rw [hgrant, if_neg (by omega)]
      · have hne : first ≠ rank := by
          rintro rfl
          obtain ⟨_, hclaim, -⟩ := hoffer
          rw [hcall] at hclaim
          exact hconf (RankCall.claim.inj hclaim).1
        rw [lastGrant_serialFlags_of_ne rank hconf, ih]
        split <;> split <;> first | rfl | omega

/-- In a complete run the first offering rank is the one owner. -/
theorem ClaimRun.Inv.owns_iff {run : ClaimRun}
    (h : run.Inv count calls) (hall : ∀ rank < count, rank ∈ run.acted)
    (hshared : SharesDigest count calls key digest) (hfirst : first < count)
    (hoffer : Offers calls first key) (hleast : ∀ rank < first, ¬ Offers calls rank key)
    (rank : ℕ) : run.Owns calls rank key ↔ rank = first := by
  constructor
  · rintro ⟨candidates, flags, hcall, hmem, answer, hanswer, hpath, htrue⟩
    obtain ⟨hacted, rfl⟩ := h.answered rank flags hmem
    have hcount := h.bounded rank hacted
    rw [serialAnswer, hcall] at hanswer
    have hlog := lastGrant_serialLog hshared hoffer hleast (Nat.le_of_lt hcount)
    have hhere := hshared rank hcount candidates hcall
    by_contra hne
    by_cases hlt : first < rank
    · rw [if_pos hlt] at hlog
      have hdeny := (serialFlags_of_granted rank candidates hhere _ hlog).2
        (Ne.symm hne) answer hanswer hpath
      rw [htrue] at hdeny
      cases hdeny
    · rw [if_neg hlt] at hlog
      rcases serialFlags_of_fresh rank candidates hhere _ hlog with
        ⟨hsome, -, -⟩ | ⟨-, -, hdeny⟩
      · exact hleast rank (by omega) ⟨candidates, hcall, hsome⟩
      · have hfalse := hdeny answer hanswer hpath
        rw [htrue] at hfalse
        cases hfalse
  · rintro rfl
    obtain ⟨candidates, hcall, hsome⟩ := hoffer
    obtain ⟨flags, hmem⟩ := h.complete rank (hall rank hfirst) (by rw [hcall]; simp)
    obtain ⟨-, rfl⟩ := h.answered rank flags hmem
    have hlog := lastGrant_serialLog hshared ⟨candidates, hcall, hsome⟩ hleast
      (Nat.le_of_lt hfirst)
    rw [if_neg (Nat.lt_irrefl rank)] at hlog
    have hhere := hshared rank hfirst candidates hcall
    rcases serialFlags_of_fresh rank candidates hhere _ hlog with
      ⟨-, -, hown⟩ | ⟨hnone, -, -⟩
    · refine ⟨candidates, _, hcall, hmem, ?_⟩
      rw [serialAnswer, hcall]
      exact hown
    · exact absurd hsome hnone

end SharedDigest

/-! ## The answers of every interleaving -/

/-- Every flag vector is the serial one. A rank's own grants never count against
it, which only matters to a list that repeats a path; without such lists the
digest rule alone decides. When the candidates of a header share a digest, the
complete run has exactly one owner. No interleaving gets stuck before every rank
has returned. -/
theorem claim_answers_serial (count : ℕ) (calls : ℕ → RankCall) (run : ClaimRun)
    (h : (claimSystem count calls).Reachable run) : (∀ rank flags, (rank, flags) ∈ run.answers →
      flags = serialAnswer ownDigestRule calls rank) ∧
    (DistinctPaths calls → ∀ rank flags, (rank, flags) ∈ run.answers →
      flags = serialAnswer digestRule calls rank) ∧
    ((∀ rank < count, rank ∈ run.acted) → ∀ key digest, SharesDigest count calls key digest →
      (∃ rank < count, Offers calls rank key) → ∃! rank, run.Owns calls rank key) ∧
    (∀ rank < count, rank ∉ run.acted → (claimSystem count calls).Enabled run) := by
  classical
  have hinv := ClaimRun.inv_of_reachable h
  refine ⟨fun rank flags hmem => (hinv.answered rank flags hmem).2, ?_, ?_, ?_⟩
  · intro hdistinct rank flags hmem
    rw [(hinv.answered rank flags hmem).2, serialAnswer_eq_digestRule hdistinct]
  · intro hall key _ hshared hexists
    have hfirst := Nat.find_spec hexists
    have hleast : ∀ rank < Nat.find hexists, ¬ Offers calls rank key := fun rank hlt hoffer =>
      Nat.find_min hexists hlt ⟨hlt.trans hfirst.1, hoffer⟩
    have howns := hinv.owns_iff hall hshared hfirst.1 hfirst.2 hleast
    exact ⟨Nat.find hexists, (howns _).mpr rfl, fun rank hown => (howns rank).mp hown⟩
  · intro _ hcount hnew
    obtain ⟨r, _, hstep⟩ := hinv.enabled hcount hnew
    exact ⟨r, by simp [claimSystem, hstep]⟩

/-- Two translation units share a header; the second lists it three times, with
two digests. -/
def repeatedPathCalls : ℕ → RankCall
  | 0 => .claim "cfg" [⟨"h.hpp", some "d1", false⟩]
  | _ => .claim "cfg"
      [⟨"h.hpp", some "d2", false⟩, ⟨"h.hpp", some "d1", false⟩, ⟨"h.hpp", some "d1", false⟩]

/-- A repeated path is owned again although its last earlier grant carries the
same digest, whether or not the rank's own grants count as earlier. -/
theorem digestRule_fails_on_repeated_paths :
    ∃ run, (claimSystem 2 repeatedPathCalls).Reachable run ∧ (1, [true, true, true]) ∈ run.answers ∧
      serialAnswer digestRule repeatedPathCalls 1 = [true, true, false] ∧
      serialAnswerBelow repeatedPathCalls 1 = [true, false, false] := by
  refine ⟨_, System.reachable_of_play .init [0, 1] rfl, ?_, by decide, by decide⟩
  decide

/-- Three translation units, the middle one released before the others claim. -/
def sharedHeaderCalls : ℕ → RankCall
  | 1 => .releaseUnclaimed
  | _ => .claim "cfg" [⟨"h.hpp", some "d", false⟩]

theorem claim_answers_serial_sharedHeader : ∃ run, (claimSystem 3 sharedHeaderCalls).Reachable run ∧
      run.answers = [(2, [false]), (0, [true])] ∧
      ∃! rank, run.Owns sharedHeaderCalls rank ("h.hpp", "cfg") := by
  refine ⟨_, System.reachable_of_play .init [1, 0, 2] rfl, by decide, ?_⟩
  refine (claim_answers_serial 3 sharedHeaderCalls _
    (System.reachable_of_play .init [1, 0, 2] rfl)).2.2.1
    (by decide) ("h.hpp", "cfg") (some "d") ?_ ⟨0, by decide, _, rfl, _, mem_cons_self, rfl, rfl⟩
  intro _ _ _ hcall _ hmem _ _
  unfold sharedHeaderCalls at hcall
  split at hcall
  · cases hcall
  · obtain ⟨-, rfl⟩ := RankCall.claim.inj hcall
    rw [mem_singleton.mp hmem]

end CppIndexer.Index
