/-
# Header ownership across failed publications

Ownership of a shared header is granted while a translation unit is extracted and
becomes durable only when that translation unit is published, later and in rank
order. In between other translation units are told that the header is taken.

The model interleaves the calls that touch the grants: claims, with the bounded
re-claims of a translation unit whose source changed under the parse, releases,
and the outcomes of the publish callback of `run_parallel_index` in rank order. A
publication the writer refuses is followed by `revoke_grants`; a translation unit
that never reaches the writer, because its extraction failed or its source kept
changing, is settled without one.

A header is lost when a published translation unit was denied it and no published
translation unit owns it. Revocation cannot undo a denial that was already
answered, so the runs that lose nothing are those whose denials and failures keep
`Sound`: a denial rests on a grant whose owner still means to publish the header,
and no step takes such an owner away from a header that was denied.
-/

import CppIndexer.Lib.Transition
import CppIndexer.Index.HeaderClaims

namespace CppIndexer.Index

open Transition SequencedHeaderClaimOracle List Option

/-- Re-extractions allowed for a translation unit whose source changed. -/
def kDefaultSourceChangeRetries : ℕ := 2

structure ClaimRecord where
  rank : ℕ
  configurationIdentity : String
  candidates : List HeaderClaimCandidate
  flags : List Bool
  deriving DecidableEq

namespace ClaimRecord

/-- The claim was answered true for the header. -/
def Owns (record : ClaimRecord) (key : ClaimKey) : Prop :=
  record.configurationIdentity = key.2 ∧
    ∃ answer ∈ record.candidates.zip record.flags, answer.1.path = key.1 ∧ answer.2 = true

/-- The claim offered a header the database does not have and was answered false. -/
def Denies (record : ClaimRecord) (key : ClaimKey) : Prop :=
  record.configurationIdentity = key.2 ∧
    ∃ answer ∈ record.candidates.zip record.flags, answer.1.path = key.1 ∧
      answer.1.alreadyIndexedInDatabase = false ∧ answer.2 = false

end ClaimRecord

/-- The oracle, the claims returned so far with the latest first, the next rank
the publisher settles and the ranks it published. -/
structure PublicationRun where
  oracle : SequencedHeaderClaimOracle := {}
  claims : List ClaimRecord := []
  nextPublish : ℕ := 0
  published : List ℕ := []
  deriving DecidableEq

/-- The calls that touch the grants. The publisher always settles the next rank. -/
inductive PublicationEvent
  | claim (rank : ℕ) (configurationIdentity : String) (candidates : List HeaderClaimCandidate)
  | releaseUnclaimed (rank : ℕ)
  | published
  | publicationFailed
  | unpublishable

namespace PublicationRun

variable (run : PublicationRun) (rank : ℕ)

/-- The claim whose answer the rank's latest extraction used. -/
def lastClaim : Option ClaimRecord :=
  run.claims.find? fun record => record.rank = rank

variable (key : ClaimKey)

/-- The rank's latest extraction extracts the header. -/
def Owned : Prop :=
  ∃ record, run.lastClaim rank = some record ∧ record.Owns key

/-- Some claim of the rank was denied the header. -/
def Denied : Prop :=
  ∃ record ∈ run.claims, record.rank = rank ∧ record.Denies key

/-- Settle the next rank. -/
def settle : PublicationRun :=
  { run with nextPublish := run.nextPublish + 1 }

/-- One call. A rank claims only while it is being extracted, at most once per
attempt; the publisher hands a translation unit to the writer only once its
extraction has claimed or has been released. -/
def step (count : ℕ) (run : PublicationRun) : PublicationEvent → Option PublicationRun
  | .claim rank configurationIdentity candidates =>
    if run.nextPublish ≤ rank ∧ rank < count ∧
        (run.claims.filter fun record => record.rank = rank).length ≤
          kDefaultSourceChangeRetries then
      (run.oracle.claim rank configurationIdentity candidates).map fun answer =>
        { run with
          oracle := answer.2
          claims := ⟨rank, configurationIdentity, candidates, answer.1⟩ :: run.claims }
    else none
  | .releaseUnclaimed rank =>
    if run.nextPublish ≤ rank ∧ rank < count then
      some { run with oracle := run.oracle.releaseUnclaimed rank }
    else none
  | .published =>
    if run.nextPublish < count ∧ run.nextPublish < run.oracle.nextRank then
      some { run.settle with published := run.nextPublish :: run.published }
    else none
  | .publicationFailed =>
    if run.nextPublish < count ∧ run.nextPublish < run.oracle.nextRank then
      some { run.settle with oracle := run.oracle.revokeGrants run.nextPublish }
    else none
  | .unpublishable =>
    if run.nextPublish < count then some run.settle else none

/-- Every denial of a published translation unit is made good by a published
owner. -/
def NoHeaderLost : Prop :=
  ∀ rank key, rank ∈ run.published → run.Denied rank key →
    ∃ owner ∈ run.published, run.Owned owner key

/-- The header was denied to someone and no published rank owns it yet. -/
def Outstanding : Prop :=
  (∃ rank, run.Denied rank key) ∧ ¬ ∃ owner ∈ run.published, run.Owned owner key

/-- The rank has not been settled without publication and its latest extraction
extracts the header. -/
def Live : Prop :=
  run.Owned rank key ∧ (rank ∈ run.published ∨ run.nextPublish ≤ rank)

/-- The candidates offer the header again. -/
def Reoffers (configurationIdentity : String) (candidates : List HeaderClaimCandidate)
    (key : ClaimKey) : Prop :=
  configurationIdentity = key.2 ∧ ∃ candidate ∈ candidates, candidate.path = key.1 ∧
    candidate.alreadyIndexedInDatabase = false

/-- Each denial rests on a live grant, and no recorded owner of an outstanding
header is settled without publication or stops offering it. -/
def Sound : PublicationEvent → Prop
  | .claim rank configurationIdentity candidates =>
    (∀ candidate ∈ candidates, candidate.alreadyIndexedInDatabase = false →
      ∀ grant, run.oracle.granted.find? (candidate.path, configurationIdentity) = some grant →
        grant.parsedMd5 = candidate.parsedMd5 → grant.owner ≠ rank →
          run.Live grant.owner (candidate.path, configurationIdentity)) ∧
    ∀ key grant, run.oracle.granted.find? key = some grant → grant.owner = rank →
      run.Outstanding key → Reoffers configurationIdentity candidates key
  | .publicationFailed | .unpublishable =>
    ∀ key grant, run.oracle.granted.find? key = some grant →
      grant.owner = run.nextPublish → ¬ run.Outstanding key
  | .releaseUnclaimed _ | .published => True

end PublicationRun

/-- All interleavings over `count` translation units. -/
def publicationSystem (count : ℕ) : System PublicationRun PublicationEvent where
  init := {}
  step := PublicationRun.step count

namespace PublicationRun

/-! ## The invariant -/

/-- Every denied header has a published owner or a recorded owner that has yet to
be settled and extracts it. -/
structure Inv (count : ℕ) (run : PublicationRun) : Prop where
  live : run.oracle.cancelled = false
  owners : ∀ key grant, run.oracle.granted.find? key = some grant → grant.owner < count
  settled : ∀ rank ∈ run.published, rank < run.nextPublish
  covered : ∀ key, (∃ rank, run.Denied rank key) →
    (∃ owner ∈ run.published, run.Owned owner key) ∨
      ∃ grant, run.oracle.granted.find? key = some grant ∧ run.Owned grant.owner key ∧
        run.nextPublish ≤ grant.owner

theorem inv_init (count : ℕ) : Inv count {} where
  live := rfl
  owners := by simp
  settled := by simp
  covered := by
    rintro _ ⟨_, _, hmem, -⟩
    cases hmem

section Claim

variable {run : PublicationRun} {record : ClaimRecord}
  {key : ClaimKey} {oracle : SequencedHeaderClaimOracle} {rank : ℕ}

theorem owned_cons_of_ne (hne : rank ≠ record.rank) :
    ({ run with oracle := oracle, claims := record :: run.claims } : PublicationRun).Owned
        rank key ↔ run.Owned rank key := by
  unfold Owned lastClaim
  simp [Ne.symm hne]

theorem owned_cons_self :
    ({ run with oracle := oracle, claims := record :: run.claims } : PublicationRun).Owned
        record.rank key ↔ record.Owns key := by
  unfold Owned lastClaim
  simp

theorem denied_cons (h : ({ run with oracle := oracle, claims := record :: run.claims } :
      PublicationRun).Denied rank key) : run.Denied rank key ∨ record.Denies key := by
  obtain ⟨other, hmem, hrank, hdenies⟩ := h
  rcases mem_cons.mp hmem with rfl | hmem
  · exact Or.inr hdenies
  · exact Or.inl ⟨other, hmem, hrank, hdenies⟩

end Claim

variable {run : PublicationRun} {count : ℕ}

theorem Inv.claim (h : run.Inv count) {rank : ℕ}
    {configurationIdentity : String} {candidates : List HeaderClaimCandidate}
    (hsound : run.Sound (.claim rank configurationIdentity candidates))
    (hcurrent : run.nextPublish ≤ rank) (hcount : rank < count) :
    let answer := claimCandidates rank configurationIdentity run.oracle candidates
    Inv count { run with
      oracle := answer.2.release rank
      claims := ⟨rank, configurationIdentity, candidates, answer.1⟩ :: run.claims } := by
  intro answer
  have hframe := claimCandidates_gate run.oracle rank configurationIdentity candidates
  have hunpublished : ∀ owner ∈ run.published, owner ≠ rank := by
    intro owner howner _
    have hlt := h.settled owner howner
    omega
  have hkeep : ∀ key, (∃ owner ∈ run.published, run.Owned owner key) →
      ∃ owner ∈ run.published, Owned { run with
        oracle := answer.2.release rank
        claims := ⟨rank, configurationIdentity, candidates, answer.1⟩ :: run.claims }
          owner key := by
    rintro _ ⟨owner, hmem, howned⟩
    exact ⟨owner, hmem, (owned_cons_of_ne (hunpublished owner hmem)).mpr howned⟩
  -- A live grant of another rank survives unless this rank takes the key over.
  have hlater : ∀ key grant, run.oracle.granted.find? key = some grant → grant.owner ≠ rank →
      run.Owned grant.owner key → run.nextPublish ≤ grant.owner →
      ∃ grant', (answer.2.release rank).granted.find? key = some grant' ∧
        Owned { run with
          oracle := answer.2.release rank
          claims := ⟨rank, configurationIdentity, candidates, answer.1⟩ :: run.claims }
            grant'.owner key ∧ run.nextPublish ≤ grant'.owner := by
    intro key grant hfind hne howned hle
    rcases find?_claimCandidates rank configurationIdentity candidates run.oracle key with
      hsame | ⟨grant', hfind', howner, hconf, hreply⟩
    · exact ⟨grant, by rw [release_granted, hsame, hfind], (owned_cons_of_ne hne).mpr howned, hle⟩
    · refine ⟨grant', by rw [release_granted, hfind'], ?_, howner ▸ hcurrent⟩
      rw [howner]
      exact owned_cons_self.mpr ⟨hconf, hreply⟩
  refine ⟨hframe.2.trans h.live, ?_, h.settled, ?_⟩
  · intro key grant hfind
    simp only [release_granted] at hfind
    rcases find?_claimCandidates rank configurationIdentity candidates run.oracle key with
      hsame | ⟨grant', hfind', howner, -⟩
    · exact h.owners key grant (hsame ▸ hfind)
    · rw [hfind'] at hfind
      exact some.inj hfind ▸ howner ▸ hcount
  · rintro key ⟨denied, hdenied⟩
    by_cases hpublished : ∃ owner ∈ run.published, run.Owned owner key
    · exact Or.inl (hkeep key hpublished)
    rcases denied_cons hdenied with hbefore | ⟨hconf, reply, hmem, hpath, hindexed, hfalse⟩
    · rcases h.covered key ⟨denied, hbefore⟩ with hpub | ⟨grant, hfind, howned, hle⟩
      · exact absurd hpub hpublished
      by_cases hne : grant.owner = rank
      · -- A re-claim of the recorded owner offers the outstanding header again.
        have hreoffer := hsound.2 key grant hfind hne ⟨⟨denied, hbefore⟩, hpublished⟩
        have hkey : (key.1, configurationIdentity) = key := Prod.ext rfl hreoffer.1
        have hheld : ∃ grant, run.oracle.granted.find? (key.1, configurationIdentity) = some grant ∧
            grant.owner = rank := ⟨grant, hkey ▸ hfind, hne⟩
        have hreply := owned_of_reoffered rank configurationIdentity candidates run.oracle hheld
          hreoffer.2
        have hfinal : ∃ grant', answer.2.granted.find? key = some grant' ∧
            grant'.owner = rank := by
          rcases find?_claimCandidates rank configurationIdentity candidates run.oracle key with
            hsame | ⟨grant', hfind', howner, -⟩
          · exact ⟨grant, hsame ▸ hfind, hne⟩
          · exact ⟨grant', hfind', howner⟩
        obtain ⟨grant', hfind', howner⟩ := hfinal
        refine Or.inr ⟨grant', hfind', ?_, howner ▸ hcurrent⟩
        rw [howner]
        exact owned_cons_self.mpr ⟨hreoffer.1, hreply⟩
      · exact Or.inr (hlater key grant hfind hne howned hle)
    · obtain ⟨grant, hfind, hdigest, hne⟩ := grant_of_denied rank configurationIdentity
        candidates run.oracle reply hmem hindexed hfalse
      have hcandidate : reply.1 ∈ candidates := (of_mem_zip hmem).1
      have hlive := hsound.1 reply.1 hcandidate hindexed grant hfind hdigest hne
      have hkey : (reply.1.path, configurationIdentity) = key := Prod.ext hpath hconf
      rw [hkey] at hfind hlive
      rcases hlive with ⟨howned, hpub | hle⟩
      · exact absurd ⟨grant.owner, hpub, howned⟩ hpublished
      · exact Or.inr (hlater key grant hfind hne howned hle)

/-- A rank settled without publication leaves every denied header covered when it
records no outstanding one, whether or not its grants are dropped. -/
theorem Inv.unpublished (h : run.Inv count)
    (hsound : ∀ key grant, run.oracle.granted.find? key = some grant →
      grant.owner = run.nextPublish → ¬ run.Outstanding key)
    (oracle : SequencedHeaderClaimOracle) (hlive : oracle.cancelled = false)
    (hgrants : ∀ key grant, oracle.granted.find? key = some grant →
      run.oracle.granted.find? key = some grant)
    (hkeep : ∀ key grant, run.oracle.granted.find? key = some grant →
      grant.owner ≠ run.nextPublish → oracle.granted.find? key = some grant) :
    Inv count { run.settle with oracle := oracle } := by
  refine ⟨hlive, fun key grant hfind => h.owners key grant (hgrants key grant hfind), ?_, ?_⟩
  · exact fun rank hrank => Nat.lt_succ_of_lt (h.settled rank hrank)
  · intro key hdenied
    rcases h.covered key hdenied with hpub | ⟨grant, hfind, howned, hle⟩
    · exact Or.inl hpub
    · by_cases howner : grant.owner = run.nextPublish
      · left
        by_contra hpub
        exact hsound key grant hfind howner ⟨hdenied, hpub⟩
      · exact Or.inr ⟨grant, hkeep key grant hfind howner, howned,
          Nat.lt_of_le_of_ne hle (Ne.symm howner)⟩

theorem Inv.step {next : PublicationRun} {event : PublicationEvent}
    (h : run.Inv count) (hsound : run.Sound event)
    (hstep : run.step count event = some next) : next.Inv count := by
  cases event with
  | claim =>
    simp only [PublicationRun.step] at hstep
    split at hstep
    · rename_i hguard
      simp only [map_eq_some_iff] at hstep
      obtain ⟨⟨_, _⟩, hclaim, rfl⟩ := hstep
      obtain ⟨-, rfl, rfl⟩ := (claim_eq_some_iff h.live).mp hclaim
      exact h.claim hsound hguard.1 hguard.2.1
    · cases hstep
  | releaseUnclaimed =>
    simp only [PublicationRun.step] at hstep
    split at hstep
    · obtain rfl := some.inj hstep
      unfold releaseUnclaimed
      split <;> exact ⟨h.live, h.owners, h.settled, h.covered⟩
    · cases hstep
  | published =>
    simp only [PublicationRun.step] at hstep
    split at hstep
    · obtain rfl := some.inj hstep
      refine ⟨h.live, h.owners, ?_, ?_⟩
      · intro rank hrank
        rcases mem_cons.mp hrank with rfl | hrank
        · exact Nat.lt_succ_self _
        · exact Nat.lt_succ_of_lt (h.settled rank hrank)
      · intro key hdenied
        rcases h.covered key hdenied with ⟨owner, hmem, howned⟩ | ⟨grant, hfind, howned, hle⟩
        · exact Or.inl ⟨owner, mem_cons_of_mem _ hmem, howned⟩
        · by_cases howner : grant.owner = run.nextPublish
          · exact Or.inl ⟨run.nextPublish, mem_cons_self, howner ▸ howned⟩
          · exact Or.inr ⟨grant, hfind, howned, Nat.lt_of_le_of_ne hle (Ne.symm howner)⟩
    · cases hstep
  | publicationFailed =>
    simp only [PublicationRun.step] at hstep
    split at hstep
    · obtain rfl := some.inj hstep
      refine h.unpublished hsound _ h.live ?_ ?_
      · intro _ _ hfind
        rw [find?_revokeGrants, filter_eq_some_iff] at hfind
        exact hfind.1
      · intro _ _ hfind howner
        rw [find?_revokeGrants, filter_eq_some_iff]
        exact ⟨hfind, by simpa using howner⟩
    · cases hstep
  | unpublishable =>
    simp only [PublicationRun.step] at hstep
    split at hstep
    · obtain rfl := some.inj hstep
      exact h.unpublished hsound run.oracle h.live (fun _ _ hfind => hfind)
        fun _ _ hfind _ => hfind
    · cases hstep

theorem inv_of_reachableWithin
    (h : (publicationSystem count).ReachableWithin Sound run) : run.Inv count :=
  System.ReachableWithin.invariant (inv_init count)
    (fun _ _ _ hinv hsound hstep => hinv.step hsound hstep) h

end PublicationRun

/-! ## Runs that lose nothing -/

/-- In every run whose steps are all sound, when the last rank has been settled
no header is lost. -/
theorem noHeaderLost_of_sound (count : ℕ) (run : PublicationRun)
    (h : (publicationSystem count).ReachableWithin PublicationRun.Sound run)
    (hend : run.nextPublish = count) : run.NoHeaderLost := by
  have hinv := PublicationRun.inv_of_reachableWithin h
  intro rank key _ hdenied
  rcases hinv.covered key ⟨rank, hdenied⟩ with hpub | ⟨grant, hfind, _, _⟩
  · exact hpub
  · have hlt := hinv.owners key grant hfind
    omega

/-- The header every example below shares. -/
def sharedHeader : HeaderClaimCandidate := ⟨"h.hpp", some "d", false⟩

/-- Rank 0 is granted the header and rank 1 denied it; then the writer refuses
rank 0 and accepts rank 1. -/
def lateFailure : List PublicationEvent :=
  [.claim 0 "cfg" [sharedHeader], .claim 1 "cfg" [sharedHeader], .publicationFailed, .published]

/-- The revocation comes after rank 1 was denied, so nobody indexes the header. -/
theorem header_lost_on_late_failure :
    ∃ run, (publicationSystem 2).Reachable run ∧ run.nextPublish = 2 ∧ ¬ run.NoHeaderLost := by
  refine ⟨_, System.reachable_of_play .init lateFailure rfl, rfl, ?_⟩
  intro hnone
  obtain ⟨owner, howner, record, hclaim, -, reply, hreply, -, htrue⟩ :=
    hnone 1 ("h.hpp", "cfg") (by decide)
      ⟨⟨1, "cfg", [sharedHeader], [false]⟩, by decide, rfl, rfl,
        (sharedHeader, false), by decide, rfl, rfl, rfl⟩
  have hone : owner ∈ [1] := howner
  obtain rfl := mem_singleton.mp hone
  obtain rfl : record = ⟨1, "cfg", [sharedHeader], [false]⟩ :=
    (some.inj hclaim).symm
  obtain rfl : reply = (sharedHeader, false) := by simpa using hreply
  cases htrue

/-- The state after rank 0 was granted the shared header. -/
def grantedRun : PublicationRun where
  oracle :=
    { granted := AssocMap.empty.insertOrAssign ("h.hpp", "cfg") ⟨some "d", 0⟩
      gate := ⟨∅, 1⟩
      metrics := { candidates := 1, granted := 1 } }
  claims := [⟨0, "cfg", [sharedHeader], [true]⟩]

theorem sound_denial_of_grantedRun : grantedRun.Sound (.claim 1 "cfg" [sharedHeader]) := by
  constructor
  · intro _ hmem _ grant hfind _ _
    obtain rfl := mem_singleton.mp hmem
    obtain rfl : (⟨some "d", 0⟩ : Grant) = grant := some.inj hfind
    refine ⟨⟨_, rfl, rfl, (sharedHeader, true), by decide, rfl, rfl⟩, Or.inr ?_⟩
    exact Nat.zero_le 0
  · intro _ _ hfind howner _
    simp only [grantedRun, AssocMap.find?_insertOrAssign, AssocMap.find?_empty] at hfind
    split at hfind
    · obtain rfl := some.inj hfind
      cases howner
    · cases hfind

/-- Both ranks are published after the denial, so the header is not lost. -/
theorem noHeaderLost_of_published_owner :
    ∃ run, (publicationSystem 2).ReachableWithin PublicationRun.Sound run ∧
      run.Denied 1 ("h.hpp", "cfg") ∧ run.NoHeaderLost := by
  have hgranted : (publicationSystem 2).ReachableWithin PublicationRun.Sound grantedRun := by
    refine .step (l := .claim 0 "cfg" [sharedHeader]) .init ⟨?_, ?_⟩ (by decide)
    · intro _ _ _ _ hfind
      cases hfind
    · intro _ _ hfind
      cases hfind
  have hdenied := System.ReachableWithin.step hgranted sound_denial_of_grantedRun rfl
  have hsound (run : PublicationRun) : run.Sound .published := trivial
  have hfirst := System.ReachableWithin.step hdenied (hsound _) rfl
  have hend := System.ReachableWithin.step hfirst (hsound _) rfl
  refine ⟨_, hend, ?_, noHeaderLost_of_sound 2 _ hend rfl⟩
  exact ⟨⟨1, "cfg", [sharedHeader], [false]⟩, mem_cons_self, rfl, rfl,
    (sharedHeader, false), by decide, rfl, rfl, rfl⟩

end CppIndexer.Index
