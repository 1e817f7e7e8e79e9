/-
# Recorded histories and runs of the storage lifecycle

`conformant` looks at one observation at a time, while the lifecycle allows `MarkSidecarMissing` and
`MarkSidecarCorrupt` only where a sidecar is there to be lost. The accepted histories that are histories
of the lifecycle are those that a small automaton reads: a sidecar is lost at most once before it is
published again, and before the first publication it can be missing but not corrupt.

The automaton is compared with the lifecycle in both directions. A run's sidecar is in a state that the
phase permits, and from a state in which nothing is under way every permitted event can be performed.
-/

import CppIndexer.Protocol.ConformanceRecorder
import CppIndexer.Protocol.StorageSafety

namespace CppIndexer.Conformance

open StorageLifecycle (Constants State Action Seed lifecycle)
open Transition (taken)
open Transition.System (Shows)
open List Option Observation ConformanceRecorder Call ResultEnvelope

/-- The operations that both sides know. -/
inductive Event
  | indexPublish
  | sidecarPublish
  | sidecarMissing
  | sidecarCorrupt
  deriving DecidableEq

def Observation.event? (observation : Observation) : Option Event :=
  if observation.operation = "index.publish" then some .indexPublish
  else if observation.operation = "sidecar.publish" then some .sidecarPublish
  else if observation.operation = "sidecar.missing" then some .sidecarMissing
  else if observation.operation = "sidecar.corrupt" then some .sidecarCorrupt
  else none

/-- The event of an action; the other actions are hidden. -/
def event? : Action → Option Event
  | .publishCoreGeneration => some .indexPublish
  | .publishSidecar => some .sidecarPublish
  | .markSidecarMissing => some .sidecarMissing
  | .markSidecarCorrupt => some .sidecarCorrupt
  | _ => none

/-- Some run from the valid seed shows the events. -/
def Legal (c : Constants) (events : List Event) : Prop :=
  ∃ bound s, (lifecycle { c with traceBound := bound } .valid).Shows event?
    (Seed.valid.state { c with traceBound := bound }) events s

/-! ## What a call records -/

/-- The observation of an analysis that returned an artifact without an error. -/
def sidecarPublication (published : Bool) (quality : String) : Observation :=
  ⟨"sidecar.publish",
    [("sidecarFilePublication", if published then "current" else "none"),
      ("sidecarState", if published then "current" else "missing"), ("sidecarQuality", quality),
      ("sidecarValidated", if published then "true" else "false")]⟩

namespace Call

/-- The event of a call, read off what the delegate returned. -/
def event? : Call → Option Event
  | .index action envelope =>
    if action = .update ∧ envelope.deriveIndexState = "current" then some .indexPublish else none
  | .query _ _ => none
  | .analysis action envelope =>
    if action = .execute ∨ action = .exportFacts then
      if envelope.artifacts = [] then some .sidecarMissing
      else if envelope.status = .error then some .sidecarCorrupt
      else some .sidecarPublish
    else none

/-- What a call leaves for later sidecars. -/
def published : Call → Option PublishedGeneration
  | .index action envelope =>
    if action = .update ∧ envelope.deriveIndexState = "current" then
      some envelope.publishedGeneration
    else none
  | _ => none

/-- The observations that a call records: what it leaves in an empty recorder. -/
def recorded (last : Option PublishedGeneration) (x : Call) : List Observation :=
  ((⟨⟨[], []⟩, ⟨[], []⟩, [], last⟩ : ConformanceRecorder).call x).observations

variable (recorder : ConformanceRecorder) (last : Option PublishedGeneration) (x : Call)

theorem call_eq : recorder.call x =
    { recorder with
      observations := recorder.observations ++ x.recorded recorder.lastPublishedGeneration
      lastPublishedGeneration := x.published.or recorder.lastPublishedGeneration } := by
  cases x with
  | index =>
    simp only [recorded, call, ConformanceRecorder.index, published, push]
    split_ifs <;> simp_all
  | query => rfl
  | analysis =>
    simp only [recorded, call, ConformanceRecorder.analysis, published, push]
    split_ifs <;> simp

theorem filterMap_recorded : (x.recorded last).filterMap Observation.event? = x.event?.toList := by
  cases x with
  | index =>
    simp only [recorded, call, ConformanceRecorder.index, event?, push]
    split_ifs <;> simp_all [Observation.event?]
  | query => rfl
  | analysis =>
    simp only [recorded, call, ConformanceRecorder.analysis, event?, push]
    split_ifs <;> rfl

/-- Only an analysis publishes a sidecar. -/
theorem sidecarPublish_cases (h : x.event? = some .sidecarPublish) :
    ∃ action envelope, x = .analysis action envelope ∧
      sidecarPublication (envelope.hasValidSidecarArtifact last) envelope.deriveSidecarQuality ∈
        x.recorded last := by
  cases x with
  | index =>
    simp only [event?] at h
    split at h <;> cases h
  | query => cases h
  | analysis action envelope =>
    refine ⟨action, envelope, rfl, ?_⟩
    simp only [event?] at h
    split_ifs at h with haction hempty herror
    · cases h
    · cases h
    · simp [recorded, call, ConformanceRecorder.analysis,
        push, haction, hempty, herror, sidecarPublication]

end Call

/-! ## Sessions -/

section

variable (recorder : ConformanceRecorder) (calls : List Call)

/-- Where sidecars come from after a sequence of calls. -/
def lastPublished (last : Option PublishedGeneration) (calls : List Call) : Option PublishedGeneration :=
  calls.foldl (fun last x => x.published.or last) last

theorem session_append (before after : List Call) :
    recorder.session (before ++ after) = (recorder.session before).session after :=
  foldl_append ..

theorem session_eq : ∃ observations, recorder.session calls =
      { recorder with
        observations := recorder.observations ++ observations
        lastPublishedGeneration := lastPublished recorder.lastPublishedGeneration calls } ∧
    observations.filterMap Observation.event? = calls.filterMap Call.event? := by
  induction calls generalizing recorder with
  | nil => exact ⟨[], by simp [session, lastPublished], rfl⟩
  | cons x rest ih =>
    obtain ⟨observations, hsession, hevents⟩ := ih (recorder.call x)
    refine ⟨x.recorded recorder.lastPublishedGeneration ++ observations, ?_, ?_⟩
    · change (recorder.call x).session rest = _
      rw [hsession, call_eq]
      simp [lastPublished]
    · rw [filterMap_append, filterMap_recorded, hevents, filterMap_cons]
      cases x.event? <;> rfl

variable {origin : PublishedGeneration}

theorem lastPublished_eq_some (h : lastPublished none calls = some origin) :
    ∃ earlier publication between, calls = earlier ++ publication :: between ∧
      publication.published = some origin ∧ ∀ other ∈ between, other.published = none := by
  induction calls using List.reverseRecOn with
  | nil => cases h
  | append_singleton rest x ih =>
    rw [lastPublished, foldl_append] at h
    change x.published.or (lastPublished none rest) = some origin at h
    cases hx : x.published with
    | some other =>
      rw [hx, some_or] at h
      exact ⟨rest, x, [], rfl, hx.trans h, fun other hother => absurd hother not_mem_nil⟩
    | none =>
      rw [hx, none_or] at h
      obtain ⟨earlier, publication, between, rfl, hpublication, hbetween⟩ := ih h
      refine ⟨earlier, publication, between ++ [x], ?_, hpublication, ?_⟩
      · rw [append_assoc, cons_append]
      · intro other hother
        rcases mem_append.mp hother with hother | hother
        · exact hbetween other hother
        · rw [mem_singleton.mp hother]
          exact hx

end

/-! ## Provenance -/

/-- The sidecar artifact of an analysis carries the generation, the catalog hash and the index identity
of an index publication. -/
def Carries (sidecar publication : Call) : Prop :=
  ∃ action envelope action' envelope' artifact core,
    sidecar = .analysis action envelope ∧ publication = .index action' envelope' ∧
      envelope.artifacts.head? = some artifact ∧ envelope'.coreIndexArtifact = some core ∧
      artifact.generation.isSome ∧ artifact.generation = core.generation ∧
      artifact.catalogHash = core.catalogHash ∧ envelope.identityIndex = envelope'.identityIndex

/-- Every recorded sidecar publication carries what the last index publication before it published. -/
def Provenance (calls : List Call) : Prop :=
  ∀ before sidecar after, calls = before ++ sidecar :: after →
    sidecar.event? = some .sidecarPublish →
    ∃ earlier publication between, before = earlier ++ publication :: between ∧
      publication.event? = some .indexPublish ∧
      (∀ other ∈ between, other.event? ≠ some .indexPublish) ∧ Carries sidecar publication

variable {x : Call} {recorder : ConformanceRecorder}

theorem expectationFor_sidecarPublish (h : wrapping = .ok recorder) :
    recorder.sidecarSchema.expectationFor "sidecar.publish" =
      some ⟨"sidecar.publish", "sidecarFilePublication", "current"⟩ := by
  have hschema : (wrapping.map
      fun recorder => recorder.sidecarSchema.expectationFor "sidecar.publish") =
      .ok (some ⟨"sidecar.publish", "sidecarFilePublication", "current"⟩) := by
    decide +kernel
  rw [h] at hschema
  exact Except.ok.inj hschema

/-- A new recorder has recorded nothing. -/
theorem wrapping_empty (h : wrapping = .ok recorder) :
    recorder.observations = [] ∧ recorder.lastPublishedGeneration = none := by
  unfold wrapping at h
  cases hindex : ConformanceSchema.parse operationMap observationMap with
  | error =>
    rw [hindex] at h
    cases h
  | ok =>
    cases hsidecar : ConformanceSchema.parse sidecarOperationMap sidecarObservationMap with
    | error =>
      rw [hindex, hsidecar] at h
      cases h
    | ok =>
      rw [hindex, hsidecar] at h
      cases h
      exact ⟨rfl, rfl⟩

theorem published_of_accepts (hexpects : recorder.sidecarSchema.expectationFor "sidecar.publish" =
      some ⟨"sidecar.publish", "sidecarFilePublication", "current"⟩) {published : Bool}
    {quality : String} (h : recorder.accepts (sidecarPublication published quality)) :
    published = true := by
  have hprefix : "sidecar.".toList.isPrefixOf "sidecar.publish".toList = true := by decide
  cases published with
  | true => rfl
  | false =>
    simp only [accepts, sidecarPublication, hprefix, if_true, hexpects, Bool.and_eq_true] at h
    have hfield := h.1.1.2
    simp [fieldValue] at hfield

variable {origin : PublishedGeneration}

theorem published_eq_some (h : x.published = some origin) : x.event? = some .indexPublish ∧
      ∃ action envelope, x = .index action envelope ∧ origin = envelope.publishedGeneration := by
  cases x with
  | index action envelope =>
    simp only [published] at h
    split at h
    · rename_i hguard
      exact ⟨if_pos hguard, action, envelope, rfl, (some.inj h).symm⟩
    · cases h
  | query => cases h
  | analysis => cases h

theorem event?_of_published_eq_none (h : x.published = none) : x.event? ≠ some .indexPublish := by
  cases x with
  | index =>
    simp only [published] at h
    split at h
    · cases h
    · rename_i hguard
      simp [Call.event?, hguard]
  | query => exact nofun
  | analysis =>
    simp only [Call.event?]
    split_ifs <;> exact nofun

/-- An artifact that matches what an index publication left carries its provenance. -/
theorem carries_of_matches {action : AnalysisAction} {action' : IndexAction}
    {envelope envelope' : ResultEnvelope}
    (h : envelope.sidecarArtifactMatches (some envelope'.publishedGeneration)) :
    Carries (.analysis action envelope) (.index action' envelope') := by
  cases hartifacts : envelope.artifacts with
  | nil => simp [sidecarArtifactMatches, hartifacts] at h
  | cons artifact =>
    simp only [sidecarArtifactMatches, hartifacts, decide_eq_true_eq] at h
    obtain ⟨-, hsome, hne, hgeneration, -, hcatalog, hindex⟩ := h
    cases hcore : envelope'.coreIndexArtifact with
    | none =>
      -- without an index artifact the generation that is left is empty
      rw [hgeneration] at hne
      simp [publishedGeneration, hcore] at hne
    | some core =>
      simp only [publishedGeneration, hcore, bind_some, map_some,
        getD_some] at hgeneration hcatalog hindex
      refine ⟨action, envelope, action', envelope', artifact, core, rfl, rfl, ?_, hcore, hsome, ?_,
        hcatalog, hindex⟩
      · rw [hartifacts]
        rfl
      · cases hg : core.generation with
        | none =>
          rw [hg] at hgeneration
          exact absurd hgeneration hne
        | some =>
          rw [hgeneration, hg]
          rfl

theorem provenance_of_conformant
    (hwrapping : wrapping = .ok recorder) {calls : List Call}
    (h : (recorder.session calls).conformant) : Provenance calls := by
  rintro before sidecar after rfl hevent
  obtain ⟨_, hlast⟩ := wrapping_empty hwrapping
  obtain ⟨_, hbefore, -⟩ := session_eq recorder before
  obtain ⟨action, envelope, rfl, hmem⟩ := sidecar.sidecarPublish_cases
    (lastPublished recorder.lastPublishedGeneration before) hevent
  obtain ⟨_, hafter, -⟩ := session_eq ((recorder.session before).call (.analysis action envelope)) after
  -- the observation of the analysis is one of those that are checked, under the same schema
  have haccepts : recorder.accepts (sidecarPublication
      (envelope.hasValidSidecarArtifact (lastPublished recorder.lastPublishedGeneration before))
      envelope.deriveSidecarQuality) := by
    rw [session_append] at h
    change ((recorder.session before).call (.analysis action envelope)).session after |>.conformant at h
    rw [hafter, call_eq, hbefore] at h
    simp only [conformant, Bool.and_eq_true, List.all_eq_true] at h
    exact h.2 _ (mem_append_left _ (mem_append_right _ hmem))
  have hvalid := published_of_accepts (expectationFor_sidecarPublish hwrapping) haccepts
  rw [hlast] at hvalid
  obtain ⟨-, hmatches⟩ := Bool.and_eq_true_iff.mp hvalid
  cases horigin : lastPublished none before with
  | none =>
    rw [horigin] at hmatches
    cases hartifacts : envelope.artifacts <;>
      simp [sidecarArtifactMatches] at hmatches
  | some =>
    obtain ⟨earlier, _, between, hsplit, hpublication, hbetween⟩ :=
      lastPublished_eq_some before horigin
    obtain ⟨hpublishes, _, _, rfl, rfl⟩ := published_eq_some hpublication
    rw [horigin] at hmatches
    exact ⟨earlier, _, between, hsplit, hpublishes,
      fun other hother => event?_of_published_eq_none (hbetween other hother),
      carries_of_matches hmatches⟩

/-! ## The automaton -/

/-- What has become of the sidecar. -/
inductive Phase
  | absent
  | whole
  | lost
  deriving DecidableEq

/-- A sidecar is lost at most once before it is published again, and one that was never published can be
missing but not corrupt. -/
def Phase.next : Phase → Event → Option Phase
  | q, .indexPublish => some q
  | _, .sidecarPublish => some .whole
  | .absent, .sidecarMissing => some .lost
  | .whole, .sidecarMissing => some .lost
  | .whole, .sidecarCorrupt => some .lost
  | _, _ => none

/-- The automaton reads the events. -/
def Sequenced (events : List Event) : Prop := (events.foldlM Phase.next .absent).isSome

instance (events : List Event) : Decidable (Sequenced events) := inferInstanceAs (Decidable (_ = true))

def Phase.Permits (q : Phase) (s : State) : Prop :=
  match q with
  | .absent => s.sidecarState ≠ .current ∧ s.sidecarState ≠ .stale
  | .whole => s.sidecarState ≠ .absent
  | .lost => s.sidecarState ≠ .current ∧ s.sidecarState ≠ .stale ∧ s.sidecarState ≠ .absent

section

variable {c : Constants} {s s' : State} {q : Phase} {a : Action}

attribute [local simp] Phase.Permits

theorem Phase.Permits.hidden (h : q.Permits s) (hstep : s.step c a = some s') (ha : event? a = none) :
    q.Permits s' := by
  cases a
  case publishCoreGeneration | publishSidecar | markSidecarMissing | markSidecarCorrupt => cases ha
  case buildSidecar | prepareSidecarArtifact | markSidecarIncompatible =>
    obtain ⟨-, rfl⟩ := taken hstep
    cases q <;> simp
  case interruptMigration =>
    obtain ⟨-, -, ⟨-, rfl⟩ | ⟨-, rfl⟩⟩ := StorageLifecycle.interruptMigration_cases hstep
    all_goals exact h
  case noOp =>
    cases hstep
    exact h
  all_goals
    obtain ⟨-, rfl⟩ := taken hstep
    exact h

variable {e : Event} {events : List Event} {n : ℕ}

theorem Phase.Permits.visible (h : q.Permits s) (hstep : s.step c a = some s')
    (ha : event? a = some e) : ∃ q', q.next e = some q' ∧ q'.Permits s' := by
  cases a
  case publishCoreGeneration =>
    cases ha
    obtain ⟨-, rfl⟩ := taken hstep
    refine ⟨q, by cases q <;> rfl, ?_⟩
    -- only a complete sidecar becomes stale, and that one was current
    by_cases hcomplete : s.SidecarCompleteFor s.currentGeneration
    · have hcurrent := hcomplete.1
      cases q <;> simp_all [Phase.Permits]
    · cases q <;> simp_all [Phase.Permits]
  case publishSidecar =>
    cases ha
    obtain ⟨-, rfl⟩ := taken hstep
    exact ⟨.whole, by cases q <;> rfl, by simp⟩
  case markSidecarMissing =>
    cases ha
    obtain ⟨⟨_, -⟩, rfl⟩ := taken hstep
    refine ⟨.lost, ?_, by simp⟩
    cases q <;> simp_all [Phase.Permits, Phase.next]
  case markSidecarCorrupt =>
    cases ha
    obtain ⟨⟨_, -⟩, rfl⟩ := taken hstep
    refine ⟨.lost, ?_, by simp⟩
    cases q <;> simp_all [Phase.Permits, Phase.next]
  all_goals cases ha

theorem sequenced_of_legal (h : Legal c events) : Sequenced events := by
  obtain ⟨bound, _, hshows⟩ := h
  have hinit : Phase.absent.Permits (Seed.valid.state { c with traceBound := bound }) :=
    ⟨StorageLifecycle.SidecarState.noConfusion, StorageLifecycle.SidecarState.noConfusion⟩
  obtain ⟨_, hq, -⟩ := hshows.accepted Phase.next Phase.Permits
    (fun _ _ _ _ hpermits hstep hl => hpermits.hidden hstep hl)
    (fun _ _ _ _ _ hpermits hstep hl => hpermits.visible hstep hl) hinit
  rw [Sequenced, hq]
  rfl

/-! ## Performing what is permitted -/

/-- Nothing is under way. -/
structure Idle (s : State) : Prop where
  core : s.corePublicationState = .current
  staged : s.stagedGeneration = 0
  generation : s.generationState = .current
  pos : 0 < s.currentGeneration
  migration : s.migrationPhase = .none
  package : s.packageState = .none
  reader : s.readerStatus = .current

/-- The sidecar of a phase between two events. -/
def Phase.Rests (q : Phase) (s : State) : Prop :=
  match q with
  | .absent => s.sidecarState = .absent
  | .whole => s.sidecarState = .current ∨ s.sidecarState = .stale
  | .lost => s.sidecarState = .missing ∨ s.sidecarState = .corrupt

/-- A state between two events, with room for `n` more. -/
structure Home (c : Constants) (n : ℕ) (q : Phase) (s : State) : Prop where
  idle : Idle s
  sidecar : q.Rests s
  room : s.trace.length + 4 * n + 2 < c.traceBound

/-- A generation is staged over a state in which nothing was under way. -/
structure Staging (s t : State) : Prop where
  core : t.corePublicationState = .staging
  staged : 0 < t.stagedGeneration
  migration : t.migrationPhase = .none
  package : t.packageState = .none
  reader : t.readerStatus = .current
  sidecar : t.sidecarState = s.sidecarState

theorem work_of_room {k : ℕ} (h : s.trace.length + k + 2 < c.traceBound) : s.WorkTraceAvailable c := by
  unfold State.WorkTraceAvailable
  omega

/-- A core generation is staged, validated and published. -/
theorem Home.indexPublish (h : Home c (n + 1) q s) :
    ∃ t, (lifecycle c .valid).Shows event? s [.indexPublish] t ∧ Home c n q t := by
  obtain ⟨hidle, hsidecar, hroom⟩ := h
  have hpackage : s.packageState ≠ .building ∧ s.packageState ≠ .imported := by
    rw [hidle.package]
    decide
  obtain ⟨s₁, hs₁, hstate₁, hstaging₁, hlength₁⟩ : ∃ t, s.startOneTUUpdate c = some t ∧
      t.generationState = .extracting ∧ Staging s t ∧ t.trace.length = s.trace.length + 1 :=
    ⟨_, if_pos ⟨hidle.core, hidle.migration, hidle.staged, hpackage.1, hpackage.2, work_of_room hroom⟩,
      rfl, ⟨rfl, Nat.succ_pos _, hidle.migration, hidle.package, hidle.reader, rfl⟩,
      length_append⟩
  have hwork₁ : s₁.WorkTraceAvailable c := work_of_room (k := 4 * n + 3) (by omega)
  obtain ⟨s₂, hs₂, hstate₂, hquality₂, hstaging₂, hlength₂⟩ : ∃ t,
      s₁.prepareStagedArtifact c .valid = some t ∧ t.generationState = .validated ∧
      t.stagedArtifactQuality = .valid ∧ Staging s t ∧ t.trace.length = s₁.trace.length + 1 :=
    ⟨_, if_pos ⟨hstate₁, hstaging₁.staged, hwork₁⟩, rfl, rfl,
      ⟨hstaging₁.core, hstaging₁.staged, hstaging₁.migration, hstaging₁.package, hstaging₁.reader,
        hstaging₁.sidecar⟩, length_append⟩
  have hwork₂ : s₂.WorkTraceAvailable c := work_of_room (k := 4 * n + 2) (by omega)
  obtain ⟨s₃, hs₃, hstate₃, hvalidated₃, hquality₃, hstaging₃, hlength₃⟩ : ∃ t,
      s₂.validateStagedArtifact c = some t ∧ t.generationState = .validated ∧
      t.stagedValidated = true ∧ t.stagedArtifactQuality = .valid ∧ Staging s t ∧
      t.trace.length = s₂.trace.length + 1 :=
    ⟨_, if_pos ⟨hstate₂, hstaging₂.staged, hwork₂⟩, if_pos hquality₂, decide_eq_true hquality₂,
      hquality₂, ⟨hstaging₂.core, hstaging₂.staged, hstaging₂.migration, hstaging₂.package,
        hstaging₂.reader, hstaging₂.sidecar⟩, length_append⟩
  have hwork₃ : s₃.WorkTraceAvailable c := work_of_room (k := 4 * n + 1) (by omega)
  obtain ⟨t, ht, hhome⟩ : ∃ t, s₃.publishCoreGeneration c = some t ∧ Home c n q t := by
    refine ⟨_, if_pos ⟨hstate₃, hvalidated₃, hquality₃, hstaging₃.core, hstaging₃.migration, hwork₃⟩,
      ⟨rfl, rfl, rfl, hstaging₃.staged, hstaging₃.migration, hstaging₃.package, hstaging₃.reader⟩,
      ?_, ?_⟩
    · -- a complete sidecar becomes stale, any other stays as it is
      unfold Phase.Rests at hsidecar ⊢
      rw [← hstaging₃.sidecar] at hsidecar
      by_cases hcomplete : s₃.SidecarCompleteFor s₃.currentGeneration
      · have hcurrent := hcomplete.1
        cases q <;> simp_all
      · cases q <;> simp_all
    · dsimp only
      rw [length_append, length_singleton]
      omega
  refine ⟨t, ?_, hhome⟩
  apply Shows.hidden (l := Action.startOneTUUpdate) hs₁ rfl
  apply Shows.hidden (l := Action.prepareStagedArtifact .valid) hs₂ rfl
  apply Shows.hidden (l := Action.validateStagedArtifact) hs₃ rfl
  exact Shows.single (l := Action.publishCoreGeneration) ht rfl

/-- A sidecar that is not whole any more is built for the current generation and published. -/
theorem Idle.rebuild (hidle : Idle s) (hroom : s.trace.length + 4 * n + 5 < c.traceBound)
    (hsidecar : s.sidecarState = .missing ∨ s.sidecarState = .corrupt ∨ s.sidecarState = .incompatible) :
    ∃ t, (lifecycle c .valid).Shows event? s [.sidecarPublish] t ∧ Home c n .whole t := by
  have hstate : s.sidecarState ∈ [.absent, .stale, .missing, .corrupt, .incompatible] ∧
      s.sidecarState ≠ .absent := by
    rcases hsidecar with hsidecar | hsidecar | hsidecar
    all_goals
      rw [hsidecar]
      decide
  have hwork : s.WorkTraceAvailable c := work_of_room (k := 4 * n + 3) (by omega)
  obtain ⟨s₁, hs₁, hbuilding₁, hgeneration₁, hidle₁, hlength₁⟩ : ∃ t, s.buildSidecar c = some t ∧
      t.sidecarState = .building ∧ t.sidecarGeneration = t.currentGeneration ∧ Idle t ∧
      t.trace.length = s.trace.length + 1 := by
    refine ⟨_, if_pos ⟨.inr hidle.generation, hstate.1, .inr hstate.2, hwork⟩, rfl, ?_,
      ⟨hidle.core, hidle.staged, hidle.generation, hidle.pos, hidle.migration, hidle.package,
        hidle.reader⟩, length_append⟩
    rw [hidle.staged]
    rfl
  have hwork₁ : s₁.WorkTraceAvailable c := work_of_room (k := 4 * n + 2) (by omega)
  obtain ⟨s₂, hs₂, hstate₂, hvalidated₂, hquality₂, hgeneration₂, hidle₂, hlength₂⟩ : ∃ t,
      s₁.prepareSidecarArtifact c .valid = some t ∧ t.sidecarState = .validated ∧
      t.sidecarValidated = true ∧ t.sidecarQuality = .valid ∧
      t.sidecarGeneration = t.currentGeneration ∧ Idle t ∧ t.trace.length = s₁.trace.length + 1 :=
    ⟨_, if_pos ⟨hbuilding₁, hgeneration₁ ▸ hidle₁.pos, hwork₁⟩, rfl, rfl, rfl, hgeneration₁,
      ⟨hidle₁.core, hidle₁.staged, hidle₁.generation, hidle₁.pos, hidle₁.migration, hidle₁.package,
        hidle₁.reader⟩, length_append⟩
  have hwork₂ : s₂.WorkTraceAvailable c := work_of_room (k := 4 * n + 1) (by omega)
  obtain ⟨t, ht, hhome⟩ : ∃ t, s₂.publishSidecar c = some t ∧ Home c n .whole t := by
    refine ⟨_, if_pos ⟨hstate₂, hvalidated₂, hquality₂, hgeneration₂, hidle₂.core, hidle₂.migration,
      hidle₂.reader, hwork₂⟩, ⟨hidle₂.core, hidle₂.staged, hidle₂.generation, hidle₂.pos,
      hidle₂.migration, hidle₂.package, hidle₂.reader⟩, .inl rfl, ?_⟩
    rw [length_append, length_singleton]
    omega
  refine ⟨t, ?_, hhome⟩
  apply Shows.hidden (l := Action.buildSidecar) hs₁ rfl
  apply Shows.hidden (l := Action.prepareSidecarArtifact .valid) hs₂ rfl
  exact Shows.single (l := Action.publishSidecar) ht rfl

theorem Phase.Rests.markable (h : q.Rests s) (hq : q ≠ .lost) :
    s.sidecarState ∈ [.current, .stale, .absent] := by
  cases q with
  | absent =>
    rw [show s.sidecarState = .absent from h]
    decide
  | whole =>
    rcases h with h | h
    all_goals
      rw [h]
      decide
  | lost => exact absurd rfl hq

theorem Home.sidecarPublish (h : Home c (n + 1) q s) :
    ∃ t, (lifecycle c .valid).Shows event? s [.sidecarPublish] t ∧ Home c n .whole t := by
  obtain ⟨hidle, hsidecar, hroom⟩ := h
  by_cases hq : q = .lost
  · subst hq
    exact hidle.rebuild (by omega) (hsidecar.imp id .inl)
  · obtain ⟨s₁, hs₁, hstate₁, hidle₁, hlength₁⟩ : ∃ t, s.markSidecarIncompatible c = some t ∧
        t.sidecarState = .incompatible ∧ Idle t ∧ t.trace.length = s.trace.length + 1 :=
      ⟨_, if_pos ⟨hsidecar.markable hq, work_of_room hroom⟩, rfl,
        ⟨hidle.core, hidle.staged, hidle.generation, hidle.pos, hidle.migration, hidle.package,
          hidle.reader⟩, length_append⟩
    have hroom₁ : s₁.trace.length + 4 * n + 5 < c.traceBound := by omega
    obtain ⟨t, hshows, hhome⟩ := hidle₁.rebuild hroom₁ (.inr (.inr hstate₁))
    exact ⟨t, Shows.hidden (l := Action.markSidecarIncompatible) hs₁ rfl hshows, hhome⟩

theorem Home.sidecarMissing (h : Home c (n + 1) q s) (hq : q ≠ .lost) :
    ∃ t, (lifecycle c .valid).Shows event? s [.sidecarMissing] t ∧ Home c n .lost t := by
  obtain ⟨hidle, hsidecar, hroom⟩ := h
  refine ⟨_, Shows.single (l := Action.markSidecarMissing)
    (if_pos ⟨hsidecar.markable hq, work_of_room hroom⟩) rfl, ⟨hidle.core, hidle.staged, hidle.generation, hidle.pos,
      hidle.migration, hidle.package, hidle.reader⟩, .inl rfl, ?_⟩
  rw [length_append, length_singleton]
  omega

theorem Home.sidecarCorrupt (h : Home c (n + 1) .whole s) :
    ∃ t, (lifecycle c .valid).Shows event? s [.sidecarCorrupt] t ∧ Home c n .lost t := by
  obtain ⟨hidle, hsidecar, hroom⟩ := h
  have hstate : s.sidecarState ∈ [.current, .stale] := by
    rcases hsidecar with hsidecar | hsidecar
    all_goals
      rw [hsidecar]
      decide
  refine ⟨_, Shows.single (l := Action.markSidecarCorrupt)
    (if_pos ⟨hstate, work_of_room hroom⟩) rfl, ⟨hidle.core, hidle.staged, hidle.generation, hidle.pos,
      hidle.migration, hidle.package, hidle.reader⟩, .inr rfl, ?_⟩
  rw [length_append, length_singleton]
  omega

theorem Home.perform {q' : Phase} (h : Home c (n + 1) q s) (he : q.next e = some q') :
    ∃ t, (lifecycle c .valid).Shows event? s [e] t ∧ Home c n q' t := by
  cases e with
  | indexPublish =>
    obtain rfl : q = q' := by cases q <;> exact some.inj he
    exact h.indexPublish
  | sidecarPublish =>
    obtain rfl : .whole = q' := by cases q <;> exact some.inj he
    exact h.sidecarPublish
  | sidecarMissing =>
    cases q with
    | absent | whole =>
      cases he
      exact h.sidecarMissing Phase.noConfusion
    | lost => cases he
  | sidecarCorrupt =>
    cases q with
    | absent => cases he
    | whole =>
      cases he
      exact h.sidecarCorrupt
    | lost => cases he

theorem legal_of_sequenced (hinitial : 0 < c.initialGeneration)
    (h : Sequenced events) : Legal c events := by
  obtain ⟨_, hq⟩ := isSome_iff_exists.mp h
  let bound := 4 * events.length + 4
  have hhome : Home { c with traceBound := bound } events.length .absent
      (Seed.valid.state { c with traceBound := bound }) := by
    refine ⟨⟨rfl, rfl, rfl, hinitial, rfl, rfl, rfl⟩, rfl, ?_⟩
    change 1 + 4 * events.length + 2 < 4 * events.length + 4
    omega
  obtain ⟨t, hshows, -⟩ := Transition.System.shows_of_accepted
    (Home { c with traceBound := bound }) (fun _ _ _ _ _ hhome he => hhome.perform he) hhome hq
  exact ⟨bound, t, hshows⟩

end

/-! ## Accepted histories -/

/-- A history that the recorder accepts is a history of the lifecycle, with every sidecar from the last
index publication, exactly when no sidecar is lost twice in a row or corrupt before it was published. -/
theorem conformant_legal_iff (c : Constants) (hinitial : 0 < c.initialGeneration)
    (recorder : ConformanceRecorder) (hwrapping : ConformanceRecorder.wrapping = .ok recorder)
    (calls : List Call) (hconformant : (recorder.session calls).conformant) :
    Legal c ((recorder.session calls).observations.filterMap Observation.event?) ∧ Provenance calls ↔
      Sequenced (calls.filterMap Call.event?) := by
  have hevents : (recorder.session calls).observations.filterMap Observation.event? =
      calls.filterMap Call.event? := by
    obtain ⟨_, hsession, hevents⟩ := session_eq recorder calls
    rw [hsession, (wrapping_empty hwrapping).1]
    exact hevents
  rw [hevents]
  exact ⟨fun h => sequenced_of_legal h.1,
    fun h => ⟨legal_of_sequenced hinitial h, provenance_of_conformant hwrapping hconformant⟩⟩

/-- An update that published its first generation. -/
def firstPublication : Call :=
  .index .update ⟨.complete, "complete", "current", "index-1",
    [⟨"semantic-index", "test-hash", some "generation-1"⟩]⟩

/-- An analysis of that generation, with an artifact and the given status. -/
def analysisOfFirst (status : Status) : Call :=
  .analysis .execute ⟨status, "complete", "current", "index-1",
    [⟨"analysis", "test-hash", some "generation-1"⟩]⟩

/-- A sidecar is published and then found corrupt. -/
theorem conformant_legal_lostSidecar : ∃ recorder, ConformanceRecorder.wrapping = .ok recorder ∧
      (recorder.session [firstPublication, analysisOfFirst .complete, analysisOfFirst .error]).conformant ∧
      Legal StorageLifecycle.sampleConstants
        ((recorder.session [firstPublication, analysisOfFirst .complete,
          analysisOfFirst .error]).observations.filterMap Observation.event?) ∧
      Provenance [firstPublication, analysisOfFirst .complete, analysisOfFirst .error] := by
  have hrun : (ConformanceRecorder.wrapping.map fun recorder =>
      (recorder.session [firstPublication, analysisOfFirst .complete,
        analysisOfFirst .error]).conformant) = .ok true := by
    decide +kernel
  cases hwrapping : ConformanceRecorder.wrapping with
  | error =>
    rw [hwrapping] at hrun
    cases hrun
  | ok recorder =>
    rw [hwrapping] at hrun
    have hconformant := Except.ok.inj hrun
    exact ⟨recorder, rfl, hconformant, (conformant_legal_iff _ (by decide) recorder hwrapping _
      hconformant).mpr (by decide)⟩

/-- An errored analysis behind the first publication is accepted as a corrupt sidecar, although no sidecar
was ever published. -/
theorem corruptSidecar_not_legal : ¬∀ recorder, ConformanceRecorder.wrapping = .ok recorder → ∀ calls,
      (recorder.session calls).conformant → Legal StorageLifecycle.sampleConstants
        ((recorder.session calls).observations.filterMap Observation.event?) ∧ Provenance calls := by
  intro hall
  have hrun : (ConformanceRecorder.wrapping.map fun recorder =>
      ((recorder.session [firstPublication, analysisOfFirst .error]).conformant,
        (recorder.session [firstPublication, analysisOfFirst .error]).observations.filterMap
          Observation.event?)) = .ok (true, [.indexPublish, .sidecarCorrupt]) := by
    decide +kernel
  cases hwrapping : ConformanceRecorder.wrapping with
  | error =>
    rw [hwrapping] at hrun
    cases hrun
  | ok recorder =>
    rw [hwrapping] at hrun
    obtain ⟨hconformant, hevents⟩ := Prod.mk.inj (Except.ok.inj hrun)
    have hlegal := (hall recorder hwrapping _ hconformant).1
    rw [hevents] at hlegal
    exact absurd (sequenced_of_legal hlegal) (by decide)

end CppIndexer.Conformance
