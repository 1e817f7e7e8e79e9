/-
# Where a published sidecar comes from

Sidecars are tied to generations by number. The number of a discarded staging attempt is handed out
again, and interrupting the attempt leaves the sidecar that was started in it. It can be published for
the generation that a later attempt produces.

A run is the list of its actions, and "after" and "during" are about their positions.
-/

import Mathlib.Tactic.IntervalCases
import CppIndexer.Protocol.StorageSafety

namespace CppIndexer.StorageLifecycle

open Transition (taken)

/-! ## Positions in a run -/

section

variable (front : List Action)

def LastAt (i : ℕ) (a : Action) : Prop :=
  front[i]? = some a ∧ ∀ j, i < j → front[j]? ≠ some a

/-- The actions that begin or end a staging attempt. -/
def boundaries : List Action := [.startOneTUUpdate, .interruptPublication, .publishCoreGeneration]

/-- The attempt that began at a position is still open. -/
def OpenSince (q : ℕ) : Prop :=
  front[q]? = some .startOneTUUpdate ∧ ∀ j, q < j → ∀ a ∈ boundaries, front[j]? ≠ some a

/-- The sidecar was started after the publication of the current generation, or in the attempt that
produced it. -/
def Belongs : Prop :=
  ∃ b, LastAt front b .buildSidecar ∧
    ((∀ p, b < p → front[p]? ≠ some .publishCoreGeneration) ∨
      ∃ q p, q < b ∧ b < p ∧ front[q]? = some .startOneTUUpdate ∧
        LastAt front p .publishCoreGeneration ∧
        ∀ j, q < j → j < p → ∀ a ∈ boundaries, front[j]? ≠ some a)

end

variable {front : List Action} {a a' : Action} {i q : ℕ}

theorem getElem?_snoc : (front ++ [a'])[i]? = some a ↔
    front[i]? = some a ∨ i = front.length ∧ a' = a := by
  rw [List.getElem?_append]
  by_cases hi : i < front.length
  · simp [hi, Nat.ne_of_lt hi]
  · have hnone : front[i]? = none := List.getElem?_eq_none (by omega)
    rw [if_neg hi, hnone]
    by_cases heq : i = front.length
    · simp [heq]
    · have hpos : 0 < i - front.length := by omega
      simp [heq, Nat.ne_of_gt hpos]

theorem LastAt.snoc (h : LastAt front i a) (hne : a' ≠ a) : LastAt (front ++ [a']) i a := by
  constructor
  · exact getElem?_snoc.mpr (.inl h.1)
  · intro j hj hsome
    rcases getElem?_snoc.mp hsome with hfront | ⟨-, heq⟩
    · exact h.2 j hj hfront
    · exact hne heq

theorem lastAt_snoc_self (front : List Action) (a : Action) : LastAt (front ++ [a]) front.length a := by
  constructor
  · exact getElem?_snoc.mpr (.inr ⟨rfl, rfl⟩)
  · intro _ _ hsome
    rcases getElem?_snoc.mp hsome with hfront | ⟨_, -⟩
    · have hlt := (List.getElem?_eq_some_iff.mp hfront).1
      omega
    · omega

theorem OpenSince.snoc (h : OpenSince front q) (hnot : a ∉ boundaries) : OpenSince (front ++ [a]) q := by
  constructor
  · exact getElem?_snoc.mpr (.inl h.1)
  · intro j hj a' hmem hsome
    rcases getElem?_snoc.mp hsome with hfront | ⟨-, rfl⟩
    · exact h.2 j hj a' hmem hfront
    · exact hnot hmem

theorem openSince_snoc_start (front : List Action) :
    OpenSince (front ++ [.startOneTUUpdate]) front.length := by
  constructor
  · exact getElem?_snoc.mpr (.inr ⟨rfl, rfl⟩)
  · intro _ _ _ _ hsome
    rcases getElem?_snoc.mp hsome with hfront | ⟨_, -⟩
    · have hlt := (List.getElem?_eq_some_iff.mp hfront).1
      omega
    · omega

/-- A sidecar goes on belonging to the current generation until one of the two is replaced. -/
theorem Belongs.snoc (h : Belongs front) (hbuild : a ≠ .buildSidecar)
    (hpublish : a ≠ .publishCoreGeneration) : Belongs (front ++ [a]) := by
  obtain ⟨b, hlast, hcase⟩ := h
  refine ⟨b, hlast.snoc hbuild, ?_⟩
  rcases hcase with hafter | ⟨q, p, hq, hp, hstart, hlastp, hbetween⟩
  · left
    intro p hp hsome
    rcases getElem?_snoc.mp hsome with hfront | ⟨-, heq⟩
    · exact hafter p hp hfront
    · exact hpublish heq
  · right
    refine ⟨q, p, hq, hp, getElem?_snoc.mpr (.inl hstart), hlastp.snoc hpublish, ?_⟩
    intro j hqj hjp a' hmem hsome
    have hlt := (List.getElem?_eq_some_iff.mp hlastp.1).1
    rcases getElem?_snoc.mp hsome with hfront | ⟨_, -⟩
    · exact hbetween j hqj hjp a' hmem hfront
    · omega

theorem belongs_snoc_build (front : List Action) : Belongs (front ++ [.buildSidecar]) := by
  refine ⟨front.length, lastAt_snoc_self front _, .inl ?_⟩
  intro _ _ hsome
  rcases getElem?_snoc.mp hsome with hfront | ⟨-, heq⟩
  · have hlt := (List.getElem?_eq_some_iff.mp hfront).1
    omega
  · cases heq

theorem belongs_snoc_publish {b : ℕ} (hopen : OpenSince front q) (hq : q < b)
    (hlast : LastAt front b .buildSidecar) : Belongs (front ++ [.publishCoreGeneration]) := by
  have hb := (List.getElem?_eq_some_iff.mp hlast.1).1
  refine ⟨b, hlast.snoc (by decide), .inr ⟨q, front.length, hq, hb,
    getElem?_snoc.mpr (.inl hopen.1), lastAt_snoc_self front _, ?_⟩⟩
  intro j hqj _ a' hmem hsome
  rcases getElem?_snoc.mp hsome with hfront | ⟨_, -⟩
  · exact hopen.2 j hqj a' hmem hfront
  · omega

/-! ## Runs that keep sidecars with their attempts -/

variable {c : Constants} {s s' : State}

/-- A sidecar that was started for the staged generation is under way. -/
def State.StagedSidecar (s : State) : Prop :=
  (s.sidecarState = .building ∨ s.sidecarState = .validated) ∧
    s.sidecarGeneration = s.stagedGeneration

/-- An attempt is interrupted only when no sidecar of it is under way. -/
def DropsNoSidecar (s : State) (a : Action) : Prop :=
  a = .interruptPublication → ¬s.StagedSidecar

/-- What a run and its state know of each other. -/
structure Tracked (front : List Action) (s : State) : Prop where
  staged : Staged s
  attempt : s.corePublicationState = .staging → ∃ q, OpenSince front q
  sidecar : s.sidecarState = .building ∨ s.sidecarState = .validated →
    s.sidecarGeneration < s.currentGeneration ∨
      s.sidecarGeneration = s.currentGeneration ∧ Belongs front ∨
      s.corePublicationState = .staging ∧ s.sidecarGeneration = s.currentGeneration + 1 ∧
        ∃ q b, q < b ∧ OpenSince front q ∧ LastAt front b .buildSidecar

/-- An action that touches neither the attempt nor the sidecar. -/
theorem Tracked.frame (h : Tracked front s) (hstaged : Staged s') (hnot : a ∉ boundaries)
    (hbuild : a ≠ .buildSidecar) (hcore : s'.corePublicationState = s.corePublicationState)
    (hcurrent : s'.currentGeneration = s.currentGeneration)
    (hgeneration : s'.sidecarGeneration = s.sidecarGeneration)
    (hstate : s'.sidecarState = .building ∨ s'.sidecarState = .validated →
      s.sidecarState = .building ∨ s.sidecarState = .validated) : Tracked (front ++ [a]) s' := by
  have hpublish : a ≠ .publishCoreGeneration := by
    rintro rfl
    exact hnot (by decide)
  refine ⟨hstaged, ?_, ?_⟩
  · intro hstaging
    rw [hcore] at hstaging
    obtain ⟨q, hq⟩ := h.attempt hstaging
    exact ⟨q, hq.snoc hnot⟩
  · intro hunder
    rw [hcore, hcurrent, hgeneration]
    rcases h.sidecar (hstate hunder) with hold | ⟨hsame, hbelongs⟩ |
      ⟨hstaging, hnext, q, b, hqb, hopen, hlast⟩
    · exact .inl hold
    · exact .inr (.inl ⟨hsame, hbelongs.snoc hbuild hpublish⟩)
    · exact .inr (.inr ⟨hstaging, hnext, q, b, hqb, hopen.snoc hnot, hlast.snoc hbuild⟩)

theorem Tracked.idle (h : Tracked front s) (hstaged : Staged s') (hnot : a ∉ boundaries)
    (hcore : s'.corePublicationState = s.corePublicationState)
    (hidle : ¬(s'.sidecarState = .building ∨ s'.sidecarState = .validated)) :
    Tracked (front ++ [a]) s' := by
  refine ⟨hstaged, ?_, fun hunder => absurd hunder hidle⟩
  intro hstaging
  rw [hcore] at hstaging
  obtain ⟨q, hq⟩ := h.attempt hstaging
  exact ⟨q, hq.snoc hnot⟩

theorem Tracked.step (h : Tracked front s) (hdrops : DropsNoSidecar s a)
    (hstep : s.step c a = some s') : Tracked (front ++ [a]) s' := by
  have hstaged := h.staged.step hstep
  cases a
  case startOneTUUpdate =>
    obtain ⟨⟨hcurrent, -⟩, rfl⟩ := taken hstep
    refine ⟨hstaged, fun _ => ⟨_, openSince_snoc_start front⟩, ?_⟩
    intro hunder
    rcases h.sidecar hunder with hold | ⟨hsame, hbelongs⟩ | ⟨hstaging, -⟩
    · exact .inl hold
    · exact .inr (.inl ⟨hsame, hbelongs.snoc (by decide) (by decide)⟩)
    · rw [hcurrent] at hstaging
      cases hstaging
  case publishCoreGeneration =>
    obtain ⟨⟨-, -, -, hstaging, -⟩, rfl⟩ := taken hstep
    refine ⟨hstaged, nofun, ?_⟩
    intro hunder
    have hgeneration := h.staged.of_staging hstaging
    have hbefore : s.sidecarState = .building ∨ s.sidecarState = .validated := by
      split at hunder
      · rcases hunder with hunder | hunder <;> cases hunder
      · exact hunder
    dsimp only
    rcases h.sidecar hbefore with _ | ⟨_, -⟩ | ⟨-, _, _, _, hqb, hopen, hlast⟩
    · left
      omega
    · left
      omega
    · exact .inr (.inl ⟨by omega, belongs_snoc_publish hopen hqb hlast⟩)
  case interruptPublication =>
    obtain ⟨⟨hstaging, -⟩, rfl⟩ := taken hstep
    refine ⟨hstaged, nofun, ?_⟩
    intro hunder
    rcases h.sidecar hunder with hold | ⟨hsame, hbelongs⟩ | ⟨-, hnext, -⟩
    · exact .inl hold
    · exact .inr (.inl ⟨hsame, hbelongs.snoc (by decide) (by decide)⟩)
    · -- the condition: no sidecar of the attempt is under way
      have hgeneration := h.staged.of_staging hstaging
      exact absurd ⟨hunder, hnext.trans hgeneration.symm⟩ (hdrops rfl)
  case buildSidecar =>
    obtain ⟨-, rfl⟩ := taken hstep
    refine ⟨hstaged, ?_, ?_⟩
    · intro hstaging
      obtain ⟨q, hq⟩ := h.attempt hstaging
      exact ⟨q, hq.snoc (by decide)⟩
    · intro _
      right
      rcases h.staged with ⟨-, _⟩ | ⟨hstaging, hnext⟩
      · left
        rw [if_neg (by omega)]
        exact ⟨rfl, belongs_snoc_build front⟩
      · right
        obtain ⟨q, hq⟩ := h.attempt hstaging
        have hlt := (List.getElem?_eq_some_iff.mp hq.1).1
        rw [if_pos (by omega)]
        exact ⟨hstaging, hnext, q, front.length, hlt, hq.snoc (by decide), lastAt_snoc_self front _⟩
  case prepareSidecarArtifact quality =>
    obtain ⟨⟨hbuilding, -⟩, rfl⟩ := taken hstep
    exact h.frame hstaged (by simp [boundaries]) Action.noConfusion rfl rfl rfl
      fun _ => .inl hbuilding
  case publishSidecar | markSidecarMissing | markSidecarCorrupt | markSidecarIncompatible =>
    obtain ⟨-, rfl⟩ := taken hstep
    refine h.idle hstaged (by decide) rfl ?_
    rintro (hunder | hunder) <;> cases hunder
  case interruptMigration =>
    obtain ⟨-, -, ⟨-, rfl⟩ | ⟨-, rfl⟩⟩ := interruptMigration_cases hstep
    all_goals exact h.frame hstaged (by decide) Action.noConfusion rfl rfl rfl id
  case noOp =>
    cases hstep
    exact h.frame hstaged (by decide) Action.noConfusion rfl rfl rfl id
  all_goals
    obtain ⟨-, rfl⟩ := taken hstep
    refine h.frame hstaged ?_ Action.noConfusion rfl rfl rfl id
    simp [boundaries]

/-- The actions of a run from the valid seed. -/
def Runs (c : Constants) (front : List Action) (s : State) : Prop :=
  (lifecycle c .valid).play (Seed.valid.state c) front = some s

theorem runs_snoc {a : Action} (h : Runs c (front ++ [a]) s') :
    ∃ s, Runs c front s ∧ s.step c a = some s' := by
  rw [Runs, Transition.System.play_append] at h
  obtain ⟨s, hs, hstep⟩ := Option.bind_eq_some_iff.mp h
  refine ⟨s, hs, ?_⟩
  simpa [Transition.System.play, lifecycle] using hstep

theorem tracked_of_runs (hrun : Runs c front s)
    (hdrops : ∀ early a late t, front = early ++ a :: late → Runs c early t → DropsNoSidecar t a) :
    Tracked front s := by
  induction front using List.reverseRecOn generalizing s with
  | nil =>
    cases hrun
    refine ⟨.inl ⟨rfl, rfl⟩, nofun, ?_⟩
    rintro (hunder | hunder) <;> cases hunder
  | append_singleton front a ih =>
    obtain ⟨t, ht, hstep⟩ := runs_snoc hrun
    have htracked := ih ht fun early a' late t' hfront =>
      hdrops early a' (late ++ [a]) t' (by rw [hfront]; simp)
    exact htracked.step (hdrops front a [] t rfl ht) hstep

/-- In a run that never interrupts an attempt while a sidecar of it is under way, every sidecar that is
published belongs to the generation that is current. -/
theorem sidecar_belongs (c : Constants) (actions : List Action) (s : State) (hrun : Runs c actions s)
    (hdrops : ∀ early a late t, actions = early ++ a :: late → Runs c early t → DropsNoSidecar t a) :
    ∀ early late, actions = early ++ .publishSidecar :: late → Belongs early := by
  intro early late hactions
  have hearly : ∃ t, Runs c early t ∧ ∃ t', t.step c .publishSidecar = some t' := by
    rw [Runs, hactions, Transition.System.play_append] at hrun
    obtain ⟨t, ht, hrest⟩ := Option.bind_eq_some_iff.mp hrun
    obtain ⟨t', ht', -⟩ := Option.bind_eq_some_iff.mp hrest
    exact ⟨t, ht, t', ht'⟩
  obtain ⟨_, ht, _, hpublish⟩ := hearly
  obtain ⟨⟨hvalidated, -, -, _, -⟩, -⟩ := taken hpublish
  have htracked := tracked_of_runs ht fun early' a late' t'' hsplit =>
    hdrops early' a (late' ++ .publishSidecar :: late) t'' (by rw [hactions, hsplit]; simp)
  rcases htracked.sidecar (.inr hvalidated) with _ | ⟨-, hbelongs⟩ | ⟨-, _, -⟩
  · omega
  · exact hbelongs
  · omega

/-- Constants with room for a dozen steps. -/
def roomyConstants : Constants := { sampleConstants with traceBound := 16 }

/-- A sidecar that is started in the attempt that is published. -/
def sameAttempt : List Action :=
  [.startOneTUUpdate, .prepareStagedArtifact .valid, .validateStagedArtifact, .buildSidecar,
    .publishCoreGeneration, .prepareSidecarArtifact .valid, .publishSidecar]

theorem sidecar_belongs_sameAttempt : (∃ s, Runs roomyConstants sameAttempt s) ∧
      ∀ early late, sameAttempt = early ++ .publishSidecar :: late → Belongs early := by
  have hsome : ((lifecycle roomyConstants .valid).play (Seed.valid.state roomyConstants)
      sameAttempt).isSome := by
    decide +kernel
  obtain ⟨s, hs⟩ := Option.isSome_iff_exists.mp hsome
  refine ⟨⟨s, hs⟩, sidecar_belongs roomyConstants sameAttempt s hs ?_⟩
  rintro early a late t hactions - rfl
  have hmem : Action.interruptPublication ∈ sameAttempt := by
    rw [hactions]
    simp
  exact absurd hmem (by decide)

/-- A sidecar is started in an attempt that is interrupted, and published for the next one. -/
def droppedAttempt : List Action :=
  [.startOneTUUpdate, .prepareStagedArtifact .valid, .validateStagedArtifact, .buildSidecar,
    .interruptPublication, .startOneTUUpdate, .prepareStagedArtifact .valid,
    .validateStagedArtifact, .publishCoreGeneration, .prepareSidecarArtifact .valid,
    .publishSidecar]

theorem droppedAttempt_published : (∃ s, Runs roomyConstants droppedAttempt s) ∧
      ¬∀ early late, droppedAttempt = early ++ .publishSidecar :: late → Belongs early := by
  have hsome : ((lifecycle roomyConstants .valid).play (Seed.valid.state roomyConstants)
      droppedAttempt).isSome := by
    decide +kernel
  refine ⟨Option.isSome_iff_exists.mp hsome, ?_⟩
  intro h
  obtain ⟨b, ⟨hbuild, -⟩, hcase⟩ := h (droppedAttempt.take 10) [] rfl
  have hlt : b < 10 := (List.getElem?_eq_some_iff.mp hbuild).1
  -- the only start of a sidecar is the fourth action
  obtain rfl : b = 3 := by
    interval_cases b <;> first | rfl | cases hbuild
  rcases hcase with hafter | ⟨_, p, _, -, _, ⟨hpublish, -⟩, hbetween⟩
  · exact hafter 8 (by decide) rfl
  · have hp : p < 10 := (List.getElem?_eq_some_iff.mp hpublish).1
    obtain rfl : p = 8 := by
      interval_cases p <;> first | rfl | cases hpublish
    exact hbetween 4 (by omega) (by decide) .interruptPublication (by decide) rfl

end CppIndexer.StorageLifecycle
