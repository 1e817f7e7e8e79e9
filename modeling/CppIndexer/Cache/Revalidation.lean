/-
# Validating an entry again

An entry is published under the identity of one list of dependencies and looked
up under the identity of another, which is stored, sorted and read back.  The
two lists hold the same files with the same kinds and conditions.  They differ
in two places: a publication adds one dependency for its system headers and
stores no edge for them, so that a lookup does not add it; and each list has
the contents its own run has asked for.

So an entry can be found again exactly when the unit includes no system header
and every digest the publication used is the one of the file as it was left.
-/

import CppIndexer.Cache.Evidence

namespace CppIndexer.Cache

open Util Util.PathUtil
open OrderedMap (orderedSet mem_orderedSet)
open List Option DependencyEdge Collected Dependency Digest Except

variable (e : DependencyEdge)

/-- The dependency an edge stands for, with the content it was stored with. -/
def DependencyEdge.dependency : Dependency where
  path := e.destination
  contentSha256 := e.destinationContentSha256
  kind := e.kind.text
  conditionalContext := e.conditionalContext

section

variable {svc : Service} {answer : Bytes → Option Digest} {inputs : CacheInputs}

/-! ## What a publication collects -/

/-- An edge as a publication makes it: resolved, not of a system header or the
toolchain, with the content its run has asked for. -/
structure Fresh (svc : Service) (answer : Bytes → Option Digest) (e : DependencyEdge) : Prop where
  resolved : e.resolved = true
  plain : e.system = false
  named : e.destination ≠ []
  kind : e.kind ≠ .toolchain
  content : ∃ digest, answer (canonicalTuCachePath svc.cwd e.destination) = some digest ∧
    e.destinationContentSha256 = digest.text

/-- What a fact contributes when it names one file that is hashed. -/
structure OneEdge (svc : Service) (answer : Bytes → Option Digest) (path : Bytes)
    (c : Collected) : Prop where
  named : path ≠ []
  noSystem : c.systemPaths = []
  edge : ∃ e, c.edges = [e] ∧ c.dependencies = [e.dependency] ∧ e.destination = path ∧
    Fresh svc answer e

variable {c : Collected} {fact : IncludeFact} {cs : List Collected}

attribute [local simp] DependencyEdge.dependency

theorem collectInclude_cases (h : collectInclude svc answer inputs fact = some c) :
    (fact.isSystem = true ∧ c.edges = [] ∧ c.dependencies = [] ∧ c.systemPaths ≠ []) ∨
      (fact.isSystem = false ∧ OneEdge svc answer fact.dstPath c) := by
  rw [collectInclude] at h
  split at h
  · cases h
  · rename_i hfact
    rw [not_or] at hfact
    split at h
    · rename_i hsystem
      cases h
      exact Or.inl ⟨hsystem, rfl, rfl, cons_ne_nil _ _⟩
    · rename_i hsystem
      have hsystem : fact.isSystem = false := by simpa using hsystem
      obtain ⟨digest, hdigest, rfl⟩ := map_eq_some_iff.mp h
      refine Or.inr ⟨hsystem, hfact.2, rfl, _, rfl, ?_, rfl,
        ⟨rfl, rfl, hfact.2, by split <;> simp, digest, hdigest, rfl⟩⟩
      by_cases hgenerated : isGeneratedInput svc inputs fact.dstPath = true <;>
        simp [dependencyKindName, hsystem, hgenerated, DependencyKind.text]

theorem collectMacroUse_cases {fact : MacroUseFact} (h : collectMacroUse svc answer fact = some c) :
    (fact.defPath = [] ∧ c = empty) ∨ OneEdge svc answer fact.defPath c := by
  rw [collectMacroUse] at h
  split at h
  · rename_i hpath
    cases h
    exact Or.inl ⟨hpath, rfl⟩
  · rename_i hpath
    obtain ⟨digest, hdigest, rfl⟩ := map_eq_some_iff.mp h
    exact Or.inr ⟨hpath, rfl, _, rfl, rfl, rfl, ⟨rfl, rfl, hpath, by simp, digest, hdigest, rfl⟩⟩

/-- The dependencies are those of the edges. -/
structure Consistent (svc : Service) (answer : Bytes → Option Digest) (c : Collected) : Prop where
  fresh : ∀ e ∈ c.edges, Fresh svc answer e
  dependencies : c.dependencies = c.edges.map DependencyEdge.dependency

theorem OneEdge.consistent {path : Bytes} (h : OneEdge svc answer path c) :
    Consistent svc answer c := by
  obtain ⟨_, hedges, hdependencies, -, hfresh⟩ := h.edge
  refine ⟨fun e' he' => ?_, by rw [hedges, hdependencies]; rfl⟩
  rw [hedges, mem_singleton] at he'
  rw [he']
  exact hfresh

theorem consistent_collectInclude
    (h : collectInclude svc answer inputs fact = some c) : Consistent svc answer c := by
  rcases collectInclude_cases h with ⟨-, hedges, hdependencies, -⟩ | ⟨-, hone⟩
  · exact ⟨by simp [hedges], by simp [hedges, hdependencies]⟩
  · exact hone.consistent

theorem consistent_collectMacroUse {fact : MacroUseFact}
    (h : collectMacroUse svc answer fact = some c) : Consistent svc answer c := by
  rcases collectMacroUse_cases h with ⟨-, rfl⟩ | hone
  · exact ⟨fun _ h => absurd h not_mem_nil, rfl⟩
  · exact hone.consistent

theorem consistent_foldr (h : ∀ c ∈ cs, Consistent svc answer c) :
    Consistent svc answer (cs.foldr Collected.append empty) := by
  induction cs with
  | nil => exact ⟨fun _ h => absurd h not_mem_nil, rfl⟩
  | cons _ _ ih =>
    rw [forall_mem_cons] at h
    have hrest := ih h.2
    refine ⟨fun e he => (mem_append.mp he).elim (h.1.fresh e) (hrest.fresh e), ?_⟩
    simp [Collected.append, h.1.dependencies, hrest.dependencies]

theorem mem_foldr_edges {e : DependencyEdge} :
    e ∈ (cs.foldr Collected.append empty).edges ↔ ∃ c ∈ cs, e ∈ c.edges := by
  induction cs with
  | nil => simp [empty]
  | cons _ _ ih => simp [Collected.append, ih]

theorem foldr_systemPaths_eq_nil : (cs.foldr Collected.append empty).systemPaths = [] ↔
      ∀ c ∈ cs, c.systemPaths = [] := by
  induction cs with
  | nil => simp [empty]
  | cons _ _ ih => simp [Collected.append, ih]

variable {facts : IncludeFacts} {collected : Collected}

section

variable (h : collectDependencies svc answer inputs facts = some collected)
include h

theorem collectDependencies_parts :
    ∃ includes macroUses, facts.includes.mapM (collectInclude svc answer inputs) = some includes ∧
      facts.macroUses.mapM (collectMacroUse svc answer) = some macroUses ∧
      collected = (includes ++ macroUses).foldr Collected.append empty := by
  obtain ⟨includes, hincludes, h⟩ := bind_eq_some_iff.mp h
  obtain ⟨macroUses, hmacroUses, h⟩ := bind_eq_some_iff.mp h
  exact ⟨includes, macroUses, hincludes, hmacroUses, by cases h; rfl⟩

theorem consistent_collectDependencies : Consistent svc answer collected := by
  obtain ⟨_, _, hincludes, hmacroUses, rfl⟩ := collectDependencies_parts h
  refine consistent_foldr fun c hc => ?_
  rcases mem_append.mp hc with hmem | hmem
  · obtain ⟨_, -, hfact⟩ := exists_of_mem_mapM hincludes hmem
    exact consistent_collectInclude hfact
  · obtain ⟨_, -, hfact⟩ := exists_of_mem_mapM hmacroUses hmem
    exact consistent_collectMacroUse hfact

/-- System paths come from system includes. -/
theorem systemPaths_eq_nil_iff :
    collected.systemPaths = [] ↔ ∀ fact ∈ facts.includes, fact.isSystem = false := by
  obtain ⟨_, _, hincludes, hmacroUses, rfl⟩ := collectDependencies_parts h
  rw [foldr_systemPaths_eq_nil]
  constructor
  · intro hnil _ hfact
    obtain ⟨c, hc, hcollect⟩ := exists_mem_of_mapM hincludes hfact
    rcases collectInclude_cases hcollect with ⟨-, -, -, hpaths⟩ | ⟨hplain, -⟩
    · exact absurd (hnil c (mem_append_left _ hc)) hpaths
    · exact hplain
  · intro hplain _ hc
    rcases mem_append.mp hc with hmem | hmem
    · obtain ⟨fact, hfact, hcollect⟩ := exists_of_mem_mapM hincludes hmem
      rcases collectInclude_cases hcollect with ⟨hsystem, -⟩ | ⟨-, hone⟩
      · rw [hplain fact hfact] at hsystem
        cases hsystem
      · exact hone.noSystem
    · obtain ⟨_, -, hcollect⟩ := exists_of_mem_mapM hmacroUses hmem
      rcases collectMacroUse_cases hcollect with ⟨-, rfl⟩ | hone
      · rfl
      · exact hone.noSystem

end

/-- The files a publication hashes for its edges: those included that are not
system headers, and those macros come from. -/
def edgePaths (facts : IncludeFacts) : List Bytes :=
  (facts.includes.filter fun fact => fact.isSystem = false).map IncludeFact.dstPath ++
    (facts.macroUses.filter fun fact => fact.defPath ≠ []).map MacroUseFact.defPath

variable {path : Bytes} {answer' : Bytes → Option Digest} {d : Dependency} {e : DependencyEdge}
  {generation digest' digest : Digest} {deps : List Dependency} {edges : List DependencyEdge}

/-- There is an edge to exactly these files. -/
theorem exists_edge_iff (h : collectDependencies svc answer inputs facts = some collected) :
    (∃ e ∈ collected.edges, e.destination = path) ↔ path ∈ edgePaths facts := by
  obtain ⟨_, _, hincludes, hmacroUses, rfl⟩ := collectDependencies_parts h
  simp only [edgePaths, mem_append, List.mem_map, mem_filter, decide_eq_true_eq]
  constructor
  · rintro ⟨_, he, rfl⟩
    obtain ⟨_, hc, he⟩ := mem_foldr_edges.mp he
    rcases mem_append.mp hc with hmem | hmem
    · obtain ⟨fact, hfact, hcollect⟩ := exists_of_mem_mapM hincludes hmem
      rcases collectInclude_cases hcollect with ⟨-, hedges, -⟩ | ⟨hplain, hone⟩
      · rw [hedges] at he
        exact absurd he not_mem_nil
      · obtain ⟨_, hedges, -, hdestination, -⟩ := hone.edge
        rw [hedges, mem_singleton] at he
        exact Or.inl ⟨fact, ⟨hfact, hplain⟩, by rw [he, hdestination]⟩
    · obtain ⟨fact, hfact, hcollect⟩ := exists_of_mem_mapM hmacroUses hmem
      rcases collectMacroUse_cases hcollect with ⟨-, rfl⟩ | hone
      · exact absurd he not_mem_nil
      · obtain ⟨_, hedges, -, hdestination, -⟩ := hone.edge
        rw [hedges, mem_singleton] at he
        exact Or.inr ⟨fact, ⟨hfact, hone.named⟩, by rw [he, hdestination]⟩
  · rintro (⟨fact, ⟨hfact, hplain⟩, rfl⟩ | ⟨fact, ⟨hfact, hpath⟩, rfl⟩)
    · obtain ⟨c, hc, hcollect⟩ := exists_mem_of_mapM hincludes hfact
      rcases collectInclude_cases hcollect with ⟨hsystem, -⟩ | ⟨-, hone⟩
      · rw [hplain] at hsystem
        cases hsystem
      · obtain ⟨e, hedges, -, hdestination, -⟩ := hone.edge
        exact ⟨e, mem_foldr_edges.mpr ⟨c, mem_append_left _ hc, by simp [hedges]⟩, hdestination⟩
    · obtain ⟨c, hc, hcollect⟩ := exists_mem_of_mapM hmacroUses hfact
      rcases collectMacroUse_cases hcollect with ⟨hnil, -⟩ | hone
      · exact absurd hnil hpath
      · obtain ⟨e, hedges, -, hdestination, -⟩ := hone.edge
        exact ⟨e, mem_foldr_edges.mpr ⟨c, mem_append_right _ hc, by simp [hedges]⟩, hdestination⟩

/-! ## What a lookup reads -/

theorem readRow_eq (e : DependencyEdge) : readRow e = e := by
  simp [readRow, DependencyKind.ofText_text]

theorem DependencyEdge.canonical_idem (e : DependencyEdge) :
    (e.canonical svc).canonical svc = e.canonical svc := by
  simp [DependencyEdge.canonical, canonicalTuCachePath_idem svc.cwd_abs]

theorem mem_readBack_edges : e ∈ (readBack svc (captureEvidence svc inputs generation edges)).edges ↔
      ∃ e' ∈ edges, e'.canonical svc = e := by
  simp [readBack, captureEvidence, List.mem_map, mem_insertionSort, mem_orderedSet, readRow_eq,
    exists_eq_right, canonical_idem]

/-- An edge as a dependency with the content a lookup finds. -/
def edgeNow (svc : Service) (answer : Bytes → Option Digest) (e : DependencyEdge) : Dependency :=
  { e.dependency with
    contentSha256 :=
      ((answer (canonicalTuCachePath svc.cwd e.destination)).map Digest.text).getD [] }

attribute [local simp] appendSystemDependency

/-- Resolved edges of other than system headers are validated exactly when
every file they name can be read. -/
theorem evidenceDependencies_eq_ok_iff {evidence : DependencyEvidence}
    (hplain : ∀ e ∈ evidence.edges, e.resolved = true ∧ e.system = false) :
    evidenceDependencies svc answer evidence = .ok deps ↔
      (∀ e ∈ evidence.edges, (answer (canonicalTuCachePath svc.cwd e.destination)).isSome) ∧
        deps = evidence.edges.map (edgeNow svc answer) := by
  have hone : ∀ e ∈ evidence.edges, ∀ y, edgeDependency svc answer e = .ok y ↔
      (answer (canonicalTuCachePath svc.cwd e.destination)).isSome ∧
        y = .inr (edgeNow svc answer e) := by
    intro e he _
    rw [edgeDependency, if_neg (by simp [(hplain e he).1]), if_neg (by simp [(hplain e he).2])]
    cases hanswer : answer (canonicalTuCachePath svc.cwd e.destination) with
    | none => simp
    | some =>
      simp only [ok.injEq, isSome_some, true_and, edgeNow, hanswer, map_some, getD_some, dependency]
      exact eq_comm
  have hfound : ∀ found, evidence.edges.mapM (edgeDependency svc answer) = .ok found ↔
      (∀ e ∈ evidence.edges, (answer (canonicalTuCachePath svc.cwd e.destination)).isSome) ∧
        found = evidence.edges.map fun e => .inr (edgeNow svc answer e) := by
    intro _
    rw [mapM_eq_ok]
    exact List.Forall₂.iff_map hone
  rw [evidenceDependencies, map_eq_ok]
  constructor
  · rintro ⟨found, hmap, rfl⟩
    obtain ⟨hreadable, rfl⟩ := (hfound found).mp hmap
    refine ⟨hreadable, ?_⟩
    simp [Function.comp_def]
  · rintro ⟨hreadable, rfl⟩
    refine ⟨_, (hfound _).mpr ⟨hreadable, rfl⟩, ?_⟩
    simp [Function.comp_def]

theorem canonical_dependency (h : Fresh svc answer e) :
    e.dependency.canonical svc.cwd = (edgeNow svc answer e).canonical svc.cwd := by
  obtain ⟨_, hanswer, hcontent⟩ := h.content
  simp [edgeNow, hanswer, hcontent]

theorem canonical_edgeNow (e : DependencyEdge) :
    (edgeNow svc answer (e.canonical svc)).canonical svc.cwd =
      (edgeNow svc answer e).canonical svc.cwd := by
  simp [Dependency.canonical, edgeNow, DependencyEdge.canonical, canonicalTuCachePath_idem svc.cwd_abs]

/-! ## The two texts -/

def publishedInput (svc : Service) (answer : Bytes → Option Digest) (inputs : CacheInputs)
    (path : Bytes) (facts : IncludeFacts) : Option IdentityInput := do
  let sourceDigest ← answer (canonicalTuCachePath svc.cwd path)
  let collected ← collectDependencies svc answer inputs facts
  some (identityInput svc answer inputs sourceDigest
    (appendSystemDependency svc collected.dependencies collected.systemPaths))

/-- What a lookup hashes. -/
def revalidatedInput (svc : Service) (answer : Bytes → Option Digest) (inputs : CacheInputs)
    (path : Bytes) (evidence : DependencyEvidence) : Except FallbackReason IdentityInput :=
  match answer (canonicalTuCachePath svc.cwd path) with
  | none => .error .unavailableEvidence
  | some sourceDigest =>
    (evidenceDependencies svc answer evidence).map
      (identityInput svc answer inputs sourceDigest)

theorem revalidate_eq (path : Bytes) (evidence : DependencyEvidence) :
    revalidate svc answer inputs path evidence = (revalidatedInput svc answer inputs path evidence).map
        (makeTuFactCacheIdentity svc.cwd svc.sha) := by
  rw [revalidate, revalidatedInput]
  cases answer (canonicalTuCachePath svc.cwd path) with
  | none => rfl
  | some =>
    simp only [identityFromEvidence]
    cases evidenceDependencies svc answer evidence <;> rfl

/-- A publication, taken apart. -/
theorem publish_parts {entry : Digest × DependencyEvidence}
    (h : publish svc answer inputs path facts = some entry) :
    ∃ sourceDigest collected, answer (canonicalTuCachePath svc.cwd path) = some sourceDigest ∧
      collectDependencies svc answer inputs facts = some collected ∧
      publishedInput svc answer inputs path facts =
        some (identityInput svc answer inputs sourceDigest
          (appendSystemDependency svc collected.dependencies collected.systemPaths)) ∧
      entry = (computeIdentity svc answer inputs sourceDigest
          (appendSystemDependency svc collected.dependencies collected.systemPaths),
        captureEvidence svc inputs entry.1 collected.edges) := by
  obtain ⟨sourceDigest, hsource, h⟩ := bind_eq_some_iff.mp h
  obtain ⟨collected, hcollected, h⟩ := bind_eq_some_iff.mp h
  refine ⟨sourceDigest, collected, hsource, hcollected, ?_, by cases h; rfl⟩
  simp [publishedInput, hsource, hcollected]

/-- Two inputs of one unit have the same canonical form exactly when they agree
on the source and on the set of dependencies. -/
theorem canonical_identityInput_eq_iff {deps' : List Dependency} :
    (identityInput svc answer inputs digest deps).canonical svc.cwd =
        (identityInput svc answer' inputs digest' deps').canonical svc.cwd ↔
      digest = digest' ∧ ∀ d : Dependency,
        d ∈ (deps ++ inputs.generatedInputs.map (generatedDependency svc answer)).map
            (Dependency.canonical svc.cwd) ↔
          d ∈ (deps' ++ inputs.generatedInputs.map (generatedDependency svc answer')).map
            (Dependency.canonical svc.cwd) := by
  simp only [identityInput, IdentityInput.canonical, IdentityInput.mk.injEq, true_and]
  refine and_congr text_injective.eq_iff ?_
  constructor
  · intro h _
    rw [← mem_orderedSet, h, mem_orderedSet]
  · intro h
    refine OrderedMap.eq_of_pairwise_of_mem (OrderedMap.pairwise_orderedSet _)
      (OrderedMap.pairwise_orderedSet _) fun d => ?_
    rw [mem_orderedSet, mem_orderedSet]
    exact h d

/-! ## Finding an entry again -/

def onDisk (svc : Service) (disk : Disk) (key : Bytes) : Option Digest := (disk key).map svc.sha

/-- The memo of a lookup after the disk has come to rest: it holds what is on
disk, or what the publishing run has asked for. -/
def Later (svc : Service) (disk : Disk) (memo memo' : Memo) : Prop :=
  ∀ key digest, OrderedMap.find? memo' key = some digest →
    digest = onDisk svc disk key ∨ OrderedMap.find? memo key = some digest

/-- No later lookup falls back, and each finds the identity of the entry. -/
def CanBeHit (svc : Service) (inputs : CacheInputs) (path : Bytes) (memo : Memo) (disk : Disk)
    (entry : Digest × DependencyEvidence) : Prop :=
  ∀ memo', Later svc disk memo memo' →
    revalidate svc (svc.answer memo' disk) inputs path (readBack svc entry.2) = .ok entry.1

/-- The files a publication asks for. -/
def digestedPaths (inputs : CacheInputs) (path : Bytes) (facts : IncludeFacts) : List Bytes :=
  path :: edgePaths facts ++ inputs.generatedInputs

/-- Every answer a publication uses is the digest of the file as it is. -/
def Settled (svc : Service) (inputs : CacheInputs) (path : Bytes) (facts : IncludeFacts)
    (memo : Memo) (disk : Disk) : Prop :=
  ∀ p ∈ digestedPaths inputs path facts,
    svc.answer memo disk (canonicalTuCachePath svc.cwd p) =
      onDisk svc disk (canonicalTuCachePath svc.cwd p)

/-- The hash tells the text of the publication from the one a new run looks
up. -/
def TellsApart (svc : Service) (inputs : CacheInputs) (path : Bytes) (facts : IncludeFacts)
    (memo : Memo) (disk : Disk) (evidence : DependencyEvidence) : Prop :=
  ∀ a b, publishedInput svc (svc.answer memo disk) inputs path facts = some a →
    revalidatedInput svc (svc.answer [] disk) inputs path (readBack svc evidence) = .ok b →
    svc.sha (canonicalText (a.canonical svc.cwd)) = svc.sha (canonicalText (b.canonical svc.cwd)) →
    canonicalText (a.canonical svc.cwd) = canonicalText (b.canonical svc.cwd)

theorem answer_nil (disk : Disk) (key : Bytes) : svc.answer [] disk key = onDisk svc disk key := rfl

theorem answer_later {memo memo' : Memo} {disk : Disk} (h : Later svc disk memo memo')
    {key : Bytes} (hkey : svc.answer memo disk key = onDisk svc disk key) :
    svc.answer memo' disk key = onDisk svc disk key := by
  rw [Service.answer]
  cases hfound : OrderedMap.find? memo' key with
  | none => rfl
  | some digest =>
    rcases h key digest hfound with rfl | hmemo
    · rfl
    · rw [Service.answer, hmemo] at hkey
      exact hkey

theorem readable_readBack_iff : (∀ e ∈ (readBack svc (captureEvidence svc inputs generation edges)).edges,
        (answer' (canonicalTuCachePath svc.cwd e.destination)).isSome) ↔
      ∀ e ∈ edges, (answer' (canonicalTuCachePath svc.cwd e.destination)).isSome := by
  simp [mem_readBack_edges, forall_exists_index, and_imp, DependencyEdge.canonical,
    canonicalTuCachePath_idem svc.cwd_abs]

/-- When a lookup of collected edges hashes something, and what. -/
theorem revalidatedInput_eq_ok_iff (hconsistent : Consistent svc answer collected)
    {b : IdentityInput} :
    revalidatedInput svc answer' inputs path
        (readBack svc (captureEvidence svc inputs generation collected.edges)) = .ok b ↔
      ∃ sourceDigest, answer' (canonicalTuCachePath svc.cwd path) = some sourceDigest ∧
        (∀ e ∈ collected.edges, (answer' (canonicalTuCachePath svc.cwd e.destination)).isSome) ∧
        b = identityInput svc answer' inputs sourceDigest
          ((readBack svc (captureEvidence svc inputs generation collected.edges)).edges.map
            (edgeNow svc answer')) := by
  have hplain : ∀ e ∈ (readBack svc (captureEvidence svc inputs generation collected.edges)).edges,
      e.resolved = true ∧ e.system = false := by
    intro _ he
    obtain ⟨e', he', rfl⟩ := mem_readBack_edges.mp he
    exact ⟨(hconsistent.fresh e' he').resolved, (hconsistent.fresh e' he').plain⟩
  rw [revalidatedInput]
  cases answer' (canonicalTuCachePath svc.cwd path) with
  | none => simp
  | some =>
    simp only [map_eq_ok, some.injEq, exists_eq_left',
      evidenceDependencies_eq_ok_iff hplain, readable_readBack_iff]
    constructor
    · rintro ⟨_, ⟨hsome, rfl⟩, rfl⟩
      exact ⟨hsome, rfl⟩
    · rintro ⟨hsome, rfl⟩
      exact ⟨_, ⟨hsome, rfl⟩, rfl⟩

/-- The dependencies a publication hashes. -/
theorem mem_published (hconsistent : Consistent svc answer collected) :
    d ∈ (appendSystemDependency svc collected.dependencies collected.systemPaths ++
          inputs.generatedInputs.map (generatedDependency svc answer)).map
        (Dependency.canonical svc.cwd) ↔
      (∃ e ∈ collected.edges, (edgeNow svc answer e).canonical svc.cwd = d) ∨
        (∃ g ∈ inputs.generatedInputs, (generatedDependency svc answer g).canonical svc.cwd = d) ∨
        (collected.systemPaths ≠ [] ∧ ∃ s ∈ appendSystemDependency svc [] collected.systemPaths,
            s.canonical svc.cwd = d) := by
  have hedges : (∃ x ∈ collected.dependencies, x.canonical svc.cwd = d) ↔
      ∃ e ∈ collected.edges, (edgeNow svc answer e).canonical svc.cwd = d := by
    rw [hconsistent.dependencies]
    simp only [List.mem_map, exists_exists_and_eq_and]
    exact exists_congr fun e => and_congr_right fun he => by
      rw [canonical_dependency (hconsistent.fresh e he)]
  rw [← hedges]
  by_cases hsystem : collected.systemPaths = []
  · simp [hsystem]
  · rw [appendSystemDependency, appendSystemDependency, if_neg hsystem, if_neg hsystem]
    simp only [nil_append, List.mem_map, mem_append, or_and_right, exists_or,
      exists_exists_and_eq_and, ne_eq, and_iff_right hsystem]
    exact or_assoc.trans (or_congr_right or_comm)

theorem mem_revalidated :
    d ∈ ((readBack svc (captureEvidence svc inputs generation collected.edges)).edges.map
            (edgeNow svc answer') ++ inputs.generatedInputs.map (generatedDependency svc answer')).map
        (Dependency.canonical svc.cwd) ↔
      (∃ e ∈ collected.edges, (edgeNow svc answer' e).canonical svc.cwd = d) ∨
        ∃ g ∈ inputs.generatedInputs, (generatedDependency svc answer' g).canonical svc.cwd = d := by
  simp [mem_readBack_edges, canonical_edgeNow]

/-- Two runs with the same answers hash the same text, unless one has system
headers. -/
theorem canonical_eq_of_agree
    (hconsistent : Consistent svc answer collected) (hsystem : collected.systemPaths = [])
    (hedges : ∀ e ∈ collected.edges, answer' (canonicalTuCachePath svc.cwd e.destination) =
      answer (canonicalTuCachePath svc.cwd e.destination))
    (hgenerated : ∀ g ∈ inputs.generatedInputs, answer' (canonicalTuCachePath svc.cwd g) =
      answer (canonicalTuCachePath svc.cwd g)) : (identityInput svc answer inputs digest
        (appendSystemDependency svc collected.dependencies collected.systemPaths)).canonical
          svc.cwd = (identityInput svc answer' inputs digest
        ((readBack svc (captureEvidence svc inputs generation collected.edges)).edges.map
          (edgeNow svc answer'))).canonical svc.cwd := by
  rw [canonical_identityInput_eq_iff]
  refine ⟨rfl, fun d => ?_⟩
  rw [mem_published hconsistent, mem_revalidated]
  have hnow : ∀ e ∈ collected.edges, edgeNow svc answer' e = edgeNow svc answer e := by
    intro e he
    rw [edgeNow, edgeNow, hedges e he]
  have hsame : ∀ g ∈ inputs.generatedInputs,
      generatedDependency svc answer' g = generatedDependency svc answer g := by
    intro g hg
    rw [generatedDependency, generatedDependency, hgenerated g hg]
  have hleft : (∃ e ∈ collected.edges, (edgeNow svc answer' e).canonical svc.cwd = d) ↔
      ∃ e ∈ collected.edges, (edgeNow svc answer e).canonical svc.cwd = d :=
    exists_congr fun e => and_congr_right fun he => by rw [hnow e he]
  have hright : (∃ g ∈ inputs.generatedInputs,
        (generatedDependency svc answer' g).canonical svc.cwd = d) ↔
      ∃ g ∈ inputs.generatedInputs, (generatedDependency svc answer g).canonical svc.cwd = d :=
    exists_congr fun g => and_congr_right fun hg => by rw [hsame g hg]
  rw [hleft, hright]
  simp [hsystem]

/-- A lookup hashes no dependency on the toolchain. -/
theorem kind_ne_toolchain (hconsistent : Consistent svc answer collected)
    (h : (∃ e ∈ collected.edges, (edgeNow svc answer' e).canonical svc.cwd = d) ∨
      ∃ g ∈ inputs.generatedInputs, (generatedDependency svc answer' g).canonical svc.cwd = d) :
    d.kind ≠ ascii "toolchain" := by
  rcases h with ⟨e, he, rfl⟩ | ⟨_, -, rfl⟩
  · have hkind := (hconsistent.fresh e he).kind
    show e.kind.text ≠ ascii "toolchain"
    cases hcase : e.kind with
    | toolchain => exact absurd hcase hkind
    | included => decide
    | macroUse => decide
    | generated => decide
  · show ascii "generated" ≠ ascii "toolchain"
    decide

theorem text_ne_missing (digest : Digest) : digest.text ≠ ascii "<missing>" := by
  intro h
  have hhead := congrArg List.head? h
  simp [text, ascii] at hhead

theorem shown_injective {a b : Option Digest}
    (h : (a.map text).getD (ascii "<missing>") =
      (b.map text).getD (ascii "<missing>")) : a = b := by
  cases a with
  | none =>
    cases b with
    | none => rfl
    | some y => exact absurd h.symm (text_ne_missing y)
  | some x =>
    cases b with
    | none => exact absurd h (text_ne_missing x)
    | some => rw [text_injective h]

/-- The content under a path is the answer for that path. -/
theorem content_of_mem_hashed
    (hreadable : ∀ e ∈ edges, (answer (canonicalTuCachePath svc.cwd e.destination)).isSome)
    (hd : d ∈ (edges.map (edgeNow svc answer) ++
      inputs.generatedInputs.map (generatedDependency svc answer)).map (Dependency.canonical svc.cwd)) :
    d.contentSha256 = ((answer d.path).map text).getD (ascii "<missing>") ∧
      ∃ p ∈ edges.map destination ++ inputs.generatedInputs, d.path = canonicalTuCachePath svc.cwd p := by
  obtain ⟨_, hd', rfl⟩ := List.mem_map.mp hd
  rcases mem_append.mp hd' with hmem | hmem
  · obtain ⟨e, he, rfl⟩ := List.mem_map.mp hmem
    obtain ⟨_, hdigest⟩ := isSome_iff_exists.mp (hreadable e he)
    refine ⟨by simp [Dependency.canonical, edgeNow, hdigest], ?_⟩
    exact ⟨e.destination, mem_append_left _ (List.mem_map_of_mem he), rfl⟩
  · obtain ⟨g, hg, rfl⟩ := List.mem_map.mp hmem
    exact ⟨rfl, g, mem_append_right _ hg, rfl⟩

/-- What the same text says about the answers of the two runs. -/
theorem agree_of_canonical_eq (hconsistent : Consistent svc answer collected)
    (hreadable : ∀ e ∈ collected.edges, (answer' (canonicalTuCachePath svc.cwd e.destination)).isSome)
    (h : (identityInput svc answer inputs digest
        (appendSystemDependency svc collected.dependencies collected.systemPaths)).canonical
          svc.cwd = (identityInput svc answer' inputs digest'
        ((readBack svc (captureEvidence svc inputs generation collected.edges)).edges.map
          (edgeNow svc answer'))).canonical svc.cwd) : digest = digest' ∧ collected.systemPaths = [] ∧
      (∀ e ∈ collected.edges, answer (canonicalTuCachePath svc.cwd e.destination) =
        answer' (canonicalTuCachePath svc.cwd e.destination)) ∧
      ∀ g ∈ inputs.generatedInputs, answer (canonicalTuCachePath svc.cwd g) =
        answer' (canonicalTuCachePath svc.cwd g) := by
  obtain ⟨hdigest, hmem⟩ := canonical_identityInput_eq_iff.mp h
  have hcontent : ∀ d ∈
      (appendSystemDependency svc collected.dependencies collected.systemPaths ++
        inputs.generatedInputs.map (generatedDependency svc answer)).map
          (Dependency.canonical svc.cwd),
      d.contentSha256 = ((answer' d.path).map text).getD (ascii "<missing>") :=
    fun d hd => (content_of_mem_hashed (readable_readBack_iff.mpr hreadable) ((hmem d).mp hd)).1
  simp only [mem_published hconsistent] at hmem hcontent
  refine ⟨hdigest, ?_, fun e he => ?_, fun g hg => ?_⟩
  · by_contra hsystem
    obtain ⟨sys, hsys, hkind⟩ : ∃ sys ∈ appendSystemDependency svc [] collected.systemPaths,
        sys.kind = ascii "toolchain" := by
      rw [appendSystemDependency, if_neg hsystem]
      exact ⟨_, mem_singleton_self _, rfl⟩
    have hlookup := (hmem (sys.canonical svc.cwd)).mp (Or.inr (Or.inr ⟨hsystem, sys, hsys, rfl⟩))
    exact kind_ne_toolchain hconsistent (mem_revalidated.mp hlookup) hkind
  · obtain ⟨_, hx, -⟩ := (hconsistent.fresh e he).content
    have hsame := hcontent _ (Or.inl ⟨e, he, rfl⟩)
    simp only [Dependency.canonical, edgeNow, dependency] at hsame
    refine shown_injective ?_
    rw [← hsame, hx]
    rfl
  · exact shown_injective (hcontent _ (Or.inr (Or.inl ⟨g, hg, rfl⟩)))

/-- An entry can be found again exactly when its unit includes no system header
and the publication used the digests of the files as it left them. -/
theorem canBeHit_iff {memo : Memo} {disk : Disk} {path : Bytes}
    {entry : Digest × DependencyEvidence}
    (hpublish : publish svc (svc.answer memo disk) inputs path facts = some entry)
    (hsha : TellsApart svc inputs path facts memo disk entry.2) :
    CanBeHit svc inputs path memo disk entry ↔
      (∀ fact ∈ facts.includes, fact.isSystem = false) ∧
        Settled svc inputs path facts memo disk := by
  obtain ⟨digest, collected, hsource, hcollect, hinput, hentry⟩ := publish_parts hpublish
  have hconsistent := consistent_collectDependencies hcollect
  have hevidence : entry.2 = captureEvidence svc inputs entry.1 collected.edges :=
    congrArg Prod.snd hentry
  have hidentity : entry.1 = makeTuFactCacheIdentity svc.cwd svc.sha
      (identityInput svc (svc.answer memo disk) inputs digest
        (appendSystemDependency svc collected.dependencies collected.systemPaths)) :=
    congrArg Prod.fst hentry
  rw [← systemPaths_eq_nil_iff hcollect]
  constructor
  · intro h
    have hnew := h [] fun key digest hfound => by cases hfound
    rw [revalidate_eq] at hnew
    obtain ⟨b, hb, hsame⟩ := Except.map_eq_ok.mp hnew
    have htext := hsha _ b hinput hb (by rw [hidentity] at hsame; exact hsame.symm)
    rw [hevidence] at hb
    obtain ⟨_, hsource', hreadable, rfl⟩ := (revalidatedInput_eq_ok_iff hconsistent).mp hb
    obtain ⟨hdigest, hsystem, hedges, hgenerated⟩ :=
      agree_of_canonical_eq hconsistent hreadable (canonicalText_injective htext)
    refine ⟨hsystem, fun p hp => ?_⟩
    rcases mem_append.mp hp with hp | hp
    · rcases mem_cons.mp hp with rfl | hp
      · rw [hsource, hdigest, ← hsource', answer_nil]
      · obtain ⟨e, he, rfl⟩ := (exists_edge_iff hcollect).mpr hp
        exact hedges e he
    · exact hgenerated p hp
  · rintro ⟨hsystem, hsettled⟩ memo' hlater
    have hanswer : ∀ p ∈ digestedPaths inputs path facts,
        svc.answer memo' disk (canonicalTuCachePath svc.cwd p) =
          svc.answer memo disk (canonicalTuCachePath svc.cwd p) := fun p hp =>
      (answer_later hlater (hsettled p hp)).trans (hsettled p hp).symm
    have hedges : ∀ e ∈ collected.edges,
        svc.answer memo' disk (canonicalTuCachePath svc.cwd e.destination) =
          svc.answer memo disk (canonicalTuCachePath svc.cwd e.destination) := by
      intro e he
      refine hanswer e.destination ?_
      have hpath := (exists_edge_iff hcollect).mp ⟨e, he, rfl⟩
      simp [digestedPaths, hpath]
    have hgenerated : ∀ g ∈ inputs.generatedInputs,
        svc.answer memo' disk (canonicalTuCachePath svc.cwd g) =
          svc.answer memo disk (canonicalTuCachePath svc.cwd g) := fun g hg =>
      hanswer g (by simp [digestedPaths, hg])
    rw [revalidate_eq, hevidence, Except.map_eq_ok]
    refine ⟨_, (revalidatedInput_eq_ok_iff hconsistent).mpr ⟨digest, ?_, ?_, rfl⟩, ?_⟩
    · rw [hanswer path (by simp [digestedPaths])]
      exact hsource
    · intro e he
      obtain ⟨_, hx, -⟩ := (hconsistent.fresh e he).content
      rw [hedges e he, hx]
      rfl
    · refine Eq.trans (congrArg (fun i => svc.sha (canonicalText i)) ?_) hidentity.symm
      exact (canonical_eq_of_agree hconsistent hsystem hedges hgenerated).symm

end

/-! ## Two units -/

/-- A run in `/w`, with a hash that keeps every text apart. -/
def plainService : Service where
  sha := Digest.mk
  cwd := ascii "/w"
  cwd_abs := by decide
  knownFile := fun _ => true
  graphEnabled := true

def plainInputs : CacheInputs where
  sourceIdentity := ascii "/w/main.cpp"
  configurationIdentity := ascii "c"
  configurationHash := ascii "h"
  frontEndReuseIdentity := ascii "none"
  clangIdentity := ascii "clang"
  environment := []
  generatedInputs := []

/-- Every file is there, and holds its own name. -/
def plainDisk : Disk := some

def includeOf (dst : Bytes) (isSystem : Bool) : IncludeFact where
  srcPath := ascii "/w/main.cpp"
  dstPath := dst
  spelling := dst
  condFingerprint := []
  resolved := true
  isSystem := isSystem

/-- A unit with a header of its own is found again. -/
theorem canBeHit_iff_ownHeader :
    ∃ entry, publish plainService (plainService.answer [] plainDisk) plainInputs
        (ascii "main.cpp") { includes := [includeOf (ascii "a.h") false], macroUses := [] } =
          some entry ∧
      CanBeHit plainService plainInputs (ascii "main.cpp") [] plainDisk entry := by
  have hpublish : (publish plainService (plainService.answer [] plainDisk) plainInputs
      (ascii "main.cpp") { includes := [includeOf (ascii "a.h") false], macroUses := [] }).isSome :=
    by decide +kernel
  obtain ⟨entry, hentry⟩ := isSome_iff_exists.mp hpublish
  refine ⟨entry, hentry, (canBeHit_iff hentry ?_).mpr ⟨by decide, fun p _ => rfl⟩⟩
  intro _ _ _ _ h
  exact congrArg Digest.hex h

/-- A unit that includes a system header is not. -/
theorem systemHeader_never_hits :
    ∃ entry, publish plainService (plainService.answer [] plainDisk) plainInputs
        (ascii "main.cpp") { includes := [includeOf (ascii "/usr/v") true], macroUses := [] } =
          some entry ∧
      revalidate plainService (plainService.answer [] plainDisk) plainInputs (ascii "main.cpp")
        (readBack plainService entry.2) ≠ .ok entry.1 ∧
      ¬ CanBeHit plainService plainInputs (ascii "main.cpp") [] plainDisk entry := by
  have hpublish : ((publish plainService (plainService.answer [] plainDisk) plainInputs
      (ascii "main.cpp") { includes := [includeOf (ascii "/usr/v") true], macroUses := [] }).map
        fun entry => decide ((revalidate plainService (plainService.answer [] plainDisk) plainInputs
          (ascii "main.cpp") (readBack plainService entry.2)).toOption = some entry.1)) =
      some false := by decide +kernel
  obtain ⟨entry, hentry, hmiss⟩ := map_eq_some_iff.mp hpublish
  have hmiss : revalidate plainService (plainService.answer [] plainDisk) plainInputs
      (ascii "main.cpp") (readBack plainService entry.2) ≠ .ok entry.1 := by
    intro h
    simp [h, Except.toOption] at hmiss
  exact ⟨entry, hentry, hmiss, fun h => hmiss (h [] fun key digest hfound => by cases hfound)⟩

end CppIndexer.Cache
