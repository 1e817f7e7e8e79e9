/-
# Dependency evidence

When the facts of a translation unit are published to the cache, the files it
depends on are collected from its include and macro facts.  They serve twice:
as dependencies of the entry's identity, and as edges stored beside the entry.
A later lookup reads the edges back, asks for the present content of every file
they name and computes the identity again; the entry is used only when the two
agree.

System headers are not hashed one by one.  Their paths are collected apart, and
the set of them enters the identity as one dependency on a toolchain.

Contents are asked for through a memo that lasts for one run: the first answer
for a path is the answer for the rest of it.
-/

import CppIndexer.Cache.Identity
import CppIndexer.Lib.ExceptResults

namespace CppIndexer.Cache

open Util Util.PathUtil
open OrderedMap (orderedSet)

/-! ## Facts and edges -/

/-- `TuDependencyKind`. -/
inductive DependencyKind
  | included
  | macroUse
  | generated
  | toolchain
  deriving DecidableEq

namespace DependencyKind

def text : DependencyKind → Bytes
  | included => ascii "include"
  | macroUse => ascii "macro"
  | generated => ascii "generated"
  | toolchain => ascii "toolchain"

/-- The place in the enumeration. -/
def ordinal : DependencyKind → Nat
  | included => 0
  | macroUse => 1
  | generated => 2
  | toolchain => 3

/-- `dependency_kind`: the kind a stored text names. -/
def ofText (value : Bytes) : DependencyKind :=
  if value = ascii "macro" then macroUse
  else if value = ascii "generated" then generated
  else if value = ascii "toolchain" then toolchain
  else included

theorem ordinal_injective : Function.Injective ordinal := by
  intro a b h
  cases a <;> cases b <;> first | rfl | cases h

theorem ofText_text (kind : DependencyKind) : ofText kind.text = kind := by
  cases kind <;> decide

end DependencyKind

/-- An `IncludeFact`: a directive and the file it resolved to. -/
structure IncludeFact where
  srcPath : Bytes
  dstPath : Bytes
  spelling : Bytes
  condFingerprint : Bytes
  resolved : Bool
  isSystem : Bool

/-- A `MacroUseFact`: a macro expanded in one file and defined in another. -/
structure MacroUseFact where
  srcPath : Bytes
  defPath : Bytes
  name : Bytes

structure IncludeFacts where
  includes : List IncludeFact
  macroUses : List MacroUseFact

/-- `TuDependencyEdge`. -/
structure DependencyEdge where
  source : Bytes
  destination : Bytes
  destinationContentSha256 : Bytes
  conditionalContext : Bytes
  provenance : Bytes
  kind : DependencyKind
  resolved : Bool
  system : Bool

/-- The order of the defaulted comparison. -/
def DependencyEdge.key (e : DependencyEdge) :
    Bytes ×ₗ Bytes ×ₗ Bytes ×ₗ Bytes ×ₗ Bytes ×ₗ Nat ×ₗ Bool ×ₗ Bool :=
  toLex (e.source, toLex (e.destination, toLex (e.destinationContentSha256,
    toLex (e.conditionalContext, toLex (e.provenance, toLex (e.kind.ordinal,
      toLex (e.resolved, e.system)))))))

theorem DependencyEdge.key_injective : Function.Injective DependencyEdge.key := by
  rintro ⟨_, _⟩ ⟨_, _⟩ heq
  simp only [DependencyEdge.key, EmbeddingLike.apply_eq_iff_eq, Prod.mk.injEq] at heq
  obtain ⟨rfl, rfl, rfl, rfl, rfl, hkind, rfl, rfl⟩ := heq
  rw [DependencyKind.ordinal_injective hkind]

instance : LinearOrder DependencyEdge :=
  LinearOrder.lift' DependencyEdge.key DependencyEdge.key_injective

/-- `TranslationUnitCacheInputs`, as far as the identity reads them. -/
structure CacheInputs where
  sourceIdentity : Bytes
  configurationIdentity : Bytes
  configurationHash : Bytes
  frontEndReuseIdentity : Bytes
  clangIdentity : Bytes
  environment : List Bytes
  generatedInputs : List Bytes

/-- What a run works with besides the inputs of a unit. -/
structure Service where
  sha : Bytes → Digest
  cwd : Bytes
  /-- `getcwd` returns an absolute path. -/
  cwd_abs : isabs cwd = true
  /-- Whether the index has a row for a path. -/
  knownFile : Bytes → Bool
  graphEnabled : Bool

/-! ## Contents -/

/-- The regular files and their bytes. -/
abbrev Disk := Bytes → Option Bytes

/-- The digests a run has asked for, by canonical path. -/
abbrev Memo := List (Bytes × Option Digest)

/-- The answer to a canonical path: the remembered one, else what is on disk. -/
def Service.answer (svc : Service) (memo : Memo) (disk : Disk) (key : Bytes) : Option Digest :=
  match OrderedMap.find? memo key with
  | some digest => digest
  | none => (disk key).map svc.sha

/-- `content_digest`, and the memo after it. -/
def Service.contentDigest (svc : Service) (memo : Memo) (disk : Disk) (path : Bytes) :
    Option Digest × Memo :=
  let key := canonicalTuCachePath svc.cwd path
  match OrderedMap.find? memo key with
  | some digest => (digest, memo)
  | none => ((disk key).map svc.sha, (key, (disk key).map svc.sha) :: memo)

/-! ## Publication -/

section

variable (svc : Service) (answer : Bytes → Option Digest) (inputs : CacheInputs)

/-- What a dependency fact contributes to an entry. -/
structure Collected where
  edges : List DependencyEdge
  dependencies : List Dependency
  systemPaths : List Bytes

def Collected.empty : Collected := { edges := [], dependencies := [], systemPaths := [] }

def Collected.append (a b : Collected) : Collected where
  edges := a.edges ++ b.edges
  dependencies := a.dependencies ++ b.dependencies
  systemPaths := a.systemPaths ++ b.systemPaths

/-- The text of a generated input, or of one without a row in the index. -/
def isGeneratedInput (path : Bytes) : Bool :=
  let canonical := canonicalTuCachePath svc.cwd path
  inputs.generatedInputs.any (fun generated => canonicalTuCachePath svc.cwd generated = canonical) ||
    (!svc.knownFile canonical &&
      ((ascii ".inc").isSuffixOf canonical || (ascii ".def").isSuffixOf canonical ||
        (ascii ".gen").isSuffixOf canonical))

/-- `dependency_kind_name`. -/
def dependencyKindName (system generated : Bool) : Bytes :=
  if system then ascii "toolchain" else if generated then ascii "generated" else ascii "include"

/-- An include fact; nothing when it cannot be validated again. -/
def collectInclude (fact : IncludeFact) : Option Collected :=
  if fact.resolved = false ∨ fact.dstPath = [] then none
  else if fact.isSystem then
    some { Collected.empty with systemPaths := [canonicalTuCachePath svc.cwd fact.dstPath] }
  else
    (answer (canonicalTuCachePath svc.cwd fact.dstPath)).map fun digest =>
      { edges := [{
          source := fact.srcPath
          destination := fact.dstPath
          destinationContentSha256 := digest.text
          conditionalContext := fact.condFingerprint
          provenance := fact.spelling
          kind := if isGeneratedInput svc inputs fact.dstPath then .generated else .included
          resolved := true
          system := false }]
        dependencies := [{
          path := fact.dstPath
          contentSha256 := digest.text
          kind := dependencyKindName fact.isSystem (isGeneratedInput svc inputs fact.dstPath)
          conditionalContext := fact.condFingerprint }]
        systemPaths := [] }

/-- A macro fact; one without a definition contributes nothing. -/
def collectMacroUse (fact : MacroUseFact) : Option Collected :=
  if fact.defPath = [] then some Collected.empty
  else
    (answer (canonicalTuCachePath svc.cwd fact.defPath)).map fun digest =>
      { edges := [{
          source := fact.srcPath
          destination := fact.defPath
          destinationContentSha256 := digest.text
          conditionalContext := []
          provenance := fact.name
          kind := .macroUse
          resolved := true
          system := false }]
        dependencies := [{
          path := fact.defPath
          contentSha256 := digest.text
          kind := ascii "macro"
          conditionalContext := [] }]
        systemPaths := [] }

/-- `collect_dependencies`. -/
def collectDependencies (facts : IncludeFacts) : Option Collected := do
  let includes ← facts.includes.mapM (collectInclude svc answer inputs)
  let macroUses ← facts.macroUses.mapM (collectMacroUse svc answer)
  some ((includes ++ macroUses).foldr Collected.append Collected.empty)

/-- `append_system_dependency`: the set of system headers as one dependency. -/
def appendSystemDependency (dependencies : List Dependency) (systemPaths : List Bytes) :
    List Dependency :=
  if systemPaths = [] then dependencies
  else
    dependencies ++ [{
      path := ascii "<system-headers>"
      contentSha256 :=
        (svc.sha ((orderedSet systemPaths).flatMap fun path => path ++ [0])).text
      kind := ascii "toolchain"
      conditionalContext := [] }]

/-- `NAME=value`, the value hashed. -/
def environmentValue (entry : Bytes) : EnvironmentValue :=
  let name := entry.takeWhile (· ≠ 61)
  { name := name, valueSha256 := (svc.sha (entry.drop (name.length + 1))).text }

/-- A generated input of the configuration. -/
def generatedDependency (generated : Bytes) : Dependency where
  path := generated
  contentSha256 :=
    ((answer (canonicalTuCachePath svc.cwd generated)).map Digest.text).getD (ascii "<missing>")
  kind := ascii "generated"
  conditionalContext := []

/-- What `compute_identity` hashes. -/
def identityInput (sourceDigest : Digest) (dependencies : List Dependency) : IdentityInput where
  mainSourcePath := inputs.sourceIdentity
  mainSourceSha256 := sourceDigest.text
  translationUnitDescriptor :=
    inputs.configurationIdentity ++ 31 :: inputs.configurationHash ++ 31 :: ascii "graph:" ++
      (if svc.graphEnabled then ascii "1" else ascii "0")
  clangIdentity := inputs.clangIdentity
  frontEndReuseIdentity := inputs.frontEndReuseIdentity
  environment := inputs.environment.map (environmentValue svc)
  dependencies := dependencies ++ inputs.generatedInputs.map (generatedDependency svc answer)

def computeIdentity (sourceDigest : Digest) (dependencies : List Dependency) : Digest :=
  makeTuFactCacheIdentity svc.cwd svc.sha (identityInput svc answer inputs sourceDigest dependencies)

/-- `TranslationUnitDependencyEvidence`; `complete` is its state. -/
structure DependencyEvidence where
  source : Bytes
  configuration : Bytes
  generation : Digest
  complete : Bool
  edges : List DependencyEdge

def DependencyEdge.canonical (e : DependencyEdge) : DependencyEdge :=
  { e with
    source := canonicalTuCachePath svc.cwd e.source
    destination := canonicalTuCachePath svc.cwd e.destination }

/-- `capture_translation_unit_dependency_evidence`. -/
def captureEvidence (generation : Digest) (edges : List DependencyEdge) : DependencyEvidence :=
  let edges := orderedSet (edges.map (DependencyEdge.canonical svc))
  { source := canonicalTuCachePath svc.cwd inputs.sourceIdentity
    configuration := inputs.configurationIdentity
    generation := generation
    complete := edges.all DependencyEdge.resolved
    edges := edges }

/-- `publish`: the identity of the entry and the evidence stored with it. -/
def publish (path : Bytes) (facts : IncludeFacts) : Option (Digest × DependencyEvidence) := do
  let sourceDigest ← answer (canonicalTuCachePath svc.cwd path)
  let collected ← collectDependencies svc answer inputs facts
  let identity := computeIdentity svc answer inputs sourceDigest
    (appendSystemDependency svc collected.dependencies collected.systemPaths)
  some (identity, captureEvidence svc inputs identity collected.edges)

/-! ## Lookup -/

/-- `ORDER BY source, destination, conditional_context`. -/
def edgeRowLe (a b : DependencyEdge) : Bool :=
  toLex (a.source, toLex (a.destination, a.conditionalContext)) ≤
    toLex (b.source, toLex (b.destination, b.conditionalContext))

/-- A row of `tu_dependency` as it is read, its kind written as text. -/
def readRow (e : DependencyEdge) : DependencyEdge := { e with kind := .ofText e.kind.text }

/-- The evidence as it is read back: every row is its own key. -/
def readBack (evidence : DependencyEvidence) : DependencyEvidence :=
  { evidence with
    edges := ((orderedSet (evidence.edges.map (DependencyEdge.canonical svc))).insertionSort
      fun a b => edgeRowLe a b).map readRow }

/-- Why evidence cannot be validated. -/
inductive FallbackReason
  | incompleteEvidence
  | unavailableEvidence
  | unresolvedDependency

/-- One stored edge: a system path, or a dependency with its present content. -/
def edgeDependency (e : DependencyEdge) : Except FallbackReason (Bytes ⊕ Dependency) :=
  if e.resolved = false then .error .unresolvedDependency
  else if e.system then .ok (.inl e.destination)
  else
    match answer (canonicalTuCachePath svc.cwd e.destination) with
    | none => .error .incompleteEvidence
    | some digest =>
      .ok (.inr {
        path := e.destination
        contentSha256 := digest.text
        kind := e.kind.text
        conditionalContext := e.conditionalContext })

/-- The dependencies a lookup hashes. -/
def evidenceDependencies (evidence : DependencyEvidence) : Except FallbackReason (List Dependency) :=
  (evidence.edges.mapM (edgeDependency svc answer)).map fun found =>
    appendSystemDependency svc (found.filterMap Sum.getRight?) (found.filterMap Sum.getLeft?)

/-- `identity_from_evidence`. -/
def identityFromEvidence (sourceDigest : Digest) (evidence : DependencyEvidence) :
    Except FallbackReason Digest :=
  (evidenceDependencies svc answer evidence).map (computeIdentity svc answer inputs sourceDigest)

/-- The identity `try_replay` compares with the stored one. -/
def revalidate (path : Bytes) (evidence : DependencyEvidence) : Except FallbackReason Digest :=
  match answer (canonicalTuCachePath svc.cwd path) with
  | none => .error .unavailableEvidence
  | some sourceDigest => identityFromEvidence svc answer inputs sourceDigest evidence

end

end CppIndexer.Cache
