/-
# Repositories, clones and components

The rows that say where sources are: semantic universes, repositories with their clones, and
components. A grouped component is stored relative to the active clone of its repository, so its
absolute base is computed at each read. The owner of a path is the component whose base is the longest
directory above it.

The operations are those of `storage_repo.cpp`. Each says what it leaves of the rows, and which of the
caches of the service it invalidates.
-/

import CppIndexer.CompileDb.Aliases
import CppIndexer.Storage.Occurrences

namespace CppIndexer.Sources

open Util (Bytes ascii)
open Util.PathUtil
open CompileDb (splitBaseVersion)
open Occurrences (insertNew)

/-! ## Rows -/

/-- `CHECK (kind IN ('repo', 'external'))`. -/
inductive Kind
  | repo
  | external
  deriving DecidableEq

/-- A row of `semantic_universe`. -/
structure Universe where
  key : Bytes
  name : Bytes
  policy : Bytes

/-- A row of `repository`. -/
structure Repository where
  name : Bytes
  kind : Kind
  remoteUrl : Option Bytes := none
  activeCloneId : Option ℕ := none
  universeId : ℕ := 1

/-- A row of `clone`. -/
structure Clone where
  repositoryId : ℕ
  path : Bytes
  label : Option Bytes := none

/-- A row of `component`. -/
structure Component where
  name : Bytes
  path : Bytes
  kind : Kind
  version : Option Bytes := none
  repositoryId : Option ℕ := none
  universeId : Option ℕ := none
  deriving DecidableEq

/-- The universe that the schema inserts. -/
def legacyUniverse : Universe where
  key := ascii "legacy"
  name := ascii "Legacy single-workspace universe"
  policy := ascii "legacy"

/-- The rows of the catalog. -/
structure Corpus where
  universes : AssocMap ℕ Universe := .insertOrAssign .empty 1 legacyUniverse
  repositories : AssocMap ℕ Repository := .empty
  clones : AssocMap ℕ Clone := .empty
  components : AssocMap ℕ Component := .empty

/-- The rows of a table in the order of their ids. -/
def scan {ν : Type} (table : AssocMap ℕ ν) : List (ℕ × ν) :=
  table.entries.insertionSort fun a b => a.1 ≤ b.1

/-- `UPDATE … WHERE id = ?`. -/
def updateRow {ν : Type} (table : AssocMap ℕ ν) (id : ℕ) (f : ν → ν) : AssocMap ℕ ν :=
  table.mapValues fun key row => if key = id then f row else row

/-- A path is stored as it is given when it names a label or a variable. -/
def portable (path : Bytes) : Bool := 36 ∈ path ∨ 60 ∈ path

/-- `while (!root.empty() && root.back() == '/') root.pop_back()`. -/
def rstrip (path : Bytes) : Bytes := (path.reverse.dropWhile (· = slash)).reverse

/-- `LabelResolver{}`: without a registry, the path of a label is derived from its name. -/
def noLabels : LabelResolver := ⟨fun _ => none, true⟩

/-- `effective_root`. -/
def Component.effectiveRoot (c : Component) : Bytes :=
  match c.version with
  | none => c.path
  | some version => if version = [] then c.path else normpath (join c.path version)

/-! ## Reads -/

section

variable (s : Surroundings)

/-- `pathutil::abspath(pathutil::resolve_fs_path(path))`. -/
def resolveAbs (path : Bytes) : Bytes := abspath s.cwd (resolveFsPath s noLabels path)

/-- A path as `add_component` and `add_clone` store it. -/
def storedPath (path : Bytes) : Bytes := if portable path then path else abspath s.cwd path

namespace Corpus

variable (corpus : Corpus)

/-- `active_clone_root`. -/
def activeCloneRoot (repositoryId : Option ℕ) : Option Bytes := do
  let repository ← corpus.repositories.find? (← repositoryId)
  let clone ← corpus.clones.find? (← repository.activeCloneId)
  return resolveAbs s clone.path

/-- `component_abs_base`. -/
def componentAbsBase (c : Component) : Bytes :=
  if c.repositoryId.isSome ∧ !isabs c.path ∧ !portable c.path then
    match corpus.activeCloneRoot s c.repositoryId with
    | some root => abspath s.cwd (join root c.effectiveRoot)
    | none => resolveAbs s c.effectiveRoot
  else resolveAbs s c.effectiveRoot

/-- The base of a component without its trailing slashes. -/
def ownerRoot (c : Component) : Bytes := rstrip (corpus.componentAbsBase s c)

/-- One row in the loop of `component_for_path`. -/
def betterOwner (abs : Bytes) (best : Option (ℕ × Component)) (row : ℕ × Component) :
    Option (ℕ × Component) :=
  let root := corpus.ownerRoot s row.2
  if (abs = root ∨ root ++ [slash] <+: abs) ∧
      best.all fun row' => (corpus.ownerRoot s row'.2).length < root.length then some row
  else best

/-- `component_for_path`. -/
def componentForPath (path : Bytes) : Option (ℕ × Component) :=
  (scan corpus.components).foldl (corpus.betterOwner s (abspath s.cwd path)) none

/-- The owner part of an identity. -/
def ownerText (c : Component) : Bytes :=
  match c.repositoryId.bind corpus.repositories.find? with
  | some repository =>
    match repository.remoteUrl with
    | some url => if url = [] then ascii "repo:" ++ repository.name else ascii "remote:" ++ url
    | none => ascii "repo:" ++ repository.name
  | none => ascii "component:" ++ c.effectiveRoot

/-- `portable_source_identity_for_path` of a path that is resolved, without the cache. -/
def sourceIdentity (abs : Bytes) : Bytes :=
  match corpus.componentForPath s abs with
  | none => ascii "path:" ++ abs
  | some (_, c) =>
    corpus.ownerText c ++ 31 :: c.effectiveRoot ++
      31 :: relpath s.cwd abs (corpus.componentAbsBase s c)

/-- `semantic_universe_key`, without the cache. -/
def universeKey (universeId : ℕ) : Bytes :=
  ((corpus.universes.find? universeId).map (·.key)).getD (ascii "legacy")

end Corpus

end

/-! ## Operations -/

/-- Why a statement fails. -/
inductive Refusal
  | emptyKey
  | foreignKey
  | unique

/-- What an operation forgets of the caches. -/
inductive Forgets
  | nothing
  | sources
  | universe (id : ℕ)

inductive Operation
  | addSemanticUniverse (key name policy : Bytes)
  | setRepositorySemanticUniverse (repositoryId : ℕ) (universeId : Option ℕ)
  | setComponentSemanticUniverse (componentId : ℕ) (universeId : Option ℕ)
  | addComponent (name path : Bytes) (kind : Kind) (version : Option Bytes)
  | updateComponentMeta (componentId : ℕ) (name : Bytes) (kind : Kind) (version : Option Bytes)
  | setComponentVersion (name : Bytes) (version : Option Bytes)
  | setComponentEffectiveVersion (name version : Bytes)
  | relativizeComponent (componentId : ℕ) (cloneRoot : Bytes)
  | setComponentRepository (componentId : ℕ) (repositoryId : Option ℕ)
  | deleteComponent (componentId : ℕ)
  | addRepository (name : Bytes) (kind : Kind) (remoteUrl : Option Bytes) (universeId : Option ℕ)
  | setActiveClone (repositoryId : ℕ) (cloneId : Option ℕ)
  | deleteRepository (repositoryId : ℕ)
  | addClone (repositoryId : ℕ) (path : Bytes) (label : Option Bytes)
  | deleteClone (cloneId : ℕ)

abbrev Result := Except Refusal (Corpus × Forgets)

namespace Corpus

variable (corpus : Corpus)

/-- A universe that a row may refer to. -/
def hasUniverse (universeId : Option ℕ) : Bool :=
  universeId.all fun id => (corpus.universes.find? id).isSome

/-- `UNIQUE (repository_id, path)` of a component that is to have these values. -/
def clashes (componentId : ℕ) (repositoryId : Option ℕ) (path : Bytes) : Bool :=
  repositoryId.isSome && corpus.components.entries.any fun entry =>
    entry.1 ≠ componentId ∧ entry.2.repositoryId = repositoryId ∧ entry.2.path = path

/-- `add_semantic_universe`. -/
def addSemanticUniverse (key name policy : Bytes) : Result :=
  let name := if name = [] then key else name
  if key = [] then .error .emptyKey
  else
    match corpus.universes.minKey? fun row => row.key = key with
    | some id =>
      .ok ({ corpus with universes := updateRow corpus.universes id fun row =>
              { row with name := name, policy := policy } }, .universe id)
    | none =>
      .ok ({ corpus with universes := insertNew corpus.universes ⟨key, name, policy⟩ },
        .universe (Storage.nextRowId (corpus.universes.entries.map Prod.fst)))

/-- `set_repository_semantic_universe`. -/
def setRepositorySemanticUniverse (repositoryId : ℕ) (universeId : Option ℕ) : Result :=
  if (corpus.repositories.find? repositoryId).isSome ∧ !corpus.hasUniverse universeId then
    .error .foreignKey
  else
    .ok ({ corpus with repositories := updateRow corpus.repositories repositoryId fun row =>
            { row with universeId := universeId.getD 1 } }, .nothing)

/-- `set_component_semantic_universe`. -/
def setComponentSemanticUniverse (componentId : ℕ) (universeId : Option ℕ) : Result :=
  if (corpus.components.find? componentId).isSome ∧ !corpus.hasUniverse universeId then
    .error .foreignKey
  else
    .ok ({ corpus with components := updateRow corpus.components componentId fun row =>
            { row with universeId := universeId } }, .nothing)

/-- `UPDATE component SET name = ?, kind = ?, version = COALESCE(?, version) WHERE id = ?`. -/
def updateComponentMeta (componentId : ℕ) (name : Bytes) (kind : Kind) (version : Option Bytes) :
    Result :=
  .ok ({ corpus with components := updateRow corpus.components componentId fun row =>
          { row with name := name, kind := kind, version := version <|> row.version } }, .sources)

variable (s : Surroundings)

/-- `add_component`. -/
def addComponent (name path : Bytes) (kind : Kind) (version : Option Bytes) : Result :=
  let abs := storedPath s path
  match corpus.components.minKey? fun row => row.path = abs with
  | some id => corpus.updateComponentMeta id name kind version
  | none =>
    let row : Component := { name := name, path := abs, kind := kind, version := version }
    .ok ({ corpus with components := insertNew corpus.components row }, .sources)

/-- `set_component_version`. -/
def setComponentVersion (name : Bytes) (version : Option Bytes) : Result :=
  .ok ({ corpus with components := corpus.components.mapValues fun _ row =>
          if row.name = name then { row with version := version } else row }, .sources)

/-- The path with another version in its last segment. -/
def withVersion (base version : Bytes) : Bytes :=
  storedPath s (normpath (join base version))

/-- `set_component_effective_version`. -/
def setComponentEffectiveVersion (name version : Bytes) : Result :=
  match corpus.components.entries.filter fun entry => entry.2.name = name with
  | [(id, row)] =>
    let (base, seg) := splitBaseVersion row.path
    if seg ≠ [] then
      if corpus.clashes id row.repositoryId (withVersion s base version) then .error .unique
      else
        .ok ({ corpus with components := updateRow corpus.components id fun row =>
                { row with path := withVersion s base version, version := none } }, .sources)
    else
      .ok ({ corpus with components := updateRow corpus.components id fun row =>
              { row with version := some version } }, .sources)
  | _ => .ok (corpus, .nothing)

def belowClone (path cloneRoot : Bytes) : Option Bytes :=
  let root := rstrip (resolveAbs s cloneRoot)
  let base := rstrip (abspath s.cwd path)
  if base = root then some dot
  else if root ++ [slash] <+: base then some (relpath s.cwd base root)
  else none

/-- `relativize_component`. -/
def relativizeComponent (componentId : ℕ) (cloneRoot : Bytes) : Result :=
  match corpus.components.find? componentId with
  | none => .ok (corpus, .nothing)
  | some row =>
    if portable row.path ∨ !isabs row.path ∨ (splitBaseVersion row.path).2 ≠ [] then
      .ok (corpus, .nothing)
    else
      match belowClone s row.path cloneRoot with
      | none => .ok (corpus, .nothing)
      | some rel =>
        if corpus.clashes componentId row.repositoryId rel then .error .unique
        else
          .ok ({ corpus with components := updateRow corpus.components componentId fun row =>
                  { row with path := rel } }, .sources)

/-- `set_component_repository`. -/
def setComponentRepository (componentId : ℕ) (repositoryId : Option ℕ) : Result :=
  match corpus.components.find? componentId with
  | none => .ok (corpus, .sources)
  | some row =>
    if !repositoryId.all fun id => (corpus.repositories.find? id).isSome then .error .foreignKey
    else if corpus.clashes componentId repositoryId row.path then .error .unique
    else
      .ok ({ corpus with components := updateRow corpus.components componentId fun row =>
              { row with repositoryId := repositoryId } }, .sources)

/-- `delete_component`. -/
def deleteComponent (componentId : ℕ) : Result :=
  .ok ({ corpus with components := corpus.components.eraseWhere fun id _ => id = componentId },
    .sources)

/-- `add_repository`. -/
def addRepository (name : Bytes) (kind : Kind) (remoteUrl : Option Bytes)
    (universeId : Option ℕ) : Result :=
  if !corpus.hasUniverse universeId then .error .foreignKey
  else
    match corpus.repositories.minKey? fun row => row.name = name with
    | some id =>
      .ok ({ corpus with repositories := updateRow corpus.repositories id fun row =>
              { row with
                kind := kind
                remoteUrl := remoteUrl <|> row.remoteUrl
                universeId := universeId.getD row.universeId } }, .sources)
    | none =>
      let row : Repository :=
        { name := name, kind := kind, remoteUrl := remoteUrl, universeId := universeId.getD 1 }
      .ok ({ corpus with repositories := insertNew corpus.repositories row }, .sources)

/-- `set_active_clone`. -/
def setActiveClone (repositoryId : ℕ) (cloneId : Option ℕ) : Result :=
  .ok ({ corpus with repositories := updateRow corpus.repositories repositoryId fun row =>
          { row with activeCloneId := cloneId } }, .sources)

/-- `delete_repository`: its clones go with it, and its components are no longer grouped. -/
def deleteRepository (repositoryId : ℕ) : Result :=
  .ok ({ corpus with
          repositories := corpus.repositories.eraseWhere fun id _ => id = repositoryId
          clones := corpus.clones.eraseWhere fun _ row => row.repositoryId = repositoryId
          components := corpus.components.mapValues fun _ row =>
            if row.repositoryId = some repositoryId then { row with repositoryId := none }
            else row }, .sources)

/-- `add_clone`. -/
def addClone (repositoryId : ℕ) (path : Bytes) (label : Option Bytes) : Result :=
  if (corpus.repositories.find? repositoryId).isNone then .error .foreignKey
  else
    match corpus.clones.minKey? fun row => row.path = storedPath s path with
    | some id =>
      .ok ({ corpus with clones := updateRow corpus.clones id fun row =>
              { row with repositoryId := repositoryId, label := label <|> row.label } }, .sources)
    | none =>
      let row : Clone := ⟨repositoryId, storedPath s path, label⟩
      .ok ({ corpus with clones := insertNew corpus.clones row }, .sources)

/-- `delete_clone`. -/
def deleteClone (cloneId : ℕ) : Result :=
  .ok ({ corpus with
          repositories := corpus.repositories.mapValues fun _ row =>
            if row.activeCloneId = some cloneId then { row with activeCloneId := none } else row
          clones := corpus.clones.eraseWhere fun id _ => id = cloneId }, .sources)

def run : Operation → Result
  | .addSemanticUniverse key name policy => corpus.addSemanticUniverse key name policy
  | .setRepositorySemanticUniverse repositoryId universeId =>
    corpus.setRepositorySemanticUniverse repositoryId universeId
  | .setComponentSemanticUniverse componentId universeId =>
    corpus.setComponentSemanticUniverse componentId universeId
  | .addComponent name path kind version => corpus.addComponent s name path kind version
  | .updateComponentMeta componentId name kind version =>
    corpus.updateComponentMeta componentId name kind version
  | .setComponentVersion name version => corpus.setComponentVersion name version
  | .setComponentEffectiveVersion name version => corpus.setComponentEffectiveVersion s name version
  | .relativizeComponent componentId cloneRoot => corpus.relativizeComponent s componentId cloneRoot
  | .setComponentRepository componentId repositoryId =>
    corpus.setComponentRepository componentId repositoryId
  | .deleteComponent componentId => corpus.deleteComponent componentId
  | .addRepository name kind remoteUrl universeId =>
    corpus.addRepository name kind remoteUrl universeId
  | .setActiveClone repositoryId cloneId => corpus.setActiveClone repositoryId cloneId
  | .deleteRepository repositoryId => corpus.deleteRepository repositoryId
  | .addClone repositoryId path label => corpus.addClone s repositoryId path label
  | .deleteClone cloneId => corpus.deleteClone cloneId

end Corpus

end CppIndexer.Sources
