/-
# Headers and replay

A translation unit indexes, besides its own file, the headers it includes that
lie in a component and are not indexed yet.  Which those are depends on what the
other units have indexed before.  The entry a unit publishes holds the facts of
the headers it indexed then and of no others, and the identity of the entry
says nothing about the rest: its files may all be as they were while a header
that was left to another unit has lost its row.

A replay indexes the headers of the entry.  These are all that an extraction
would index exactly when every header the entry has left to others is still
indexed.

The parser is a parameter: the facts of a unit are a function of what stands at
the paths the parse looks at.  Some of these paths appear in no fact, those
where it finds no file and those of system headers, and the identity of an
entry does not cover them; the histories are those in which they have not
changed when an entry is replayed.  Calls run one after another here, and their
digests are those of the files as they are.
-/

import CppIndexer.Cache.Interleaving
import Mathlib.Data.List.Dedup

namespace CppIndexer.Cache

open Util Util.PathUtil
open OrderedMap (orderedSet mem_orderedSet)
open List Option

/-- The row of a header: its flag, the hash of the indexed content and the
configurations it is associated with. -/
structure HeaderRow where
  indexed : Bool
  md5 : Bytes
  configs : List Bytes

/-- What surrounds the calls. -/
structure Workspace (svc : Service) where
  md5 : Bytes → Bytes
  /-- Whether a path lies in a component. -/
  owns : Bytes → Bool
  /-- The units under their configurations, one to a slot of the cache. -/
  unit : Nat → Call svc
  /-- The normalised configuration a unit is indexed under. -/
  config : Nat → Bytes
  /-- The dependency facts of a parse. -/
  facts : Nat → Disk → IncludeFacts
  /-- The paths at which a parse looks for a file. -/
  looked : Nat → Disk → List Bytes
  /-- A parse depends on what it finds there. -/
  facts_local : ∀ u disk disk',
    (∀ key ∈ looked u disk, disk' key = disk key) → facts u disk' = facts u disk

/-- A cache entry with the headers of its replay context. -/
structure ReplayEntry where
  entry : Entry
  /-- The headers the extraction indexed, with the hashes of their contents. -/
  headers : List (Bytes × Bytes)
  /-- The headers it found indexed. -/
  left : List Bytes
  /-- What it found at the paths that its facts do not name. -/
  probed : List (Bytes × Option Bytes)

/-- A hit: the headers an extraction would have indexed, the ones the replay
did, and those left to others that are not indexed any more. -/
structure Replay where
  wouldOwn : List Bytes
  published : List Bytes
  lost : List Bytes
  deriving DecidableEq

/-- Everything an extraction would have indexed was indexed. -/
def Replay.Complete (replay : Replay) : Prop := ∀ h ∈ replay.wouldOwn, h ∈ replay.published

instance (replay : Replay) : Decidable replay.Complete :=
  inferInstanceAs (Decidable (∀ h ∈ replay.wouldOwn, h ∈ replay.published))

structure IndexState where
  disk : Disk
  rows : Bytes → Option HeaderRow
  cache : Nat → Option ReplayEntry
  replays : List Replay

inductive IndexAction
  | edit (key : Bytes) (content : Option Bytes)
  /-- `set_file_indexed`. -/
  | setIndexed (path : Bytes) (indexed : Bool)
  /-- `delete_file`. -/
  | remove (path : Bytes)
  | indexOne (u : Nat)

section

variable {svc : Service} (ws : Workspace svc)

namespace Workspace

/-- The headers of a component a unit includes, each once. -/
def componentHeaders (facts : IncludeFacts) : List Bytes :=
  ((facts.includes.filter fun fact => fact.resolved ∧ fact.isSystem = false).map fun fact =>
    abspath svc.cwd fact.dstPath).dedup.filter fun path => ws.owns path

/-- `header_is_already_indexed`, of the content the file has. -/
def alreadyIndexed (disk : Disk) (rows : Bytes → Option HeaderRow) (u : Nat) (path : Bytes) : Bool :=
  match rows path with
  | none => false
  | some row =>
    row.indexed ∧ ws.config u ∈ row.configs ∧ (disk path).map ws.md5 = some row.md5

/-- The headers an extraction of the unit indexes. -/
def wouldOwn (disk : Disk) (rows : Bytes → Option HeaderRow) (u : Nat) : List Bytes :=
  (ws.componentHeaders (ws.facts u disk)).filter fun path => !ws.alreadyIndexed disk rows u path

/-- The headers it leaves to the units that have indexed them. -/
def leftToOthers (disk : Disk) (rows : Bytes → Option HeaderRow) (u : Nat) : List Bytes :=
  (ws.componentHeaders (ws.facts u disk)).filter fun path => ws.alreadyIndexed disk rows u path

/-- A header with the hash of its content. -/
def snapshot (disk : Disk) (path : Bytes) : Bytes × Bytes :=
  (path, ((disk path).map ws.md5).getD [])

/-- `mark_file_indexed`, and the association with the configuration. -/
def markIndexed (u : Nat) (rows : Bytes → Option HeaderRow) (header : Bytes × Bytes) :
    Bytes → Option HeaderRow :=
  Function.update rows header.1 (some {
    indexed := true
    md5 := header.2
    configs := ws.config u :: ((rows header.1).map HeaderRow.configs).getD [] })

variable (s : IndexState)

/-- Whether the entry of the unit can be replayed. -/
def usable (u : Nat) (found : ReplayEntry) : Bool :=
  (revalidate svc (onDisk svc s.disk) (ws.unit u).inputs (ws.unit u).path
      (readBack svc found.entry.evidence)).toOption = some found.entry.identity ∧
    found.entry.routes.all (contentIsCurrent ws.md5 s.disk)

def replayOf (u : Nat) (found : ReplayEntry) : Replay where
  wouldOwn := ws.wouldOwn s.disk s.rows u
  published := found.headers.map Prod.fst
  lost := found.left.filter fun path => !ws.alreadyIndexed s.disk s.rows u path

def replay (u : Nat) (found : ReplayEntry) : IndexState :=
  { s with
    rows := found.headers.foldl (ws.markIndexed u) s.rows
    replays := ws.replayOf s u found :: s.replays }

/-- The files of a key list that are there, with their contents. -/
def contentsOf (disk : Disk) (keys : List Bytes) : List (Bytes × Bytes) :=
  keys.filterMap fun key => (disk key).map fun content => (key, content)

/-- The entry an extraction publishes. -/
def entryOf (u : Nat) (identity : Digest) (evidence : DependencyEvidence) : ReplayEntry where
  entry := {
    identity := identity
    evidence := evidence
    routes := contentsOf s.disk
      (canonicalTuCachePath svc.cwd (ws.unit u).path :: ws.wouldOwn s.disk s.rows u)
    extracted := contentsOf s.disk (extractedKeys svc (ws.unit u).path (ws.facts u s.disk)) }
  headers := (ws.wouldOwn s.disk s.rows u).map (ws.snapshot s.disk)
  left := ws.leftToOthers s.disk s.rows u
  probed := ((ws.looked u s.disk).filter fun key =>
    key ∉ extractedKeys svc (ws.unit u).path (ws.facts u s.disk)).map fun key => (key, s.disk key)

/-- The extraction of a unit and the publication of its entry. -/
def extract (u : Nat) : IndexState :=
  let rows := ((ws.wouldOwn s.disk s.rows u).map (ws.snapshot s.disk)).foldl
    (ws.markIndexed u) s.rows
  match publish svc (onDisk svc s.disk) (ws.unit u).inputs (ws.unit u).path
      (ws.facts u s.disk) with
  | none => { s with rows := rows }
  | some (identity, evidence) =>
    { s with
      rows := rows
      cache := Function.update s.cache u (some (ws.entryOf s u identity evidence)) }

/-- `index_one`. -/
def indexOne (u : Nat) : IndexState :=
  match s.cache u with
  | none => ws.extract s u
  | some found => if ws.usable s u found then ws.replay s u found else ws.extract s u

def step : IndexAction → Option IndexState
  | .edit key content => some { s with disk := Function.update s.disk key content }
  | .setIndexed path indexed =>
    some { s with
      rows := Function.update s.rows path
        ((s.rows path).map fun row => { row with indexed := indexed }) }
  | .remove path => some { s with rows := Function.update s.rows path none }
  | .indexOne u => some (ws.indexOne s u)

/-- Histories of an index that starts with nothing indexed or cached. -/
def histories (disk : Disk) : Transition.System IndexState IndexAction where
  init := { disk := disk, rows := fun _ => none, cache := fun _ => none, replays := [] }
  step := ws.step

/-- An entry is replayed only while the paths its facts do not name are as its
extraction found them. -/
def Unshadowed : IndexAction → Prop
  | .indexOne u =>
    ∀ found, s.cache u = some found → ws.usable s u found = true →
      ∀ probe ∈ found.probed, s.disk probe.1 = probe.2
  | _ => True

/-- The texts a step brings into play belong to a given set. -/
def Among (texts : Set Bytes) (s : IndexState) : IndexAction → Prop
  | .edit _ content => ∀ c, content = some c → c ∈ texts
  | .indexOne u =>
    (∀ found b, s.cache u = some found →
      revalidatedInput svc (onDisk svc s.disk) (ws.unit u).inputs (ws.unit u).path
        (readBack svc found.entry.evidence) = .ok b →
          canonicalText (b.canonical svc.cwd) ∈ texts) ∧
      ∀ a, publishedInput svc (onDisk svc s.disk) (ws.unit u).inputs (ws.unit u).path
        (ws.facts u s.disk) = some a → canonicalText (a.canonical svc.cwd) ∈ texts
  | _ => True

end Workspace

/-! ## The invariant -/

variable {ws} {texts : Set Bytes}

/-- The files an entry was made from: its unit was parsed over them, and every
header of a component was indexed by it or found indexed, and not both. -/
structure MadeFrom (ws : Workspace svc) (u : Nat) (found : ReplayEntry) (disk : Disk) : Prop where
  contents : ∀ key ∈ ws.looked u disk,
    (∃ c, disk key = some c ∧ (key, c) ∈ found.entry.extracted) ∨ (key, disk key) ∈ found.probed
  headers : ∀ path ∈ ws.componentHeaders (ws.facts u disk),
    path ∈ found.headers.map Prod.fst ∨ path ∈ found.left
  left : ∀ path ∈ found.left,
    path ∈ ws.componentHeaders (ws.facts u disk) ∧ path ∉ found.headers.map Prod.fst

structure EntrySound (ws : Workspace svc) (texts : Set Bytes) (u : Nat) (found : ReplayEntry) :
    Prop where
  plain : PlainEvidence (readBack svc found.entry.evidence)
  covers : ∃ input, Covers svc texts found.entry input
  made : ∃ disk, MadeFrom ws u found disk

structure Consistently (ws : Workspace svc) (texts : Set Bytes) (s : IndexState) : Prop where
  disk : ∀ key c, s.disk key = some c → c ∈ texts
  cache : ∀ u found, s.cache u = some found → EntrySound ws texts u found
  replays : ∀ replay ∈ s.replays, replay.Complete ↔ replay.lost = []

/-! ## Replays -/

variable {path : Bytes} {file : Bytes × Bytes} {rows : Bytes → Option HeaderRow}
  {evidence : DependencyEvidence} {identity : Digest} {disk : Disk} {s : IndexState} {u : Nat}
  {found : ReplayEntry}

theorem mem_wouldOwn : path ∈ ws.wouldOwn disk rows u ↔ path ∈ ws.componentHeaders (ws.facts u disk) ∧
        ws.alreadyIndexed disk rows u path = false := by
  simp [Workspace.wouldOwn]

theorem mem_leftToOthers : path ∈ ws.leftToOthers disk rows u ↔
      path ∈ ws.componentHeaders (ws.facts u disk) ∧ ws.alreadyIndexed disk rows u path = true := by
  simp [Workspace.leftToOthers]

theorem agrees_of_usable (hsha : Set.InjOn svc.sha texts)
    (h : Consistently ws texts s) (hamong : ws.Among texts s (.indexOne u))
    (hfound : s.cache u = some found) (husable : ws.usable s u found = true)
    (hfile : file ∈ found.entry.extracted) : s.disk file.1 = some file.2 := by
  obtain ⟨hplain, ⟨_, hcovers⟩, -⟩ := h.cache u found hfound
  have hvalid : revalidate svc (onDisk svc s.disk) (ws.unit u).inputs (ws.unit u).path
      (readBack svc found.entry.evidence) = .ok found.entry.identity :=
    Except.toOption_eq_some.mp (of_decide_eq_true husable).1
  have hanswer := (answer_of_covers hsha hcovers hplain (fun b => hamong.1 found b hfound)
    hvalid hfile).1
  obtain ⟨c, hc, hsame⟩ := map_eq_some_iff.mp hanswer
  rw [hc, hsha (h.disk _ c hc) (hcovers.contents file hfile).1 hsame]

theorem facts_of_usable (hsha : Set.InjOn svc.sha texts)
    (h : Consistently ws texts s) (hunshadowed : ws.Unshadowed s (.indexOne u))
    (hamong : ws.Among texts s (.indexOne u))
    (hfound : s.cache u = some found) (husable : ws.usable s u found = true)
    (hmade : MadeFrom ws u found disk) : ws.facts u s.disk = ws.facts u disk := by
  refine ws.facts_local u disk s.disk fun key hkey => ?_
  rcases hmade.contents key hkey with ⟨_, hc, hfile⟩ | hprobed
  · rw [hc]
    exact agrees_of_usable hsha h hamong hfound husable hfile
  · exact hunshadowed found hfound husable _ hprobed

/-- A replay indexes what an extraction would index exactly when nothing that
was left to others is lost. -/
theorem complete_iff_of_facts
    (hmade : MadeFrom ws u found disk) (hfacts : ws.facts u s.disk = ws.facts u disk) :
    (ws.replayOf s u found).Complete ↔ (ws.replayOf s u found).lost = [] := by
  constructor
  · intro hcomplete
    refine filter_eq_nil_iff.mpr fun path hpath hlost => ?_
    have hlost : ws.alreadyIndexed s.disk s.rows u path = false := by simpa using hlost
    obtain ⟨hheader, hnot⟩ := hmade.left path hpath
    exact hnot (hcomplete path (mem_wouldOwn.mpr ⟨by rw [hfacts]; exact hheader, hlost⟩))
  · intro hnil path hpath
    obtain ⟨hheader, hnot⟩ := mem_wouldOwn.mp hpath
    rw [hfacts] at hheader
    rcases hmade.headers path hheader with hpublished | hleft
    · exact hpublished
    · have hkept := filter_eq_nil_iff.mp hnil path hleft
      simp [hnot] at hkept

theorem consistently_replay (hsha : Set.InjOn svc.sha texts)
    (h : Consistently ws texts s) (hunshadowed : ws.Unshadowed s (.indexOne u))
    (hamong : ws.Among texts s (.indexOne u))
    (hfound : s.cache u = some found) (husable : ws.usable s u found = true) :
    Consistently ws texts (ws.replay s u found) := by
  refine ⟨h.disk, h.cache, fun replay hreplay => ?_⟩
  rcases mem_cons.mp hreplay with rfl | hreplay
  · obtain ⟨_, hmade⟩ := (h.cache u found hfound).made
    exact complete_iff_of_facts hmade
      (facts_of_usable hsha h hunshadowed hamong hfound husable hmade)
  · exact h.replays replay hreplay

/-! ## Extractions -/

theorem mem_contentsOf {keys : List Bytes} :
    file ∈ Workspace.contentsOf disk keys ↔ file.1 ∈ keys ∧ disk file.1 = some file.2 := by
  obtain ⟨path, content⟩ := file
  simp only [Workspace.contentsOf, mem_filterMap, map_eq_some_iff, Prod.mk.injEq]
  constructor
  · rintro ⟨_, hkey, _, hc, rfl, rfl⟩
    exact ⟨hkey, hc⟩
  · rintro ⟨hkey, hc⟩
    exact ⟨path, hkey, content, hc, rfl, rfl⟩

theorem onDisk_of_publish {inputs : CacheInputs}
    {facts : IncludeFacts} {entry : Digest × DependencyEvidence}
    (h : publish svc (onDisk svc disk) inputs path facts = some entry) {key : Bytes}
    (hkey : key ∈ extractedKeys svc path facts) : ∃ c, disk key = some c := by
  obtain ⟨_, _, hsource, hcollect, -, -⟩ := publish_parts h
  obtain ⟨_, hp, rfl⟩ := List.mem_map.mp hkey
  rcases mem_cons.mp hp with rfl | hp
  · obtain ⟨c, hc, -⟩ := map_eq_some_iff.mp hsource
    exact ⟨c, hc⟩
  · obtain ⟨e, he, rfl⟩ := (exists_edge_iff hcollect).mpr (mem_append_left _ hp)
    obtain ⟨_, hfound, -⟩ := ((consistent_collectDependencies hcollect).fresh e he).content
    obtain ⟨c, hc, -⟩ := map_eq_some_iff.mp hfound
    exact ⟨c, hc⟩

theorem madeFrom_entryOf (h : publish svc (onDisk svc s.disk) (ws.unit u).inputs (ws.unit u).path
      (ws.facts u s.disk) = some (identity, evidence)) :
    MadeFrom ws u (ws.entryOf s u identity evidence) s.disk := by
  have hpaths : (ws.entryOf s u identity evidence).headers.map Prod.fst =
      ws.wouldOwn s.disk s.rows u := by
    simp [Workspace.entryOf, Workspace.snapshot, Function.comp_def]
  refine ⟨fun key hkey => ?_, fun path hpath => ?_, fun path hpath => ?_⟩
  · by_cases hnamed : key ∈ extractedKeys svc (ws.unit u).path (ws.facts u s.disk)
    · obtain ⟨c, hc⟩ := onDisk_of_publish h hnamed
      exact Or.inl ⟨c, hc, mem_contentsOf.mpr ⟨hnamed, hc⟩⟩
    · right
      exact List.mem_map.mpr ⟨key, mem_filter.mpr ⟨hkey, by simpa using hnamed⟩, rfl⟩
  · rw [hpaths]
    cases hindexed : ws.alreadyIndexed s.disk s.rows u path with
    | false => exact Or.inl (mem_wouldOwn.mpr ⟨hpath, hindexed⟩)
    | true => exact Or.inr (mem_leftToOthers.mpr ⟨hpath, hindexed⟩)
  · obtain ⟨hheader, hindexed⟩ := mem_leftToOthers.mp hpath
    refine ⟨hheader, fun howned => ?_⟩
    rw [hpaths, mem_wouldOwn, hindexed] at howned
    cases howned.2

theorem entrySound_entryOf (h : Consistently ws texts s) (hamong : ws.Among texts s (.indexOne u))
    (hpublish : publish svc (onDisk svc s.disk) (ws.unit u).inputs (ws.unit u).path
      (ws.facts u s.disk) = some (identity, evidence)) :
    EntrySound ws texts u (ws.entryOf s u identity evidence) := by
  refine ⟨plainEvidence_readBack hpublish, ?_, s.disk, madeFrom_entryOf hpublish⟩
  refine covers_of_publish hpublish hamong.2 ?_ ?_
  · exact fun file hfile => (mem_contentsOf.mp hfile).1
  · intro _ hfile
    obtain ⟨-, hc⟩ := mem_contentsOf.mp hfile
    exact ⟨h.disk _ _ hc, by rw [onDisk, hc]; rfl⟩

theorem consistently_extract (h : Consistently ws texts s)
    (hamong : ws.Among texts s (.indexOne u)) : Consistently ws texts (ws.extract s u) := by
  rw [Workspace.extract]
  cases hpublish : publish svc (onDisk svc s.disk) (ws.unit u).inputs (ws.unit u).path
      (ws.facts u s.disk) with
  | none => exact ⟨h.disk, h.cache, h.replays⟩
  | some entry =>
    obtain ⟨_, _⟩ := entry
    refine ⟨h.disk, fun u' found hfound => ?_, h.replays⟩
    by_cases hu : u' = u
    · subst hu
      simp only [Function.update_self, some.injEq] at hfound
      rw [← hfound]
      exact entrySound_entryOf h hamong hpublish
    · simp only [Function.update_of_ne hu] at hfound
      exact h.cache u' found hfound

/-! ## Every step -/

theorem consistently_step (hsha : Set.InjOn svc.sha texts) {s' : IndexState}
    {action : IndexAction} (h : Consistently ws texts s) (hunshadowed : ws.Unshadowed s action)
    (hamong : ws.Among texts s action) (hstep : ws.step s action = some s') :
    Consistently ws texts s' := by
  cases action with
  | edit key =>
    cases hstep
    refine ⟨fun key' c hc => ?_, h.cache, h.replays⟩
    by_cases hkey : key' = key
    · subst hkey
      simp only [Function.update_self] at hc
      exact hamong c hc
    · simp only [Function.update_of_ne hkey] at hc
      exact h.disk key' c hc
  | setIndexed | remove =>
    cases hstep
    exact ⟨h.disk, h.cache, h.replays⟩
  | indexOne u =>
    cases hstep
    rw [Workspace.indexOne]
    cases hfound : s.cache u with
    | none => exact consistently_extract h hamong
    | some =>
      simp only
      split
      · rename_i husable
        exact consistently_replay hsha h hunshadowed hamong hfound husable
      · exact consistently_extract h hamong

/-- In every history, a hit indexes all that an extraction would have indexed
exactly when every header that the entry has left to others is still indexed
then. -/
theorem replay_complete_iff (hsha : Set.InjOn svc.sha texts) {disk : Disk}
    (hdisk : ∀ key c, disk key = some c → c ∈ texts) {s : IndexState}
    (h : (ws.histories disk).ReachableWithin
      (fun s action => ws.Unshadowed s action ∧ ws.Among texts s action) s) :
    ∀ replay ∈ s.replays, replay.Complete ↔ replay.lost = [] := by
  have hconsistent : Consistently ws texts s := by
    refine h.invariant ?_ ?_
    · exact ⟨hdisk, fun _ _ hfound => (by cases hfound), fun _ hreplay =>
        absurd hreplay not_mem_nil⟩
    · intro _ _ _ hs hok hstep
      exact consistently_step hsha hs hok.1 hok.2 hstep
  exact hconsistent.replays

end

/-! ## Two histories -/

/-- Two units, `a.cpp` and `b.cpp`. -/
def unitPath (u : Nat) : Bytes := if u = 0 then ascii "/w/a.cpp" else ascii "/w/b.cpp"

/-- Both include `a.h`, under one configuration. -/
def sharedHeader : Workspace plainService where
  md5 := id
  owns := fun path => path = ascii "/w/a.h"
  unit := fun u =>
    { slot := unitPath u
      path := unitPath u
      inputs := { plainInputs with sourceIdentity := unitPath u }
      source := by simp only [unitPath]; split <;> decide +kernel }
  config := fun _ => ascii "c"
  facts := fun u _ =>
    { includes := [{ includeOf (ascii "/w/a.h") false with srcPath := unitPath u }]
      macroUses := [] }
  looked := fun u _ => [unitPath u, ascii "/w/a.h"]
  facts_local := fun _ _ _ _ => rfl

instance (s : IndexState) (action : IndexAction) : Decidable (sharedHeader.Unshadowed s action) :=
  match action with
  | .indexOne u =>
    match hfound : s.cache u with
    | none => isTrue fun _ h => by rw [hfound] at h; cases h
    | some found =>
      decidable_of_iff (sharedHeader.usable s u found = true →
          ∀ probe ∈ found.probed, s.disk probe.1 = probe.2)
        ⟨fun h found' h' => by rw [hfound] at h'; cases h'; exact h, fun h => h found hfound⟩
  | .edit _ _ => inferInstanceAs (Decidable True)
  | .setIndexed _ _ => inferInstanceAs (Decidable True)
  | .remove _ => inferInstanceAs (Decidable True)

/-- The second unit indexes the header, and the first leaves it to it. -/
def bothIndexed : List IndexAction := [.indexOne 1, .indexOne 0]

/-- A second pass over both units hits both entries, and indexes what an
extraction would. -/
theorem replay_complete_iff_bothIndexed :
    ∃ s, (sharedHeader.histories plainDisk).Reachable s ∧ s.replays ≠ [] ∧
      ∀ replay ∈ s.replays, replay.Complete := by
  have hplay : (((sharedHeader.histories plainDisk).playWithin sharedHeader.Unshadowed
      (sharedHeader.histories plainDisk).init (bothIndexed ++ [.indexOne 1, .indexOne 0])).map
        fun s => s.replays.map Replay.lost) = some [[], []] := by
    decide +kernel
  obtain ⟨s, hs, hlost⟩ := map_eq_some_iff.mp hplay
  have hreach := Transition.System.reachableWithin_of_playWithin .init _ hs
  refine ⟨s, hreach.reachable, ?_, fun replay hreplay => ?_⟩
  · intro hnil
    rw [hnil] at hlost
    cases hlost
  · have hnone : replay.lost = [] := by
      have hmem := List.mem_map_of_mem (f := Replay.lost) hreplay
      rw [hlost] at hmem
      simpa using hmem
    refine (@replay_complete_iff plainService sharedHeader Set.univ
      (fun _ _ _ _ h => congrArg Digest.hex h) plainDisk (fun _ _ _ => trivial) s
      (hreach.mono fun s action h => ⟨h, ?_⟩) replay hreplay).mpr hnone
    cases action <;> simp [Workspace.Among]

/-- The header is un-indexed, and the first unit indexed again: the hit does not
index the header, which an extraction would. -/
theorem unindexedHeader_not_replayed :
    ∃ s, (sharedHeader.histories plainDisk).Reachable s ∧ ∃ replay ∈ s.replays,
      replay.wouldOwn = [ascii "/w/a.h"] ∧ replay.published = [] ∧ ¬ replay.Complete := by
  have hplay : (((sharedHeader.histories plainDisk).play
      (sharedHeader.histories plainDisk).init
      (bothIndexed ++ [.setIndexed (ascii "/w/a.h") false, .indexOne 0])).map
        IndexState.replays) =
      some [{ wouldOwn := [ascii "/w/a.h"], published := [], lost := [ascii "/w/a.h"] }] := by
    decide +kernel
  obtain ⟨s, hs, hreplays⟩ := map_eq_some_iff.mp hplay
  refine ⟨s, Transition.System.reachable_of_play .init _ hs, _,
    by rw [hreplays]; exact mem_singleton_self _, rfl, rfl, by decide⟩

end CppIndexer.Cache
