/-
# Runs, edits and hits

Any number of runs work on one cache while the files they read change.  A run
takes one translation unit after another.  For each it looks up the entry, asks
for the digests of the files the entry names and compares identities.  On a
miss it extracts: it captures the main source, reads each file once, and checks
the main source and the headers it owns again before the facts are committed.
Then it asks for the digests of the files its facts name and publishes an entry
under them.

Every read of a file is a step of its own, and an edit may come between any
two.  A digest that a run has asked for once it never asks for again.  So two
things can go wrong.  A file that extraction has read can change before
publication asks for its digest; only the main source and the owned headers are
read again.  And a digest can be remembered from a time when the file had
another content.  A hit is about the content that was extracted when neither
happens.

What an entry was extracted from, and what a file held when a lookup asked for
it, is kept beside the state the program has.
-/

import CppIndexer.Cache.Revalidation
import CppIndexer.Lib.Transition

namespace CppIndexer.Cache

open Util Util.PathUtil
open OrderedMap (orderedSet mem_orderedSet)
open List Option Service

/-! ## The state -/

/-- A call of `index_one`: a unit, its slot in the cache and its inputs. -/
structure Call (svc : Service) where
  slot : Bytes
  path : Bytes
  inputs : CacheInputs
  /-- The session takes the source identity from the path. -/
  source : inputs.sourceIdentity = canonicalTuCachePath svc.cwd path

structure Entry where
  identity : Digest
  evidence : DependencyEvidence
  /-- The main source and the owned headers, with the content extracted. -/
  routes : List (Bytes × Bytes)
  /-- The files other than system headers that were read, with what was read. -/
  extracted : List (Bytes × Bytes)

/-- What a run is doing. -/
inductive Phase (svc : Service)
  | idle
  /-- Looking an entry up; `asked` is what the files asked for held then. -/
  | looking (call : Call svc) (evidence : Option DependencyEvidence)
      (asked : List (Bytes × Option Bytes))
  /-- Parsing; `captured` is the main source at the start. -/
  | extracting (call : Call svc) (captured : Option Bytes) (read : List (Bytes × Bytes))
  /-- The facts are committed and not yet published to the cache. -/
  | committed (call : Call svc) (facts : IncludeFacts) (owned : List Bytes)
      (read : List (Bytes × Bytes))

structure Run (svc : Service) where
  memo : Memo
  phase : Phase svc

/-- A reported hit: what the entry was extracted from, and what the files held
when their digests were asked for. -/
structure Hit where
  extracted : List (Bytes × Bytes)
  asked : List (Bytes × Option Bytes)
  deriving DecidableEq

structure World (svc : Service) where
  disk : Disk
  cache : Bytes → Option Entry
  runs : Nat → Run svc
  hits : List Hit

/-! ## The steps -/

/-- One step of a run, or an edit. -/
inductive Action (svc : Service)
  | edit (key : Bytes) (content : Option Bytes)
  /-- A new run in the place of an old one. -/
  | start (r : Nat)
  | lookup (r : Nat) (call : Call svc)
  /-- `content_digest`. -/
  | ask (r : Nat) (path : Bytes)
  | readEvidence (r : Nat)
  | compare (r : Nat)
  /-- Nothing usable in the cache, for whatever reason: extraction starts. -/
  | miss (r : Nat)
  /-- The parser opens a file. -/
  | read (r : Nat) (path : Bytes)
  /-- The checks behind the parse, and the commit of the facts. -/
  | commit (r : Nat) (facts : IncludeFacts) (owned : List Bytes)
  | publish (r : Nat)
  /-- Nothing to publish. -/
  | drop (r : Nat)

section

variable (svc : Service) (md5 : Bytes → Bytes)

/-- The files a lookup asks for. -/
def lookupPaths (call : Call svc) (evidence : DependencyEvidence) : List Bytes :=
  call.path :: evidence.edges.map DependencyEdge.destination ++ call.inputs.generatedInputs

/-- The files other than system headers a unit is extracted from. -/
def extractedKeys (path : Bytes) (facts : IncludeFacts) : List Bytes :=
  (path :: (facts.includes.filter fun fact => fact.isSystem = false).map IncludeFact.dstPath).map
    (canonicalTuCachePath svc.cwd)

variable (disk : Disk)

/-- `content_is_current`: the file still has the content of the snapshot. -/
def contentIsCurrent (snapshot : Bytes × Bytes) : Bool :=
  (disk snapshot.1).map md5 = some (md5 snapshot.2)

/-- The main source and the owned headers are as they were parsed. -/
def sourcesUnchanged (call : Call svc) (captured : Option Bytes)
    (owned : List Bytes) (read : List (Bytes × Bytes)) : Bool :=
  (disk (canonicalTuCachePath svc.cwd call.path)).map md5 = captured.map md5 ∧
    (read.filter fun file => file.1 ∈ owned).all (contentIsCurrent md5 disk)

variable (w : World svc)

def World.setRun (r : Nat) (run : Run svc) : World svc :=
  { w with runs := Function.update w.runs r run }

def World.setPhase (r : Nat) (phase : Phase svc) : World svc :=
  w.setRun svc r { (w.runs r) with phase := phase }

/-- The phase after a digest was asked for. -/
def Phase.note (key : Bytes) : Phase svc → Phase svc
  | .looking call evidence asked => .looking call evidence ((key, disk key) :: asked)
  | phase => phase

/-- The extraction that follows a miss. -/
def Phase.extract (call : Call svc) : Phase svc :=
  .extracting call (disk (canonicalTuCachePath svc.cwd call.path)) []

/-- The comparison: a hit, or the extraction. -/
def compareStep (r : Nat) (call : Call svc) (evidence : DependencyEvidence)
    (asked : List (Bytes × Option Bytes)) : World svc :=
  match w.cache call.slot with
  | none => w.setPhase svc r (.extract svc w.disk call)
  | some entry =>
    if (revalidate svc (svc.answer (w.runs r).memo w.disk) call.inputs call.path
          evidence).toOption = some evidence.generation ∧
        entry.identity = evidence.generation ∧
        entry.routes.all (contentIsCurrent md5 w.disk) then
      { w.setPhase svc r .idle with
        hits := { extracted := entry.extracted, asked := asked } :: w.hits }
    else w.setPhase svc r (.extract svc w.disk call)

def publishStep (r : Nat) (call : Call svc) (facts : IncludeFacts)
    (owned : List Bytes) (read : List (Bytes × Bytes)) : World svc :=
  match publish svc (svc.answer (w.runs r).memo w.disk) call.inputs call.path facts with
  | none => w.setPhase svc r .idle
  | some (identity, evidence) =>
    { w.setPhase svc r .idle with
      cache := Function.update w.cache call.slot (some {
        identity := identity
        evidence := evidence
        routes := read.filter fun file =>
          file.1 ∈ canonicalTuCachePath svc.cwd call.path :: owned
        extracted := read.filter fun file =>
          file.1 ∈ extractedKeys svc call.path facts }) }

def World.step : Action svc → Option (World svc)
  | .edit key content => some { w with disk := Function.update w.disk key content }
  | .start r => some (w.setRun svc r { memo := [], phase := .idle })
  | .lookup r call =>
    match (w.runs r).phase with
    | .idle => some (w.setPhase svc r (.looking call none []))
    | _ => none
  | .ask r path =>
    some (w.setRun svc r {
      memo := (svc.contentDigest (w.runs r).memo w.disk path).2
      phase := (w.runs r).phase.note svc w.disk (canonicalTuCachePath svc.cwd path) })
  | .readEvidence r =>
    match (w.runs r).phase with
    | .looking call none asked =>
      (w.cache call.slot).map fun entry =>
        w.setPhase svc r (.looking call (some (readBack svc entry.evidence)) asked)
    | _ => none
  | .compare r =>
    match (w.runs r).phase with
    | .looking call (some evidence) asked =>
      if ∀ p ∈ lookupPaths svc call evidence,
          canonicalTuCachePath svc.cwd p ∈ asked.map Prod.fst then
        some (compareStep svc md5 w r call evidence asked)
      else none
    | _ => none
  | .miss r =>
    match (w.runs r).phase with
    | .looking call _ _ => some (w.setPhase svc r (.extract svc w.disk call))
    | _ => none
  | .read r path =>
    match (w.runs r).phase with
    | .extracting call captured read =>
      -- Each file is read once.
      if canonicalTuCachePath svc.cwd path ∈ read.map Prod.fst then none
      else
        (w.disk (canonicalTuCachePath svc.cwd path)).map fun content =>
          w.setPhase svc r (.extracting call captured
            ((canonicalTuCachePath svc.cwd path, content) :: read))
    | _ => none
  | .commit r facts owned =>
    match (w.runs r).phase with
    | .extracting call captured read =>
      if ∀ key ∈ extractedKeys svc call.path facts, key ∈ read.map Prod.fst then
        if sourcesUnchanged svc md5 w.disk call captured owned read then
          some (w.setPhase svc r (.committed call facts owned read))
        else some (w.setPhase svc r .idle)
      else none
    | _ => none
  | .publish r =>
    match (w.runs r).phase with
    | .committed call facts owned read =>
      if ∀ p ∈ digestedPaths call.inputs call.path facts,
          (OrderedMap.find? (w.runs r).memo (canonicalTuCachePath svc.cwd p)).isSome then
        some (publishStep svc w r call facts owned read)
      else none
    | _ => none
  | .drop r =>
    match (w.runs r).phase with
    | .committed _ _ _ _ => some (w.setPhase svc r .idle)
    | _ => none

/-- Runs over a cache that is empty at first. -/
def cachedRuns : Transition.System (World svc) (Action svc) where
  init := { disk := disk, cache := fun _ => none, runs := fun _ => { memo := [], phase := .idle }
            hits := [] }
  step := World.step svc md5

/-! ## What a hit promises, and what it needs -/

/-- Every file the entry was extracted from was asked for, and held then what
was extracted. -/
def Hit.Truthful (hit : Hit) : Prop :=
  ∀ file ∈ hit.extracted, file.1 ∈ hit.asked.map Prod.fst ∧
    ∀ seen, (file.1, seen) ∈ hit.asked → seen = some file.2

/-- A lookup is answered with the digest of the file as it is. -/
def Phase.AnsweredAsIs (memo : Memo) (disk : Disk) (key : Bytes) : Phase svc → Prop
  | .looking _ _ _ => svc.answer memo disk key = onDisk svc disk key
  | .idle => True
  | .extracting _ _ _ => True
  | .committed _ _ _ _ => True

/-- The digests of what was extracted are the answers a publication gets. -/
def Phase.AnsweredAsExtracted (memo : Memo) (disk : Disk) : Phase svc → Prop
  | .committed call facts _ read =>
    ∀ file ∈ read.filter fun file => file.1 ∈ extractedKeys svc call.path facts,
      svc.answer memo disk file.1 = some (svc.sha file.2)
  | .idle => True
  | .looking _ _ _ => True
  | .extracting _ _ _ => True

/-- A lookup is not answered from memory about a file that has changed, and a
publication uses the digests of what was extracted. -/
def Steady : Action svc → Prop
  | .ask r path =>
    (w.runs r).phase.AnsweredAsIs svc (w.runs r).memo w.disk (canonicalTuCachePath svc.cwd path)
  | .publish r => (w.runs r).phase.AnsweredAsExtracted svc (w.runs r).memo w.disk
  | _ => True

instance (memo : Memo) (disk : Disk) (key : Bytes) (phase : Phase svc) :
    Decidable (phase.AnsweredAsIs svc memo disk key) :=
  match phase with
  | .looking _ _ _ => inferInstanceAs (Decidable (svc.answer memo disk key = onDisk svc disk key))
  | .idle => inferInstanceAs (Decidable True)
  | .extracting _ _ _ => inferInstanceAs (Decidable True)
  | .committed _ _ _ _ => inferInstanceAs (Decidable True)

instance (memo : Memo) (disk : Disk) (phase : Phase svc) :
    Decidable (phase.AnsweredAsExtracted svc memo disk) :=
  match phase with
  | .committed call facts _ read =>
    inferInstanceAs (Decidable
      (∀ file ∈ read.filter fun file => file.1 ∈ extractedKeys svc call.path facts,
        svc.answer memo disk file.1 = some (svc.sha file.2)))
  | .idle => inferInstanceAs (Decidable True)
  | .looking _ _ _ => inferInstanceAs (Decidable True)
  | .extracting _ _ _ => inferInstanceAs (Decidable True)

instance (w : World svc) (action : Action svc) : Decidable (Steady svc w action) :=
  match action with
  | .ask r path =>
    inferInstanceAs (Decidable ((w.runs r).phase.AnsweredAsIs svc (w.runs r).memo w.disk
      (canonicalTuCachePath svc.cwd path)))
  | .publish r =>
    inferInstanceAs (Decidable
      ((w.runs r).phase.AnsweredAsExtracted svc (w.runs r).memo w.disk))
  | .edit _ _ => inferInstanceAs (Decidable True)
  | .start _ => inferInstanceAs (Decidable True)
  | .lookup _ _ => inferInstanceAs (Decidable True)
  | .readEvidence _ => inferInstanceAs (Decidable True)
  | .compare _ => inferInstanceAs (Decidable True)
  | .miss _ => inferInstanceAs (Decidable True)
  | .read _ _ => inferInstanceAs (Decidable True)
  | .commit _ _ _ => inferInstanceAs (Decidable True)
  | .drop _ => inferInstanceAs (Decidable True)

/-- The texts a step brings into play belong to a given set. -/
def Among (texts : Set Bytes) (w : World svc) : Action svc → Prop
  | .edit _ content => ∀ c, content = some c → c ∈ texts
  | .compare r =>
    match (w.runs r).phase with
    | .looking call (some evidence) _ =>
      ∀ b, revalidatedInput svc (svc.answer (w.runs r).memo w.disk) call.inputs call.path
        evidence = .ok b → canonicalText (b.canonical svc.cwd) ∈ texts
    | _ => True
  | .publish r =>
    match (w.runs r).phase with
    | .committed call facts _ _ =>
      ∀ a, publishedInput svc (svc.answer (w.runs r).memo w.disk) call.inputs call.path
        facts = some a → canonicalText (a.canonical svc.cwd) ∈ texts
    | _ => True
  | _ => True

end

/-! ## The invariant -/

section

variable {svc : Service} {md5 : Bytes → Bytes} {texts : Set Bytes}

/-- Evidence as publications leave it. -/
def PlainEvidence (evidence : DependencyEvidence) : Prop :=
  ∀ e ∈ evidence.edges, e.resolved = true ∧ e.system = false

/-- The identity of an entry covers what it was extracted from. -/
structure Covers (svc : Service) (texts : Set Bytes) (entry : Entry) (input : IdentityInput) :
    Prop where
  text : canonicalText input ∈ texts
  identity : entry.identity = svc.sha (canonicalText input)
  contents : ∀ file ∈ entry.extracted, file.2 ∈ texts ∧
    ((file.1 = input.mainSourcePath ∧ input.mainSourceSha256 = (svc.sha file.2).text) ∨
      ∃ d ∈ input.dependencies, d.path = file.1 ∧ d.contentSha256 = (svc.sha file.2).text)

/-- What is known about a run. -/
def RunSound (svc : Service) (texts : Set Bytes) (run : Run svc) : Prop :=
  match run.phase with
  | .idle => True
  | .looking _ evidence asked =>
    (∀ found, evidence = some found → PlainEvidence found) ∧
      ∀ file ∈ asked, OrderedMap.find? run.memo file.1 = some (file.2.map svc.sha) ∧
        ∀ c, file.2 = some c → c ∈ texts
  | .extracting _ _ read => ∀ file ∈ read, file.2 ∈ texts
  | .committed _ _ _ read => ∀ file ∈ read, file.2 ∈ texts

structure Sound (svc : Service) (texts : Set Bytes) (w : World svc) : Prop where
  disk : ∀ key c, w.disk key = some c → c ∈ texts
  cache : ∀ slot entry, w.cache slot = some entry →
    PlainEvidence (readBack svc entry.evidence) ∧ ∃ input, Covers svc texts entry input
  runs : ∀ r, RunSound svc texts (w.runs r)
  hits : ∀ hit ∈ w.hits, hit.Truthful

variable {path : Bytes} {answer : Bytes → Option Digest} {call : Call svc}
  {evidence : DependencyEvidence} {facts : IncludeFacts} {asked : List (Bytes × Option Bytes)}
  {r : Nat} {w : World svc}

theorem Sound.setRun (h : Sound svc texts w) (r : Nat) {run : Run svc}
    (hrun : RunSound svc texts run) : Sound svc texts (w.setRun svc r run) where
  disk := h.disk
  cache := h.cache
  runs := by
    intro r'
    by_cases hr : r' = r
    · subst hr
      simpa [World.setRun] using hrun
    · simpa [World.setRun, Function.update_of_ne hr] using h.runs r'
  hits := h.hits

theorem Sound.setPhase (h : Sound svc texts w) (r : Nat) {phase : Phase svc}
    (hrun : RunSound svc texts { (w.runs r) with phase := phase }) :
    Sound svc texts (w.setPhase svc r phase) :=
  h.setRun r hrun

theorem runSound_idle (memo : Memo) : RunSound svc texts { memo := memo, phase := .idle } := trivial

theorem runSound_extract (memo : Memo) (disk : Disk) (call : Call svc) :
    RunSound svc texts { memo := memo, phase := .extract svc disk call } :=
  fun _ h => absurd h not_mem_nil

/-! ## Asking -/

theorem find?_contentDigest_of_some {memo : Memo} {disk : Disk} (path : Bytes) {key : Bytes}
    {digest : Option Digest} (h : OrderedMap.find? memo key = some digest) :
    OrderedMap.find? (svc.contentDigest memo disk path).2 key = some digest := by
  simp only [contentDigest]
  cases hfound : OrderedMap.find? memo (canonicalTuCachePath svc.cwd path) with
  | some => exact h
  | none =>
    have hne : canonicalTuCachePath svc.cwd path ≠ key := by
      rintro rfl
      rw [hfound] at h
      cases h
    rw [OrderedMap.find?_cons, if_neg hne]
    exact h

theorem find?_contentDigest_self (memo : Memo) (disk : Disk) (path : Bytes) :
    OrderedMap.find? (svc.contentDigest memo disk path).2 (canonicalTuCachePath svc.cwd path) =
      some (svc.answer memo disk (canonicalTuCachePath svc.cwd path)) := by
  simp only [contentDigest, answer]
  cases hfound : OrderedMap.find? memo (canonicalTuCachePath svc.cwd path) with
  | some => exact hfound
  | none => rw [OrderedMap.find?_cons, if_pos rfl]

theorem sound_ask (h : Sound svc texts w) (hsteady : Steady svc w (.ask r path)) :
    RunSound svc texts {
      memo := (svc.contentDigest (w.runs r).memo w.disk path).2
      phase := (w.runs r).phase.note svc w.disk (canonicalTuCachePath svc.cwd path) } := by
  have hrun := h.runs r
  simp only [RunSound] at hrun ⊢
  simp only [Steady] at hsteady
  cases hphase : (w.runs r).phase with
  | idle => trivial
  | extracting | committed => simpa [hphase, Phase.note] using hrun
  | looking =>
    simp only [hphase, Phase.AnsweredAsIs] at hrun hsteady
    refine ⟨hrun.1, fun file hfile => ?_⟩
    rcases mem_cons.mp hfile with rfl | hfile
    · rw [find?_contentDigest_self, hsteady]
      exact ⟨rfl, fun c hc => h.disk _ c hc⟩
    · exact ⟨find?_contentDigest_of_some path (hrun.2 file hfile).1, (hrun.2 file hfile).2⟩

/-! ## Comparing -/

section

variable (hsha : Set.InjOn svc.sha texts)
include hsha

/-- The digests behind the identity of an entry are the answers of a lookup
that arrives at the same identity. -/
theorem answer_of_covers {entry : Entry} {input : IdentityInput}
    (hcovers : Covers svc texts entry input) (hplain : PlainEvidence evidence)
    (htexts : ∀ b, revalidatedInput svc answer call.inputs call.path evidence = .ok b →
      canonicalText (b.canonical svc.cwd) ∈ texts)
    (hsame : revalidate svc answer call.inputs call.path evidence = .ok entry.identity)
    {file : Bytes × Bytes} (hfile : file ∈ entry.extracted) :
    answer file.1 = some (svc.sha file.2) ∧
      ∃ p ∈ lookupPaths svc call evidence, file.1 = canonicalTuCachePath svc.cwd p := by
  rw [revalidate_eq] at hsame
  obtain ⟨b, hb, hidentity⟩ := Except.map_eq_ok.mp hsame
  have htext : canonicalText (b.canonical svc.cwd) = canonicalText input := by
    refine hsha (htexts b hb) hcovers.text ?_
    rw [← hcovers.identity]
    exact hidentity
  have hinput := canonicalText_injective htext
  rw [revalidatedInput] at hb
  cases hsource : answer (canonicalTuCachePath svc.cwd call.path) with
  | none => simp [hsource] at hb
  | some =>
    simp only [hsource] at hb
    obtain ⟨_, hdeps, rfl⟩ := Except.map_eq_ok.mp hb
    obtain ⟨hreadable, rfl⟩ := (evidenceDependencies_eq_ok_iff hplain).mp hdeps
    rcases (hcovers.contents file hfile).2 with ⟨hmain, hcontent⟩ | ⟨_, hd, hpath, hcontent⟩
    · rw [← hinput] at hmain hcontent
      have hkey : file.1 = canonicalTuCachePath svc.cwd call.path := by
        rw [hmain]
        show canonicalTuCachePath svc.cwd call.inputs.sourceIdentity = _
        rw [call.source, canonicalTuCachePath_idem svc.cwd_abs]
      refine ⟨?_, call.path, by simp [lookupPaths], hkey⟩
      rw [hkey, hsource, Digest.text_injective hcontent]
    · rw [← hinput] at hd
      obtain ⟨hshown, p, hp, hkey⟩ := content_of_mem_hashed hreadable (mem_orderedSet.mp hd)
      refine ⟨?_, p, mem_cons_of_mem _ hp, by rw [← hpath, hkey]⟩
      rw [hpath, hcontent] at hshown
      exact (shown_injective (a := some (svc.sha file.2)) hshown).symm

theorem truthful_of_compare (h : Sound svc texts w)
    (hphase : (w.runs r).phase = .looking call (some evidence) asked)
    (hamong : Among svc texts w (.compare r))
    (hasked : ∀ p ∈ lookupPaths svc call evidence, canonicalTuCachePath svc.cwd p ∈ asked.map Prod.fst)
    {slot : Bytes} {entry : Entry} (hentry : w.cache slot = some entry)
    (hsame : revalidate svc (svc.answer (w.runs r).memo w.disk) call.inputs call.path evidence =
      .ok entry.identity) :
    Hit.Truthful { extracted := entry.extracted, asked := asked } := by
  obtain ⟨-, _, hcovers⟩ := h.cache slot entry hentry
  have hrun := h.runs r
  simp only [RunSound, hphase] at hrun
  simp only [Among, hphase] at hamong
  intro file hfile
  obtain ⟨hanswer, p, hp, hkey⟩ :=
    answer_of_covers hsha hcovers (hrun.1 _ rfl) hamong hsame hfile
  refine ⟨by rw [hkey]; exact hasked p hp, fun seen hseen => ?_⟩
  obtain ⟨hfound, hseenTexts⟩ := hrun.2 _ hseen
  -- The file held then what its remembered digest says.
  simp only [answer, hfound] at hanswer
  obtain ⟨c, rfl, hc⟩ := map_eq_some_iff.mp hanswer
  rw [hsha (hseenTexts c rfl) (hcovers.contents file hfile).1 hc]

theorem sound_compareStep (h : Sound svc texts w)
    (hphase : (w.runs r).phase = .looking call (some evidence) asked)
    (hamong : Among svc texts w (.compare r)) (hasked : ∀ p ∈ lookupPaths svc call evidence,
      canonicalTuCachePath svc.cwd p ∈ asked.map Prod.fst) :
    Sound svc texts (compareStep svc md5 w r call evidence asked) := by
  have hmiss : Sound svc texts (w.setPhase svc r (.extract svc w.disk call)) :=
    h.setPhase r (runSound_extract _ _ _)
  rw [compareStep]
  cases hentry : w.cache call.slot with
  | none => exact hmiss
  | some =>
    simp only
    split
    · rename_i hhit
      have hidle : Sound svc texts (w.setPhase svc r .idle) := h.setPhase r (runSound_idle _)
      refine ⟨hidle.disk, hidle.cache, hidle.runs, fun hit hmem => ?_⟩
      rcases mem_cons.mp hmem with rfl | hmem
      · refine truthful_of_compare hsha h hphase hamong hasked hentry ?_
        obtain ⟨hvalid, hgeneration, -⟩ := hhit
        rw [hgeneration]
        exact Except.toOption_eq_some.mp hvalid
      · exact h.hits hit hmem
    · exact hmiss

end

/-! ## Publishing -/

theorem plainEvidence_readBack {inputs : CacheInputs} {entry : Digest × DependencyEvidence}
    (h : publish svc answer inputs path facts = some entry) :
    PlainEvidence (readBack svc entry.2) := by
  obtain ⟨_, _, -, hcollect, -, hentry⟩ := publish_parts h
  have hconsistent := consistent_collectDependencies hcollect
  rw [hentry]
  intro _ he
  obtain ⟨e', he', rfl⟩ := mem_readBack_edges.mp he
  exact ⟨(hconsistent.fresh e' he').resolved, (hconsistent.fresh e' he').plain⟩

theorem covers_of_publish {identity : Digest}
    (h : publish svc answer call.inputs call.path facts = some (identity, evidence))
    (htexts : ∀ a, publishedInput svc answer call.inputs call.path facts = some a →
      canonicalText (a.canonical svc.cwd) ∈ texts)
    {routes extracted : List (Bytes × Bytes)}
    (hkeys : ∀ file ∈ extracted, file.1 ∈ extractedKeys svc call.path facts)
    (hcontents : ∀ file ∈ extracted, file.2 ∈ texts ∧ answer file.1 = some (svc.sha file.2)) :
    ∃ input, Covers svc texts
      { identity := identity, evidence := evidence, routes := routes, extracted := extracted }
      input := by
  obtain ⟨_, _, hsource, hcollect, hinput, hentry⟩ := publish_parts h
  have hconsistent := consistent_collectDependencies hcollect
  refine ⟨_, htexts _ hinput, congrArg Prod.fst hentry, fun file hfile => ?_⟩
  obtain ⟨htext, hanswer⟩ := hcontents file hfile
  refine ⟨htext, ?_⟩
  obtain ⟨_, hp, hkey⟩ := List.mem_map.mp (hkeys file hfile)
  rcases mem_cons.mp hp with rfl | hp
  · left
    rw [← hkey, hsource] at hanswer
    cases hanswer
    refine ⟨?_, rfl⟩
    show file.1 = canonicalTuCachePath svc.cwd call.inputs.sourceIdentity
    rw [call.source, canonicalTuCachePath_idem svc.cwd_abs, hkey]
  · right
    obtain ⟨e, he, rfl⟩ := (exists_edge_iff hcollect).mpr (mem_append_left _ hp)
    rw [← hkey] at hanswer
    refine ⟨(edgeNow svc answer e).canonical svc.cwd, ?_, hkey, ?_⟩
    · exact mem_orderedSet.mpr ((mem_published hconsistent).mpr (Or.inl ⟨e, he, rfl⟩))
    · simp [Dependency.canonical, edgeNow, hanswer]

theorem sound_publishStep (h : Sound svc texts w) {owned : List Bytes} {read : List (Bytes × Bytes)}
    (hphase : (w.runs r).phase = .committed call facts owned read)
    (hsteady : Steady svc w (.publish r)) (hamong : Among svc texts w (.publish r)) :
    Sound svc texts (publishStep svc w r call facts owned read) := by
  have hidle : Sound svc texts (w.setPhase svc r .idle) := h.setPhase r (runSound_idle _)
  have hrun := h.runs r
  simp only [RunSound, hphase] at hrun
  simp only [Steady, hphase, Phase.AnsweredAsExtracted] at hsteady
  simp only [Among, hphase] at hamong
  rw [publishStep]
  cases hpublish : publish svc (svc.answer (w.runs r).memo w.disk) call.inputs call.path facts with
  | none => exact hidle
  | some entry =>
    obtain ⟨_, _⟩ := entry
    refine ⟨hidle.disk, fun slot entry hentry => ?_, hidle.runs, hidle.hits⟩
    by_cases hslot : slot = call.slot
    · subst hslot
      simp only [Function.update_self, some.injEq] at hentry
      subst hentry
      refine ⟨plainEvidence_readBack hpublish, covers_of_publish hpublish hamong ?_ ?_⟩
      · intro _ hfile
        simpa using (mem_filter.mp hfile).2
      · exact fun file hfile => ⟨hrun file (mem_of_mem_filter hfile), hsteady file hfile⟩
    · simp only [Function.update_of_ne hslot] at hentry
      exact h.cache slot entry hentry

/-! ## Every step -/

theorem sound_step (hsha : Set.InjOn svc.sha texts) {w' : World svc} {action : Action svc}
    (h : Sound svc texts w) (hsteady : Steady svc w action) (hamong : Among svc texts w action)
    (hstep : w.step svc md5 action = some w') : Sound svc texts w' := by
  cases action with
  | edit key =>
    cases hstep
    refine ⟨fun key' c hc => ?_, h.cache, h.runs, h.hits⟩
    by_cases hkey : key' = key
    · subst hkey
      simp only [Function.update_self] at hc
      exact hamong c hc
    · simp only [Function.update_of_ne hkey] at hc
      exact h.disk key' c hc
  | start r =>
    cases hstep
    exact h.setRun r (runSound_idle _)
  | lookup r =>
    simp only [World.step] at hstep
    split at hstep
    · cases hstep
      refine h.setPhase r ⟨fun _ hnone => ?_, fun _ hfile => absurd hfile not_mem_nil⟩
      cases hnone
    · cases hstep
  | ask r =>
    cases hstep
    exact h.setRun r (sound_ask h hsteady)
  | readEvidence r =>
    simp only [World.step] at hstep
    split at hstep
    · rename_i call asked hphase
      obtain ⟨entry, hentry, rfl⟩ := map_eq_some_iff.mp hstep
      have hrun := h.runs r
      simp only [RunSound, hphase] at hrun
      refine h.setPhase r ⟨fun found hfound => ?_, hrun.2⟩
      cases hfound
      exact (h.cache call.slot entry hentry).1
    · cases hstep
  | compare =>
    simp only [World.step] at hstep
    split at hstep
    · rename_i call evidence asked hphase
      split at hstep
      · rename_i hasked
        cases hstep
        exact sound_compareStep hsha h hphase hamong hasked
      · cases hstep
    · cases hstep
  | miss r =>
    simp only [World.step] at hstep
    split at hstep
    · cases hstep
      exact h.setPhase r (runSound_extract _ _ _)
    · cases hstep
  | read r =>
    simp only [World.step] at hstep
    split at hstep
    · rename_i call captured read hphase
      split at hstep
      · cases hstep
      · obtain ⟨content, hcontent, rfl⟩ := map_eq_some_iff.mp hstep
        have hrun := h.runs r
        simp only [RunSound, hphase] at hrun
        refine h.setPhase r fun file hfile => ?_
        rcases mem_cons.mp hfile with rfl | hfile
        · exact h.disk _ content hcontent
        · exact hrun file hfile
    · cases hstep
  | commit r =>
    simp only [World.step] at hstep
    split at hstep
    · rename_i call captured read hphase
      have hrun := h.runs r
      simp only [RunSound, hphase] at hrun
      split at hstep
      · split at hstep
        · cases hstep
          exact h.setPhase r hrun
        · cases hstep
          exact h.setPhase r (runSound_idle _)
      · cases hstep
    · cases hstep
  | publish =>
    simp only [World.step] at hstep
    split at hstep
    · rename_i call facts owned read hphase
      split at hstep
      · cases hstep
        exact sound_publishStep h hphase hsteady hamong
      · cases hstep
    · cases hstep
  | drop r =>
    simp only [World.step] at hstep
    split at hstep
    · cases hstep
      exact h.setPhase r (runSound_idle _)
    · cases hstep

/-- In every run whose lookups are not answered from memory about a changed
file, and whose publications use the digests of what was extracted, every hit
is about the content its entry was extracted from. -/
theorem hits_truthful (hsha : Set.InjOn svc.sha texts) {disk : Disk}
    (hdisk : ∀ key c, disk key = some c → c ∈ texts) {w : World svc}
    (h : (cachedRuns svc md5 disk).ReachableWithin
      (fun w action => Steady svc w action ∧ Among svc texts w action) w) :
    ∀ hit ∈ w.hits, hit.Truthful := by
  have hsound : Sound svc texts w := by
    refine h.invariant ?_ ?_
    · exact ⟨hdisk, fun _ _ hentry => (by cases hentry), fun _ => trivial,
        fun _ hhit => absurd hhit not_mem_nil⟩
    · intro _ _ _ hw hok hstep
      exact sound_step hsha hw hok.1 hok.2 hstep
  exact hsound.hits

end

/-! ## Two histories -/

def plainCall : Call plainService where
  slot := ascii "slot"
  path := ascii "main.cpp"
  inputs := plainInputs
  source := by decide +kernel

def ownHeader : IncludeFacts :=
  { includes := [includeOf (ascii "a.h") false], macroUses := [] }

/-- A first run extracts the unit; it does not own the header. -/
def extraction : List (Action plainService) :=
  [.start 0, .lookup 0 plainCall, .miss 0, .read 0 (ascii "main.cpp"), .read 0 (ascii "a.h"),
    .commit 0 ownHeader []]

def publication : List (Action plainService) :=
  [.ask 0 (ascii "main.cpp"), .ask 0 (ascii "a.h"), .publish 0]

/-- A second run looks the unit up. -/
def secondLookup : List (Action plainService) :=
  [.start 1, .lookup 1 plainCall, .ask 1 (ascii "main.cpp"), .readEvidence 1,
    .ask 1 (ascii "a.h"), .compare 1]

/-- Without an edit the second run hits what the first has extracted. -/
theorem hits_truthful_unchanged : ∃ w, (cachedRuns plainService id plainDisk).Reachable w ∧ w.hits ≠ [] ∧
      ∀ hit ∈ w.hits, hit.Truthful := by
  have hplay : (((cachedRuns plainService id plainDisk).playWithin (Steady plainService)
      (cachedRuns plainService id plainDisk).init
      (extraction ++ publication ++ secondLookup)).map fun w => w.hits.length) = some 1 := by
    decide +kernel
  obtain ⟨w, hw, hhits⟩ := map_eq_some_iff.mp hplay
  have hreach := Transition.System.reachableWithin_of_playWithin .init _ hw
  refine ⟨w, hreach.reachable, ?_, ?_⟩
  · intro hnil
    rw [hnil] at hhits
    cases hhits
  · refine @hits_truthful plainService id Set.univ (fun _ _ _ _ h => congrArg Digest.hex h)
      plainDisk (fun _ _ _ => trivial) w (hreach.mono fun w action h => ⟨h, ?_⟩)
    cases action <;> simp only [Among] <;> (try split) <;> intros <;> trivial

/-- A header edited between the extraction and the publication: the second run
hits the facts of the header it no longer is. -/
theorem editedHeader_hits_old_facts :
    ∃ w, (cachedRuns plainService id plainDisk).Reachable w ∧ ∃ hit ∈ w.hits,
      (ascii "/w/a.h", ascii "/w/a.h") ∈ hit.extracted ∧
        (ascii "/w/a.h", some (ascii "2")) ∈ hit.asked ∧ ¬ hit.Truthful := by
  have hplay : (((cachedRuns plainService id plainDisk).play
      (cachedRuns plainService id plainDisk).init
      (extraction ++ .edit (ascii "/w/a.h") (some (ascii "2")) :: publication ++
        secondLookup)).map World.hits) =
      some [{
        extracted := [(ascii "/w/a.h", ascii "/w/a.h"), (ascii "/w/main.cpp", ascii "/w/main.cpp")]
        asked := [(ascii "/w/a.h", some (ascii "2")),
          (ascii "/w/main.cpp", some (ascii "/w/main.cpp"))] }] := by
    decide +kernel
  obtain ⟨w, hw, hhits⟩ := map_eq_some_iff.mp hplay
  refine ⟨w, Transition.System.reachable_of_play .init _ hw, _,
    by rw [hhits]; exact mem_singleton_self _, by simp, by simp, fun h => ?_⟩
  have hseen := (h _ mem_cons_self).2 _ mem_cons_self
  exact absurd hseen (by decide)

end CppIndexer.Cache
