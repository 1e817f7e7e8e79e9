/-
# What a cleanup leaves in the index

The rows of the files a cleanup edits, and of the translation units that reach
them, describe bytes that are gone.  `execute` marks them pending in its last
step, behind two returns that a partly or wholly written tree can take: a write
that fails after others succeeded, and a post-write validation that fails.

The result here is exact.  A run leaves the index truthful if and only if it
does not take one of those returns with an edit behind it whose rows still
claim to be indexed.  A run that never gets to write changes nothing.
-/

import CppIndexer.Hygiene.Executor

namespace CppIndexer.Hygiene

open Util
open OrderedMap (orderedSet mem_orderedSet nodup_orderedSet)
open List Except

/-! ## The write loop -/

/-- Nothing about the name or its directory makes the write fail. -/
def writable (w : World) (path : Bytes) : Bool :=
  (match w.links path with
    | none => false
    | some link => !link.symlink && decide (link.nlink ≤ 1)) &&
  (w.fault path).isNone

/-- The files a run writes: all of them up to the first that cannot be written. -/
def writtenOf (w : World) (finals : Overlay) : Overlay :=
  finals.takeWhile fun entry => writable w entry.1

@[simp]
theorem writable_disk (w : World) (disk : Disk) (path : Bytes) :
    writable { w with disk := disk } path = writable w path := rfl

@[simp]
theorem writtenOf_disk (w : World) (disk : Disk) (finals : Overlay) :
    writtenOf { w with disk := disk } finals = writtenOf w finals := rfl

@[simp]
theorem writtenOf_cons (w : World) (path content : Bytes) (rest : Overlay) :
    writtenOf w ((path, content) :: rest) =
      if writable w path then (path, content) :: writtenOf w rest else [] := by
  simp [writtenOf, takeWhile_cons]

/-- The disk after these writes. -/
def writeDisks (disk : Disk) : Overlay → Disk
  | [] => disk
  | (path, content) :: rest => writeDisks (writeDisk disk path content) rest

section

variable {done : Bool} {f path : Bytes} {plan : CleanupPlan} {opts : ExecuteOptions}
  {res : ExecuteResult} {entries : Overlay} {s : Staged} {tools : Tools} {w : World}

theorem writeAtomic_of_writable (h : writable w path = true) (content : Bytes) :
    writeAtomic w path content = .ok { w with disk := writeDisk w.disk path content } := by
  unfold writable at h
  unfold writeAtomic
  cases hlink : w.links path with
  | none => simp [hlink] at h
  | some link =>
    cases hfault : w.fault path with
    | some => simp [hfault] at h
    | none =>
      have hlink' : link.symlink = false ∧ link.nlink ≤ 1 := by
        simpa [hlink, hfault] using h
      simp [hlink']

theorem writeAtomic_of_not_writable (h : writable w path = false)
    (content : Bytes) : ∃ e, writeAtomic w path content = .error e := by
  unfold writable at h
  unfold writeAtomic
  cases hlink : w.links path with
  | none => exact ⟨_, rfl⟩
  | some =>
    simp only
    split
    · exact ⟨_, rfl⟩
    · split
      · exact ⟨_, rfl⟩
      · cases hfault : w.fault path with
        | some => exact ⟨_, rfl⟩
        | none => simp_all

/-- The world after the write loop differs by the files it wrote. -/
theorem writeAll_world (w : World) (finals : Overlay) :
    (writeAll w finals).1 = { w with disk := writeDisks w.disk (writtenOf w finals) } := by
  induction finals generalizing w with
  | nil => rfl
  | cons entry _ ih =>
    obtain ⟨path, content⟩ := entry
    cases hwritable : writable w path with
    | true =>
      have hrest := ih { w with disk := writeDisk w.disk path content }
      simp only [writeAll, writeAtomic_of_writable hwritable, hrest]
      simp [hwritable, writeDisks]
    | false =>
      obtain ⟨_, he⟩ := writeAtomic_of_not_writable hwritable content
      simp [writeAll, he, hwritable, writeDisks]

/-- The loop reports an error exactly when a file cannot be written. -/
theorem writeAll_error (w : World) (finals : Overlay) :
    (writeAll w finals).2.2 = none ↔ ∀ entry ∈ finals, writable w entry.1 = true := by
  induction finals generalizing w with
  | nil => simp [writeAll]
  | cons entry _ ih =>
    obtain ⟨path, content⟩ := entry
    cases hwritable : writable w path with
    | true =>
      have hrest := ih { w with disk := writeDisk w.disk path content }
      simp only [writable_disk] at hrest
      simpa [writeAll, writeAtomic_of_writable hwritable, hwritable] using hrest
    | false =>
      obtain ⟨_, he⟩ := writeAtomic_of_not_writable hwritable content
      simp [writeAll, he, hwritable]

theorem writeDisks_of_not_mem
    (h : f ∉ entries.map Prod.fst) (disk : Disk) : writeDisks disk entries f = disk f := by
  induction entries generalizing disk with
  | nil => rfl
  | cons _ _ ih =>
    rw [map_cons, mem_cons, not_or] at h
    rw [writeDisks, ih h.2, writeDisk, if_neg h.1]

theorem writeDisks_of_mem (hkeys : (entries.map Prod.fst).Nodup)
    {content : Bytes} (h : (f, content) ∈ entries) (disk : Disk) :
    writeDisks disk entries f = some content := by
  induction entries generalizing disk with
  | nil => exact absurd h not_mem_nil
  | cons _ _ ih =>
    rw [map_cons, nodup_cons] at hkeys
    rcases mem_cons.mp h with rfl | hrest
    · rw [writeDisks, writeDisks_of_not_mem hkeys.1, writeDisk, if_pos rfl]
    · rw [writeDisks]
      exact ih hkeys.2 hrest _

/-! ## The marking loop -/

theorem markPending_world (w : World) (files : List Bytes) :
    (markPending w files).1 =
      { w with indexed := fun row =>
          if ∃ f ∈ files, w.index.getFile f = some row then false else w.indexed row } := by
  induction files generalizing w with
  | nil => simp [markPending]
  | cons f _ ih =>
    cases hfile : w.index.getFile f with
    | none => simp [markPending, hfile, ih]
    | some row =>
      simp only [markPending, hfile, ih, setFileIndexed]
      congr 1
      funext other
      by_cases hother : other = row
      · simp [hother, hfile]
      · have hne : ¬row = other := fun h => hother h.symm
        simp [hother, hne, hfile]

/-! ## What is staged -/

theorem returnIf_eq_ok : returnIf done res = .ok () ↔ done = false := by
  cases done <;> simp [returnIf]

theorem returnIf_ne_outOfRange : returnIf done res ≠ .error .outOfRange := by
  cases done <;> simp [returnIf]

theorem refuse_eq_ok {refusals : List Refusal} : refuse res refusals = .ok () ↔ refusals = [] := by
  simp [refuse, returnIf_eq_ok]

/-- What passing every gate before the first write says. -/
structure StagesFrom (tools : Tools) (w : World) (c : Combined) (s : Staged) : Prop where
  selection : s.selection = c.selection
  targets : s.targets = c.targets
  combined : failures .combinedFailed
    (validate tools.compile w.disk c.targets c.overlay (ascii "combined")) = []
  finals : List.Forall₂
    (fun entry final => final.1 = entry.1 ∧
      clangFormatCleanup tools w entry.1 (readFile w.disk entry.1) entry.2 = .ok final.2)
    (OrderedMap.group Removal.absPath c.selection.removals) s.finals

theorem stage_eq_ok (h : stage tools w plan opts = .ok s) :
    ∃ c, gates tools w plan opts = .ok c ∧ StagesFrom tools w c s := by
  unfold stage at h
  obtain ⟨c, hgates, h⟩ := ok_of_bind h
  obtain ⟨_, hcombined, h⟩ := ok_of_bind h
  obtain ⟨_, hfinals, h⟩ := ok_of_bind h
  obtain ⟨_, _, h⟩ := ok_of_bind h
  cases h
  refine ⟨c, hgates, ⟨rfl, rfl, refuse_eq_ok.mp hcombined, ?_⟩⟩
  refine (mapM_eq_ok.mp (mapError_eq_ok.mp hfinals)).imp ?_
  intro _ _ hfinal
  obtain ⟨_, hout, heq⟩ := ok_of_bind hfinal
  cases heq
  exact ⟨rfl, hout⟩

/-- The final buffers are those of the touched files, in their order. -/
theorem StagesFrom.keys {c : Combined}
    (h : StagesFrom tools w c s) : s.finals.map Prod.fst = s.selection.touched := by
  have hkeys : ∀ {entries : List (Bytes × List Removal)} {finals : Overlay},
      List.Forall₂ (fun entry final => final.1 = entry.1 ∧
        clangFormatCleanup tools w entry.1 (readFile w.disk entry.1) entry.2 = .ok final.2)
        entries finals → finals.map Prod.fst = entries.map Prod.fst := by
    intro _ _ hall
    induction hall with
    | nil => rfl
    | cons hhead _ ih => rw [map_cons, map_cons, hhead.1, ih]
  rw [hkeys h.finals, OrderedMap.map_fst_group, h.selection]
  rfl

/-! ## The index after a run -/

/-- No row claims that the file is indexed. -/
def Pending (w : World) (f : Bytes) : Prop :=
  ∀ row, w.index.getFile f = some row → w.indexed row = false

/-- A file and every translation unit reported for it are pending. -/
def PendingWithTus (w : World) (f : Bytes) : Prop :=
  Pending w f ∧ ∀ targets, affectedTus w.index f = some targets →
    ∀ t ∈ targets, Pending w t.tuPath

/-- The run gets past its gates and is not a rehearsal. -/
def ReachesWrites (tools : Tools) (w : World) (plan : CleanupPlan) (opts : ExecuteOptions) : Prop :=
  (∃ s, stage tools w plan opts = .ok s) ∧ opts.dryRun = false

/-- No silent staleness: every file whose bytes changed is pending with its
translation units, and nothing changes short of the write stage. -/
structure LeavesIndexTruthful (tools : Tools) (w : World) (plan : CleanupPlan)
    (opts : ExecuteOptions) : Prop where
  changed_pending : ∀ f, (execute tools w plan opts).2.disk f ≠ w.disk f →
    PendingWithTus (execute tools w plan opts).2 f
  untouched : ¬ ReachesWrites tools w plan opts →
    (execute tools w plan opts).2.disk = w.disk ∧
      (execute tools w plan opts).2.indexed = w.indexed

/-- Every file can be written, and the written tree compiles. -/
def CommitSucceeds (tools : Tools) (w : World) (s : Staged) : Prop :=
  (∀ entry ∈ s.finals, writable w entry.1 = true) ∧
    allOk (validate tools.compile (writeDisks w.disk s.finals) s.targets []
      (ascii "post_write")) = true

/-- The edits made before a fault were of files no row claims to be indexed,
like those of the translation units that reach them. -/
def FaultFindsPending (w : World) (s : Staged) : Prop :=
  ∀ entry ∈ writtenOf w s.finals, w.disk entry.1 ≠ some entry.2 → PendingWithTus w entry.1

/-- Whatever is staged commits, or is interrupted without a claim left behind. -/
def CommitsOrFindsPending (tools : Tools) (w : World) (plan : CleanupPlan)
    (opts : ExecuteOptions) : Prop :=
  ∀ s, stage tools w plan opts = .ok s → opts.dryRun = false →
    CommitSucceeds tools w s ∨ FaultFindsPending w s

theorem failures_eq_nil {refusal : Bytes → Bytes → Refusal} {records : List ValidationRecord} :
    failures refusal records = [] ↔ allOk records = true := by
  simp [failures, allOk]

theorem writtenOf_of_all {finals : Overlay}
    (h : ∀ entry ∈ finals, writable w entry.1 = true) : writtenOf w finals = finals :=
  takeWhile_eq_self_iff.mpr h

/-- The world after the write stage. -/
theorem commit_world_of_succeeds (h : CommitSucceeds tools w s) : (commit tools w s).2 = { w with
        disk := writeDisks w.disk s.finals
        indexed := fun row =>
          if ∃ f ∈ staleFiles w.index s.selection.touched, w.index.getFile f = some row then false
          else w.indexed row } := by
  have hworld := writeAll_world w s.finals
  rw [writtenOf_of_all h.1] at hworld
  have herror := (writeAll_error w s.finals).mpr h.1
  generalize hrun : writeAll w s.finals = run at hworld herror
  obtain ⟨_, _, _⟩ := run
  cases hworld
  cases herror
  simp [commit, hrun, failures_eq_nil.mpr h.2, ne_eq, markPending_world]

theorem commit_world_of_fault (h : ¬ CommitSucceeds tools w s) :
    (commit tools w s).2 = { w with disk := writeDisks w.disk (writtenOf w s.finals) } := by
  have hworld := writeAll_world w s.finals
  have herror := writeAll_error w s.finals
  generalize hrun : writeAll w s.finals = run at hworld herror
  obtain ⟨_, _, error⟩ := run
  cases hworld
  cases error with
  | some => simp [commit, hrun]
  | none =>
    have hall := herror.mp rfl
    have hpost : failures .postWriteFailed (validate tools.compile
        (writeDisks w.disk (writtenOf w s.finals)) s.targets [] (ascii "post_write")) ≠ [] := by
      rw [writtenOf_of_all hall, ne_eq, failures_eq_nil]
      exact fun hok => h ⟨hall, hok⟩
    simp [commit, hrun, hpost]

theorem execute_world_of_stage (hstage : stage tools w plan opts = .ok s)
    (hdry : opts.dryRun = false) : (execute tools w plan opts).2 = (commit tools w s).2 := by
  simp [execute, hstage, hdry]

theorem execute_world_of_not_reachesWrites (h : ¬ ReachesWrites tools w plan opts) :
    (execute tools w plan opts).2 = w := by
  unfold execute
  cases hstage : stage tools w plan opts with
  | error stop => cases stop <;> rfl
  | ok s =>
    cases hdry : opts.dryRun with
    | true => rfl
    | false => exact absurd ⟨⟨s, hstage⟩, hdry⟩ h

/-! ## When a cleanup leaves the index truthful -/

/-- A committed run marks everything it edited. -/
theorem pendingWithTus_of_succeeds (h : CommitSucceeds tools w s) (hf : f ∈ s.selection.touched) :
    PendingWithTus (commit tools w s).2 f := by
  have hmarked : ∀ g ∈ staleFiles w.index s.selection.touched,
      Pending (commit tools w s).2 g := by
    intro g hg _ hrow
    rw [commit_world_of_succeeds h] at hrow ⊢
    exact if_pos ⟨g, hg, hrow⟩
  refine ⟨hmarked f (mem_orderedSet.mpr (mem_append_left _ hf)), ?_⟩
  intro _ htargets t ht
  rw [commit_world_of_succeeds h] at htargets
  apply hmarked
  apply mem_orderedSet.mpr (mem_append_right _ _)
  rw [mem_flatMap]
  exact ⟨f, hf, by simpa [htargets] using ⟨t, ht, rfl⟩⟩

/-- The files an interrupted run changed. -/
theorem changed_iff_of_fault
    (hkeys : (s.finals.map Prod.fst).Nodup) (h : ¬ CommitSucceeds tools w s) (f : Bytes) :
    (commit tools w s).2.disk f ≠ w.disk f ↔
      ∃ content, (f, content) ∈ writtenOf w s.finals ∧ w.disk f ≠ some content := by
  have hwritten : ((writtenOf w s.finals).map Prod.fst).Nodup :=
    hkeys.sublist ((takeWhile_sublist _).map _)
  rw [commit_world_of_fault h]
  constructor
  · intro hchanged
    by_cases hmem : f ∈ (writtenOf w s.finals).map Prod.fst
    · obtain ⟨⟨_, content⟩, hentry, rfl⟩ := mem_map.mp hmem
      have hnew := writeDisks_of_mem hwritten hentry w.disk
      exact ⟨content, hentry, fun hold => hchanged (hnew.trans hold.symm)⟩
    · exact absurd (writeDisks_of_not_mem hmem w.disk) hchanged
  · rintro ⟨_, hentry, hold⟩ hsame
    have hnew := writeDisks_of_mem hwritten hentry w.disk
    exact hold (hsame.symm.trans hnew)

theorem leavesIndexTruthful_iff (tools : Tools) (w : World) (plan : CleanupPlan) (opts : ExecuteOptions) :
    LeavesIndexTruthful tools w plan opts ↔ CommitsOrFindsPending tools w plan opts := by
  constructor
  · intro htruthful s hstage hdry
    obtain ⟨_, -, hfrom⟩ := stage_eq_ok hstage
    have hkeys : (s.finals.map Prod.fst).Nodup := by
      rw [hfrom.keys]
      exact nodup_orderedSet _
    by_cases hcommit : CommitSucceeds tools w s
    · exact Or.inl hcommit
    · refine Or.inr fun entry hentry hold => ?_
      have hchanged := (changed_iff_of_fault hkeys hcommit entry.1).mpr ⟨entry.2, hentry, hold⟩
      have hpending := htruthful.changed_pending entry.1
      rw [execute_world_of_stage hstage hdry] at hpending
      have hmarked := hpending hchanged
      rw [commit_world_of_fault hcommit] at hmarked
      exact hmarked
  · intro hclean
    by_cases hreach : ReachesWrites tools w plan opts
    · obtain ⟨⟨s, hstage⟩, hdry⟩ := hreach
      obtain ⟨_, -, hfrom⟩ := stage_eq_ok hstage
      have hkeys : (s.finals.map Prod.fst).Nodup := by
        rw [hfrom.keys]
        exact nodup_orderedSet _
      refine ⟨?_, fun hnot => absurd ⟨⟨s, hstage⟩, hdry⟩ hnot⟩
      intro f hchanged
      rw [execute_world_of_stage hstage hdry] at hchanged ⊢
      by_cases hcommit : CommitSucceeds tools w s
      · apply pendingWithTus_of_succeeds hcommit
        rw [← hfrom.keys]
        by_contra hmem
        rw [commit_world_of_succeeds hcommit] at hchanged
        exact hchanged (writeDisks_of_not_mem hmem w.disk)
      · obtain ⟨content, hentry, hold⟩ := (changed_iff_of_fault hkeys hcommit f).mp hchanged
        have hpending := (hclean s hstage hdry).resolve_left hcommit
        rw [commit_world_of_fault hcommit]
        exact hpending (f, content) hentry hold
    · have hworld := execute_world_of_not_reachesWrites hreach
      refine ⟨fun f hchanged => ?_, fun _ => ?_⟩
      · rw [hworld] at hchanged
        exact absurd rfl hchanged
      · rw [hworld]
        exact ⟨rfl, rfl⟩

/-! ## A hard link stops the second write

Two sources with one unused include each.  The second has another name on
disk, so `write_atomic` refuses it after the first was written.
-/

end

namespace HardLink

def aCpp : Bytes := ascii "/r/a.cpp"

def bCpp : Bytes := ascii "/r/b.cpp"

def aText : Bytes := ascii "#include \"u.h\"\nint a;\n"

def bText : Bytes := ascii "#include \"u.h\"\nint b;\n"

def directive : Bytes := ascii "#include \"u.h\"\n"

/-- The digests of the texts that are hashed here. -/
def sha1Hex (text : Bytes) : Bytes :=
  if text = aText then ascii "2afea822b60b4b8d7e27b9b388ea5a66cd3e4ecd"
  else if text = bText then ascii "09f2072138424ac53606ca9998e6642dd7b0ce6b"
  else if text = aCpp ++ [0, 48] then ascii "645a3d9e68182efbbb2ffd568df7e123c4ee2f1e"
  else if text = bCpp ++ [0, 48] then ascii "397cb24a818b7343273cb7d81ae0990350b26e9e"
  else []

/-- A compiler that accepts everything, and a formatter with nothing to tidy. -/
def tools : Tools where
  sha1Hex := sha1Hex
  compile := fun _ _ => { rc := 0, firstError := [] }
  addReplacement := fun reps r => .ok (reps ++ [r])
  getStyle := fun _ _ _ => some (ascii "LLVM")
  cleanupAround := fun _ reps _ => some reps
  applyAll := fun original reps =>
    some (reps.foldr (fun r out => out.take r.offset.toNat ++ out.drop (r.offset + r.length).toNat)
      original)

def edge (source : Int) : IncludeEdge where
  id := source
  srcFileId := source
  dstFileId := some 3
  dstPath := ascii "/r/u.h"
  configId := source
  isSystem := false
  count := 1

def index : Index where
  files := [(1, aCpp), (2, bCpp), (3, ascii "/r/u.h")]
  getFile := fun path =>
    if path = aCpp then some 1 else if path = bCpp then some 2
    else if path = ascii "/r/u.h" then some 3 else none
  includeEdges := [edge 1, edge 2]
  includeSites := fun _ =>
    [{ line := 1, col := 1, beginOffset := 0, endOffset := 15, directive := .include,
       condFingerprint := [], resolved := true, guarded := true }]
  includeConfigs :=
    [{ id := 1, tuFileId := 1, digest := ascii "d1", translationUnitConfigId := some 1 },
     { id := 2, tuFileId := 2, digest := ascii "d2", translationUnitConfigId := some 2 }]
  translationUnitConfig := fun _ =>
    some { descriptorHash := ascii "h", arguments := [], workingDir := some (ascii "/r"),
           registered := true }
  macroUses := fun _ _ => []
  symbolIdsForFile := fun _ => []
  edgeTargetsFrom := fun _ => []
  defEdgeTargetsForFile := fun _ => []
  typeIdsUsedBy := fun _ => []
  symbolsNamedByTypes := fun _ => []
  displayName := fun _ => none

def world : World where
  disk := fun path =>
    if path = aCpp then some aText else if path = bCpp then some bText
    else if path = ascii "/r/u.h" then some (ascii "#pragma once\n") else none
  links := fun path => some { symlink := false, nlink := if path = bCpp then 2 else 1 }
  fault := fun _ => none
  cwd := ascii "/"
  cwd_abs := by decide
  index := index
  indexed := fun _ => true

def item (id file : Bytes) (digest : Bytes) : PlanItem where
  id := id
  file := file
  line := 1
  col := 1
  beginOffset := 0
  endOffset := 15
  directiveText := directive
  resolvedTarget := ascii "/r/u.h"
  classification := Classification.unusedByReference.name
  state := .accepted
  reason := []
  owners := []
  headerSymbols := []
  intersectionCount := 0
  referenceKindsSearched := []
  macroUses := []
  guarded := true
  reverseDependants := []
  affectedTus := []
  configs := [digest]
  validations := []

def plan : CleanupPlan where
  formatVersion := planFormatVersion
  repoRoot := ascii "/r"
  dbPath := ascii "/r/index.db"
  schemaVersion := schemaVersion
  resolvedAt := ascii "2024-01-01T00:00:00Z"
  configDigests := [ascii "d1", ascii "d2"]
  fileHashes := [(ascii "a.cpp", sha1Hex aText), (ascii "b.cpp", sha1Hex bText)]
  items := [item ((sha1Hex (aCpp ++ [0, 48])).take 12) (ascii "a.cpp") (ascii "d1"),
    item ((sha1Hex (bCpp ++ [0, 48])).take 12) (ascii "b.cpp") (ascii "d2")]
  validations := []
  limitations := []

end HardLink

/-- `a.cpp` has lost its include, and its row still says it is indexed. -/
theorem hardLink_leaves_stale_row :
    ¬ LeavesIndexTruthful HardLink.tools HardLink.world HardLink.plan {} := by
  intro htruthful
  have hpending := (htruthful.changed_pending HardLink.aCpp (by decide +kernel)).1 1
    (by decide +kernel)
  exact absurd hpending (by decide +kernel)

end CppIndexer.Hygiene
