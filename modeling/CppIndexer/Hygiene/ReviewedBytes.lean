/-
# Which bytes a plan can delete

A plan is untrusted, so `execute` checks it against the disk and derives every
finding again from the index.  This module says exactly how much that protects.

Freshness, the bytes of the directive and the item's state always hold of a
deleted range.  Three things need more than the gates ask for.  The path must
name something below the root and not the root itself.  The offsets must fit
the 32 bits of a replacement.  And the item must not borrow the id of a
directive in another touched file: the gate looks a finding up by id alone and
never compares its file, so one removable directive vouches for the same bytes
at the same offsets elsewhere.
-/

import CppIndexer.Hygiene.PendingMarks

namespace CppIndexer.Hygiene

open Util
open Util.PathUtil (join abspath anchored normal parts dot)
open OrderedMap (orderedSet mem_orderedSet)
open List Except

/-! ## What the gates establish -/

/-- What `checkItem` has seen of an item it lets pass. -/
structure Checked (disk : Disk) (plan : CleanupPlan) (it : PlanItem) (r : Removal) : Prop where
  removal : r = { absPath := join plan.repoRoot it.file, beginOffset := it.beginOffset,
                  endOffset := it.endOffset }
  within : withinRepo it.file = true
  hashed : (OrderedMap.find? plan.fileHashes it.file).isSome = true
  inside : it.endOffset.toInt ≤ (readFile disk (join plan.repoRoot it.file)).length
  bytes : substr (readFile disk (join plan.repoRoot it.file))
    (it.beginOffset.toInt % 2 ^ 64).toNat
    ((it.endOffset.toInt - it.beginOffset.toInt) % 2 ^ 64).toNat = it.directiveText

section

variable {rel : Bytes} {plan : CleanupPlan} {c : Combined} {disk : Disk} {opts : ExecuteOptions}
  {chosen : List PlanItem} {it : PlanItem} {r : Removal} {sel : Selection} {tools : Tools}
  {w : World}

theorem checkItem_eq_ok (h : checkItem disk plan it = .ok (.ok r)) : Checked disk plan it r := by
  unfold checkItem at h
  split at h
  · cases h
  · rename_i hwithin
    split at h
    · cases h
    · rename_i hhash
      simp only at h
      split at h
      · cases h
      · rename_i hinside
        split at h
        · cases h
        · split at h
          · cases h
          · rename_i hbytes
            cases h
            exact ⟨rfl, by simpa using hwithin, by simpa [Option.isSome_iff_ne_none] using hhash, by omega,
              by simpa using hbytes⟩

/-- An ordered range never starts behind the end it was compared with. -/
theorem checkItem_ne_outOfRange
    (hordered : it.Ordered) : checkItem disk plan it ≠ .error .outOfRange := by
  unfold checkItem
  split
  · simp
  · split
    · simp
    · simp only
      split
      · simp
      · rename_i hinside
        have hbegin := it.beginOffset.toInt_lt
        have hmod : it.beginOffset.toInt % 2 ^ 64 = it.beginOffset.toInt :=
          Int.emod_eq_of_lt hordered.1 (by omega)
        have hstart : ¬ (readFile disk (join plan.repoRoot it.file)).length <
            (it.beginOffset.toInt % 2 ^ 64).toNat := by
          have := hordered.2
          omega
        rw [if_neg hstart]
        split <;> simp

theorem removals_of_checks {checks : List (Except Refusal Removal)}
    (hchecks : List.Forall₂ (fun it check => checkItem disk plan it = .ok check) chosen checks)
    (hpass : checks.filterMap refusalOf = []) :
    List.Forall₂ (Checked disk plan) chosen (checks.filterMap removalOf) := by
  induction hchecks with
  | nil => exact List.Forall₂.nil
  | @cons it check _ _ hhead _ ih =>
    cases check with
    | error => simp [refusalOf] at hpass
    | ok => exact List.Forall₂.cons (checkItem_eq_ok hhead) (ih (by simpa [refusalOf] using hpass))

/-- What passing gates 1 and 2 says. -/
structure Selects (tools : Tools) (w : World) (plan : CleanupPlan) (opts : ExecuteOptions)
    (sel : Selection) : Prop where
  fresh : stalenessReasons tools.sha1Hex w.disk plan schemaVersion = []
  chosen : sel.chosen = plan.items.filter (selected opts.only)
  checked : List.Forall₂ (Checked w.disk plan) sel.chosen sel.removals

theorem select_eq_ok (h : select tools w plan opts = .ok sel) : Selects tools w plan opts sel := by
  obtain ⟨_, hfresh, h⟩ := ok_of_bind h
  obtain ⟨_, _, h⟩ := ok_of_bind h
  obtain ⟨_, _, h⟩ := ok_of_bind h
  obtain ⟨_, hchecks, h⟩ := ok_of_bind h
  obtain ⟨_, hpass, h⟩ := ok_of_bind h
  cases h
  exact ⟨by simpa using returnIf_eq_ok.mp hfresh, rfl,
    removals_of_checks (mapM_eq_ok.mp hchecks) (refuse_eq_ok.mp hpass)⟩

/-- What passing the gates before the combined validation says. -/
structure PassesGates (tools : Tools) (w : World) (plan : CleanupPlan) (opts : ExecuteOptions)
    (c : Combined) : Prop where
  selects : Selects tools w plan opts c.selection
  rederived : ∀ it ∈ c.selection.chosen,
    rederives (freshCandidates tools w c.selection) it = true

theorem gates_eq_ok (h : gates tools w plan opts = .ok c) : PassesGates tools w plan opts c := by
  obtain ⟨_, hsel, h⟩ := ok_of_bind h
  obtain ⟨_, hrederive, h⟩ := ok_of_bind h
  obtain ⟨_, _, h⟩ := ok_of_bind h
  cases h
  refine ⟨select_eq_ok hsel, fun it hit => ?_⟩
  have hnone := refuse_eq_ok.mp hrederive
  simp only [map_eq_nil_iff, filter_eq_nil_iff, Bool.not_eq_true'] at hnone
  simpa using hnone it hit

/-! ## No substring starts behind the end of its file -/

theorem refuse_ne_outOfRange {res : ExecuteResult} {refusals : List Refusal} :
    refuse res refusals ≠ .error .outOfRange :=
  returnIf_ne_outOfRange

theorem mapM_checkItem_ne_outOfRange (hordered : ∀ it ∈ chosen, it.Ordered) :
    chosen.mapM (checkItem disk plan) ≠ .error .outOfRange := by
  induction chosen with
  | nil => simp [pure, Except.pure]
  | cons it _ ih =>
    rw [mapM_cons]
    intro h
    rcases error_of_bind h with hhead | ⟨_, -, h⟩
    · exact checkItem_ne_outOfRange (hordered it mem_cons_self) hhead
    · rcases error_of_bind h with hrest | ⟨_, -, h⟩
      · exact ih (fun it hit => hordered it (mem_cons_of_mem _ hit)) hrest
      · cases h

section

variable (hordered : ∀ it ∈ plan.items, it.Ordered)
include hordered

theorem select_ne_outOfRange : select tools w plan opts ≠ .error .outOfRange := by
  intro h
  rcases error_of_bind h with h | ⟨_, -, h⟩
  · exact returnIf_ne_outOfRange h
  rcases error_of_bind h with h | ⟨_, -, h⟩
  · exact refuse_ne_outOfRange h
  rcases error_of_bind h with h | ⟨_, -, h⟩
  · exact returnIf_ne_outOfRange h
  rcases error_of_bind h with h | ⟨_, -, h⟩
  · exact mapM_checkItem_ne_outOfRange (fun it hit => hordered it (mem_of_mem_filter hit)) h
  rcases error_of_bind h with h | ⟨_, -, h⟩
  · exact refuse_ne_outOfRange h
  cases h

theorem gates_ne_outOfRange : gates tools w plan opts ≠ .error .outOfRange := by
  intro h
  rcases error_of_bind h with h | ⟨_, -, h⟩
  · exact select_ne_outOfRange hordered h
  rcases error_of_bind h with h | ⟨_, -, h⟩
  · exact refuse_ne_outOfRange h
  rcases error_of_bind h with h | ⟨_, -, h⟩
  · unfold gateTargets at h
    rcases error_of_bind h with h | ⟨_, -, h⟩
    · exact refuse_ne_outOfRange h
    rcases error_of_bind h with h | ⟨_, -, h⟩
    · exact refuse_ne_outOfRange h
    cases h
  cases h

theorem stage_ne_outOfRange : stage tools w plan opts ≠ .error .outOfRange := by
  intro h
  rcases error_of_bind h with h | ⟨c, -, h⟩
  · exact gates_ne_outOfRange hordered h
  rcases error_of_bind h with h | ⟨_, -, h⟩
  · exact refuse_ne_outOfRange h
  rcases error_of_bind h with h | ⟨_, -, h⟩
  · generalize finalBuffers tools w c.selection.removals = buffers at h
    cases buffers <;> simp [Except.mapError] at h
  rcases error_of_bind h with h | ⟨_, -, h⟩
  · exact refuse_ne_outOfRange h
  cases h

theorem execute_returns : ((execute tools w plan opts).1).isSome = true := by
  unfold execute
  have hne : stage tools w plan opts ≠ .error .outOfRange := stage_ne_outOfRange hordered
  cases hstage : stage tools w plan opts with
  | error stop =>
    cases stop with
    | returns => rfl
    | outOfRange => exact absurd hstage hne
  | ok => cases opts.dryRun <;> rfl

end

/-! ## Deletions and their review -/

/-- A deleted range: the item it comes from and what is handed to clang. -/
structure Deletion where
  item : PlanItem
  replacement : Replacement
  deriving DecidableEq

/-- The ranges of the files a run gets to write. -/
def deletions (tools : Tools) (w : World) (plan : CleanupPlan) (opts : ExecuteOptions) : List Deletion :=
  match stage tools w plan opts with
  | .error _ => []
  | .ok s =>
    if opts.dryRun then []
    else
      ((s.selection.chosen.zip s.selection.removals).filter fun pair =>
        pair.2.absPath ∈ (writtenOf w s.finals).map Prod.fst).map fun pair =>
          { item := pair.1, replacement := replacementOf pair.2 }

/-- Some component of the path stands below those of the root. -/
def StrictlyUnder (cwd root path : Bytes) : Prop :=
  ∃ rest, rest ≠ [] ∧ normal (anchored cwd path) =
    ((normal (anchored cwd root)).1, (normal (anchored cwd root)).2 ++ rest)

/-- A fresh analysis of the whole index calls the directive of a file at these
offsets unused or a duplicate. -/
def RemovableAt (tools : Tools) (w : World) (path : Bytes) (b e : Int) : Prop :=
  ∃ c ∈ (analyze tools.sha1Hex w.index w.disk w.cwd { scopePaths := [] }).candidates,
    c.srcPath = abspath w.cwd path ∧ c.beginOffset.toInt = b ∧ c.endOffset.toInt = e ∧
      c.cls.removable = true

structure Reviewed (tools : Tools) (w : World) (plan : CleanupPlan) (d : Deletion) : Prop where
  accepted : d.item ∈ plan.items ∧ d.item.state = .accepted
  range : (d.replacement.offset.toNat : Int) = d.item.beginOffset.toInt ∧
    ((d.replacement.offset.toNat + d.replacement.length.toNat : ℕ) : Int) = d.item.endOffset.toInt
  below : StrictlyUnder w.cwd plan.repoRoot d.replacement.filePath
  current : ∃ sha1, OrderedMap.find? plan.fileHashes d.item.file = some sha1 ∧
    hashFile tools.sha1Hex w.disk d.replacement.filePath = some sha1
  spelled : ∃ content, w.disk d.replacement.filePath = some content ∧
    d.replacement.offset.toNat + d.replacement.length.toNat ≤ content.length ∧
    substr content d.replacement.offset.toNat d.replacement.length.toNat = d.item.directiveText
  removable : RemovableAt tools w d.replacement.filePath d.replacement.offset.toNat
    ((d.replacement.offset.toNat + d.replacement.length.toNat : ℕ) : Int)

/-- A run throws nothing and deletes reviewed ranges only. -/
def DeletesOnlyReviewed (tools : Tools) (w : World) (plan : CleanupPlan) (opts : ExecuteOptions) : Prop :=
  (execute tools w plan opts).1.isSome = true ∧
    ∀ d ∈ deletions tools w plan opts, Reviewed tools w plan d

/-! ## When a plan is honest -/

/-- The files of the selected items, in the order of their paths. -/
def selectedFiles (plan : CleanupPlan) (opts : ExecuteOptions) : List Bytes :=
  orderedSet ((plan.items.filter (selected opts.only)).map fun it =>
    join plan.repoRoot it.file)

/-- The id of an item belongs to a directive of another selected file. -/
def BorrowsId (tools : Tools) (w : World) (plan : CleanupPlan) (opts : ExecuteOptions)
    (it : PlanItem) : Prop :=
  ∃ c, (analyze tools.sha1Hex w.index w.disk w.cwd
      { scopePaths := selectedFiles plan opts }).candidates.find? (fun c => c.id = it.id) = some c ∧
    c.srcPath ≠ abspath w.cwd (join plan.repoRoot it.file)

/-- What the gates leave to the plan: the path names more than the root, the
range fits a replacement, and an id borrowed from another file stands for a
directive that could go just as well. -/
structure HonestItem (tools : Tools) (w : World) (plan : CleanupPlan) (opts : ExecuteOptions)
    (it : PlanItem) : Prop where
  named : ∃ comp ∈ parts it.file, comp ≠ dot
  fits : it.beginOffset.toInt < 2 ^ 32 ∧ it.endOffset.toInt - it.beginOffset.toInt < 2 ^ 32
  ownId : BorrowsId tools w plan opts it →
    RemovableAt tools w (join plan.repoRoot it.file) it.beginOffset.toInt it.endOffset.toInt

theorem Selects.touched (h : Selects tools w plan opts sel) : sel.touched = selectedFiles plan opts := by
  have hpaths : ∀ {chosen : List PlanItem} {removals : List Removal},
      List.Forall₂ (Checked w.disk plan) chosen removals →
        removals.map Removal.absPath = chosen.map fun it => join plan.repoRoot it.file := by
    intro _ _ hall
    induction hall with
    | nil => rfl
    | cons hhead _ ih => rw [map_cons, map_cons, ih, hhead.removal]
  rw [Selection.touched, hpaths h.checked, h.chosen]
  rfl

/-- A verdict does not depend on the scope it was asked in. -/
theorem analyze_scope {sha1Hex : Bytes → Bytes} {db : Index} {cwd : Bytes}
    {scope : List Bytes} {c : IncludeCandidate}
    (h : c ∈ (analyze sha1Hex db disk cwd { scopePaths := scope }).candidates) :
    c ∈ (analyze sha1Hex db disk cwd { scopePaths := [] }).candidates := by
  unfold analyze at h ⊢
  cases hpopulated : db.includeGraphPopulated with
  | false => simp [hpopulated] at h
  | true =>
    simp only [hpopulated, if_true, mem_insertionSort, mem_flatMap] at h ⊢
    obtain ⟨source, hsource, hc⟩ := h
    refine ⟨source, ?_, hc⟩
    simp only [sourcesInScope, mem_filterMap, map_nil] at hsource ⊢
    obtain ⟨file, hfile, hpath⟩ := hsource
    refine ⟨file, hfile, ?_⟩
    obtain ⟨_, hpath, hscope⟩ := Option.bind_eq_some_iff.mp hpath
    rw [hpath]
    split at hscope
    · simpa using hscope
    · cases hscope

theorem removable_of_rederives {candidates : List IncludeCandidate}
    (h : rederives candidates it = true) :
    ∃ c, candidates.find? (fun c => c.id = it.id) = some c ∧ c.cls.removable = true ∧
      c.beginOffset = it.beginOffset ∧ c.endOffset = it.endOffset := by
  unfold rederives at h
  cases hfound : candidates.find? (fun c => c.id = it.id) with
  | none => simp [hfound] at h
  | some c =>
    simp only [hfound, Bool.and_eq_true, decide_eq_true_eq] at h
    exact ⟨c, rfl, h.1.1.1, h.1.1.2, h.1.2⟩

/-- Every entry of `file_hashes` is current. -/
theorem current_of_fresh (hfresh : stalenessReasons tools.sha1Hex w.disk plan schemaVersion = [])
    {file sha1 : Bytes} (hmem : (file, sha1) ∈ plan.fileHashes) :
    hashFile tools.sha1Hex w.disk (join plan.repoRoot file) = some sha1 := by
  have hnone := filterMap_eq_nil_iff.mp (append_eq_nil_iff.mp hfresh).2 _ hmem
  cases hhash : hashFile tools.sha1Hex w.disk (join plan.repoRoot file) with
  | none => simp [hhash] at hnone
  | some =>
    simp only [hhash, ne_eq, ite_eq_right_iff, reduceCtorEq, imp_false, not_not] at hnone
    rw [hnone]

theorem toNat_ofInt (x : Int) : ((UInt32.ofInt x).toNat : Int) = x % 2 ^ 32 := by
  have hmod : (x % 2 ^ 32).toNat < 2 ^ 32 := by omega
  rw [UInt32.ofInt, UInt32.toNat_ofNat', Nat.mod_eq_of_lt hmod]
  omega

/-- A replacement has the range of its removal exactly when both numbers fit. -/
theorem replacementOf_range_iff (hbegin : 0 ≤ r.beginOffset.toInt)
    (hend : r.beginOffset.toInt ≤ r.endOffset.toInt) :
    (((replacementOf r).offset.toNat : Int) = r.beginOffset.toInt ∧
        (((replacementOf r).offset.toNat + (replacementOf r).length.toNat : ℕ) : Int) =
          r.endOffset.toInt) ↔
      r.beginOffset.toInt < 2 ^ 32 ∧ r.endOffset.toInt - r.beginOffset.toInt < 2 ^ 32 := by
  have hoffset := toNat_ofInt r.beginOffset.toInt
  have hlength := toNat_ofInt (r.endOffset.toInt - r.beginOffset.toInt)
  simp only [replacementOf, Nat.cast_add]
  omega

theorem withinRepo_parts (h : withinRepo rel = true) :
    PathUtil.isabs rel = false ∧ ∀ comp ∈ parts rel, comp ≠ PathUtil.dotdot := by
  simp only [withinRepo, decide_eq_true_eq] at h
  exact ⟨h.2.1, fun comp hcomp => h.2.2 comp (mem_of_mem_filter hcomp)⟩

/-- An admitted path lies below the root exactly when it names something. -/
theorem strictlyUnder_join_iff {root : Bytes} (h : withinRepo rel = true) :
    StrictlyUnder w.cwd root (join root rel) ↔ ∃ comp ∈ parts rel, comp ≠ dot := by
  obtain ⟨hrel, hdown⟩ := withinRepo_parts h
  have hcwd : w.cwd ≠ [] := by
    intro hnil
    have habs := w.cwd_abs
    rw [hnil] at habs
    exact absurd habs (by decide)
  have hnormal := @PathUtil.normal_anchored_join w.cwd root rel hcwd hrel hdown
  constructor
  · rintro ⟨rest, hrest, heq⟩
    rw [hnormal, Prod.mk.injEq, append_cancel_left_eq] at heq
    obtain ⟨comp, hcomp⟩ := exists_mem_of_ne_nil rest hrest
    rw [← heq.2, mem_filter] at hcomp
    exact ⟨comp, hcomp.1, by simpa using hcomp.2⟩
  · rintro ⟨_, hcomp, hne⟩
    refine ⟨(parts rel).filter (· ≠ dot), ?_, hnormal⟩
    exact ne_nil_of_mem (mem_filter.mpr ⟨hcomp, by simpa using hne⟩)

theorem deletion_origin {d : Deletion} (h : d ∈ deletions tools w plan opts) :
    ∃ c r, PassesGates tools w plan opts c ∧ d.item ∈ c.selection.chosen ∧
      Checked w.disk plan d.item r ∧ d.replacement = replacementOf r := by
  unfold deletions at h
  cases hstage : stage tools w plan opts with
  | error => simp [hstage] at h
  | ok =>
    obtain ⟨c, hgates, hfrom⟩ := stage_eq_ok hstage
    have hpass := gates_eq_ok hgates
    cases hdry : opts.dryRun with
    | true => simp [hstage, hdry] at h
    | false =>
      simp only [hstage, hdry, Bool.false_eq_true, if_false, mem_map, mem_filter] at h
      obtain ⟨⟨_, r⟩, ⟨hzip, -⟩, rfl⟩ := h
      rw [hfrom.selection] at hzip
      exact ⟨c, r, hpass, (of_mem_zip hzip).1, forall₂_zip hpass.selects.checked hzip, rfl⟩

/-- The gates and an honest item make a reviewed deletion. -/
theorem reviewed_of_honest
    (hpass : PassesGates tools w plan opts c) (hchosen : it ∈ c.selection.chosen)
    (hchecked : Checked w.disk plan it r) (hordered : it.Ordered)
    (hhonest : HonestItem tools w plan opts it) :
    Reviewed tools w plan { item := it, replacement := replacementOf r } := by
  have hr := hchecked.removal
  have hbegin : r.beginOffset = it.beginOffset := by rw [hr]
  have hend : r.endOffset = it.endOffset := by rw [hr]
  have hpath : (replacementOf r).filePath = join plan.repoRoot it.file := by
    rw [replacementOf, hr]
  have hrange := (@replacementOf_range_iff r (hbegin ▸ hordered.1)
    (hbegin ▸ hend ▸ hordered.2)).mpr (by rw [hbegin, hend]; exact hhonest.fits)
  rw [hbegin, hend] at hrange
  generalize replacementOf r = rep at hpath hrange ⊢
  have hselected : it ∈ plan.items ∧ selected opts.only it = true := by
    rw [hpass.selects.chosen, mem_filter] at hchosen
    exact hchosen
  obtain ⟨sha1, hsha1⟩ := Option.isSome_iff_exists.mp hchecked.hashed
  have hcurrent := current_of_fresh hpass.selects.fresh (OrderedMap.mem_of_find?_eq_some hsha1)
  rw [← hpath] at hcurrent
  refine ⟨⟨hselected.1, ?_⟩, hrange, ?_, ⟨sha1, hsha1, hcurrent⟩, ?_, ?_⟩
  · simp only [selected, decide_eq_true_eq] at hselected
    exact hselected.2.1
  · rw [hpath]
    exact (strictlyUnder_join_iff hchecked.within).mpr hhonest.named
  · obtain ⟨content, hcontent, -⟩ := Option.map_eq_some_iff.mp hcurrent
    have hread : readFile w.disk (join plan.repoRoot it.file) = content := by
      simp [readFile, ← hpath, hcontent]
    have hinside := hchecked.inside
    have hbytes := hchecked.bytes
    rw [hread] at hinside hbytes
    have hlast : rep.offset.toNat + rep.length.toNat ≤ content.length := by omega
    refine ⟨content, hcontent, hlast, ?_⟩
    have hfits := hhonest.fits
    have hstart : (it.beginOffset.toInt % 2 ^ 64).toNat = rep.offset.toNat := by omega
    have hlength : ((it.endOffset.toInt - it.beginOffset.toInt) % 2 ^ 64).toNat =
        rep.length.toNat := by omega
    rw [hstart, hlength] at hbytes
    exact hbytes
  · rw [hpath, RemovableAt, hrange.1, hrange.2]
    obtain ⟨found, hfound, hremovable, hfirst, hlast⟩ :=
      removable_of_rederives (hpass.rederived it hchosen)
    by_cases hborrow : BorrowsId tools w plan opts it
    · exact hhonest.ownId hborrow
    · have hsrc : found.srcPath = abspath w.cwd (join plan.repoRoot it.file) := by
        by_contra hne
        rw [freshCandidates, hpass.selects.touched] at hfound
        exact hborrow ⟨found, hfound, hne⟩
      refine ⟨found, analyze_scope (List.mem_of_find?_eq_some hfound), hsrc, ?_, ?_, hremovable⟩
      · rw [hfirst]
      · rw [hlast]

/-- A reviewed deletion comes from an honest item. -/
theorem honest_of_reviewed (hchecked : Checked w.disk plan it r) (hordered : it.Ordered)
    (hreviewed : Reviewed tools w plan { item := it, replacement := replacementOf r }) :
    HonestItem tools w plan opts it := by
  obtain ⟨-, hrange, hbelow, -, -, hremovable⟩ := hreviewed
  have hr := hchecked.removal
  have hpath : (replacementOf r).filePath = join plan.repoRoot it.file := by
    rw [replacementOf, hr]
  rw [hpath] at hbelow
  rw [hpath, RemovableAt, hrange.1, hrange.2] at hremovable
  refine ⟨(strictlyUnder_join_iff hchecked.within).mp hbelow, ?_, fun _ => hremovable⟩
  have hbegin : r.beginOffset = it.beginOffset := by rw [hr]
  have hend : r.endOffset = it.endOffset := by rw [hr]
  have hfits := @replacementOf_range_iff r (hbegin ▸ hordered.1) (hbegin ▸ hend ▸ hordered.2)
  rw [hbegin, hend] at hfits
  exact hfits.mp hrange

theorem deletesOnlyReviewed_iff (tools : Tools) (w : World) {text : Bytes} {plan : CleanupPlan}
    (hread : deserialize text = .ok plan) (opts : ExecuteOptions) :
    DeletesOnlyReviewed tools w plan opts ↔
      ∀ d ∈ deletions tools w plan opts, HonestItem tools w plan opts d.item := by
  have hordered := deserialize_ordered hread
  have hitem : ∀ {c : Combined} {it : PlanItem}, PassesGates tools w plan opts c →
      it ∈ c.selection.chosen → it.Ordered := by
    intro _ it hpass hchosen
    rw [hpass.selects.chosen] at hchosen
    exact hordered it (mem_of_mem_filter hchosen)
  constructor
  · rintro ⟨-, hreviewed⟩ d hd
    obtain ⟨_, r, hpass, hchosen, hchecked, hreplacement⟩ := deletion_origin hd
    have hd' := hreviewed d hd
    rw [show d = { item := d.item, replacement := replacementOf r } by rw [← hreplacement]] at hd'
    exact honest_of_reviewed hchecked (hitem hpass hchosen) hd'
  · intro hhonest
    refine ⟨execute_returns hordered, fun d hd => ?_⟩
    obtain ⟨_, r, hpass, hchosen, hchecked, hreplacement⟩ := deletion_origin hd
    rw [show d = { item := d.item, replacement := replacementOf r } by rw [← hreplacement]]
    exact reviewed_of_honest hpass hchosen hchecked (hitem hpass hchosen) (hhonest d hd)

/-! ## One id for two files

`a.cpp` does not use what it includes, `b.cpp` does.  Both begin with the same
directive.  The plan lists the directive of `a.cpp`, and then that of `b.cpp`
under the id of the first.
-/

end

namespace BorrowedId

open HardLink (aCpp bCpp aText item)

def bText : Bytes := ascii "#include \"u.h\"\nextern int u;\nint b = u;\n"

def sha1Hex (text : Bytes) : Bytes :=
  if text = bText then ascii "126add328824c710d0dc75f1b998627e963e42d1" else HardLink.sha1Hex text

def tools : Tools := { HardLink.tools with sha1Hex := sha1Hex }

/-- Symbol 7 is `u`, declared in `u.h`; symbol 8 is `b`, which refers to it. -/
def index : Index :=
  { HardLink.index with
    symbolIdsForFile := fun file => if file = 3 then [7] else if file = 2 then [8] else []
    edgeTargetsFrom := fun owners => if 8 ∈ owners then [7] else [] }

def world : World :=
  { HardLink.world with
    disk := fun path => if path = bCpp then some bText else HardLink.world.disk path
    links := fun _ => some { symlink := false, nlink := 1 }
    index := index }

def plan : CleanupPlan :=
  { HardLink.plan with
    fileHashes := [(ascii "a.cpp", sha1Hex aText), (ascii "b.cpp", sha1Hex bText)]
    items :=
      [item ((sha1Hex (aCpp ++ [0, 48])).take 12) (ascii "a.cpp") (ascii "d1"),
       item ((sha1Hex (aCpp ++ [0, 48])).take 12) (ascii "b.cpp") (ascii "d2")] }

def text : Bytes := serialize plan

theorem deserialize_text : deserialize text = .ok plan := by decide +kernel

end BorrowedId

theorem deletesOnlyReviewed_iff_borrowedId :
    deserialize BorrowedId.text = .ok BorrowedId.plan ∧
      (DeletesOnlyReviewed BorrowedId.tools BorrowedId.world BorrowedId.plan {} ↔
        ∀ d ∈ deletions BorrowedId.tools BorrowedId.world BorrowedId.plan {},
          HonestItem BorrowedId.tools BorrowedId.world BorrowedId.plan {} d.item) :=
  ⟨BorrowedId.deserialize_text, deletesOnlyReviewed_iff _ _ BorrowedId.deserialize_text _⟩

/-- The used directive of `b.cpp` is deleted on the word of `a.cpp`'s. -/
theorem borrowedId_deletes_used_directive :
    deserialize BorrowedId.text = .ok BorrowedId.plan ∧
      ¬ DeletesOnlyReviewed BorrowedId.tools BorrowedId.world BorrowedId.plan {} := by
  refine ⟨BorrowedId.deserialize_text, ?_⟩
  rintro ⟨-, hreviewed⟩
  have hremovable := (hreviewed
    { item := HardLink.item ((BorrowedId.sha1Hex (HardLink.aCpp ++ [0, 48])).take 12)
        (ascii "b.cpp") (ascii "d2")
      replacement := { filePath := HardLink.bCpp, offset := 0, length := 15, text := [] } }
    (by decide +kernel)).removable
  unfold RemovableAt at hremovable
  exact absurd hremovable (by decide +kernel)

end CppIndexer.Hygiene
