/-
# Removing duplicates keeps every header

The first site of a target, configuration and region is never a repeat, so its directive is no
duplicate: one site that is none decides the verdict of the directive it belongs to.  Verdicts are
folded by a rule that does not care for the order of the sites.
-/

import CppIndexer.Hygiene.Analysis

namespace CppIndexer.Hygiene

open Util List

variable (sha1Hex : Bytes → Bytes) (db : Index) (disk : Disk)

/-- The candidates of the sites of a file, before they are merged. -/
def occurrences (ctx : SourceContext) (srcPath : Bytes) :
    List (IncludeEdge × IncludeSite) → List (Bytes × Int × Bytes) → List IncludeCandidate
  | [], _ => []
  | (e, s) :: rest, seen =>
    classify db ctx e s (siteKey e s ∈ seen) (siteCandidate sha1Hex db disk srcPath e s) ::
      occurrences ctx srcPath rest (siteKey e s :: seen)

/-- `merge_candidate` for one candidate after the other. -/
def mergeAll (cs : List IncludeCandidate) (merged : List IncludeCandidate) :
    List IncludeCandidate := cs.foldl (fun merged c => mergeCandidate c merged) merged

theorem mergeSites_eq (ctx : SourceContext) (srcPath : Bytes)
    (sites : List (IncludeEdge × IncludeSite)) (seen : List (Bytes × Int × Bytes))
    (merged : List IncludeCandidate) : mergeSites sha1Hex db disk ctx srcPath sites seen merged =
      mergeAll (occurrences sha1Hex db disk ctx srcPath sites seen) merged := by
  induction sites generalizing seen merged with
  | nil => rfl
  | cons _ _ ih => exact ih _ _

/-! ## The fold -/

theorem combineClass_eq_iff {v : Classification} (hv : v.removable = true) (a b : Classification) :
    combineClass a b = v ↔ a = v ∧ b = v := by
  revert hv
  cases v <;> cases a <;> cases b <;> decide

/-- What is merged is what there is of each id: a verdict a cleanup may act on is that of all. -/
structure MergedFrom (cs merged : List IncludeCandidate) : Prop where
  covers : ∀ c ∈ cs, ∃ d ∈ merged, d.id = c.id
  removable : ∀ d ∈ merged, ∀ v : Classification, v.removable = true →
    (d.cls = v ↔ ∀ c ∈ cs, c.id = d.id → c.cls = v)
  present : ∀ d ∈ merged, ∃ c ∈ cs, c.id = d.id ∧ c.beginOffset = d.beginOffset
  unique : (merged.map IncludeCandidate.id).Nodup

theorem ids_mergeCandidate (c : IncludeCandidate) (merged : List IncludeCandidate) :
    (mergeCandidate c merged).map IncludeCandidate.id =
      if c.id ∈ merged.map IncludeCandidate.id then merged.map IncludeCandidate.id
      else merged.map IncludeCandidate.id ++ [c.id] := by
  induction merged with
  | nil => rfl
  | cons =>
    rw [mergeCandidate]
    grind [mergeInto]

/-- The candidates of the other ids stay, that of the own id is folded. -/
theorem mem_mergeCandidate {c d : IncludeCandidate} {merged : List IncludeCandidate}
    (hunique : (merged.map IncludeCandidate.id).Nodup) (h : d ∈ mergeCandidate c merged) :
    d ∈ merged ∧ d.id ≠ c.id ∨ (∃ old ∈ merged, old.id = c.id ∧ d = mergeInto old c) ∨
      d = c ∧ ∀ old ∈ merged, old.id ≠ c.id := by
  induction merged with
  | nil => exact .inr (.inr ⟨mem_singleton.mp h, nofun⟩)
  | cons =>
    rw [mergeCandidate] at h
    grind

theorem MergedFrom.merge {cs merged : List IncludeCandidate} (h : MergedFrom cs merged)
    (c : IncludeCandidate) : MergedFrom (cs ++ [c]) (mergeCandidate c merged) := by
  have hids := ids_mergeCandidate c merged
  refine ⟨fun other hother => ?_, fun d hd v hv => ?_, fun d hd => ?_, ?_⟩
  · have hin : other.id ∈ (mergeCandidate c merged).map IncludeCandidate.id := by
      rcases mem_append.mp hother with hold | _
      · obtain ⟨_, hd, _⟩ := h.covers other hold
        grind
      · grind
    obtain ⟨d, hd, hid⟩ := mem_map.mp hin
    exact ⟨d, hd, hid⟩
  · rw [forall_mem_append, forall_mem_singleton]
    rcases mem_mergeCandidate h.unique hd with ⟨hold, hne⟩ | ⟨old, hold, hid, rfl⟩ | ⟨rfl, hnone⟩
    · rw [h.removable d hold v hv]
      exact (and_iff_left fun hid => absurd hid.symm hne).symm
    · show combineClass old.cls c.cls = v ↔ _
      rw [combineClass_eq_iff hv, h.removable old hold v hv]
      exact and_congr_right' ⟨fun hc _ => hc, fun hc => hc hid.symm⟩
    · rw [forall_prop_of_true rfl]
      refine (and_iff_right fun other hother hid => ?_).symm
      obtain ⟨old, hold, hsame⟩ := h.covers other hother
      exact absurd (hsame.trans hid) (hnone old hold)
  · rcases mem_mergeCandidate h.unique hd with ⟨hold, _⟩ | ⟨old, hold, _, rfl⟩ | ⟨rfl, _⟩
    · obtain ⟨other, hother, hsame⟩ := h.present d hold
      exact ⟨other, mem_append_left _ hother, hsame⟩
    · obtain ⟨other, hother, hsame⟩ := h.present old hold
      exact ⟨other, mem_append_left _ hother, hsame⟩
    · exact ⟨d, mem_append_right _ (mem_singleton_self d), rfl, rfl⟩
  · rw [hids]
    split
    · exact h.unique
    · rename_i hfresh
      exact (nodup_append.mpr ⟨h.unique, nodup_singleton _, by grind⟩)

theorem MergedFrom.mergeAll {before merged : List IncludeCandidate} (h : MergedFrom before merged)
    (cs : List IncludeCandidate) : MergedFrom (before ++ cs) (mergeAll cs merged) := by
  induction cs generalizing before merged with
  | nil => rwa [append_nil]
  | cons c _ ih =>
    rw [append_cons]
    exact ih (h.merge c)

theorem mergedFrom_mergeAll (cs : List IncludeCandidate) : MergedFrom cs (mergeAll cs []) :=
  @MergedFrom.mergeAll [] [] ⟨by simp, by simp, by simp, nodup_nil⟩ cs

/-! ## What is left of a file -/

/-- The paths a configuration includes in a region, by the sites that stand. -/
def includedPaths (sites : List (IncludeEdge × IncludeSite)) (config : Int) (region : Bytes) :
    Set Bytes := {path | ∃ site ∈ sites, siteKey site.1 site.2 = (path, config, region)}

variable {sha1Hex db disk}

theorem classify_id (ctx : SourceContext) (e : IncludeEdge) (s : IncludeSite) (isRepeat : Bool)
    (c : IncludeCandidate) : (classify db ctx e s isRepeat c).id = c.id ∧
      (classify db ctx e s isRepeat c).beginOffset = c.beginOffset := by
  unfold classify
  dsimp only
  split_ifs <;> exact ⟨rfl, rfl⟩

theorem classify_ne_duplicate (ctx : SourceContext) (e : IncludeEdge) (s : IncludeSite)
    (c : IncludeCandidate) : (classify db ctx e s false c).cls ≠ .duplicate := by
  unfold classify
  dsimp only
  split_ifs <;> simp_all

variable {c : IncludeCandidate} {ctx : SourceContext} {srcPath : Bytes}

/-- Every occurrence is named by its offset. -/
theorem id_of_occurrence
    {sites : List (IncludeEdge × IncludeSite)} {seen : List (Bytes × Int × Bytes)}
    (h : c ∈ occurrences sha1Hex db disk ctx srcPath sites seen) :
    c.id = candidateId sha1Hex srcPath c.beginOffset := by
  induction sites generalizing seen with
  | nil => cases h
  | cons site _ ih =>
    rcases mem_cons.mp h with rfl | hrest
    · obtain ⟨hid, hoffset⟩ := classify_id ctx site.1 site.2 (siteKey site.1 site.2 ∈ seen)
        (siteCandidate sha1Hex db disk srcPath site.1 site.2)
      rw [hid, hoffset]
      rfl
    · exact ih hrest

/-- The first site of a key is not classified as a duplicate. -/
theorem exists_first {key : Bytes × Int × Bytes}
    {sites : List (IncludeEdge × IncludeSite)} {seen : List (Bytes × Int × Bytes)}
    (hfresh : key ∉ seen) (h : ∃ site ∈ sites, siteKey site.1 site.2 = key) :
    ∃ site ∈ sites, siteKey site.1 site.2 = key ∧
      ∃ c ∈ occurrences sha1Hex db disk ctx srcPath sites seen,
        c.beginOffset = site.2.beginOffset ∧ c.cls ≠ .duplicate := by
  induction sites generalizing seen with
  | nil => simp at h
  | cons site rest ih =>
    by_cases hkey : siteKey site.1 site.2 = key
    · refine ⟨site, mem_cons_self, hkey, _, mem_cons_self, ?_, ?_⟩
      · exact (classify_id ..).2
      · rw [hkey, decide_eq_false hfresh]
        exact classify_ne_duplicate _ _ _ _
    · obtain ⟨other, _, hsame⟩ := h
      have hrest : other ∈ rest := by grind
      obtain ⟨first, hfirst, hfirstKey, c, hc, hoffset⟩ := @ih (siteKey site.1 site.2 :: seen)
        (by grind) ⟨other, hrest, hsame⟩
      exact ⟨first, mem_cons_of_mem _ hfirst, hfirstKey, c, mem_cons_of_mem _ hc, hoffset⟩

/-- The occurrences of the directives of a file, in the order they are visited. -/
def fileOccurrences (sha1Hex : Bytes → Bytes) (db : Index) (disk : Disk) (file : Int)
    (srcPath : Bytes) : List IncludeCandidate :=
  occurrences sha1Hex db disk (buildSourceContext db file) srcPath (fileSites db file) []

theorem fileCandidates_eq (file : Int) (srcPath : Bytes) : fileCandidates sha1Hex db disk file srcPath =
      (mergeAll (fileOccurrences sha1Hex db disk file srcPath) []).map finalizeMerged := by
  rw [fileCandidates, mergeSites_eq]
  rfl

/-- What is listed was found in some file. -/
theorem mem_analyze {cwd : Bytes} {opts : AnalysisOptions}
    (h : c ∈ (analyze sha1Hex db disk cwd opts).candidates) :
    ∃ file path, db.pathOf file = some path ∧ c ∈ fileCandidates sha1Hex db disk file path := by
  unfold analyze at h
  split at h
  · rw [mem_insertionSort, mem_flatMap] at h
    obtain ⟨⟨_, _⟩, hsrc, hc⟩ := h
    obtain ⟨other, _, hother⟩ := mem_filterMap.mp hsrc
    obtain ⟨found, hfound, hsome⟩ := Option.bind_eq_some_iff.mp hother
    split at hsome
    · obtain ⟨rfl, rfl⟩ := Prod.mk.inj (Option.some.inj hsome)
      exact ⟨other, found, hfound, (mem_filter.mp hc).1⟩
    · cases hsome
  · cases h

/-- Deleting directives that are duplicates keeps the included paths of every configuration and
region, and a directive has a verdict a cleanup acts on if all its occurrences have it, in whatever
order they are folded. -/
theorem duplicates_keep_headers (sha1Hex : Bytes → Bytes) (db : Index) (disk : Disk) :
    (∀ (cwd : Bytes) (opts : AnalysisOptions), ∀ c ∈ (analyze sha1Hex db disk cwd opts).candidates,
      ∃ file path, db.pathOf file = some path ∧ c ∈ fileCandidates sha1Hex db disk file path) ∧
    (∀ (file : Int) (srcPath : Bytes) (gone : Int64 → Bool),
      (∀ offset, gone offset = true → ∃ c ∈ fileCandidates sha1Hex db disk file srcPath,
        c.cls = .duplicate ∧ c.beginOffset = offset) → ∀ config region,
        includedPaths ((fileSites db file).filter fun site => !gone site.2.beginOffset) config
          region = includedPaths (fileSites db file) config region) ∧
    (∀ (file : Int) (srcPath : Bytes), ∀ c ∈ fileCandidates sha1Hex db disk file srcPath,
      c.cls.removable = true → ∀ occurrence ∈ fileOccurrences sha1Hex db disk file srcPath,
        occurrence.id = c.id → occurrence.cls = c.cls) ∧
    (∀ cs cs' : List IncludeCandidate, cs'.Perm cs → ∀ d ∈ mergeAll cs' [],
      ∀ v : Classification, v.removable = true → (d.cls = v ↔ ∀ c ∈ cs, c.id = d.id → c.cls = v)) := by
  refine ⟨fun _ _ _ => mem_analyze, ?_, ?_, ?_⟩
  · intro file srcPath _ hgone _ _
    ext path
    constructor
    · rintro ⟨site, hsite, hkey⟩
      exact ⟨site, (mem_filter.mp hsite).1, hkey⟩
    · intro hpath
      obtain ⟨site, hsite, hkey, c, hc, hoffset, hclass⟩ := @exists_first sha1Hex db disk
        (buildSourceContext db file) srcPath _ _ _ not_mem_nil hpath
      refine ⟨site, mem_filter.mpr ⟨hsite, ?_⟩, hkey⟩
      -- The directive of the first site has an occurrence that is no duplicate.
      by_contra hdeleted
      obtain ⟨_, hd, hduplicate, hd'⟩ := hgone site.2.beginOffset (by simpa using hdeleted)
      rw [fileCandidates_eq] at hd
      obtain ⟨merged, hmerged, rfl⟩ := mem_map.mp hd
      have hfrom := mergedFrom_mergeAll (fileOccurrences sha1Hex db disk file srcPath)
      obtain ⟨_, hother, hid, hsame⟩ := hfrom.present merged hmerged
      refine hclass ((hfrom.removable merged hmerged .duplicate rfl).mp hduplicate c hc ?_)
      rw [← hid, id_of_occurrence hc, id_of_occurrence hother, hsame, hoffset]
      exact congrArg _ hd'.symm
  · intro _ _ _ hc hremovable occurrence hoccurrence hid
    rw [fileCandidates_eq] at hc
    obtain ⟨merged, hmerged, rfl⟩ := mem_map.mp hc
    exact ((mergedFrom_mergeAll _).removable merged hmerged _ hremovable).mp rfl occurrence
      hoccurrence hid
  · intro _ cs' hperm d hd v hv
    rw [(mergedFrom_mergeAll cs').removable d hd v hv]
    exact ⟨fun h c hc => h c (hperm.mem_iff.mpr hc), fun h c hc => h c (hperm.mem_iff.mp hc)⟩

end CppIndexer.Hygiene
