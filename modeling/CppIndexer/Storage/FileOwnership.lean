/-
# One path, one file row

A file is registered under the component that owns its path, and looked up under the component that owns
its path then. Both are the same as long as no other component's base stands between the file and the base
of its own component. A nested component that is added later takes the path over: the row that is there is
not found any more, and registering the path again adds a second one.
-/

import CppIndexer.Storage.Files
import CppIndexer.Storage.SourceIdentity

namespace CppIndexer.Sources

open Util (Bytes ascii)
open Util.PathUtil
open Occurrences (insertNew find?_insertNew_of_some find?_nextRowId)
open Storage (nextRowId)
open List Option AssocMap Corpus Library Service

/-! ## What is to hold -/

section

variable (s : Surroundings)

/-- The base of a component is at or above a path. -/
def Corpus.Owns (corpus : Corpus) (c : Component) (abs : Bytes) : Prop :=
  abs = corpus.ownerRoot s c ∨ corpus.ownerRoot s c ++ [slash] <+: abs

instance (corpus : Corpus) (c : Component) (abs : Bytes) : Decidable (corpus.Owns s c abs) :=
  inferInstanceAs (Decidable (_ ∨ _))

namespace Library

variable (library : Library)

/-- No two file rows have the same path, and the row of a path is found by it. -/
structure OneRowPerPath : Prop where
  unique : ∀ id id' path, library.fileAbsPath s id = some path →
    library.fileAbsPath s id' = some path → id = id'
  found : ∀ id path, library.fileAbsPath s id = some path → library.getFile s path = some id

/-- Another component has a base at or above the file that is longer than the base of the file's own
component, or is the same base in an earlier row. -/
def Shadowed (fileId : ℕ) : Prop :=
  ∃ row directory component path, library.place fileId = some (row, directory, component) ∧
    library.fileAbsPath s fileId = some path ∧
    ∃ id other, library.corpus.components.find? id = some other ∧
      library.corpus.Owns s other (abspath s.cwd path) ∧
      ((library.corpus.ownerRoot s component).length < (library.corpus.ownerRoot s other).length ∨
        (library.corpus.ownerRoot s component).length = (library.corpus.ownerRoot s other).length ∧
          id < directory.componentId)

end Library

end

/-! ## The owner of a path -/

section

variable {s : Surroundings}

theorem mem_scan {ν : Type} {table : AssocMap ℕ ν} {entry : ℕ × ν} :
    entry ∈ scan table ↔ table.find? entry.1 = some entry.2 := by
  rw [scan, mem_insertionSort, find?_eq_some_iff]

/-- Rows are scanned in the order of their ids. -/
theorem pairwise_scan {ν : Type} (table : AssocMap ℕ ν) :
    (scan table).Pairwise fun a b => a.1 < b.1 := by
  have hsorted : (scan table).Pairwise fun a b => a.1 ≤ b.1 :=
    pairwise_insertionSort (fun a b : ℕ × ν => a.1 ≤ b.1) table.entries
  have hnodup : ((scan table).map Prod.fst).Nodup :=
    ((perm_insertionSort _ table.entries).map Prod.fst).nodup_iff.mpr table.nodup
  rw [List.Nodup, pairwise_map] at hnodup
  exact hsorted.imp₂ (fun a b hle hne => lt_of_le_of_ne hle hne) hnodup

/-- In a sorted list what stands first is smaller. -/
theorem lt_of_idxOf_le {α : Type} [DecidableEq α] {key : α → ℕ} {l : List α}
    (h : l.Pairwise fun a b => key a < key b) {a b : α} (ha : a ∈ l) (hb : b ∈ l) (hne : a ≠ b)
    (hle : l.idxOf a ≤ l.idxOf b) : key a < key b := by
  have hlt : l.idxOf a < l.idxOf b := by
    refine lt_of_le_of_ne hle fun heq => hne ?_
    exact (idxOf_inj ha).mp heq
  have hget := pairwise_iff_getElem.mp h (l.idxOf a) (l.idxOf b) (idxOf_lt_length_of_mem ha)
    (idxOf_lt_length_of_mem hb) hlt
  rwa [getElem_idxOf, getElem_idxOf] at hget

namespace Corpus

variable {corpus : Corpus} {path : Bytes}

/-- The owner of a path is the first of the rows with the longest base above it. -/
theorem componentForPath_eq_argmax : corpus.componentForPath s path =
    ((scan corpus.components).filter fun row => corpus.Owns s row.2 (abspath s.cwd path)).argmax
      fun row => (corpus.ownerRoot s row.2).length := by
  rw [componentForPath, List.argmax, foldl_filter]
  congr 1
  funext best row
  by_cases howns : corpus.Owns s row.2 (abspath s.cwd path)
  · cases best with
    | none | some => simp [betterOwner, List.argAux, howns, show _ ∨ _ from howns]
  · simp [betterOwner, howns, show ¬(_ ∨ _) from howns]

variable {c : Component}

theorem of_componentForPath {id : ℕ}
    (h : corpus.componentForPath s path = some (id, c)) :
    corpus.components.find? id = some c ∧ corpus.Owns s c (abspath s.cwd path) := by
  rw [componentForPath_eq_argmax] at h
  have hmem := argmax_mem h
  rw [mem_filter, mem_scan, decide_eq_true_eq] at hmem
  exact hmem

/-- A component above a path is its owner unless a longer base, or the same base in an earlier row, is
above it too. -/
theorem componentForPath_eq_some_iff {id : ℕ}
    (hrow : corpus.components.find? id = some c) (howns : corpus.Owns s c (abspath s.cwd path)) :
    corpus.componentForPath s path = some (id, c) ↔
      ¬∃ id' other, corpus.components.find? id' = some other ∧
        corpus.Owns s other (abspath s.cwd path) ∧
        ((corpus.ownerRoot s c).length < (corpus.ownerRoot s other).length ∨
          (corpus.ownerRoot s c).length = (corpus.ownerRoot s other).length ∧ id' < id) := by
  have hmem : ∀ {row : ℕ × Component}, row ∈ (scan corpus.components).filter
      (fun row => corpus.Owns s row.2 (abspath s.cwd path)) ↔
      corpus.components.find? row.1 = some row.2 ∧ corpus.Owns s row.2 (abspath s.cwd path) := by
    intro _
    rw [mem_filter, mem_scan, decide_eq_true_eq]
  have hsorted := (pairwise_scan corpus.components).filter
    fun row => corpus.Owns s row.2 (abspath s.cwd path)
  have hown := hmem.mpr (show corpus.components.find? (id, c).1 = some (id, c).2 ∧ _ from ⟨hrow, howns⟩)
  constructor
  · rintro h ⟨id', other, hother, howns', hbetter⟩
    rw [componentForPath_eq_argmax] at h
    have hin := hmem.mpr (show corpus.components.find? (id', other).1 = some (id', other).2 ∧ _ from
      ⟨hother, howns'⟩)
    rcases hbetter with hlt | ⟨heq, hid⟩
    · exact absurd (le_of_mem_argmax hin h) (not_le.mpr hlt)
    · have hidx := index_of_argmax h hin heq.le
      have hne : (id, c) ≠ (id', other) := by
        intro hpair
        rw [(Prod.mk.inj hpair).1] at hid
        exact lt_irrefl _ hid
      exact absurd (lt_of_idxOf_le hsorted hown hin hne hidx) (not_lt.mpr hid.le)
  · intro hnone
    rw [componentForPath_eq_argmax]
    cases hbest : List.argmax (fun row : ℕ × Component => (corpus.ownerRoot s row.2).length)
        ((scan corpus.components).filter fun row => corpus.Owns s row.2 (abspath s.cwd path)) with
    | none =>
      rw [argmax_eq_none] at hbest
      rw [hbest] at hown
      exact absurd hown not_mem_nil
    | some best =>
      by_contra hne
      have hne' : best ≠ (id, c) := fun heq => hne (congrArg some heq)
      have hin := argmax_mem hbest
      obtain ⟨hfind, howns'⟩ := hmem.mp hin
      refine hnone ⟨best.1, best.2, hfind, howns', ?_⟩
      rcases (le_of_mem_argmax hown hbest).lt_or_eq with hlt | heq
      · exact .inl hlt
      · exact .inr ⟨heq, lt_of_idxOf_le hsorted hin hown hne'
          (index_of_argmax hbest hown heq.ge)⟩

end Corpus

/-! ## Paths below a base -/

theorem cwd_ne_nil (s : Surroundings) : s.cwd ≠ [] := by
  intro hnil
  have hcwd := s.cwd_abs
  rw [hnil] at hcwd
  cases hcwd

/-- An absolute path is a text of named components. -/
theorem abspath_eq_render (s : Surroundings) (path : Bytes) :
    ∃ k comps, (k = 1 ∨ k = 2) ∧ (∀ comp ∈ comps, Named comp) ∧
      abspath s.cwd path = render (k, comps) := by
  have habs : isabs (anchored s.cwd path) = true := by
    unfold anchored
    cases hpath : isabs path with
    | true => simpa using hpath
    | false => simp [isabs_join (cwd_ne_nil s) hpath, s.cwd_abs]
  have hpos := initialSlashes_pos habs
  have hle := initialSlashes_le (anchored s.cwd path)
  refine ⟨_, _, ?_, named_of_mem_normal habs, normpath_of_isabs habs⟩
  omega

variable {directory name : Bytes} {c : Component} {corpus : Corpus} {base comps below : List Bytes}
  {k : ℕ}

theorem rstrip_render (h : ∀ comp ∈ comps, Named comp) :
    rstrip (render (k, comps)) = if comps = [] then [] else render (k, comps) := by
  by_cases hne : comps = []
  · subst hne
    simp [rstrip, render]
  · obtain ⟨front, seg, hseg, hrender⟩ := render_ends k hne
    rw [if_neg hne, rstrip, hrender]
    exact (dropWhile_reverse_named front (h seg hseg)).2

/-- A base is above the paths whose components begin with its own. -/
theorem owns_render (hk : k = 1 ∨ k = 2) (h : ∀ comp ∈ base ++ below, Named comp)
    (hbase : corpus.componentAbsBase s c = render (k, base)) :
    corpus.Owns s c (render (k, base ++ below)) := by
  have hnamed : ∀ comp ∈ base, Named comp := fun comp hc => h comp (mem_append_left _ hc)
  unfold Corpus.Owns ownerRoot
  rw [hbase, rstrip_render hnamed]
  by_cases hnil : base = []
  · subst hnil
    right
    rcases hk with rfl | rfl
    all_goals simp [render]
  · rw [if_neg hnil, render_append hnil]
    cases below with
    | nil => simp [behind]
    | cons =>
      right
      simp [behind]

/-- What a base is above begins with its components. -/
theorem exists_of_owns {k' : ℕ}
    (hbase : corpus.componentAbsBase s c = render (k, base)) (hnamed : ∀ comp ∈ base, Named comp)
    (hcomps : ∀ comp ∈ comps, Named comp) (h : corpus.Owns s c (render (k', comps))) :
    ∃ below, comps = base ++ below := by
  unfold Corpus.Owns ownerRoot at h
  rw [hbase, rstrip_render hnamed] at h
  have hparts : parts (if base = [] then [] else render (k, base)) = base := by
    by_cases hnil : base = []
    · subst hnil
      rfl
    · rw [if_neg hnil, parts_render (plain_of_named hnamed)]
  rcases h with h | ⟨rest, h⟩
  · refine ⟨[], ?_⟩
    rw [append_nil, ← hparts, ← h, parts_render (plain_of_named hcomps)]
  · refine ⟨parts rest, ?_⟩
    have hcomps' := parts_render (k := k') (plain_of_named hcomps)
    rw [← h, append_assoc, singleton_append, parts_append_slash, hparts] at hcomps'
    exact hcomps'.symm

theorem abspath_abspath (path : Bytes) : abspath s.cwd (abspath s.cwd path) = abspath s.cwd path := by
  obtain ⟨_, _, hk, hnamed, hrender⟩ := abspath_eq_render s path
  have hnorm := normpath_render hk hnamed
  rw [hrender, abspath_of_isabs s.cwd hnorm.1, hnorm.2]

/-- The text of components below a base. -/
def relative (below : List Bytes) : Bytes := if below = [] then dot else render (0, below)

/-- A directory and a name that a relative path splits into. -/
def Splits (below : List Bytes) (directory name : Bytes) : Prop :=
  (∀ comp ∈ below, Named comp) ∧ split (relative below) = (directory, name)

theorem Splits.cases (h : Splits below directory name) : below = [] ∧ directory = [] ∧ name = dot ∨
      ∃ front, below = front ++ [name] ∧ directory = render (0, front) := by
  obtain ⟨hnamed, hsplit⟩ := h
  by_cases hnil : below = []
  · rw [relative, if_pos hnil, split_of_slash_not_mem (by decide)] at hsplit
    cases hsplit
    exact .inl ⟨hnil, rfl, rfl⟩
  · obtain ⟨front, seg, rfl⟩ : ∃ front seg, below = front ++ [seg] :=
      ⟨_, _, (dropLast_append_getLast hnil).symm⟩
    rw [relative, if_neg hnil, split_render hnamed] at hsplit
    cases hsplit
    exact .inr ⟨front, rfl, rfl⟩

theorem render_ne_dot (h : ∀ comp ∈ comps, Named comp) : render (0, comps) ≠ dot := by
  intro heq
  have hparts := parts_render (k := 0) (plain_of_named h)
  rw [heq] at hparts
  have hdot : dot ∈ comps := by
    rw [← hparts]
    decide
  exact (h dot hdot).2.2.1 rfl

theorem Splits.directory_ne_dot (h : Splits below directory name) : directory ≠ dot := by
  rcases h.cases with ⟨-, rfl, -⟩ | ⟨_, rfl, rfl⟩
  · decide
  · exact render_ne_dot fun comp hc => h.1 comp (mem_append_left _ hc)

theorem Splits.storedDirectory
    (h : Splits below directory name) : storedDirectory directory = directory := by
  rcases h.cases with ⟨-, rfl, -⟩ | ⟨front, rfl, rfl⟩
  · rfl
  · have hfront : ∀ comp ∈ front, Named comp := fun comp hc => h.1 comp (mem_append_left _ hc)
    by_cases hnil : front = []
    · subst hnil
      rfl
    · have hne := (getLast?_render 0 hnil (plain_of_named hfront)).1
      simp [Sources.storedDirectory, if_neg hne, normpath_render_relative hnil hfront,
        if_neg (render_ne_dot hfront)]

/-- `root/.` is the root. -/
theorem abspath_join_dot {root : Bytes} (habs : isabs root = true) (hnorm : normpath root = root) :
    abspath s.cwd (join root dot) = root := by
  have hne : root ≠ [] := by
    rintro rfl
    cases habs
  have hjoin : isabs (join root dot) = true := by rw [isabs_join hne (by decide), habs]
  have hnormal := @normal_anchored_join s.cwd root dot (cwd_ne_nil s) (by decide) (by decide)
  rw [anchored, if_pos hjoin, anchored, if_pos habs] at hnormal
  rw [abspath_of_isabs _ hjoin, normpath_of_isabs hjoin, hnormal]
  rw [normpath_of_isabs habs] at hnorm
  simpa [show parts dot = [dot] by decide] using hnorm

theorem join_render_singleton (k : ℕ) {front : List Bytes}
    (h : ∀ comp ∈ front ++ [name], Named comp) :
    join (render (k, front)) name = render (k, front ++ [name]) := by
  have hjoin : join (render (k, front)) (render (0, [name])) = render (k, front ++ [name]) :=
    join_render k (plain_of_named fun comp hc => h comp (mem_append_left _ hc))
      (plain_of_named fun comp hc => h comp (mem_append_right _ hc)) (by simp)
  rwa [render_singleton] at hjoin

/-- A path is rebuilt below its base. -/
theorem Splits.abspath_reconstructPath
    (h : Splits below directory name) (hk : k = 1 ∨ k = 2) (hbase : ∀ comp ∈ base, Named comp) :
    abspath s.cwd (reconstructPath (render (k, base)) directory name) = render (k, base ++ below) := by
  have hroot := normpath_render hk hbase
  have hnamed : ∀ comp ∈ base ++ below, Named comp := by
    intro comp hc
    rcases mem_append.mp hc with hc | hc
    · exact hbase comp hc
    · exact h.1 comp hc
  rcases h.cases with ⟨rfl, rfl, rfl⟩ | ⟨front, rfl, rfl⟩
  · rw [reconstructPath, if_pos rfl, abspath_join_dot hroot.1 hroot.2, append_nil]
  · have hpath := normpath_render hk hnamed
    rw [← append_assoc] at hnamed hpath ⊢
    have hrebuilt : reconstructPath (render (k, base)) (render (0, front)) name =
        render (k, base ++ front ++ [name]) := by
      unfold reconstructPath
      by_cases hnil : front = []
      · subst hnil
        rw [append_nil] at hnamed ⊢
        exact join_render_singleton k hnamed
      · have hfront : ∀ comp ∈ front, Named comp := fun comp hc => h.1 comp (mem_append_left _ hc)
        rw [if_neg (getLast?_render 0 hnil (plain_of_named hfront)).1,
          join_render k (plain_of_named hbase) (plain_of_named hfront) hnil]
        exact join_render_singleton k hnamed
    rw [hrebuilt, abspath_of_isabs _ hpath.1, hpath.2]

theorem componentAbsBase_eq_render (corpus : Corpus) (c : Component) :
    ∃ k base, (k = 1 ∨ k = 2) ∧ (∀ comp ∈ base, Named comp) ∧
      corpus.componentAbsBase s c = render (k, base) := by
  unfold componentAbsBase
  split
  · split <;> exact abspath_eq_render s _
  · exact abspath_eq_render s _

namespace Library

variable {library : Library} {name path directory : Bytes} {id : ℕ}

theorem splitPath_eq {k k' : ℕ} {base below : List Bytes}
    (howner : library.corpus.componentForPath s (abspath s.cwd path) = some (id, c))
    (hk : k = 1 ∨ k = 2) (hk' : k' = 1 ∨ k' = 2) (hbase : library.corpus.componentAbsBase s c = render (k, base))
    (hnamed : ∀ comp ∈ base ++ below, Named comp)
    (hpath : abspath s.cwd path = render (k', base ++ below)) (h : Splits below directory name) :
    library.splitPath s path = some (id, directory, name) := by
  have hrel : relpath s.cwd (abspath s.cwd path) (library.corpus.componentAbsBase s c) = relative below := by
    rw [hpath, hbase, relpath_render s.cwd hk hk' hnamed]
    rfl
  simp [splitPath, howner, hrel, h.2, if_neg h.directory_ne_dot]

theorem of_splitPath (h : library.splitPath s path = some (id, directory, name)) :
    (∃ c, library.corpus.componentForPath s (abspath s.cwd path) = some (id, c)) ∧
      ∃ below, Splits below directory name := by
  cases howner : library.corpus.componentForPath s (abspath s.cwd path) with
  | none => simp [splitPath, howner] at h
  | some owner =>
    obtain ⟨_, c⟩ := owner
    obtain ⟨_, _, hk, hbase, hrender⟩ := componentAbsBase_eq_render (s := s) library.corpus c
    obtain ⟨_, _, hk', hcomps, hpath⟩ := abspath_eq_render s path
    have howns := (of_componentForPath howner).2
    rw [abspath_abspath, hpath] at howns
    obtain ⟨below, rfl⟩ := exists_of_owns hrender hbase hcomps howns
    have hsplits : Splits below (split (relative below)).1 (split (relative below)).2 :=
      ⟨fun comp hc => hcomps comp (mem_append_right _ hc), rfl⟩
    have heq := splitPath_eq howner hk hk' hrender hcomps hpath hsplits
    rw [h] at heq
    cases heq
    exact ⟨⟨c, rfl⟩, below, hsplits⟩

end Library

/-! ## The rows that runs reach -/

namespace Library

/-- Directories and files are unique in their parents, and every file lies below its component. -/
structure Shelved (library : Library) : Prop where
  directories : ∀ i j row, library.directories.find? i = some row →
    library.directories.find? j = some row → i = j
  files : ∀ i j row row', library.files.find? i = some row → library.files.find? j = some row' →
    row.directoryId = row'.directoryId → row.name = row'.name → i = j
  linked : ∀ i row, library.files.find? i = some row → ∃ directory below,
    library.directories.find? row.directoryId = some directory ∧ Splits below directory.path row.name

variable {library : Library}
  {name : Bytes} {component : Component} {directory : Directory} {row : File}
  {below : List Bytes} {fileId : ℕ}

theorem place_eq_some (h : library.place fileId = some (row, directory, component)) :
    library.files.find? fileId = some row ∧ library.directories.find? row.directoryId = some directory ∧
      library.corpus.components.find? directory.componentId = some component := by
  unfold place at h
  simp only [bind_eq_bind, bind_eq_some_iff, Option.pure_def, some.injEq, Prod.mk.injEq] at h
  obtain ⟨_, hrow, _, hdirectory, _, hcomponent, rfl, rfl, rfl⟩ := h
  exact ⟨hrow, hdirectory, hcomponent⟩

section

variable (h : Shelved library)
include h

section

variable (hplace : library.place fileId = some (row, directory, component))
include hplace

/-- The component of a file is above it. -/
theorem Shelved.owns : ∃ k base below, (k = 1 ∨ k = 2) ∧ (∀ comp ∈ base ++ below, Named comp) ∧
      library.corpus.componentAbsBase s component = render (k, base) ∧
      Splits below directory.path row.name ∧
      abspath s.cwd (reconstructPath (library.corpus.componentAbsBase s component) directory.path
        row.name) = render (k, base ++ below) := by
  obtain ⟨hrow, hdirectory, -⟩ := place_eq_some hplace
  obtain ⟨_, below, hdirectory', hsplits⟩ := h.linked fileId row hrow
  rw [hdirectory] at hdirectory'
  cases hdirectory'
  obtain ⟨k, base, hk, hbase, hrender⟩ := componentAbsBase_eq_render (s := s) library.corpus component
  refine ⟨k, base, below, hk, ?_, hrender, hsplits, ?_⟩
  · intro comp hc
    rcases mem_append.mp hc with hc | hc
    · exact hbase comp hc
    · exact hsplits.1 comp hc
  · rw [hrender]
    exact hsplits.abspath_reconstructPath hk hbase

/-- A file is found by its path when its component owns the path. -/
theorem Shelved.getFile_iff {path : Bytes}
    (hpath : library.fileAbsPath s fileId = some path) :
    library.getFile s path = some fileId ↔
      library.corpus.componentForPath s (abspath s.cwd path) = some (directory.componentId, component) := by
  obtain ⟨hrow, hdirectory, hcomponent⟩ := place_eq_some hplace
  obtain ⟨k, base, below, hk, hnamed, hbase, hsplits, habs⟩ := h.owns (s := s) hplace
  rw [fileAbsPath, hplace] at hpath
  cases hpath
  constructor
  · intro hfound
    unfold getFile at hfound
    split at hfound
    · cases hfound
    · rename_i componentId relDir name hsplit
      obtain ⟨_, hrow', hmatch⟩ := find?_of_minKey? hfound
      rw [hrow] at hrow'
      cases hrow'
      have hsame := (of_decide_eq_true hmatch).1
      rw [hdirectory] at hsame
      cases hsame
      obtain ⟨⟨_, howner⟩, -⟩ := of_splitPath hsplit
      have hc := (of_componentForPath howner).1
      rw [hcomponent] at hc
      cases hc
      exact howner
  · intro howner
    have hsplit := splitPath_eq howner hk hk hbase hnamed habs hsplits
    simp only [getFile, hsplit]
    cases hkey : library.files.minKey? fun row' => decide
        (library.directories.find? row'.directoryId = some ⟨directory.componentId, directory.path⟩ ∧
          row'.name = row.name) with
    | none =>
      have hnot := minKey?_eq_none_iff.mp hkey fileId row hrow
      simp [hdirectory] at hnot
    | some k =>
      obtain ⟨row', hrow', hmatch⟩ := find?_of_minKey? hkey
      obtain ⟨hdirectory', hname⟩ := of_decide_eq_true hmatch
      rw [h.files k fileId row' row hrow' hrow (h.directories _ _ directory hdirectory' hdirectory) hname]

end

/-- Paths and rows correspond exactly when no file is shadowed. -/
theorem Shelved.oneRowPerPath_iff : library.OneRowPerPath s ↔ ∀ fileId, ¬library.Shadowed s fileId := by
  have hfound : ∀ {fileId row directory component path},
      library.place fileId = some (row, directory, component) →
      library.fileAbsPath s fileId = some path →
      (library.getFile s path = some fileId ↔ ¬library.Shadowed s fileId) := by
    intro _ row directory component path hplace hpath
    obtain ⟨-, -, hcomponent⟩ := place_eq_some hplace
    obtain ⟨_, _, _, hk, hnamed, hbase, _, habs⟩ := h.owns (s := s) hplace
    have howns : library.corpus.Owns s component (abspath s.cwd (abspath s.cwd path)) := by
      rw [fileAbsPath, hplace] at hpath
      cases hpath
      rw [abspath_abspath, habs]
      exact owns_render hk hnamed hbase
    rw [h.getFile_iff hplace hpath, componentForPath_eq_some_iff hcomponent howns, abspath_abspath]
    refine not_congr ⟨fun hbetter => ⟨row, directory, component, path, hplace, hpath, hbetter⟩, ?_⟩
    rintro ⟨_, _, _, _, hplace', hpath', hbetter⟩
    rw [hplace] at hplace'
    rw [hpath] at hpath'
    cases hplace'
    cases hpath'
    exact hbetter
  constructor
  · rintro hone fileId ⟨row, directory, component, path, hplace, hpath, hbetter⟩
    exact (hfound hplace hpath).mp (hone.found fileId path hpath)
      ⟨row, directory, component, path, hplace, hpath, hbetter⟩
  · intro hnone
    have hall : ∀ fileId path, library.fileAbsPath s fileId = some path →
        library.getFile s path = some fileId := by
      intro fileId _ hpath
      obtain ⟨⟨_, _⟩, hplace, -⟩ := map_eq_some_iff.mp hpath
      exact (hfound hplace hpath).mpr (hnone fileId)
    refine ⟨fun id id' path hid hid' => ?_, hall⟩
    have heq := (hall id path hid).symm.trans (hall id' path hid')
    exact some.inj heq

/-! ## Steps -/

/-- Rows that are deleted with what refers to them. -/
theorem Shelved.sub {library' : Library}
    (hdirectories : ∀ i row, library'.directories.find? i = some row →
      library.directories.find? i = some row)
    (hfiles : ∀ i row, library'.files.find? i = some row → library.files.find? i = some row ∧
      ∀ directory, library.directories.find? row.directoryId = some directory →
        library'.directories.find? row.directoryId = some directory) : Shelved library' where
  directories := fun i j row hi hj => h.directories i j row (hdirectories i row hi) (hdirectories j row hj)
  files := fun i j row row' hi hj => h.files i j row row' (hfiles i row hi).1 (hfiles j row' hj).1
  linked := by
    intro i row hi
    obtain ⟨hrow, hkept⟩ := hfiles i row hi
    obtain ⟨directory, below, hdirectory, hsplits⟩ := h.linked i row hrow
    exact ⟨directory, below, hkept directory hdirectory, hsplits⟩

theorem Shelved.deleteFile (fileId : ℕ) : Shelved (library.deleteFile fileId) := by
  refine h.sub (fun i row hi => hi) fun i row hi => ?_
  rw [Library.deleteFile, find?_eraseWhere] at hi
  exact ⟨(filter_eq_some_iff.mp hi).1, fun directory hdirectory => hdirectory⟩

theorem Shelved.deleteDirectory (directoryId : ℕ) : Shelved (library.deleteDirectory directoryId) := by
  refine h.sub (fun i row hi => ?_) fun i row hi => ?_
  · rw [Library.deleteDirectory, find?_eraseWhere] at hi
    exact (filter_eq_some_iff.mp hi).1
  · rw [Library.deleteDirectory, find?_eraseWhere] at hi
    obtain ⟨hrow, hkept⟩ := filter_eq_some_iff.mp hi
    refine ⟨hrow, fun directory hdirectory => ?_⟩
    rw [Library.deleteDirectory, find?_eraseWhere, hdirectory]
    simpa using hkept

theorem Shelved.cascade (componentId : ℕ) : Shelved (library.cascade componentId) := by
  refine h.sub (fun i row hi => ?_) fun i row hi => ?_
  · rw [Library.cascade, find?_eraseWhere] at hi
    exact (filter_eq_some_iff.mp hi).1
  · rw [Library.cascade, find?_eraseWhere] at hi
    obtain ⟨hrow, hkept⟩ := filter_eq_some_iff.mp hi
    refine ⟨hrow, fun directory hdirectory => ?_⟩
    rw [hdirectory] at hkept
    rw [Library.cascade, find?_eraseWhere, hdirectory]
    simpa using hkept

/-- Only the rows of directories and files matter. -/
theorem Shelved.withCorpus (corpus : Corpus) :
    Shelved { library with corpus := corpus } :=
  ⟨h.directories, h.files, h.linked⟩

theorem Shelved.operate (op : Operation) : Shelved (library.operate s op) := by
  unfold Library.operate
  split
  · exact h
  · split
    · exact (h.cascade _).withCorpus _
    · exact h.withCorpus _

theorem Shelved.addDirectory (componentId : ℕ)
    {directory : Bytes} (hsplits : Splits below directory name) :
    Shelved (library.addDirectory componentId directory).2 ∧
      (library.addDirectory componentId directory).2.directories.find?
        (library.addDirectory componentId directory).1 = some ⟨componentId, directory⟩ := by
  unfold Library.addDirectory
  rw [hsplits.storedDirectory]
  dsimp only
  split
  · rename_i id hkey
    obtain ⟨_, hrow, hsame⟩ := find?_of_minKey? hkey
    rw [of_decide_eq_true hsame] at hrow
    exact ⟨h, hrow⟩
  · rename_i hnone
    have hnew : ∀ i row, (insertNew library.directories ⟨componentId, directory⟩).find? i = some row →
        i = nextRowId (library.directories.entries.map Prod.fst) ∧ row = ⟨componentId, directory⟩ ∨
          library.directories.find? i = some row ∧ row ≠ ⟨componentId, directory⟩ := by
      intro i row hi
      rw [insertNew, find?_insertOrAssign] at hi
      split at hi
      · rename_i heq
        exact .inl ⟨heq, (some.inj hi).symm⟩
      · refine .inr ⟨hi, fun heq => ?_⟩
        have hnot := minKey?_eq_none_iff.mp hnone i row hi
        simp [heq] at hnot
    refine ⟨⟨?_, h.files, ?_⟩, ?_⟩
    · intro i j row hi hj
      rcases hnew i row hi with ⟨rfl, rfl⟩ | ⟨hi, hne⟩
      · rcases hnew j _ hj with ⟨rfl, -⟩ | ⟨-, hne⟩
        · rfl
        · exact absurd rfl hne
      · rcases hnew j row hj with ⟨-, heq⟩ | ⟨hj, -⟩
        · exact absurd heq hne
        · exact h.directories i j row hi hj
    · intro i row hi
      obtain ⟨existing, below', hexisting, hsplits'⟩ := h.linked i row hi
      exact ⟨existing, below', find?_insertNew_of_some hexisting, hsplits'⟩
    · rw [insertNew, find?_insertOrAssign, if_pos rfl]

end

/-- An update keeps the place of a file. -/
theorem find?_updateRow_update {files : AssocMap ℕ File} {id i : ℕ} {given : FileMeta}
    (h : (updateRow files id fun row => row.update given).find? i = some row) :
    ∃ before, files.find? i = some before ∧ before.directoryId = row.directoryId ∧
      before.name = row.name := by
  rw [updateRow, find?_mapValues] at h
  obtain ⟨before, hbefore, rfl⟩ := map_eq_some_iff.mp h
  refine ⟨before, hbefore, ?_⟩
  split <;> exact ⟨rfl, rfl⟩

theorem Shelved.addFile (h : Shelved library) {directoryId : ℕ} (given : FileMeta)
    (hdirectory : library.directories.find? directoryId = some directory)
    (hsplits : Splits below directory.path name) :
    Shelved (library.addFile directoryId name given).2 := by
  unfold Library.addFile
  split
  · refine ⟨h.directories, ?_, ?_⟩
    · intro i j _ _ hi hj hsame hname
      obtain ⟨before, hbefore, hdir, hnm⟩ := find?_updateRow_update hi
      obtain ⟨before', hbefore', hdir', hnm'⟩ := find?_updateRow_update hj
      rw [← hdir, ← hdir'] at hsame
      rw [← hnm, ← hnm'] at hname
      exact h.files i j before before' hbefore hbefore' hsame hname
    · intro i _ hi
      obtain ⟨before, hbefore, hdir, hnm⟩ := find?_updateRow_update hi
      rw [← hdir, ← hnm]
      exact h.linked i before hbefore
  · rename_i hnone
    have hnew : ∀ i row, (insertNew library.files
        ({ given with directoryId := directoryId, name := name } : File)).find? i = some row →
        i = nextRowId (library.files.entries.map Prod.fst) ∧
            row.directoryId = directoryId ∧ row.name = name ∨
          library.files.find? i = some row ∧ ¬(row.directoryId = directoryId ∧ row.name = name) := by
      intro i row hi
      rw [insertNew, find?_insertOrAssign] at hi
      split at hi
      · rename_i heq
        cases hi
        exact .inl ⟨heq, rfl, rfl⟩
      · have hnot := minKey?_eq_none_iff.mp hnone i row hi
        exact .inr ⟨hi, of_decide_eq_false hnot⟩
    refine ⟨h.directories, ?_, ?_⟩
    · intro i j row row' hi hj hsame hname
      rcases hnew i row hi with ⟨rfl, hdir, hnm⟩ | ⟨hi, hne⟩
      · rcases hnew j row' hj with ⟨rfl, -⟩ | ⟨-, hne⟩
        · rfl
        · exact absurd ⟨hsame.symm.trans hdir, hname.symm.trans hnm⟩ hne
      · rcases hnew j row' hj with ⟨-, hdir, hnm⟩ | ⟨hj, -⟩
        · exact absurd ⟨hsame.trans hdir, hname.trans hnm⟩ hne
        · exact h.files i j row row' hi hj hsame hname
    · intro i row hi
      rcases hnew i row hi with ⟨-, hdir, hnm⟩ | ⟨hi, -⟩
      · rw [hdir, hnm]
        exact ⟨directory, below, hdirectory, hsplits⟩
      · exact h.linked i row hi

theorem Shelved.step (h : Shelved library) (step : LibraryStep) : Shelved (library.step s step) := by
  cases step with
  | operation op => exact h.operate op
  | deleteDirectory directoryId => exact h.deleteDirectory directoryId
  | deleteFile fileId => exact h.deleteFile fileId
  | addFilePath path given =>
    cases hsplit : library.splitPath s path with
    | none =>
      simp only [Library.step, addFilePath, hsplit]
      exact h
    | some owner =>
      obtain ⟨componentId, _⟩ := owner
      obtain ⟨-, _, hsplits⟩ := of_splitPath hsplit
      obtain ⟨hshelved, hdirectory⟩ := h.addDirectory componentId hsplits
      simp only [Library.step, addFilePath, hsplit]
      exact hshelved.addFile given hdirectory hsplits

theorem shelved_empty : Shelved {} where
  directories := fun _ _ _ hi => absurd hi (by simp)
  files := fun _ _ _ _ hi => absurd hi (by simp)
  linked := fun _ _ hi => absurd hi (by simp)

theorem Shelved.play (h : Shelved library) (steps : List LibraryStep) :
    Shelved (library.play s steps) := by
  induction steps generalizing library with
  | nil => exact h
  | cons step _ ih => exact ih (h.step step)

/-- After every sequence of steps, paths and file rows correspond exactly when no file is shadowed. -/
theorem oneRowPerPath_play_iff (s : Surroundings) (steps : List LibraryStep) :
    (play s {} steps).OneRowPerPath s ↔ ∀ fileId, ¬(play s {} steps).Shadowed s fileId :=
  (shelved_empty.play steps).oneRowPerPath_iff

/-- A component inside another one is added after a file that both contain, and the file is registered
again. -/
def nestedLater : List LibraryStep :=
  [.operation (.addComponent (ascii "work") (ascii "/w") .repo none),
   .addFilePath (ascii "/w/lib/a.cpp") {},
   .operation (.addComponent (ascii "lib") (ascii "/w/lib") .repo none),
   .addFilePath (ascii "/w/lib/a.cpp") {}]

/-- The file is not found any more, and then has two rows. -/
theorem nestedLater_hides_and_duplicates :
    ¬(play Service.plainSurroundings {} (nestedLater.take 3)).OneRowPerPath Service.plainSurroundings ∧
    (play Service.plainSurroundings {} (nestedLater.take 3)).fileAbsPath Service.plainSurroundings 1 =
      some (ascii "/w/lib/a.cpp") ∧
    (play Service.plainSurroundings {} (nestedLater.take 3)).getFile Service.plainSurroundings
      (ascii "/w/lib/a.cpp") = none ∧
    ¬(play Service.plainSurroundings {} nestedLater).OneRowPerPath Service.plainSurroundings ∧
    (play Service.plainSurroundings {} nestedLater).fileAbsPath Service.plainSurroundings 1 =
      some (ascii "/w/lib/a.cpp") ∧
    (play Service.plainSurroundings {} nestedLater).fileAbsPath Service.plainSurroundings 2 =
      some (ascii "/w/lib/a.cpp") := by
  have hpath : (play Service.plainSurroundings {} (nestedLater.take 3)).fileAbsPath
      Service.plainSurroundings 1 = some (ascii "/w/lib/a.cpp") := by decide +kernel
  have hlost : (play Service.plainSurroundings {} (nestedLater.take 3)).getFile
      Service.plainSurroundings (ascii "/w/lib/a.cpp") = none := by decide +kernel
  have hfirst : (play Service.plainSurroundings {} nestedLater).fileAbsPath
      Service.plainSurroundings 1 = some (ascii "/w/lib/a.cpp") := by decide +kernel
  have hsecond : (play Service.plainSurroundings {} nestedLater).fileAbsPath
      Service.plainSurroundings 2 = some (ascii "/w/lib/a.cpp") := by decide +kernel
  refine ⟨fun hone => ?_, hpath, hlost, fun hone => ?_, hfirst, hsecond⟩
  · have hfound := hone.found 1 _ hpath
    rw [hlost] at hfound
    cases hfound
  · cases hone.unique 1 2 _ hfirst hsecond

end Library

end

end CppIndexer.Sources
