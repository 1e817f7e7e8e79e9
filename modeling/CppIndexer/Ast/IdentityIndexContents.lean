/-
# What the identity index holds

The index means a map: a resident entry if there is one, else the entry of the
newest run that has one.  Flushing moves entries, compaction merges them, and
neither changes the map; a lookup finds what the map says, and an insertion that
returns has changed one key at most.

A run is read back from its file, and its range of keys excludes nothing it
holds, because the encoded keys have the order of the entries.  No file is
overwritten while a run needs it: runs are numbered below the number of runs,
and compacted files have a serial of their own.
-/

import CppIndexer.Ast.IdentityIndexLimits
import Mathlib.Algebra.Order.BigOperators.Group.List

namespace CppIndexer.Ast

open Util (Bytes ascii)
open LittleEndian List Option SortedMap

variable {a b : IdentityKey}

/-- Encoded keys have the order of the keys. -/
theorem encodedKey_lt (h : a < b) : encodedKey a < encodedKey b := by
  have hbyte : ∀ kind kind' : FactIdentityKind, kind < kind' →
      UInt8.ofNat kind.underlying < UInt8.ofNat kind'.underlying := by
    intro kind kind'
    cases kind <;> cases kind' <;> decide
  rw [Prod.Lex.lt_iff] at h
  rw [encodedKey, encodedKey, cons_lt_cons_iff]
  cases h with
  | inl hkind => exact .inl (hbyte _ _ hkind)
  | inr hsame =>
    rw [hsame.1, cons_lt_cons_iff]
    exact .inr ⟨rfl, .inr ⟨rfl, hsame.2⟩⟩

theorem not_encodedKey_lt (h : a ≤ b) : ¬ encodedKey b < encodedKey a := by
  cases h.eq_or_lt with
  | inl heq =>
    rw [heq]
    exact lt_irrefl _
  | inr hlt => exact lt_asymm (encodedKey_lt hlt)

theorem encodedKey_injective : Function.Injective encodedKey := by
  intro a b h
  cases lt_trichotomy a b with
  | inl hlt => exact absurd h (encodedKey_lt hlt).ne
  | inr hrest =>
    cases hrest with
    | inl heq => exact heq
    | inr hgt => exact absurd h (encodedKey_lt hgt).ne'

theorem encodedKey_ne_nil (key : IdentityKey) : encodedKey key ≠ [] := cons_ne_nil _ _

namespace SpillableIdentityIndex

/-! ## Runs read back -/

variable {entry : IdentityKey × Int64}

theorem takeEntry_entryBytes (hlength : (ofLex entry.1).2.length < 256 ^ 8) (rest : Bytes) :
    takeEntry (entryBytes entry ++ rest) =
      some (((ofLex entry.1).1.underlying, (ofLex entry.1).2, entry.2), rest) := by
  have hkind : (ofLex entry.1).1.underlying < 256 ^ 8 := by
    cases (ofLex entry.1).1 <;> decide
  have hhandle : entry.2.toUInt64.toNat < 256 ^ 8 := UInt64.toNat_lt _
  have hnot : ¬ ((ofLex entry.1).2 ++ (word 8 entry.2.toUInt64.toNat ++ rest)).length <
      (ofLex entry.1).2.length := by
    rw [length_append]
    omega
  simp only [takeEntry, entryBytes, append_assoc, takeWord_word_of_lt hkind,
    takeWord_word_of_lt hlength, bind_eq_bind, bind_some, if_neg hnot,
    drop_left, take_left, takeWord_word_of_lt hhandle, UInt64.ofNat_toNat,
    Int64.toInt64_toUInt64, Option.pure_def]

/-- All keys of the entries can be written. -/
def Readable (entries : List (IdentityKey × Int64)) : Prop :=
  ∀ entry ∈ entries, (ofLex entry.1).2.length < 256 ^ 8

theorem scanRun_entries (key : IdentityKey) {entries : List (IdentityKey × Int64)}
    (h : Readable entries) : scanRun key entries.length (entries.flatMap entryBytes) =
      .ok (findIn entries key) := by
  induction entries with
  | nil => rfl
  | cons entry rest ih =>
    have hmod : (ofLex entry.1).1.underlying % 256 = (ofLex entry.1).1.underlying := by
      cases (ofLex entry.1).1 <;> rfl
    have hkey : ((ofLex entry.1).1.underlying = (ofLex key).1.underlying ∧
        (ofLex entry.1).2 = (ofLex key).2) ↔ entry.1 = key := by
      rw [FactIdentityKind.underlying_injective.eq_iff]
      constructor
      · intro hboth
        exact ofLex_inj.mp (Prod.ext hboth.1 hboth.2)
      · intro heq
        rw [heq]
        exact ⟨rfl, rfl⟩
    have hfirst := findIn_cons entry.1 entry.2 rest key
    rw [length_cons, flatMap_cons, scanRun, takeEntry_entryBytes (h entry (by simp)), hfirst]
    simp only [hmod, hkey]
    by_cases hfound : entry.1 = key
    · rw [if_pos hfound, if_pos hfound]
    · rw [if_neg hfound, if_neg hfound]
      exact ih fun e he => h e (mem_cons_of_mem _ he)

theorem readEntries_entries {entries : List (IdentityKey × Int64)} (h : Readable entries)
    (into : IdentityEntries) :
    readEntries entries.length (entries.flatMap entryBytes) into = .ok (into.insertAll entries) := by
  induction entries generalizing into with
  | nil => rfl
  | cons entry _ ih =>
    rw [length_cons, flatMap_cons, readEntries, takeEntry_entryBytes (h entry (by simp))]
    simp only [FactIdentityKind.ofStored_underlying]
    exact ih (fun e he => h e (mem_cons_of_mem _ he)) _

/-- A run holds entries: its file has them, and its range is theirs. -/
structure RunHolds (directory : AssocMap RunPath Bytes) (run : IdentityRun)
    (entries : IdentityEntries) : Prop where
  file : directory.find? run.path = some (runBytes entries.entries)
  range : (run.firstKey, run.lastKey) = keyRange entries.entries
  short : (runBytes entries.entries).length < maxFileBytes

variable {directory : AssocMap RunPath Bytes} {run : IdentityRun} {entries : IdentityEntries}

theorem length_entryBytes (entry : IdentityKey × Int64) :
    (entryBytes entry).length = (ofLex entry.1).2.length + 24 := by
  simp only [entryBytes, length_append, length_word]
  omega

theorem length_runBytes (entries : List (IdentityKey × Int64)) : (runBytes entries).length =
      16 + (entries.map fun entry => (ofLex entry.1).2.length + 24).sum := by
  have hmagic : magic.length = 8 := rfl
  simp only [runBytes, length_append, length_word, hmagic, length_flatMap, length_entryBytes]

theorem length_le_sum (entries : List (IdentityKey × Int64)) :
    entries.length ≤ (entries.map fun entry => (ofLex entry.1).2.length + 24).sum := by
  induction entries with
  | nil => exact Nat.le_refl 0
  | cons =>
    rw [length_cons, map_cons, sum_cons]
    omega

theorem RunHolds.readable (h : RunHolds directory run entries) : Readable entries.entries := by
  intro entry hentry
  have hshort := h.short
  rw [length_runBytes, maxFileBytes] at hshort
  have hle := single_le_sum (fun _ _ => Nat.zero_le _) _ (List.mem_map_of_mem
    (f := fun entry : IdentityKey × Int64 => (ofLex entry.1).2.length + 24) hentry)
  omega

theorem RunHolds.openRun (h : RunHolds directory run entries) :
    SpillableIdentityIndex.openRun directory run.path =
      .ok (entries.entries.length, entries.entries.flatMap entryBytes) := by
  have hshort := h.short
  rw [length_runBytes, maxFileBytes] at hshort
  have hcount := length_le_sum entries.entries
  have hpow : (256 : ℕ) ^ 8 = 2 * 2 ^ 63 := by decide
  have hmagic : magic.length = 8 := rfl
  have htake : (runBytes entries.entries).take 8 = magic := by
    rw [runBytes, append_assoc, ← hmagic, take_left]
  have hdrop : (runBytes entries.entries).drop 8 =
      word 8 entries.entries.length ++ entries.entries.flatMap entryBytes := by
    rw [runBytes, append_assoc, ← hmagic, drop_left]
  rw [SpillableIdentityIndex.openRun, h.file]
  simp only [htake, ne_eq, not_true_eq_false, if_false, hdrop]
  rw [takeWord_word_of_lt (by omega)]

/-! ## The range of a run -/

theorem keyRange_cons (entry : IdentityKey × Int64) (rest : List (IdentityKey × Int64)) :
    keyRange (entry :: rest) =
      (encodedKey entry.1, encodedKey (((entry :: rest).getLast (cons_ne_nil _ _)).1)) := by
  have hfold : ∀ (first : Bytes) (entry : IdentityKey × Int64) (rest : List (IdentityKey × Int64)),
      first ≠ [] → rest.foldl (fun (range : Bytes × Bytes) entry =>
        (if range.1 = [] then encodedKey entry.1 else range.1, encodedKey entry.1))
        (first, encodedKey entry.1) =
      (first, encodedKey (((entry :: rest).getLast (cons_ne_nil _ _)).1)) := by
    intro _ entry rest hfirst
    induction rest generalizing entry with
    | nil => rfl
    | cons next _ ih =>
      rw [foldl_cons, if_neg hfirst, ih next, getLast_cons (cons_ne_nil _ _)]
  rw [keyRange, foldl_cons, if_pos rfl, hfold _ _ _ (encodedKey_ne_nil _)]

theorem le_getLast_of_sorted {entries : List (IdentityKey × Int64)} (hne : entries ≠ [])
    (h : entries.Pairwise fun a b => a.1 < b.1)
    (hentry : entry ∈ entries) : entry.1 ≤ (entries.getLast hne).1 := by
  induction entries with
  | nil => exact absurd rfl hne
  | cons _ rest ih =>
    rw [pairwise_cons] at h
    cases rest with
    | nil =>
      rw [mem_singleton.mp hentry]
      exact le_refl _
    | cons =>
      rw [getLast_cons (cons_ne_nil _ _)]
      cases mem_cons.mp hentry with
      | inl hfirst =>
        rw [hfirst]
        exact (h.1 _ (getLast_mem _)).le
      | inr hrest => exact ih _ h.2 hrest

/-- The range filter passes every key that is there. -/
theorem RunHolds.findInRun (h : RunHolds directory run entries) (key : IdentityKey) :
    SpillableIdentityIndex.findInRun directory run key = .ok (entries.find? key) := by
  rw [SpillableIdentityIndex.findInRun]
  split
  · rename_i houtside
    cases hfind : entries.find? key with
    | none => rfl
    | some =>
      have hmem := (entries.find?_eq_some_iff).mp hfind
      have hsorted := entries.sorted
      have hrange := h.range
      cases hentries : entries.entries with
      | nil =>
        rw [hentries] at hmem
        cases hmem
      | cons first rest =>
        have hne : first :: rest ≠ [] := cons_ne_nil _ _
        rw [hentries] at hmem hsorted hrange
        rw [keyRange_cons] at hrange
        have hfirst : first.1 ≤ key := by
          cases mem_cons.mp hmem with
          | inl heq => rw [← heq]
          | inr hrest => exact ((pairwise_cons.mp hsorted).1 _ hrest).le
        have hlast := le_getLast_of_sorted hne hsorted hmem
        rw [(Prod.mk.inj hrange).1, (Prod.mk.inj hrange).2] at houtside
        cases houtside with
        | inl hbelow => exact absurd hbelow.2 (not_encodedKey_lt hfirst)
        | inr habove => exact absurd habove.2 (not_encodedKey_lt hlast)
  · rw [h.openRun]
    exact scanRun_entries key h.readable

/-! ## The map -/

/-- What runs hold of a key, later ones over earlier ones. -/
def heldBy : List IdentityEntries → IdentityKey → Option Int64
  | [], _ => none
  | entries :: rest, key => (heldBy rest key).or (entries.find? key)

theorem heldBy_append (contents more : List IdentityEntries) (key : IdentityKey) :
    heldBy (contents ++ more) key = (heldBy more key).or (heldBy contents key) := by
  induction contents with
  | nil => simp [heldBy]
  | cons _ _ ih => rw [cons_append, heldBy, heldBy, ih, Option.or_assoc]

/-- The runs hold the contents, and their files are out of the way of the next
ones. -/
structure Kept (index : SpillableIdentityIndex) (contents : List IdentityEntries) : Prop where
  runs : List.Forall₂ (RunHolds index.directory) index.runs contents
  numbered : ∀ run ∈ index.runs, match run.path with
    | .run number => number < index.runs.length
    | .compacted serial => serial < index.compactionSerial

def Means (index : SpillableIdentityIndex) (map : IdentityKey → Option Int64) : Prop :=
  ∃ contents, Kept index contents ∧
    ∀ key, map key = (index.resident.find? key).or (heldBy contents key)

variable {faults : ℕ → DiskFault} {index : SpillableIdentityIndex}
  {map : IdentityKey → Option Int64}

theorem means_create (options : SpillableIdentityIndexOptions) : Means (create options) fun _ => none :=
  ⟨[], ⟨.nil, by simp [create]⟩, fun _ => rfl⟩

theorem lookupRuns_append (key : IdentityKey) (runs more : List IdentityRun) :
    lookupRuns directory key (runs ++ more) =
      match lookupRuns directory key runs with
      | .ok none => lookupRuns directory key more
      | result => result := by
  induction runs with
  | nil => rfl
  | cons run _ ih =>
    rw [cons_append, lookupRuns, lookupRuns, ih]
    cases findInRun directory run key with
    | error => rfl
    | ok found =>
      cases found with
      | none => rfl
      | some => rfl

variable {contents : List IdentityEntries} {runs : List IdentityRun}
  {after : SpillableIdentityIndex}

theorem lookupRuns_reverse (h : List.Forall₂ (RunHolds directory) runs contents) (key : IdentityKey) :
    lookupRuns directory key runs.reverse = .ok (heldBy contents key) := by
  induction h with
  | nil => rfl
  | cons hrun _ ih =>
    rw [reverse_cons, lookupRuns_append, ih, heldBy]
    cases heldBy _ key with
    | some => rfl
    | none =>
      rw [lookupRuns, hrun.findInRun]
      cases SortedMap.find? _ key with
      | none => rfl
      | some => rfl

/-- A lookup finds what the map says. -/
theorem Means.lookup (h : Means index map) (key : IdentityKey) : index.lookup key = .ok (map key) := by
  obtain ⟨_, hkept, hmap⟩ := h
  rw [SpillableIdentityIndex.lookup, hmap]
  cases index.resident.find? key with
  | some => rfl
  | none => rw [lookupRuns_reverse hkept.runs, none_or]

theorem readRuns_contents (h : List.Forall₂ (RunHolds directory) runs contents) (into : IdentityEntries) :
    ∃ merged, readRuns directory runs into = .ok merged ∧
      ∀ key, merged.find? key = (heldBy contents key).or (into.find? key) := by
  induction h generalizing into with
  | nil => exact ⟨into, rfl, fun _ => rfl⟩
  | cons hrun _ ih =>
    rename_i run entries runs contents _
    have hnodup : (entries.entries.map Prod.fst).Nodup := by
      apply pairwise_map.mpr
      exact entries.sorted.imp fun hlt => hlt.ne
    obtain ⟨merged, hread, hfind⟩ := ih (into.insertAll entries.entries)
    refine ⟨merged, ?_, ?_⟩
    · rw [readRuns, hrun.openRun]
      simp only [readEntries_entries hrun.readable]
      exact hread
    · intro _
      rw [hfind, find?_insertAll _ hnodup, heldBy, Option.or_assoc]
      rfl

/-- `entries()` is the map. -/
theorem Means.entries_eq (h : Means index map) :
    ∃ entries, index.entries = .ok entries ∧ ∀ key, entries.find? key = map key := by
  obtain ⟨_, hkept, hmap⟩ := h
  obtain ⟨stored, hread, hfind⟩ := readRuns_contents hkept.runs .empty
  have hnodup : (index.resident.entries.map Prod.fst).Nodup := by
    apply pairwise_map.mpr
    exact index.resident.sorted.imp fun hlt => hlt.ne
  refine ⟨stored.insertAll index.resident.entries, ?_, ?_⟩
  · rw [SpillableIdentityIndex.entries, hread]
  · intro _
    rw [find?_insertAll _ hnodup, hfind, find?_empty, or_none, hmap]
    rfl

/-! ## Flushing and compaction -/

theorem RunHolds.congr {directory' : AssocMap RunPath Bytes} (h : RunHolds directory run entries)
    (hsame : directory'.find? run.path = directory.find? run.path) :
    RunHolds directory' run entries := ⟨hsame.trans h.file, h.range, h.short⟩

theorem Kept.congr (h : Kept index contents) (hruns : after.runs = index.runs)
    (hserial : index.compactionSerial ≤ after.compactionSerial)
    (hfiles : ∀ run ∈ index.runs, after.directory.find? run.path = index.directory.find? run.path) :
    Kept after contents := by
  constructor
  · rw [hruns]
    apply forall₂_iff_get.mpr
    have hget := forall₂_iff_get.mp h.runs
    refine ⟨hget.1, ?_⟩
    intro i hi hi'
    exact (hget.2 i hi hi').congr (hfiles _ (List.get_mem _ _))
  · intro run hrun
    rw [hruns] at hrun
    have hnumbered := h.numbered run hrun
    rw [hruns]
    cases hpath : run.path with
    | run =>
      rw [hpath] at hnumbered
      exact hnumbered
    | compacted =>
      rw [hpath] at hnumbered
      exact Nat.lt_of_lt_of_le hnumbered hserial

theorem Kept.run_ne (h : Kept index contents) :
    ∀ run ∈ index.runs, run.path ≠ .run index.runs.length := by
  intro run hrun hpath
  have hnumbered := h.numbered run hrun
  rw [hpath] at hnumbered
  exact Nat.lt_irrefl _ hnumbered

theorem Kept.compacted_ne (h : Kept index contents) :
    ∀ run ∈ index.runs, run.path ≠ .compacted index.compactionSerial := by
  intro run hrun hpath
  have hnumbered := h.numbered run hrun
  rw [hpath] at hnumbered
  exact Nat.lt_irrefl _ hnumbered

section

variable (h : Means index map)
include h

theorem Means.unspilled : Means index.unspilled map := by
  obtain ⟨contents, hkept, hmap⟩ := h
  refine ⟨contents, ?_, hmap⟩
  apply Kept.congr hkept
  · rfl
  · exact Nat.le_refl _
  · intro run hrun
    have hne := hkept.run_ne run hrun
    simp only [SpillableIdentityIndex.unspilled, AssocMap.find?_eraseWhere, hne, decide_false]
    cases index.directory.find? run.path <;> rfl

theorem Means.spilled (hshort : (runBytes index.resident.entries).length < maxFileBytes) :
    Means index.spilled map := by
  obtain ⟨contents, hkept, hmap⟩ := h
  refine ⟨contents ++ [index.resident], ⟨?_, ?_⟩, ?_⟩
  · have hold : Kept { index with directory := index.spilled.directory } contents := by
      apply Kept.congr hkept
      · rfl
      · exact Nat.le_refl _
      · intro run hrun
        have hne := hkept.run_ne run hrun
        simp [SpillableIdentityIndex.spilled, hne]
    apply rel_append hold.runs
    apply List.Forall₂.cons _ .nil
    exact ⟨by simp [SpillableIdentityIndex.spilled], rfl, hshort⟩
  · intro run hrun
    have hlength : index.spilled.runs.length = index.runs.length + 1 := length_append
    rw [hlength]
    cases mem_append.mp hrun with
    | inl hearlier =>
      have hnumbered := hkept.numbered run hearlier
      cases hpath : run.path with
      | run =>
        rw [hpath] at hnumbered
        exact Nat.lt_succ_of_lt hnumbered
      | compacted =>
        rw [hpath] at hnumbered
        exact hnumbered
    | inr hlast =>
      rw [mem_singleton.mp hlast]
      exact Nat.lt_succ_self _
  · intro key
    have hempty : index.spilled.resident.find? key = none := rfl
    rw [hmap, heldBy_append, hempty, none_or]
    simp [heldBy]

theorem Means.compact (fault : DiskFault) : Means (index.compact fault).2 map := by
  obtain ⟨contents, hkept, hmap⟩ := h
  obtain ⟨merged, hread, hfind⟩ := readRuns_contents hkept.runs .empty
  rw [SpillableIdentityIndex.compact, hread]
  simp only []
  split
  · refine ⟨contents, ?_, hmap⟩
    apply Kept.congr hkept
    · rfl
    · exact Nat.le_succ _
    · intro run hrun
      have hne := hkept.compacted_ne run hrun
      simp only [AssocMap.find?_eraseWhere, hne, decide_false]
      cases index.directory.find? run.path <;> rfl
  · rename_i hlimit
    rw [not_or, not_or, not_le] at hlimit
    refine ⟨[merged], ⟨?_, ?_⟩, ?_⟩
    · apply List.Forall₂.cons _ .nil
      refine ⟨?_, rfl, hlimit.2.1⟩
      have hfresh : RunPath.compacted index.compactionSerial ∉ index.runs.map IdentityRun.path := by
        intro hmem
        obtain ⟨run, hrun, hpath⟩ := List.mem_map.mp hmem
        exact hkept.compacted_ne run hrun hpath
      rw [AssocMap.find?_eraseWhere, AssocMap.find?_insertOrAssign, if_pos rfl,
        filter_some, if_pos (by simpa using hfresh)]
    · intro _ hrun
      rw [mem_singleton.mp hrun]
      exact Nat.lt_succ_self _
    · intro _
      rw [hmap, heldBy, heldBy, none_or, hfind, find?_empty, or_none]

theorem Means.flush : Means (index.flush faults).2 map := by
  apply flush_induction (motive := fun after => Means after map) h h.unspilled
  · intro _ _ hshort _ _
    exact h.spilled hshort
  · intro fault hspilled
    exact hspilled.compact fault

end

/-! ## Insertion -/

/-- One more pair. -/
def updated (map : IdentityKey → Option Int64) (key : IdentityKey) (handle : Int64) :
    IdentityKey → Option Int64 := fun other => if other = key then some handle else map other

theorem Means.emplace (h : Means index map) (key : IdentityKey) (handle : Int64) :
    Means (index.emplace key handle) (updated map key handle) := by
  obtain ⟨contents, hkept, hmap⟩ := h
  refine ⟨contents, ⟨hkept.runs, hkept.numbered⟩, ?_⟩
  intro other
  have hfind := find?_insertOrAssign index.resident key other handle
  show _ = ((index.resident.insertOrAssign key handle).find? other).or _
  rw [updated, hfind]
  by_cases hkey : other = key
  · rw [if_pos hkey, if_pos hkey]
    rfl
  · rw [if_neg hkey, if_neg hkey]
    exact hmap other

/-- What an insertion that returns says and does. -/
theorem Means.insert (h : Means index map) {key : IdentityKey} {handle : Int64}
    {result : IdentityInsertResult}
    (hinsert : index.insert faults key handle = (.ok result, after)) :
    result = .existing ∧ map key = some handle ∧ Means after map ∨
    result = .conflict ∧ (∃ other, other ≠ handle ∧ map key = some other) ∧ Means after map ∨
    result = .inserted ∧ map key = none ∧ Means after (updated map key handle) := by
  have hresident : ∀ index : SpillableIdentityIndex, Means index map →
      index.insertResident key handle = (.ok result, after) →
      result = .inserted ∧ Means after (updated map key handle) := by
    intro _ hmeans hreturned
    rw [insertResident] at hreturned
    split at hreturned
    · cases hreturned
    · cases hreturned
      exact ⟨rfl, hmeans.emplace key handle⟩
  rw [SpillableIdentityIndex.insert, h.lookup] at hinsert
  cases hfound : map key with
  | some existing =>
    rw [hfound] at hinsert
    by_cases hsame : existing = handle
    · simp only [hsame, if_true] at hinsert
      cases hinsert
      exact .inl ⟨rfl, by rw [hsame], h⟩
    · simp only [hsame, if_false] at hinsert
      cases hinsert
      exact .inr (.inl ⟨rfl, ⟨existing, hsame, rfl⟩, h⟩)
  | none =>
    rw [hfound] at hinsert
    simp only [] at hinsert
    right
    right
    split at hinsert
    · split at hinsert
      · cases hinsert
      · rename_i flushed hflush
        have hmeans : Means (index.flush faults).2 map := h.flush
        rw [hflush] at hmeans
        have hboth := hresident _ hmeans hinsert
        exact ⟨hboth.1, rfl, hboth.2⟩
    · have hboth := hresident _ h hinsert
      exact ⟨hboth.1, rfl, hboth.2⟩

end SpillableIdentityIndex

end CppIndexer.Ast
