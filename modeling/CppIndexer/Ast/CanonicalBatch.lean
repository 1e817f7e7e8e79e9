/-
# The canonical batch has the canonical layout

The builder sorts the routed records of a family by partition and key, drops
repetitions, and lists the indices of what is left under their partitions.  The
check of the layout walks the partitions and expects the indices one after the
other.  They agree because the records of a partition are a block of the sorted
list, and the blocks follow each other in the order of the partitions.

The emissions of symbols are handled likewise: a group is a block of the builder's
list and one round of the outer loop of the check.
-/

import CppIndexer.Ast.BatchBuilder

namespace CppIndexer.Ast

open Util (Bytes ascii)
open SortUnique List Option Memberships

/-! ## The indices of a partition -/

section

variable {α : Type}

/-- The indices at which records of a partition stand, counted from an index on. -/
def indicesFrom (partition : FactPartitionKey) : List (RoutedRecord α) → ℕ → List ℕ
  | [], _ => []
  | item :: rest, index =>
    if item.partition = partition then index :: indicesFrom partition rest (index + 1)
    else indicesFrom partition rest (index + 1)

theorem indicesFrom_append (partition : FactPartitionKey) (front back : List (RoutedRecord α))
    (index : ℕ) : indicesFrom partition (front ++ back) index =
      indicesFrom partition front index ++ indicesFrom partition back (index + front.length) := by
  induction front generalizing index with
  | nil => rfl
  | cons item front ih =>
    have hindex : index + 1 + front.length = index + (front.length + 1) := by omega
    rw [cons_append, indicesFrom, indicesFrom, ih, hindex]
    by_cases h : item.partition = partition
    · rw [if_pos h, if_pos h]
      rfl
    · rw [if_neg h, if_neg h]
      rfl

variable {partition : FactPartitionKey} {items : List (RoutedRecord α)}

theorem indicesFrom_of_all (h : ∀ item ∈ items, item.partition = partition) (index : ℕ) :
    indicesFrom partition items index = List.range' index items.length := by
  induction items generalizing index with
  | nil => rfl
  | cons item _ ih =>
    rw [indicesFrom, if_pos (h item mem_cons_self),
      ih fun other hother => h other (mem_cons_of_mem _ hother)]
    rfl

theorem indicesFrom_of_none (h : ∀ item ∈ items, item.partition ≠ partition) (index : ℕ) :
    indicesFrom partition items index = [] := by
  induction items generalizing index with
  | nil => rfl
  | cons item _ ih =>
    rw [indicesFrom, if_neg (h item mem_cons_self)]
    exact ih (fun other hother => h other (mem_cons_of_mem _ hother)) _

/-- An index that is listed is the index of a record of the partition. -/
theorem mem_indicesFrom {start index : ℕ} (h : index ∈ indicesFrom partition items start) :
    ∃ offset item, index = start + offset ∧ items[offset]? = some item ∧
      item.partition = partition := by
  induction items generalizing start with
  | nil => cases h
  | cons item items ih =>
    have hlater : index ∈ indicesFrom partition items (start + 1) → ∃ offset found,
        index = start + offset ∧ (item :: items)[offset]? = some found ∧
          found.partition = partition := by
      intro hindex
      obtain ⟨offset, found, _, hfound, hpartition⟩ := ih hindex
      exact ⟨offset + 1, found, by omega, by simpa using hfound, hpartition⟩
    rw [indicesFrom] at h
    split at h
    · rename_i hpartition
      cases mem_cons.mp h with
      | inl hfirst => exact ⟨0, item, hfirst, rfl, hpartition⟩
      | inr hrest => exact hlater hrest
    · exact hlater h

theorem indicesFrom_ne_nil {item : RoutedRecord α}
    (h : item ∈ items) (index : ℕ) : indicesFrom item.partition items index ≠ [] := by
  obtain ⟨_, _, hitems⟩ := append_of_mem h
  rw [hitems, indicesFrom_append, indicesFrom, if_pos rfl]
  simp

end

/-! ## What the memberships find -/

variable (memberships : Memberships)

def Memberships.indices (partition : FactPartitionKey) (family : FactFamily) : Option (List ℕ) :=
  (memberships.find? partition).bind fun members => members.find? family

/-- Indices listed behind others; no list is begun for none. -/
def listed (old : Option (List ℕ)) (new : List ℕ) : Option (List ℕ) :=
  if new = [] then old else some (old.getD [] ++ new)

theorem listed_cons (old : Option (List ℕ)) (index : ℕ) (new : List ℕ) :
    listed (some (old.getD [] ++ [index])) new = listed old (index :: new) := by
  cases new with
  | nil => simp [listed]
  | cons => simp [listed]

theorem Memberships.indices_push (partition other : FactPartitionKey)
    (family kept : FactFamily) (index : ℕ) :
    (memberships.push partition family index).indices other kept =
      if other = partition ∧ kept = family then
        some ((memberships.indices partition family).getD [] ++ [index])
      else memberships.indices other kept := by
  rw [push, indices, SortedMap.find?_insertOrAssign]
  by_cases hpartition : other = partition
  · rw [if_pos hpartition, bind_some, SortedMap.find?_insertOrAssign]
    cases hfind : memberships.find? partition with
    | none | some => by_cases hfamily : kept = family <;>
        simp [hpartition, indices, hfind]
  · rw [if_neg hpartition, if_neg fun h => hpartition h.1]
    rfl

section

variable {α : Type}

theorem Memberships.indices_addMembers (family kept : FactFamily) (partition : FactPartitionKey)
    (items : List (RoutedRecord α)) (index : ℕ) (memberships : Memberships) :
    (addMembers family items index memberships).indices partition kept =
      if kept = family then listed (memberships.indices partition family)
        (indicesFrom partition items index) else memberships.indices partition kept := by
  induction items generalizing index memberships with
  | nil =>
    rw [addMembers, indicesFrom, listed, if_pos rfl]
    by_cases h : kept = family <;> simp [h]
  | cons item _ ih =>
    rw [addMembers, ih, indices_push, indices_push, indicesFrom]
    by_cases hfamily : kept = family
    · rw [if_pos hfamily, if_pos hfamily]
      by_cases hpartition : item.partition = partition
      · rw [if_pos ⟨hpartition.symm, rfl⟩, if_pos hpartition, hpartition, listed_cons]
      · rw [if_neg fun h => hpartition h.1.symm, if_neg hpartition]
    · rw [if_neg hfamily, if_neg hfamily, if_neg fun h => hfamily h.2]

theorem Memberships.indices_appendRecords (source : List (RoutedRecord α))
    (family kept : FactFamily) (key : α → Bytes) (canonical : Bool) (memberships : Memberships)
    (partition : FactPartitionKey) :
    (appendRecords source family key canonical memberships).indices partition kept =
      if kept = family then listed (memberships.indices partition family)
        (indicesFrom partition (arranged source key canonical) 0)
      else memberships.indices partition kept :=
  indices_addMembers family kept partition _ 0 memberships

end

/-! ## A family partition by partition -/

section

variable {α : Type}

/-- A list sorted by partitions that are no less than one begins with the records
of that one. -/
theorem block_of_sorted {partition : FactPartitionKey} {items : List (RoutedRecord α)}
    (hsorted : items.Pairwise fun a b => a.partition ≤ b.partition)
    (hleast : ∀ item ∈ items, partition ≤ item.partition) :
    ∃ block later, items = block ++ later ∧ (∀ item ∈ block, item.partition = partition) ∧
      ∀ item ∈ later, partition < item.partition := by
  induction items with
  | nil => exact ⟨[], [], rfl, by simp, by simp⟩
  | cons item items ih =>
    rw [pairwise_cons] at hsorted
    by_cases h : item.partition = partition
    · obtain ⟨block, later, hitems, hblock, hlater⟩ :=
        ih hsorted.2 fun other hother => hleast other (mem_cons_of_mem _ hother)
      refine ⟨item :: block, later, by rw [hitems, cons_append], ?_, hlater⟩
      intro other hother
      cases mem_cons.mp hother with
      | inl hfirst => rw [hfirst, h]
      | inr hrest => exact hblock other hrest
    · have hlt : partition < item.partition :=
        lt_of_le_of_ne (hleast item mem_cons_self) (Ne.symm h)
      refine ⟨[], item :: items, rfl, by simp, ?_⟩
      intro other hother
      cases mem_cons.mp hother with
      | inl hfirst => exact hfirst ▸ hlt
      | inr hrest => exact lt_of_lt_of_le hlt (hsorted.1 other hrest)

/-- A block of records with increasing keys, at the indices where it stands. -/
theorem membersAreCanonical_block (key : α → Bytes) (front block tail : List α)
    (previous : Option Bytes) (hprevious : ∀ record ∈ block, previous.all fun k => k < key record)
    (hkeys : block.Pairwise fun a b => key a < key b) :
    membersAreCanonical (front ++ block ++ tail) key (List.range' front.length block.length)
      front.length previous = some (front.length + block.length) := by
  induction block generalizing front previous with
  | nil => rfl
  | cons record block ih =>
    rw [pairwise_cons] at hkeys
    have hfront : front ++ record :: block ++ tail = front ++ [record] ++ block ++ tail := by simp
    have hrecord : (front ++ record :: block ++ tail)[front.length]? = some record := by simp
    have hlength : (front ++ [record]).length = front.length + 1 := by simp
    have hlater : ∀ other ∈ block, (some (key record)).all fun k => k < key other := by
      intro other hother
      simpa using hkeys.1 other hother
    have hrest := ih (front ++ [record]) (some (key record)) hlater hkeys.2
    have hless := hprevious record mem_cons_self
    rw [length_cons, range'_succ, membersAreCanonical, hrecord]
    dsimp only
    rw [if_neg]
    · rw [hlength, ← hfront] at hrest
      rw [hrest]
      congr 1
      omega
    · intro h
      cases h with
      | inl hindex => exact hindex rfl
      | inr hany =>
        cases previous with
        | none => simp at hany
        | some =>
          simp only [any_some, ge_iff_le, decide_eq_true_eq] at hany
          simp only [all_some, decide_eq_true_eq] at hless
          exact absurd hany (not_le.mpr hless)

/-- The loop over the partitions, from an index on: what is left of the records is
the blocks of the partitions that are left. -/
theorem partitionsAreCanonical_of_sorted (family : FactFamily) (key : α → Bytes)
    (front : List α) (items : List (RoutedRecord α)) (partitions : List FileFactPartition)
    (hsorted : items.Pairwise fun a b => routedOrder key a < routedOrder key b)
    (hpartitions : partitions.Pairwise fun a b => a.key < b.key)
    (hcovered : ∀ item ∈ items, ∃ partition ∈ partitions, partition.key = item.partition)
    (hmembers : ∀ partition ∈ partitions, partition.members.find? family =
      listed none (indicesFrom partition.key items front.length)) :
    partitionsAreCanonical (front ++ items.map RoutedRecord.record) family key partitions
      front.length = some (front.length + items.length) := by
  induction partitions generalizing front items with
  | nil =>
    cases items with
    | nil => rfl
    | cons item =>
      obtain ⟨_, hmem, _⟩ := hcovered item mem_cons_self
      cases hmem
  | cons partition _ ih =>
    rw [pairwise_cons] at hpartitions
    have hpartitionSorted : items.Pairwise fun a b => a.partition ≤ b.partition :=
      hsorted.imp fun hlt => (Prod.Lex.toLex_lt_toLex.mp hlt).elim le_of_lt fun h => h.1.le
    have hleast : ∀ item ∈ items, partition.key ≤ item.partition := by
      intro item hitem
      obtain ⟨covering, hmem, hkey⟩ := hcovered item hitem
      cases mem_cons.mp hmem with
      | inl hfirst => rw [← hkey, hfirst]
      | inr hrest => exact hkey ▸ (hpartitions.1 covering hrest).le
    obtain ⟨block, later, hitems, hblock, hlater⟩ := block_of_sorted hpartitionSorted hleast
    cases hitems
    have hblockKeys :
        (block.map RoutedRecord.record).Pairwise fun a b => key a < key b := by
      rw [pairwise_map]
      apply (pairwise_append.mp hsorted).1.imp_of_mem
      intro a b ha hb hlt
      cases Prod.Lex.toLex_lt_toLex.mp hlt with
      | inl hpartition => exact absurd hpartition (by rw [hblock a ha, hblock b hb]; exact lt_irrefl _)
      | inr hkey => exact hkey.2
    have hfirst := hmembers partition mem_cons_self
    rw [indicesFrom_append, indicesFrom_of_all hblock,
      indicesFrom_of_none fun item hitem => (hlater item hitem).ne', append_nil] at hfirst
    have hrest := ih (front ++ block.map RoutedRecord.record) later
      (pairwise_append.mp hsorted).2.1 hpartitions.2 ?_ ?_
    · rw [partitionsAreCanonical, hfirst]
      cases block with
      | nil => simpa [listed] using hrest
      | cons item block =>
        have hcheck := membersAreCanonical_block key front
          ((item :: block).map RoutedRecord.record) (later.map RoutedRecord.record) none
          (by simp) hblockKeys
        rw [length_map] at hcheck
        have hne : List.range' front.length (item :: block).length ≠ [] := by simp
        rw [listed, if_neg hne, getD_none, nil_append]
        dsimp only
        rw [if_neg hne, map_append, ← append_assoc, hcheck]
        dsimp only
        rw [length_append, length_map] at hrest
        rw [hrest, length_append]
        congr 1
        omega
    · intro item hitem
      obtain ⟨covering, hmem, hkey⟩ := hcovered item (mem_append_right _ hitem)
      cases mem_cons.mp hmem with
      | inl hhead =>
        rw [hhead] at hkey
        exact absurd hkey (hlater item hitem).ne
      | inr hrest => exact ⟨covering, hrest, hkey⟩
    · intro other hother
      have hfind := hmembers other (mem_cons_of_mem _ hother)
      rw [indicesFrom_append, indicesFrom_of_none fun item hitem => by
        rw [hblock item hitem]
        exact (hpartitions.1 other hother).ne] at hfind
      rw [hfind, nil_append, length_append, length_map]

end

/-! ## The families of a batch -/

def Memberships.partitions : List FileFactPartition :=
  memberships.entries.map fun entry => { key := entry.1, members := entry.2 }

theorem Memberships.pairwise_partitions : memberships.partitions.Pairwise fun a b => a.key < b.key :=
  pairwise_map.mpr memberships.sorted

theorem Memberships.find?_partition {memberships : Memberships} {partition : FileFactPartition}
    (h : partition ∈ memberships.partitions) (family : FactFamily) :
    partition.members.find? family = memberships.indices partition.key family := by
  obtain ⟨_, hentry, hpartition⟩ := List.mem_map.mp h
  cases hpartition
  rw [indices, (memberships.find?_eq_some_iff).mpr hentry]
  rfl

section

variable {α : Type} {memberships : Memberships} {source : List (RoutedRecord α)}
  {family : FactFamily} {key : α → Bytes}

theorem familyIsCanonical_recordsOf (hindices : ∀ partition, memberships.indices partition family =
      listed none (indicesFrom partition (arranged source key true) 0)) :
    familyIsCanonical (recordsOf source key true) family memberships.partitions key = true := by
  have hmembers : ∀ partition ∈ memberships.partitions, partition.members.find? family =
      listed none (indicesFrom partition.key (arranged source key true) ([] : List α).length) := by
    intro _ hpartition
    rw [find?_partition hpartition, hindices]
    rfl
  have hcovered : ∀ item ∈ arranged source key true,
      ∃ partition ∈ memberships.partitions, partition.key = item.partition := by
    intro item hitem
    have hlisted := hindices item.partition
    rw [listed, if_neg (indicesFrom_ne_nil hitem 0), indices] at hlisted
    obtain ⟨_, hfind, _⟩ := bind_eq_some_iff.mp hlisted
    exact ⟨_, List.mem_map_of_mem (memberships.find?_eq_some_iff.mp hfind), rfl⟩
  have hloop := partitionsAreCanonical_of_sorted family key [] (arranged source key true)
    memberships.partitions (pairwise_sortUniqueBy source) memberships.pairwise_partitions hcovered
    hmembers
  rw [familyIsCanonical, recordsOf, length_map]
  simpa using hloop

/-- Facts that name their partition stand under it. -/
def RoutesTo (items : List (RoutedRecord α)) (recordPartition : α → FactPartitionKey) : Prop :=
  ∀ item ∈ items, item.partition = recordPartition item.record

/-- Records that name their partition are listed under it, if they were routed
there. -/
theorem familyOwnershipIsCanonical_recordsOf {recordPartition : α → FactPartitionKey}
    (hrouted : RoutesTo source recordPartition)
    (hindices : ∀ partition, memberships.indices partition family =
      listed none (indicesFrom partition (arranged source key true) 0)) :
    familyOwnershipIsCanonical (recordsOf source key true) family memberships.partitions
      recordPartition = true := by
  rw [familyOwnershipIsCanonical, List.all_eq_true]
  intro partition hpartition
  rw [find?_partition hpartition, hindices]
  by_cases hempty : indicesFrom partition.key (arranged source key true) 0 = []
  · rw [listed, if_pos hempty]
  · rw [listed, if_neg hempty]
    rw [getD_none, nil_append, List.all_eq_true]
    intro index hindex
    obtain ⟨_, item, hoffset, hitem, hkey⟩ := mem_indicesFrom hindex
    have hrecord : (recordsOf source key true)[index]? = some item.record := by
      rw [hoffset, Nat.zero_add, recordsOf, getElem?_map, hitem]
      rfl
    rw [hrecord]
    have hown := hrouted item (mem_of_mem_sortUniqueBy (mem_of_getElem? hitem))
    simp [← hkey, hown]

end

theorem partitionsAreStrictlyOrdered_of_pairwise {partitions : List FileFactPartition}
    (h : partitions.Pairwise fun a b => a.key < b.key) :
    partitionsAreStrictlyOrdered partitions = true := by
  induction partitions with
  | nil => rfl
  | cons _ partitions ih =>
    cases partitions with
    | nil => rfl
    | cons right =>
      rw [pairwise_cons] at h
      rw [partitionsAreStrictlyOrdered, ih h.2]
      simpa using h.1 right mem_cons_self

namespace FactBatchRecorder

variable (recorder : FactBatchRecorder)

def indicesOf (partition : FactPartitionKey) : FactFamily → List ℕ
  | .symbols => indicesFrom partition (arranged recorder.symbols symbolRecordKey true) 0
  | .declarationSites =>
    indicesFrom partition (arranged recorder.declarationSites declarationSiteKey true) 0
  | .relations => indicesFrom partition (arranged recorder.relations edgeRecordKey true) 0
  | .edgeSites => indicesFrom partition (arranged recorder.edgeSites edgeSiteKey true) 0
  | .callArguments => indicesFrom partition (arranged recorder.callArgs callArgKey true) 0
  | .templateParameters =>
    indicesFrom partition (arranged recorder.templateParams templateParamKey true) 0
  | .templateArguments =>
    indicesFrom partition (arranged recorder.templateArgs templateArgKey true) 0
  | .types => indicesFrom partition (arranged recorder.typeNodes typeNodeKey true) 0
  | .typeEdges => indicesFrom partition (arranged recorder.typeEdges typeEdgeKey true) 0
  | .parameters => indicesFrom partition (arranged recorder.parameters parameterKey true) 0
  | .symbolTypes => indicesFrom partition (arranged recorder.symbolTypes symbolTypeKey true) 0
  | .definitions => indicesFrom partition (arranged recorder.definitions definitionKey true) 0
  | .definitionEdges =>
    indicesFrom partition (arranged recorder.definitionEdges definitionEdgeKey true) 0
  | .includes => indicesFrom partition (arranged recorder.includes includeKey true) 0
  | .macros => indicesFrom partition (arranged recorder.macros macroKey true) 0
  | .diagnostics => indicesFrom partition (arranged recorder.diagnostics diagnosticKey true) 0
  | .evidence => indicesFrom partition (arranged recorder.evidence evidenceKey true) 0
  | .presentationIntents =>
    indicesFrom partition (arranged recorder.presentationIntents presentationKey true) 0
  | .lifecycleCleanup =>
    indicesFrom partition (arranged recorder.lifecycleCleanup cleanupKey true) 0
  | .applicability =>
    indicesFrom partition (arranged recorder.applicability applicabilityKey true) 0

/-- Each family is listed once, so the memberships find what it listed. -/
theorem indices_memberships (partition : FactPartitionKey) (family : FactFamily) :
    (recorder.memberships true).indices partition family =
      listed none (recorder.indicesOf partition family) := by
  cases family <;>
    simp [memberships, appendAuxiliaryRecords, appendTypeRecords, appendSymbolRecords,
      indices_appendRecords, indicesOf] <;>
    rfl

end FactBatchRecorder

/-! ## The emissions of symbols -/

variable {group : Bytes × List SymbolEmissionMetadata} {batch : FactBatch}
  {recorder : FactBatchRecorder} {emissions : List SymbolEmissionMetadata}

theorem mem_emissionGroups (h : group ∈ (emissionGroups emissions).entries) :
    group.2 ≠ [] ∧ ∀ entry ∈ group.2, entry.symbol.stableString = group.1 := by
  have hfold : ∀ groups : SortedMap Bytes (List SymbolEmissionMetadata),
      (∀ natural entries, groups.find? natural = some entries →
        entries ≠ [] ∧ ∀ entry ∈ entries, entry.symbol.stableString = natural) →
      ∀ natural entries,
        (emissions.foldl (fun groups metadata =>
          groups.insertOrAssign metadata.symbol.stableString
            ((groups.find? metadata.symbol.stableString).getD [] ++ [metadata])) groups).find?
          natural = some entries →
        entries ≠ [] ∧ ∀ entry ∈ entries, entry.symbol.stableString = natural := by
    clear h
    induction emissions with
    | nil => intro groups hgroups; exact hgroups
    | cons metadata emissions ih =>
      intro groups hgroups
      apply ih
      intro natural entries hfind
      rw [SortedMap.find?_insertOrAssign] at hfind
      split at hfind
      · rename_i hnatural
        cases some.inj hfind
        refine ⟨by simp, ?_⟩
        intro entry hentry
        cases mem_append.mp hentry with
        | inl hold =>
          cases hgroup : groups.find? metadata.symbol.stableString with
          | none =>
            rw [hgroup] at hold
            cases hold
          | some =>
            rw [hgroup] at hold
            exact hnatural ▸ (hgroups _ _ hgroup).2 entry hold
        | inr hnew => rw [mem_singleton.mp hnew, hnatural]
      · exact hgroups natural entries hfind
  apply hfold .empty _ group.1 group.2
  · exact (emissionGroups emissions).find?_eq_some_iff.mpr h
  · intro _ _ hfind
    cases hfind

/-- One round of the outer loop of the check goes through one group. -/
theorem symbolGroup_renumberFrom {natural : Bytes} {entries later : List SymbolEmissionMetadata}
    (hentries : ∀ entry ∈ entries, entry.symbol.stableString = natural)
    (hlater : ∀ entry ∈ later.head?, entry.symbol.stableString ≠ natural) (index : UInt64)
    (minimum : FileOrder) :
    symbolGroup natural (renumberFrom index entries ++ later) index minimum =
      some (entries.foldl (fun minimum entry => min minimum entry.file) minimum, later) := by
  induction entries generalizing index minimum with
  | nil =>
    cases later with
    | nil => rfl
    | cons entry =>
      rw [renumberFrom, nil_append, symbolGroup, if_pos (hlater entry rfl)]
      rfl
  | cons entry _ ih =>
    have hnumbered : (entry.renumbered index).numbered index = true := by
      simp [SymbolEmissionMetadata.numbered, SymbolEmissionMetadata.renumbered]
    have hsame : (entry.renumbered index).symbol.stableString = natural :=
      hentries entry mem_cons_self
    rw [renumberFrom, cons_append, symbolGroup, if_neg (not_not.mpr hsame), hnumbered,
      Bool.not_true, if_neg Bool.false_ne_true,
      ih fun other hother => hentries other (mem_cons_of_mem _ hother)]
    rfl

/-- A group as the builder makes it: entries of one symbol, and their first file. -/
structure WellGrouped (group : GroupOrder × List SymbolEmissionMetadata) : Prop where
  nonempty : group.2 ≠ []
  natural : ∀ entry ∈ group.2, entry.symbol.stableString = (ofLex group.1).2
  first : (ofLex group.1).1 = firstFile group.2

theorem wellGrouped_orderedGroup
    (h : group ∈ (emissionGroups emissions).entries) : WellGrouped (orderedGroup group) where
  nonempty := by
    obtain ⟨entry, hentry⟩ := exists_mem_of_ne_nil _ (mem_emissionGroups h).1
    have hsorted : entry ∈ (orderedGroup group).2 := mem_sortBy.mpr hentry
    exact ne_nil_of_mem hsorted
  natural := by
    intro entry hentry
    exact (mem_emissionGroups h).2 entry (mem_sortBy.mp hentry)
  first := rfl

/-- The outer loop over groups in the order of the builder. -/
theorem symbolGroups_of_sorted {groups : List (GroupOrder × List SymbolEmissionMetadata)}
    (hgroups : ∀ group ∈ groups, WellGrouped group)
    (hsorted : groups.Pairwise fun a b => a.1 < b.1)
    (hnaturals : groups.Pairwise fun a b => (ofLex a.1).2 ≠ (ofLex b.1).2) (steps : ℕ)
    (seen : List Bytes) (previous : Option GroupOrder)
    (hsteps : (groups.flatMap fun group => renumberFrom 0 group.2).length ≤ steps)
    (hseen : ∀ group ∈ groups, (ofLex group.1).2 ∉ seen)
    (hprevious : ∀ group ∈ groups, previous.all fun p => p < group.1) :
    symbolGroups steps (groups.flatMap fun group => renumberFrom 0 group.2) seen previous =
      true := by
  induction groups generalizing steps seen previous with
  | nil => cases steps <;> rfl
  | cons group groups ih =>
    rw [pairwise_cons] at hsorted hnaturals
    have hgroup := hgroups group mem_cons_self
    have hothers : ∀ other ∈ groups, WellGrouped other := fun other hother =>
      hgroups other (mem_cons_of_mem _ hother)
    obtain ⟨entry, _, hentries⟩ := exists_cons_of_ne_nil hgroup.nonempty
    have hlater : ∀ next ∈ (groups.flatMap fun group => renumberFrom 0 group.2).head?,
        next.symbol.stableString ≠ (ofLex group.1).2 := by
      cases groups with
      | nil => intro next hnext; cases hnext
      | cons other =>
        obtain ⟨first, _, hfirst⟩ :=
          exists_cons_of_ne_nil (hothers other mem_cons_self).nonempty
        intro _ hnext
        rw [flatMap_cons, hfirst, renumberFrom] at hnext
        cases some.inj hnext
        have hnatural := (hothers other mem_cons_self).natural first (by rw [hfirst]; simp)
        exact hnatural ▸ (hnaturals.1 other mem_cons_self).symm
    have hround := symbolGroup_renumberFrom hgroup.natural hlater 0 entry.file
    have hnatural := hgroup.natural entry (by rw [hentries]; simp)
    have horder : toLex (group.2.foldl (fun minimum entry => min minimum entry.file) entry.file,
        (ofLex group.1).2) = group.1 := by
      have hfirst := hgroup.first
      rw [hentries, firstFile] at hfirst
      rw [hentries, foldl_cons, min_self, ← hfirst]
      rfl
    have hlength : (groups.flatMap fun group => renumberFrom 0 group.2).length < steps := by
      rw [flatMap_cons, hentries, renumberFrom, cons_append, length_cons, length_append] at hsteps
      omega
    obtain ⟨_, rfl⟩ := Nat.exists_eq_add_of_lt (Nat.zero_lt_of_lt hlength)
    rw [flatMap_cons]
    rw [hentries, renumberFrom, cons_append] at hround ⊢
    rw [Nat.zero_add, symbolGroups]
    have hhead : (entry.renumbered 0).symbol.stableString = (ofLex group.1).2 := hnatural
    rw [hhead, if_neg (hseen group mem_cons_self)]
    have hfile : (entry.renumbered 0).file = entry.file := rfl
    rw [hfile, hround]
    dsimp only
    rw [← hentries, horder, if_neg]
    · apply ih hothers hsorted.2 hnaturals.2
      · omega
      · intro other hother hmem
        cases mem_cons.mp hmem with
        | inl hsame => exact hnaturals.1 other hother hsame.symm
        | inr hold => exact hseen other (mem_cons_of_mem _ hother) hold
      · intro other hother
        simpa using hsorted.1 other hother
    · intro hany
      have hless := hprevious group mem_cons_self
      cases previous with
      | none => simp at hany
      | some =>
        simp only [any_some, ge_iff_le, decide_eq_true_eq] at hany
        simp only [all_some, decide_eq_true_eq] at hless
        exact absurd hany (not_le.mpr hless)

theorem symbolOrderIsCanonical_canonicalSymbolOrder (emissions : List SymbolEmissionMetadata) :
    symbolOrderIsCanonical (canonicalSymbolOrder emissions) = true := by
  have hperm : (sortBy Prod.fst ((emissionGroups emissions).entries.map orderedGroup)).Perm
      ((emissionGroups emissions).entries.map orderedGroup) := perm_sortBy _
  have hkeys : ((emissionGroups emissions).entries.map orderedGroup).Pairwise
      fun a b => (ofLex a.1).2 ≠ (ofLex b.1).2 := by
    rw [pairwise_map]
    exact (emissionGroups emissions).sorted.imp fun hlt => hlt.ne
  have hnaturals := (hperm.pairwise_iff fun hne => hne.symm).mpr hkeys
  have hsorted : (sortBy Prod.fst ((emissionGroups emissions).entries.map orderedGroup)).Pairwise
      fun a b => a.1 < b.1 :=
    pairwise_lt_sortBy <| pairwise_map.mpr <| hkeys.imp fun hne heq => hne (by rw [heq])
  rw [symbolOrderIsCanonical, canonicalSymbolOrder]
  apply symbolGroups_of_sorted _ hsorted hnaturals _ _ _ le_rfl
  · intro _ _
    exact not_mem_nil
  · intro _ _
    rfl
  · intro _ hgroup
    obtain ⟨_, hsource, hordered⟩ := List.mem_map.mp (mem_sortBy.mp hgroup)
    exact hordered ▸ wellGrouped_orderedGroup hsource

/-! ## The whole batch -/

/-- The facts of the six families that name their partition are routed to it. -/
def FactBatchRecorder.Routed (recorder : FactBatchRecorder) : Prop :=
  RoutesTo recorder.declarationSites DeclarationSiteRecord.partition ∧
    RoutesTo recorder.includes IncludeDirectiveRecord.partition ∧
    RoutesTo recorder.macros MacroUseRecord.partition ∧
    RoutesTo recorder.diagnostics DiagnosticFactRecord.partition ∧
    RoutesTo recorder.lifecycleCleanup LifecycleCleanupIntent.partition ∧
    RoutesTo recorder.applicability ApplicabilityOwnershipRecord.partition

/-- What the builder makes of the identities, if they can be read. -/
theorem FactBatchRecorder.canonicalBatch_ok (h : recorder.canonicalBatch = .ok batch) :
    batch.canonical = true ∧ batch.records = recorder.records true ∧
      batch.partitions = (recorder.memberships true).partitions ∧
      batch.pendingSymbolReferences = sortBy id recorder.pendingSymbolReferences := by
  rw [canonicalBatch, buildBatch] at h
  cases hentries : recorder.identities.index.entries with
  | error =>
    rw [hentries] at h
    cases h
  | ok =>
    rw [hentries] at h
    cases h
    exact ⟨rfl, rfl, rfl, rfl⟩

theorem hasCanonicalLayout_of_canonicalBatch
    (hrouted : recorder.Routed) (h : recorder.canonicalBatch = .ok batch) :
    batch.hasCanonicalLayout = true := by
  obtain ⟨hsites, hincludes, hmacros, hdiagnostics, hcleanup, happlicability⟩ := hrouted
  obtain ⟨hcanonical, hrecords, hpartitions, _⟩ := FactBatchRecorder.canonicalBatch_ok h
  have hindices := recorder.indices_memberships
  have hordered := partitionsAreStrictlyOrdered_of_pairwise
    (recorder.memberships true).pairwise_partitions
  have hemissions := symbolOrderIsCanonical_canonicalSymbolOrder recorder.symbolOrder
  rw [FactBatch.hasCanonicalLayout, hcanonical, hrecords, hpartitions]
  simp only [Bool.and_eq_true]
  repeat' apply And.intro
  -- every family in its order, and what is not about a family
  any_goals first
    | trivial
    | exact hordered
    | exact hemissions
    | exact familyIsCanonical_recordsOf fun partition => hindices partition _
  -- the families that name their partition
  · exact familyOwnershipIsCanonical_recordsOf hsites fun partition => hindices partition _
  · exact familyOwnershipIsCanonical_recordsOf hincludes fun partition => hindices partition _
  · exact familyOwnershipIsCanonical_recordsOf hmacros fun partition => hindices partition _
  · exact familyOwnershipIsCanonical_recordsOf hdiagnostics fun partition => hindices partition _
  · exact familyOwnershipIsCanonical_recordsOf hcleanup fun partition => hindices partition _
  · exact familyOwnershipIsCanonical_recordsOf happlicability fun partition => hindices partition _

/-- References that differ are strictly increasing once they are sorted. -/
theorem pairwise_pendingSymbolReferences
    (hdistinct : recorder.pendingSymbolReferences.Nodup) (h : recorder.canonicalBatch = .ok batch) :
    batch.pendingSymbolReferences.Pairwise (· < ·) := by
  obtain ⟨_, _, _, hpending⟩ := FactBatchRecorder.canonicalBatch_ok h
  rw [hpending]
  exact pairwise_lt_sortBy (by simpa using hdistinct)

end CppIndexer.Ast
