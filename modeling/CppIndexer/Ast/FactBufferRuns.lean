/-
# What the fact buffer enumerates

`Holds` says that a buffer enumerates a list of records, with their indices; the
sizes it keeps are those of what is resident.  One call of `append` does one of
three things: it refuses the record and changes nothing, it accepts it, or it
throws and keeps it all the same.  The last happens exactly when the call
`Overruns`: the frame fits into the byte limit, the threshold is reached, and the
segment cannot be created or its header no longer fits.

A run enumerates the accepted records and nothing else, and every call that
throws leaves what was enumerated alone, exactly when no call overruns.
-/

import CppIndexer.Ast.SpillableFactBuffer

namespace CppIndexer.Ast.SpillableFactBuffer

open Util (Bytes)
open Codec List SpillableFactBuffer

/-! ## Segments -/

/-- The bytes of a record's frame. -/
def framed (record : SymbolRecord) : ℕ := (encodeSymbolRecord record).length + 8

variable (records : List SymbolRecord)

def framesOf : ℕ := (records.map framed).sum

@[simp]
theorem framesOf_append (records later : List SymbolRecord) :
    framesOf (records ++ later) = framesOf records + framesOf later := by
  rw [framesOf, map_append, sum_append]
  rfl

theorem length_le_framesOf : records.length ≤ framesOf records := by
  induction records with
  | nil => exact Nat.zero_le _
  | cons record _ ih =>
    have hframe : 1 ≤ framed record := Nat.le_add_left 1 _
    simp only [framesOf, map_cons, sum_cons, length_cons] at ih ⊢
    omega

theorem length_appendU64 (value : UInt64) : (appendU64 value).length = 8 :=
  LittleEndian.length_word 8 _

theorem length_flatMap_frame : (records.flatMap frame).length = framesOf records := by
  induction records with
  | nil => rfl
  | cons record _ ih =>
    have hframe : (frame record).length = framed record := by
      rw [frame, appendString, length_append, LittleEndian.length_word, framed, Nat.add_comm]
    rw [flatMap_cons, length_append, ih, hframe, framesOf, framesOf, map_cons, sum_cons]

/-- A segment is its frames and a header of 32 bytes. -/
theorem length_segmentBytes (family : FactFamily) (first : UInt64) (records : List SymbolRecord) :
    (segmentBytes family first records).length = framesOf records + 32 := by
  have hmagic : magic.length = 8 := rfl
  simp only [segmentBytes, flatten_cons, flatten_nil, append_nil,
    length_append, length_appendU64, hmagic, length_flatMap_frame]
  omega

theorem restores_frame : Restores Left (fun _ => False) frame readFrame := by
  intro _ _
  apply takes_appendString
  intro hlength _ hs
  rw [readPayload, hs.1, UInt64.toNat_ofNat_of_lt' hlength, if_neg (by simp), take_left,
    drop_left, decodeSymbolRecord_encodeSymbolRecord hlength]
  exact ⟨rfl, hs.drop⟩

section

variable {directory : AssocMap ℕ Bytes} {segments : List SpillSegment} {records : List SymbolRecord}
  {first : UInt64}

theorem readSegment_segmentBytes {family : FactFamily}
    (hlength : (segmentBytes family first records).length < 2 ^ 64) :
    readSegment (segmentBytes family first records) = .ok (first, records) := by
  have hcount : records.length < 2 ^ 64 := by
    have hframes := length_le_framesOf records
    rw [length_segmentBytes] at hlength
    omega
  have hfields : Takes Left (fun _ => False)
      ([appendU64 (UInt64.ofNat family.underlying), appendU64 first,
        appendU64 (UInt64.ofNat records.length)].flatten ++ (records.flatMap frame ++ []))
      readRecords (first, records) [] := by
    iterate 3 apply (restores_readWord _).field
    rw [UInt64.toNat_ofNat_of_lt' hcount]
    exact (restores_frame.times records []).bind (Takes.pure _ [])
  have hsplit : segmentBytes family first records = magic ++
      ([appendU64 (UInt64.ofNat family.underlying), appendU64 first,
        appendU64 (UInt64.ofNat records.length)].flatten ++ (records.flatMap frame ++ [])) := by
    rw [segmentBytes, flatten_cons, append_assoc, append_nil]
  rw [hsplit] at hlength ⊢
  have hmagic : magic.length = 8 := rfl
  obtain ⟨_, hrun, -⟩ := hfields.eq_ok ⟨rfl, by
    rw [length_append] at hlength
    omega⟩
  rw [readSegment, if_neg (not_not_intro (take_left' hmagic)), drop_left' hmagic, hrun]
  rfl

theorem numberedFrom_append (first : UInt64) (records later : List SymbolRecord) :
    numberedFrom first (records ++ later) =
      numberedFrom first records ++ numberedFrom (first + UInt64.ofNat records.length) later := by
  induction records generalizing first with
  | nil =>
    have hzero : first + UInt64.ofNat ([] : List SymbolRecord).length = first := UInt64.add_zero _
    rw [hzero]
    rfl
  | cons record rest ih =>
    have hnext : first + 1 + UInt64.ofNat rest.length =
        first + UInt64.ofNat (record :: rest).length := by
      rw [length_cons, UInt64.ofNat_add, UInt64.add_assoc, UInt64.add_comm 1]
      rfl
    rw [cons_append, numberedFrom, ih, hnext]
    rfl

theorem readSegments_congr {changed : AssocMap ℕ Bytes}
    (hsame : ∀ segment ∈ segments, changed.find? segment.path = directory.find? segment.path) :
    readSegments changed segments = readSegments directory segments := by
  induction segments with
  | nil => rfl
  | cons segment _ ih =>
    rw [readSegments, readSegments, hsame segment mem_cons_self,
      ih fun other hother => hsame other (mem_cons_of_mem _ hother)]

theorem readSegments_append
    {stored : List (UInt64 × SymbolRecord)} {segment : SpillSegment} {content : Bytes}
    (hstored : readSegments directory segments = .ok stored)
    (hfile : directory.find? segment.path = some content)
    (hread : readSegment content = .ok (first, records)) :
    readSegments directory (segments ++ [segment]) = .ok (stored ++ numberedFrom first records) := by
  induction segments generalizing stored with
  | nil =>
    cases hstored
    rw [nil_append, readSegments, hfile]
    simp only [hread]
    rw [readSegments, Except.map, append_nil, nil_append]
  | cons front _ ih =>
    rw [readSegments] at hstored
    rw [cons_append, readSegments]
    cases hfront : directory.find? front.path with
    | none =>
      rw [hfront] at hstored
      cases hstored
    | some bytes =>
      rw [hfront] at hstored
      cases hbytes : readSegment bytes with
      | error =>
        simp only [hbytes] at hstored
        cases hstored
      | ok =>
        simp only [hbytes, Except.map_eq_ok] at hstored ⊢
        obtain ⟨_, hlater, rfl⟩ := hstored
        exact ⟨_, ih hlater, (append_assoc _ _ _).symm⟩

/-! ## What a buffer holds -/

/-- The buffer enumerates these records, and knows the sizes of the resident
ones. -/
structure Holds (buffer : SpillableFactBuffer) (held : List SymbolRecord) : Prop where
  reads : ∃ stored, held = stored ++ buffer.resident ∧
    readSegments buffer.directory buffer.segments = .ok (numberedFrom 0 stored)
  paths : ∀ segment ∈ buffer.segments, segment.path < buffer.segments.length
  index : buffer.nextIndex = UInt64.ofNat held.length
  residentSize : buffer.residentSize.toNat = framesOf buffer.resident
  within : buffer.residentSize.toNat ≤ buffer.totalSize.toNat

end

variable {faults : ℕ → Bool} {buffer : SpillableFactBuffer} {held : List SymbolRecord}
  {record : SymbolRecord}

theorem holds_create (options : SpillableFactBufferOptions) : Holds (create options) [] where
  reads := ⟨[], rfl, rfl⟩
  paths := by
    intro _ hmem
    cases hmem
  index := rfl
  residentSize := rfl
  within := Nat.le_refl _

theorem Holds.firstResident (h : buffer.Holds held) {stored : List SymbolRecord}
    (hheld : held = stored ++ buffer.resident) :
    buffer.firstResident = UInt64.ofNat stored.length := by
  rw [SpillableFactBuffer.firstResident, h.index, hheld, length_append, UInt64.ofNat_add]
  exact UInt64.add_sub_cancel _ _

/-- What is held is enumerated, from index 0. -/
theorem Holds.forEachInOrder (h : buffer.Holds held) :
    buffer.forEachInOrder = .ok (numberedFrom 0 held) := by
  obtain ⟨_, hheld, hread⟩ := h.reads
  rw [SpillableFactBuffer.forEachInOrder, hread, h.firstResident hheld, hheld, numberedFrom_append,
    UInt64.zero_add]
  rfl

/-! ## One call -/

/-- The frame of the record fits into the byte limit. -/
def Admits (buffer : SpillableFactBuffer) (record : SymbolRecord) : Prop :=
  (encodeSymbolRecord record).length < maxVectorBytes ∧
    buffer.totalSize.toNat + framed record ≤ buffer.options.maxTotalBytes.toNat

/-- The frame fits and the threshold is reached, but the segment cannot be
created or its header does not fit. -/
def Overruns (faults : ℕ → Bool) (buffer : SpillableFactBuffer) (record : SymbolRecord) : Prop :=
  buffer.Admits record ∧
    buffer.options.spillThresholdBytes.toNat ≤ buffer.residentSize.toNat + framed record ∧
    (faults buffer.spills ∨
      buffer.options.maxTotalBytes.toNat < buffer.totalSize.toNat + framed record + 32)

theorem exceeds_eq_false_iff (hlength : (encodeSymbolRecord record).length < maxVectorBytes) :
    buffer.exceeds (UInt64.ofNat (encodeSymbolRecord record).length) = false ↔
      buffer.totalSize.toNat + framed record ≤ buffer.options.maxTotalBytes.toNat := by
  have hencoded : (UInt64.ofNat (encodeSymbolRecord record).length).toNat =
      (encodeSymbolRecord record).length := by
    apply UInt64.toNat_ofNat_of_lt'
    exact Nat.lt_of_lt_of_le hlength (by decide)
  have height : (8 : UInt64).toNat = 8 := rfl
  have hlimit := buffer.options.maxTotalBytes.toNat_lt
  have htotal := buffer.totalSize.toNat_lt
  simp only [exceeds, decide_eq_false_iff_not, gt_iff_lt, UInt64.lt_iff_toNat_lt,
    UInt64.toNat_add, UInt64.toNat_sub, hencoded, height, framed]
  simp only [maxVectorBytes] at hlength
  omega

section

variable (h : buffer.Holds held)
include h

/-- The record made resident, as long as its frame fits. -/
theorem Holds.retain (hadmits : buffer.Admits record) :
    (buffer.retain record (UInt64.ofNat (encodeSymbolRecord record).length)).Holds (held ++ [record]) ∧
      (buffer.retain record (UInt64.ofNat (encodeSymbolRecord record).length)).residentSize.toNat =
        buffer.residentSize.toNat + framed record ∧
      (buffer.retain record (UInt64.ofNat (encodeSymbolRecord record).length)).totalSize.toNat =
        buffer.totalSize.toNat + framed record := by
  have hsize : (UInt64.ofNat (encodeSymbolRecord record).length + 8).toNat = framed record := by
    rw [UInt64.toNat_add, UInt64.toNat_ofNat_of_lt']
    · apply Nat.mod_eq_of_lt
      exact Nat.lt_of_lt_of_le (Nat.add_lt_add_right hadmits.1 8) (by decide)
    · exact Nat.lt_of_lt_of_le hadmits.1 (by decide)
  have hlimit := buffer.options.maxTotalBytes.toNat_lt
  have hfits := hadmits.2
  have hwithin := h.within
  have htotal : (buffer.totalSize + (UInt64.ofNat (encodeSymbolRecord record).length + 8)).toNat =
      buffer.totalSize.toNat + framed record := by
    rw [UInt64.toNat_add, hsize]
    apply Nat.mod_eq_of_lt
    omega
  have hresident :
      (buffer.residentSize + (UInt64.ofNat (encodeSymbolRecord record).length + 8)).toNat =
      buffer.residentSize.toNat + framed record := by
    rw [UInt64.toNat_add, hsize]
    apply Nat.mod_eq_of_lt
    omega
  refine ⟨?_, hresident, htotal⟩
  obtain ⟨stored, hheld, hread⟩ := h.reads
  exact {
    reads := ⟨stored, by rw [hheld, append_assoc]; rfl, hread⟩
    paths := h.paths
    index := by
      rw [length_append, UInt64.ofNat_add, ← h.index]
      rfl
    residentSize := by
      simp only [SpillableFactBuffer.retain, hresident, h.residentSize, framesOf_append]
      rfl
    within := by
      simp only [SpillableFactBuffer.retain, hresident, htotal]
      omega }

theorem Holds.unspilled : buffer.unspilled.Holds held where
  reads := by
    obtain ⟨stored, hheld, hread⟩ := h.reads
    refine ⟨stored, hheld, ?_⟩
    rw [← hread]
    apply readSegments_congr
    intro segment hmem
    have hpath : segment.path ≠ buffer.segments.length := Nat.ne_of_lt (h.paths segment hmem)
    rw [SpillableFactBuffer.unspilled, AssocMap.find?_eraseWhere]
    cases buffer.directory.find? segment.path with
    | none => rfl
    | some => simp [hpath]
  paths := h.paths
  index := h.index
  residentSize := h.residentSize
  within := h.within

theorem Holds.spilled (hlength : framesOf buffer.resident + 32 < 2 ^ 64) : buffer.spilled.Holds held where
  reads := by
    obtain ⟨stored, hheld, hread⟩ := h.reads
    refine ⟨held, (append_nil _).symm, ?_⟩
    have hsame : readSegments buffer.spilled.directory buffer.segments =
        .ok (numberedFrom 0 stored) := by
      rw [← hread]
      apply readSegments_congr
      intro segment hmem
      have hpath : segment.path ≠ buffer.segments.length := Nat.ne_of_lt (h.paths segment hmem)
      rw [SpillableFactBuffer.spilled, AssocMap.find?_insertOrAssign, if_neg hpath]
    have hfile : buffer.spilled.directory.find? buffer.segments.length =
        some (segmentBytes buffer.options.family buffer.firstResident buffer.resident) := by
      rw [SpillableFactBuffer.spilled, AssocMap.find?_insertOrAssign, if_pos rfl]
    rw [hheld, numberedFrom_append, UInt64.zero_add, ← h.firstResident hheld]
    apply readSegments_append hsame hfile
    apply readSegment_segmentBytes
    rw [length_segmentBytes]
    exact hlength
  paths := by
    intro segment hmem
    have hlast : buffer.spilled.segments.length = buffer.segments.length + 1 :=
      length_append
    rw [hlast]
    cases mem_append.mp hmem with
    | inl hold => exact Nat.lt_succ_of_lt (h.paths segment hold)
    | inr hnew =>
      rw [mem_singleton.mp hnew]
      exact Nat.lt_succ_self _
  index := h.index
  residentSize := rfl
  within := Nat.zero_le _

theorem Holds.spill_error (hresident : buffer.resident ≠ []) (hover : faults buffer.spills ∨
      buffer.options.maxTotalBytes.toNat < buffer.totalSize.toNat + 32) :
    ∃ error, buffer.spill faults = (.error error, buffer.unspilled) := by
  rw [spill, if_neg hresident]
  by_cases hfault : faults buffer.spills
  · exact ⟨.cannotCreate, by simp [hfault]⟩
  · refine ⟨.spillLimit, ?_⟩
    have hlong := hover.resolve_left hfault
    have hprior := UInt64.toNat_sub_of_le _ _ (UInt64.le_iff_toNat_le.mpr h.within)
    have hsize := h.residentSize
    have hwithin := h.within
    simp only [hfault, length_segmentBytes, hprior, Bool.false_eq_true, if_false]
    rw [if_pos]
    omega

theorem Holds.spill_ok (hresident : buffer.resident ≠ []) (hfault : ¬ faults buffer.spills)
    (hfits : buffer.totalSize.toNat + 32 ≤ buffer.options.maxTotalBytes.toNat) :
    buffer.spill faults = (.ok (), buffer.spilled) ∧ buffer.spilled.Holds held := by
  have hprior := UInt64.toNat_sub_of_le _ _ (UInt64.le_iff_toNat_le.mpr h.within)
  have hsize := h.residentSize
  have hwithin := h.within
  have hlimit := buffer.options.maxTotalBytes.toNat_lt
  constructor
  · rw [spill, if_neg hresident]
    simp only [hfault, length_segmentBytes, hprior, Bool.false_eq_true, if_false]
    rw [if_neg]
    omega
  · apply h.spilled
    omega

end

variable (faults) in
/-- A record without room is refused, and nothing changes. -/
theorem append_refused (hadmits : ¬ buffer.Admits record) :
    ∃ error, buffer.append faults record = (.error error, buffer) := by
  rw [append, encoder]
  by_cases hlength : maxVectorBytes ≤ (encodeSymbolRecord record).length
  · rw [if_pos hlength]
    exact ⟨_, rfl⟩
  · rw [if_neg hlength]
    have hexceeds :
        buffer.exceeds (UInt64.ofNat (encodeSymbolRecord record).length) = true := by
      rw [← Bool.not_eq_false, exceeds_eq_false_iff (Nat.lt_of_not_le hlength)]
      intro hfits
      exact hadmits ⟨Nat.lt_of_not_le hlength, hfits⟩
    exact ⟨.payloadLimit, by simp [hexceeds]⟩

/-- What `append` does with a record it admits. -/
theorem append_of_admits (hadmits : buffer.Admits record) :
    buffer.append faults record =
      let retained := buffer.retain record (UInt64.ofNat (encodeSymbolRecord record).length)
      if retained.residentSize ≥ buffer.options.spillThresholdBytes then
        match retained.spill faults with
        | (.error error, after) => (.error error, after)
        | (.ok (), after) => (.ok buffer.nextIndex, after)
      else (.ok buffer.nextIndex, retained) := by
  have hexceeds : buffer.exceeds (UInt64.ofNat (encodeSymbolRecord record).length) = false :=
    (exceeds_eq_false_iff hadmits.1).mpr hadmits.2
  rw [append, encoder, if_neg (Nat.not_le_of_lt hadmits.1)]
  simp only [hexceeds, Bool.false_eq_true, if_false] <;> rfl

theorem Holds.append_accepted (h : buffer.Holds held) (hadmits : buffer.Admits record)
    (hover : ¬ Overruns faults buffer record) :
    ∃ after, buffer.append faults record = (.ok buffer.nextIndex, after) ∧
      after.Holds (held ++ [record]) := by
  obtain ⟨hretained, hresident, htotal⟩ := h.retain hadmits
  rw [append_of_admits hadmits]
  simp only [ge_iff_le, UInt64.le_iff_toNat_le, hresident]
  by_cases hthreshold :
      buffer.options.spillThresholdBytes.toNat ≤ buffer.residentSize.toNat + framed record
  · rw [if_pos hthreshold]
    have hroom := not_or.mp fun hbad => hover ⟨hadmits, hthreshold, hbad⟩
    have hspill := hretained.spill_ok (by simp [SpillableFactBuffer.retain]) hroom.1
      (by rw [htotal]; exact Nat.le_of_not_lt hroom.2)
    rw [hspill.1]
    exact ⟨_, rfl, hspill.2⟩
  · rw [if_neg hthreshold]
    exact ⟨_, rfl, hretained⟩

/-- A call that overruns throws and keeps the record. -/
theorem Holds.append_overruns (h : buffer.Holds held) (hover : Overruns faults buffer record) :
    ∃ error after, buffer.append faults record = (.error error, after) ∧
      after.Holds (held ++ [record]) := by
  obtain ⟨hretained, hresident, htotal⟩ := h.retain hover.1
  rw [append_of_admits hover.1]
  simp only [ge_iff_le, UInt64.le_iff_toNat_le, hresident, if_pos hover.2.1]
  have hspill := hretained.spill_error (by simp [SpillableFactBuffer.retain])
    (hover.2.2.imp id fun hlong => by rw [htotal]; exact hlong)
  obtain ⟨error, hspill⟩ := hspill
  rw [hspill]
  exact ⟨error, _, rfl, hretained.unspilled⟩

/-! ## Runs -/

variable (faults) in
/-- After any calls the buffer enumerates some records. -/
theorem Holds.appendAll (h : buffer.Holds held) (records : List SymbolRecord) :
    ∃ after, (buffer.appendAll faults records).Holds after := by
  induction records generalizing buffer held with
  | nil => exact ⟨held, h⟩
  | cons record _ ih =>
    by_cases hadmits : buffer.Admits record
    · by_cases hover : Overruns faults buffer record
      · obtain ⟨_, _, happend, hafter⟩ := h.append_overruns hover
        have hrest := ih hafter
        rw [appendAll, foldl_cons, happend]
        exact hrest
      · obtain ⟨_, happend, hafter⟩ := h.append_accepted hadmits hover
        have hrest := ih hafter
        rw [appendAll, foldl_cons, happend]
        exact hrest
    · obtain ⟨_, happend⟩ := append_refused faults hadmits
      have hrest := ih h
      rw [appendAll, foldl_cons, happend]
      exact hrest

/-- No call of the run overruns. -/
def NeverOverruns (faults : ℕ → Bool) (buffer : SpillableFactBuffer)
    (records : List SymbolRecord) : Prop :=
  ∀ before record later, records = before ++ record :: later →
    ¬ Overruns faults (buffer.appendAll faults before) record

theorem NeverOverruns.first {rest : List SymbolRecord}
    (h : NeverOverruns faults buffer (record :: rest)) : ¬ Overruns faults buffer record :=
  h [] record rest rfl

theorem NeverOverruns.rest {rest : List SymbolRecord}
    (h : NeverOverruns faults buffer (record :: rest)) :
    NeverOverruns faults (buffer.append faults record).2 rest := by
  intro before other later hsplit
  exact h (record :: before) other later (by rw [hsplit]; rfl)

variable {records : List SymbolRecord}

/-- Without an overrun the buffer enumerates what it has accepted. -/
theorem Holds.accepted (h : buffer.Holds held) (hnever : NeverOverruns faults buffer records) :
    (buffer.appendAll faults records).Holds (held ++ buffer.accepted faults records) := by
  induction records generalizing buffer held with
  | nil =>
    rw [SpillableFactBuffer.accepted, append_nil]
    exact h
  | cons record rest ih =>
    have hrest := hnever.rest
    rw [SpillableFactBuffer.accepted, SpillableFactBuffer.appendAll, foldl_cons]
    by_cases hadmits : buffer.Admits record
    · obtain ⟨_, happend, hafter⟩ := h.append_accepted hadmits hnever.first
      rw [happend] at hrest ⊢
      have hlater := ih hafter hrest
      rw [append_assoc] at hlater
      exact hlater
    · obtain ⟨_, happend⟩ := append_refused faults hadmits
      rw [happend] at hrest ⊢
      exact ih h hrest

/-- A run enumerates the accepted records and nothing else, and a call that
throws leaves `size` and what is enumerated alone. -/
structure Exact (faults : ℕ → Bool) (options : SpillableFactBufferOptions)
    (records : List SymbolRecord) : Prop where
  enumerates : ((create options).appendAll faults records).forEachInOrder =
    .ok (numberedFrom 0 ((create options).accepted faults records))
  unchanged : ∀ before record later, records = before ++ record :: later →
    ∀ error after,
      ((create options).appendAll faults before).append faults record = (.error error, after) →
        after.size = ((create options).appendAll faults before).size ∧
        after.forEachInOrder = ((create options).appendAll faults before).forEachInOrder

theorem Exact.neverOverruns {options : SpillableFactBufferOptions}
    (hexact : Exact faults options records) : NeverOverruns faults (create options) records := by
  intro before record later hsplit hover
  obtain ⟨held, hheld⟩ := (holds_create options).appendAll faults before
  obtain ⟨error, after, happend, hafter⟩ := hheld.append_overruns hover
  have hsize := (hexact.unchanged before record later hsplit error after happend).1
  rw [size, size, hafter.index, hheld.index, length_append, UInt64.ofNat_add,
    ← UInt64.toNat_inj, UInt64.toNat_add] at hsize
  have hlast : (UInt64.ofNat [record].length).toNat = 1 := rfl
  have hlt := (UInt64.ofNat held.length).toNat_lt
  omega

/-- For every threshold, byte limit and sequence of calls: what is enumerated is
what was accepted, and throwing calls change nothing, exactly when no call
overruns. -/
theorem appends_exact (faults : ℕ → Bool) (options : SpillableFactBufferOptions)
    (records : List SymbolRecord) :
    Exact faults options records ↔ NeverOverruns faults (create options) records := by
  constructor
  · exact Exact.neverOverruns
  · intro hnever
    refine ⟨((holds_create options).accepted hnever).forEachInOrder, ?_⟩
    intro before record later hsplit _ _ happend
    have hover := hnever before record later hsplit
    obtain ⟨_, hheld⟩ := (holds_create options).appendAll faults before
    by_cases hadmits : ((create options).appendAll faults before).Admits record
    · obtain ⟨_, haccept, -⟩ := hheld.append_accepted hadmits hover
      rw [haccept] at happend
      cases happend
    · obtain ⟨_, hrefuse⟩ := append_refused faults hadmits
      rw [hrefuse] at happend
      cases happend
      exact ⟨rfl, rfl⟩

/-- A record that fits exactly leaves no room for the header of a segment. -/
theorem exact_fit_overruns :
    ¬ Exact (fun _ => false)
      { family := .symbols, spillThresholdBytes := 0
        maxTotalBytes := UInt64.ofNat (framed (.named [])) } [.named []] := by
  intro hexact
  apply hexact.neverOverruns [] (.named []) [] rfl
  refine ⟨⟨?_, ?_⟩, ?_, Or.inr ?_⟩ <;> decide +kernel

end CppIndexer.Ast.SpillableFactBuffer
