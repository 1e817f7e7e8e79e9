/-
# The limits of the identity index

The resident part stays within its limit in every state.  The runs do not: the
test of `flush` takes the size of the new run from the limit in unsigned
arithmetic, and a run that is larger than the whole limit turns the difference
into a large number, so that the test passes.  As long as no such run is
accepted the runs stay within their limit, whatever throws in between.
-/

import CppIndexer.Ast.SpillableIdentityIndex

namespace CppIndexer.Ast.SpillableIdentityIndex

open Util (Bytes ascii)

variable {faults : ℕ → DiskFault} {index : SpillableIdentityIndex}

def runsTotal (index : SpillableIdentityIndex) : ℕ :=
  (index.runs.map fun run => run.byteSize.toNat).sum

/-- The size of the run a flush would write. -/
def nextRunBytes (index : SpillableIdentityIndex) : UInt64 :=
  UInt64.ofNat (runBytes index.resident.entries).length

/-- A flush passes all its tests, although the run alone is larger than the
limit. -/
def Overruns (faults : ℕ → DiskFault) (index : SpillableIdentityIndex) : Prop :=
  index.resident.entries ≠ [] ∧ (faults index.writes).create = false ∧
    (runBytes index.resident.entries).length < maxFileBytes ∧
    ¬ index.totalSize > index.options.maxTotalBytes - index.nextRunBytes ∧
    (faults index.writes).checksum = false ∧
    index.options.maxTotalBytes < index.nextRunBytes

/-- An insertion that does not flush into an overrun. -/
def SafeInsert (faults : ℕ → DiskFault) (index : SpillableIdentityIndex) (key : IdentityKey) : Prop :=
  index.lookup key = .ok none → index.full (cost key) = true → ¬ index.Overruns faults

/-- The states of an index whose calls are all admitted, returning or
throwing. -/
inductive Reaches (faults : ℕ → DiskFault) (options : SpillableIdentityIndexOptions)
    (admits : SpillableIdentityIndex → IdentityKey → Prop) : SpillableIdentityIndex → Prop
  | create : Reaches faults options admits (create options)
  | insert {index : SpillableIdentityIndex} (before : Reaches faults options admits index)
      {key : IdentityKey} (admitted : admits index key) (handle : Int64) :
      Reaches faults options admits (index.insert faults key handle).2

/-! ## The resident entries -/

variable {key : IdentityKey} {handle : Int64} {motive : SpillableIdentityIndex → Prop}

theorem emplace_resident (h : index.full (cost key) = false) :
    (index.emplace key handle).residentSize ≤ index.options.maxResidentIdentityBytes := by
  simp only [full, gt_iff_lt, ge_iff_le, decide_eq_false_iff_not, not_or] at h
  rw [UInt64.not_lt, UInt64.not_lt] at h
  obtain ⟨hcost, hroom, -⟩ := h
  rw [UInt64.le_iff_toNat_le, UInt64.toNat_sub_of_le _ _ hcost] at hroom
  rw [UInt64.le_iff_toNat_le] at hcost
  have hlt := UInt64.toNat_lt index.options.maxResidentIdentityBytes
  rw [UInt64.le_iff_toNat_le]
  show (index.residentSize + cost key).toNat ≤ _
  rw [UInt64.toNat_add]
  omega

/-- A property kept by what a flush may leave behind and by a fitting entry is
kept by an insertion. -/
theorem insert_induction (h : motive index)
    (hflush : index.lookup key = .ok none → index.full (cost key) = true → motive (index.flush faults).2)
    (hemplace : ∀ index : SpillableIdentityIndex, motive index → index.full (cost key) = false →
      motive (index.emplace key handle)) : motive (index.insert faults key handle).2 := by
  have hresident : ∀ index : SpillableIdentityIndex, motive index →
      motive (index.insertResident key handle).2 := by
    intro index hindex
    rw [insertResident]
    cases hfull : index.full (cost key) with
    | true => exact hindex
    | false => exact hemplace index hindex hfull
  rw [insert]
  split
  · exact h
  · exact h
  · rename_i hlookup
    cases hfull : index.full (cost key) with
    | true =>
      have hafter := hflush hlookup hfull
      rw [if_pos rfl]
      split
      · rename_i hthrown
        rwa [hthrown] at hafter
      · rename_i hreturned
        rw [hreturned] at hafter
        exact hresident _ hafter
    | false =>
      rw [if_neg Bool.false_ne_true]
      exact hresident index h

/-- A property kept by both ends of a flush and of a compaction is kept by a
flush. -/
theorem flush_induction (h : motive index) (hunspilled : motive index.unspilled)
    (hspilled : index.resident.entries ≠ [] → (faults index.writes).create = false →
      (runBytes index.resident.entries).length < maxFileBytes →
      ¬ index.totalSize > index.options.maxTotalBytes - index.nextRunBytes →
      (faults index.writes).checksum = false → motive index.spilled)
    (hcompact : ∀ fault, motive index.spilled → motive (index.spilled.compact fault).2) :
    motive (index.flush faults).2 := by
  rw [flush]
  split
  · exact h
  · rename_i hempty
    simp only []
    split
    · exact hunspilled
    · rename_i hcreated
      rw [not_or, Bool.not_eq_true, not_le] at hcreated
      split
      · exact hunspilled
      · rename_i hlimit
        split
        · exact hunspilled
        · rename_i hchecksum
          rw [Bool.not_eq_true] at hchecksum
          have hmotive := hspilled hempty hcreated.1 hcreated.2 hlimit hchecksum
          split
          · exact hcompact _ hmotive
          · exact hmotive

theorem compact_options (fault : DiskFault) : (index.compact fault).2.options = index.options := by
  rw [compact]
  split
  · rfl
  · simp only []
    split <;> rfl

theorem compact_residentSize (fault : DiskFault) :
    (index.compact fault).2.residentSize = index.residentSize := by
  rw [compact]
  split
  · rfl
  · simp only []
    split <;> rfl

theorem insert_options (key : IdentityKey) (handle : Int64) :
    (index.insert faults key handle).2.options = index.options := by
  apply insert_induction (motive := fun after => after.options = index.options) rfl
  · intro _ _
    apply flush_induction (motive := fun after => after.options = index.options) rfl rfl
    · intro _ _ _ _ _
      rfl
    · intro _ hspilled
      rw [compact_options, hspilled]
  · intro _ hafter _
    exact hafter

theorem insert_residentSize (key : IdentityKey) (handle : Int64)
    (h : index.residentSize ≤ index.options.maxResidentIdentityBytes) :
    (index.insert faults key handle).2.residentSize ≤
      (index.insert faults key handle).2.options.maxResidentIdentityBytes := by
  apply insert_induction
    (motive := fun after => after.residentSize ≤ after.options.maxResidentIdentityBytes) h
  · intro _ _
    apply flush_induction
      (motive := fun after => after.residentSize ≤ after.options.maxResidentIdentityBytes) h h
    · intro _ _ _ _ _
      rw [UInt64.le_iff_toNat_le]
      exact Nat.zero_le _
    · intro _ hspilled
      rw [compact_residentSize, compact_options]
      exact hspilled
  · intro _ _ hfits
    exact emplace_resident hfits

/-! ## The runs -/

/-- The tracked size is that of the runs, and within the limit. -/
def Within (index : SpillableIdentityIndex) : Prop :=
  index.totalSize.toNat = index.runsTotal ∧ index.runsTotal ≤ index.options.maxTotalBytes.toNat

theorem Within.spilled (h : index.Within)
    (htest : ¬ index.totalSize > index.options.maxTotalBytes - index.nextRunBytes)
    (hsize : ¬ index.options.maxTotalBytes < index.nextRunBytes) : index.spilled.Within := by
  rw [gt_iff_lt, UInt64.not_lt, UInt64.le_iff_toNat_le] at htest
  rw [UInt64.not_lt] at hsize
  rw [UInt64.toNat_sub_of_le _ _ hsize] at htest
  rw [UInt64.le_iff_toNat_le] at hsize
  have hlt := UInt64.toNat_lt index.options.maxTotalBytes
  have hruns : index.spilled.runsTotal = index.runsTotal + index.nextRunBytes.toNat := by
    simp [runsTotal, SpillableIdentityIndex.spilled, nextRunBytes]
  have htotal : index.spilled.totalSize.toNat =
      (index.totalSize.toNat + index.nextRunBytes.toNat) % 2 ^ 64 := UInt64.toNat_add _ _
  have hoptions : index.spilled.options = index.options := rfl
  rw [Within, hruns, htotal, hoptions, ← h.1]
  omega

theorem Within.compact (h : index.Within) (fault : DiskFault) : (index.compact fault).2.Within := by
  rw [SpillableIdentityIndex.compact]
  split
  · exact h
  · simp only []
    split
    · exact h
    · rename_i hlimit
      rw [not_or, not_or, UInt64.not_lt, UInt64.le_iff_toNat_le] at hlimit
      constructor
      · simp [runsTotal]
      · simp only [runsTotal, List.map_cons, List.map_nil, List.sum_cons, List.sum_nil, Nat.add_zero]
        exact hlimit.2.2

theorem Within.insert (h : index.Within) (handle : Int64)
    (hsafe : index.SafeInsert faults key) : (index.insert faults key handle).2.Within := by
  apply insert_induction (motive := Within) h
  · intro hlookup hfull
    have hoverruns := hsafe hlookup hfull
    apply flush_induction (motive := Within) h h
    · intro hempty hcreated hlength htest hchecksum
      apply h.spilled htest
      intro hsize
      exact hoverruns ⟨hempty, hcreated, hlength, htest, hchecksum, hsize⟩
    · intro fault hspilled
      exact hspilled.compact fault
  · intro _ hafter _
    exact hafter

/-- A disk on which nothing fails. -/
def noFaults : ℕ → DiskFault := fun _ => { create := false, checksum := false, compact := false }

/-- Room for one resident entry, and for runs of sixteen bytes in all. -/
def tightOptions : SpillableIdentityIndexOptions where
  maxResidentIdentityBytes := 64
  maxIdentityEntries := 1
  maxIdentityRuns := 8
  maxTotalBytes := 16

end CppIndexer.Ast.SpillableIdentityIndex
