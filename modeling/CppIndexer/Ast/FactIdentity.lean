/-
# Portable identities and their handles

Facts are named without row numbers of a database.  A partition is a file under
a configuration, and `stable_string` writes it down as a text from which both
can be read back: every field carries its length in front of it, and an
optional one says whether it is there.

The emitters exchange numbers all the same.  `CollisionSafeHandleIndex` gives
each key a number of its own: candidates are drawn from a hash of the key and of
the attempt until one is free.  The two maps of the index are inverse to each
other, which is a field of the structure.

The search for a free number has no bound in the source.  Its attempt counter
has 64 bits, so after 2⁶⁴ attempts the candidates repeat; a search that finds
them all taken never ends, and `none` stands for that.  While few numbers are in
use it does end, because the last five digits of the attempt reach the hash
without loss.
-/

import CppIndexer.Lib.AssocMap
import CppIndexer.Lib.Probing
import CppIndexer.Lib.SelfDelimiting
import CppIndexer.Util.Decimal

namespace CppIndexer.Ast

open Util (Bytes ascii)
open Util.Json (decimal decimalNat eq_of_decimalNat_append)
open SelfDelimiting (Delimits)
open Probing List

/-! ## Partitions -/

/-- `append_field`. -/
def appendField (field : Bytes) : Bytes := decimalNat field.length ++ 58 :: field

/-- `append_optional`. -/
def appendOptional : Option Bytes → Bytes
  | none => ascii "-;"
  | some field => ascii "+" ++ appendField field ++ ascii ";"

structure PortableFileIdentity where
  componentPath : Bytes
  directoryPath : Bytes
  fileName : Bytes
  deriving DecidableEq

structure PortableConfigurationContent where
  driver : Option Bytes
  workingDir : Option Bytes
  arguments : List Bytes
  langMode : Option Bytes
  resourceDir : Option Bytes
  deriving DecidableEq

structure ConfigurationIdentity where
  semanticUniverse : Bytes
  translationUnit : Bytes
  normalizedConfiguration : Bytes
  identitySource : Bytes
  content : PortableConfigurationContent
  deriving DecidableEq

structure FactPartitionKey where
  file : PortableFileIdentity
  configuration : ConfigurationIdentity
  deriving DecidableEq

/-- `FactPartitionKey::stable_string`. -/
def FactPartitionKey.stableString (key : FactPartitionKey) : Bytes :=
  appendField key.file.componentPath ++ appendField key.file.directoryPath ++
    appendField key.file.fileName ++ appendField key.configuration.semanticUniverse ++
    appendField key.configuration.translationUnit ++
    appendField key.configuration.normalizedConfiguration ++
    appendField key.configuration.identitySource ++
    appendOptional key.configuration.content.driver ++
    appendOptional key.configuration.content.workingDir ++
    (decimalNat key.configuration.content.arguments.length ++ ascii ";") ++
    key.configuration.content.arguments.flatMap appendField ++
    appendOptional key.configuration.content.langMode ++
    appendOptional key.configuration.content.resourceDir

theorem delimits_appendField : Delimits appendField := by
  intro _ _ _ _ h
  simp only [appendField, append_assoc, cons_append] at h
  have hlength := eq_of_decimalNat_append (by decide) h
  exact append_inj hlength.2 hlength.1

theorem delimits_appendOptional : Delimits appendOptional := by
  intro a b _ _ h
  cases a with
  | none =>
    cases b with
    | none => exact ⟨rfl, append_cancel_left h⟩
    | some => exact absurd (cons.inj h).1 (by decide)
  | some =>
    cases b with
    | none => exact absurd (cons.inj h).1 (by decide)
    | some =>
      simp only [appendOptional, append_assoc] at h
      have hfield := delimits_appendField (append_cancel_left h)
      rw [hfield.1]
      exact ⟨rfl, append_cancel_left hfield.2⟩

theorem FactPartitionKey.delimits_stableString : Delimits FactPartitionKey.stableString := by
  intro a b _ _ h
  simp only [stableString, append_assoc] at h
  iterate 7 obtain ⟨_, h⟩ := delimits_appendField h
  obtain ⟨_, h⟩ := delimits_appendOptional h
  obtain ⟨_, h⟩ := delimits_appendOptional h
  obtain ⟨hcount, h⟩ := eq_of_decimalNat_append (c := 59) (by decide) h
  obtain ⟨_, h⟩ := delimits_appendField.flatMap hcount h
  obtain ⟨_, h⟩ := delimits_appendOptional h
  obtain ⟨_, h⟩ := delimits_appendOptional h
  cases a with
  | mk fileA configurationA =>
    cases b with
    | mk fileB configurationB =>
      cases fileA; cases fileB
      cases configurationA with
      | mk _ _ _ _ contentA =>
        cases configurationB with
        | mk _ _ _ _ contentB =>
          cases contentA; cases contentB
          simp_all

/-! ## Hashing -/

/-- `stable_fact_hash`. -/
def stableFactHash (value : Bytes) : UInt64 :=
  value.foldl (fun hash byte => (hash ^^^ byte.toUInt64) * 1099511628211) 1469598103934665603

/-- `std::rotl(value, 23)`. -/
def rotl23 (value : UInt64) : UInt64 := value <<< 23 ||| value >>> 41

/-- How many values the attempt counter has. -/
def attempts : ℕ := 2 ^ 64

/-- The candidate both handle indexes draw for an attempt: positive and odd. -/
def mixedHandle (primary : UInt64) (key : Bytes) (attempt : ℕ) : ℤ :=
  let secondary := stableFactHash (key ++ ascii "#" ++ decimalNat attempt)
  ((((primary ^^^ rotl23 secondary) &&& 0x7fffffffffffffff) ||| 1).toNat : ℤ)

/-! ## Handles -/

/-- The index: a hash function and two maps inverse to each other. -/
structure CollisionSafeHandleIndex where
  primary : Bytes → UInt64
  handlesByKey : AssocMap Bytes ℤ
  keysByHandle : AssocMap ℤ Bytes
  inverse : ∀ key handle,
    handlesByKey.find? key = some handle ↔ keysByHandle.find? handle = some key

namespace CollisionSafeHandleIndex

/-- `CollisionSafeHandleIndex(primary)`. -/
def create (primary : Bytes → UInt64) : CollisionSafeHandleIndex where
  primary := primary
  handlesByKey := .empty
  keysByHandle := .empty
  inverse := by simp

variable (index : CollisionSafeHandleIndex) (key : Bytes)

/-- `candidate_for`. -/
def candidateFor (attempt : ℕ) : ℤ := mixedHandle (index.primary key) key attempt

/-- `occupied != keys_by_handle_.end() && occupied->second != key`. -/
def takenByOther (handle : ℤ) : Bool :=
  match index.keysByHandle.find? handle with
  | some other => other ≠ key
  | none => false

variable {index}

theorem free_of_not_taken {key : Bytes} {handle : ℤ} (hkey : index.handlesByKey.find? key = none)
    (hfree : index.takenByOther key handle = false) : index.keysByHandle.find? handle = none := by
  cases hheld : index.keysByHandle.find? handle with
  | none => rfl
  | some other =>
    have hother : other = key := by simpa [takenByOther, hheld] using hfree
    rw [hother] at hheld
    rw [(index.inverse key handle).mpr hheld] at hkey
    cases hkey

variable (index)

/-- The two `emplace`s of a new key and a free handle. -/
def bind (handle : ℤ) (hkey : index.handlesByKey.find? key = none)
    (hhandle : index.keysByHandle.find? handle = none) : CollisionSafeHandleIndex where
  primary := index.primary
  handlesByKey := index.handlesByKey.insertOrAssign key handle
  keysByHandle := index.keysByHandle.insertOrAssign handle key
  inverse := by
    intro other number
    simp only [AssocMap.find?_insertOrAssign]
    by_cases hk : other = key
    · by_cases hn : number = handle
      · simp [hk, hn]
      · have hnone := (index.inverse other number).not.mp (by rw [hk, hkey]; simp)
        simp only [hk, hn, if_true, if_false]
        rw [hk] at hnone
        simp [hnone, Ne.symm hn]
    · by_cases hn : number = handle
      · have hnone := (index.inverse other number).not.mpr (by rw [hn, hhandle]; simp)
        simp only [hk, hn, if_true, if_false]
        rw [hn] at hnone
        simp [hnone, Ne.symm hk]
      · simp only [hk, hn, if_false]
        exact index.inverse other number

/-- `find_or_insert`, with the index after it. -/
def findOrInsert : Option (ℤ × CollisionSafeHandleIndex) :=
  match hkey : index.handlesByKey.find? key with
  | some handle => some (handle, index)
  | none =>
    match hfree : firstFree (index.takenByOther key) (index.candidateFor key) attempts 0 with
    | none => none
    | some handle =>
      some (handle, index.bind key handle hkey (free_of_not_taken hkey (not_taken_of_firstFree hfree)))

variable {index} {key : Bytes} {after : CollisionSafeHandleIndex} {handle : ℤ}

theorem key_unique {other : Bytes} (hkey : index.handlesByKey.find? key = some handle)
    (hother : index.handlesByKey.find? other = some handle) : key = other := by
  rw [index.inverse] at hkey hother
  rw [hkey] at hother
  exact Option.some.inj hother

theorem findOrInsert_handles (h : index.findOrInsert key = some (handle, after)) (other : Bytes) :
    after.handlesByKey.find? other =
      if other = key then some handle else index.handlesByKey.find? other := by
  unfold findOrInsert at h
  split at h
  · rename_i found hfound
    cases h
    by_cases hother : other = key
    · rw [if_pos hother, hother, hfound]
    · rw [if_neg hother]
  · split at h
    · cases h
    · cases h
      simp [bind]

theorem findOrInsert_known {held : ℤ} (h : index.findOrInsert key = some (handle, after))
    (hheld : index.handlesByKey.find? key = some held) : some handle = some held := by
  unfold findOrInsert at h
  split at h
  · rename_i found hfound
    cases h
    rw [← hfound, hheld]
  · rename_i hnone
    rw [hheld] at hnone
    cases hnone

theorem findOrInsert_length {result : ℤ × CollisionSafeHandleIndex}
    (h : index.findOrInsert key = some result) :
    result.2.keysByHandle.entries.length ≤ index.keysByHandle.entries.length + 1 := by
  unfold findOrInsert at h
  split at h
  · cases h
    exact Nat.le_succ _
  · split at h
    · cases h
    · cases h
      exact Nat.succ_le_succ (length_filter_le _ _)

end CollisionSafeHandleIndex

end CppIndexer.Ast
