/-
# The spillable identity index

A map from identities to handles that keeps a bounded part of itself in memory.
When an entry does not fit, what is resident is written to a run, a file of
sorted entries; when there are too many runs they are merged into one.  A lookup
asks the resident entries first and then the runs, the newest first, skipping
those whose range of keys excludes the one it looks for.

The runs are files of a private directory, and what is read is what was written.
The disk may fail where the source notices it, when a run is created, read back
for its checksum or compacted: `faults` says which of its operations do, in the
order in which the index comes to them.  No file has 2⁶³ bytes or more.

A call that throws leaves a state behind, so every operation returns one beside
its outcome.  Sizes are unsigned 64-bit numbers and wrap around.
-/

import CppIndexer.Ast.FactIdentity
import CppIndexer.Lib.LittleEndian
import CppIndexer.Lib.SortedMap
import Mathlib.Data.Prod.Lex

namespace CppIndexer.Ast

open Util (Bytes ascii)
open LittleEndian

inductive FactIdentityKind where
  | symbol
  | relation
  | type
  | definition
  | file
  | handle
  deriving DecidableEq

def FactIdentityKind.underlying : FactIdentityKind → ℕ
  | .symbol => 0
  | .relation => 1
  | .type => 2
  | .definition => 3
  | .file => 4
  | .handle => 5

theorem FactIdentityKind.underlying_injective : Function.Injective underlying := by
  intro a b h
  cases a <;> cases b <;> first | rfl | cases h

instance : LinearOrder FactIdentityKind :=
  LinearOrder.lift' FactIdentityKind.underlying FactIdentityKind.underlying_injective

/-- The enumerator of a stored number. -/
def FactIdentityKind.ofStored (n : ℕ) : Option FactIdentityKind :=
  [symbol, relation, type, definition, file, handle].find? fun kind => kind.underlying = n % 256

theorem FactIdentityKind.ofStored_underlying (kind : FactIdentityKind) :
    ofStored kind.underlying = some kind := by
  cases kind <;> rfl

/-- The key of an identity, in the order of the maps. -/
abbrev IdentityKey := FactIdentityKind ×ₗ Bytes

/-- `encoded_key`. -/
def encodedKey (key : IdentityKey) : Bytes :=
  UInt8.ofNat (ofLex key).1.underlying :: 0 :: (ofLex key).2

abbrev IdentityEntries := SortedMap IdentityKey Int64

inductive RunPath where
  | run (number : ℕ)
  | compacted (serial : ℕ)
  deriving DecidableEq

structure IdentityRun where
  path : RunPath
  entryCount : ℕ
  byteSize : UInt64
  firstKey : Bytes
  lastKey : Bytes

structure SpillableIdentityIndexOptions where
  maxResidentIdentityBytes : UInt64
  maxIdentityEntries : UInt64
  maxIdentityRuns : ℕ
  maxTotalBytes : UInt64

inductive IdentityInsertResult where
  | inserted
  | existing
  | conflict
  deriving DecidableEq

inductive IdentityError where
  | spillLimit
  | compactionLimit
  | residentLimit
  | cannotCreate
  | cannotChecksum
  | corruptRun
  deriving DecidableEq

/-- What fails the next time the index writes a run. -/
structure DiskFault where
  create : Bool
  checksum : Bool
  compact : Bool

/-- `SpillableIdentityIndex::Impl`, its directory, and the number of runs it has
set out to write. -/
structure SpillableIdentityIndex where
  options : SpillableIdentityIndexOptions
  resident : IdentityEntries
  runs : List IdentityRun
  directory : AssocMap RunPath Bytes
  residentSize : UInt64
  totalSize : UInt64
  totalEntries : UInt64
  compactionSerial : ℕ
  writes : ℕ

namespace SpillableIdentityIndex

def create (options : SpillableIdentityIndexOptions) : SpillableIdentityIndex where
  options := options
  resident := .empty
  runs := []
  directory := .empty
  residentSize := 0
  totalSize := 0
  totalEntries := 0
  compactionSerial := 0
  writes := 0

/-! ## The format of a run -/

def magic : Bytes := ascii "CIDXIDX1"

def entryBytes (entry : IdentityKey × Int64) : Bytes :=
  word 8 (ofLex entry.1).1.underlying ++ word 8 (ofLex entry.1).2.length ++ (ofLex entry.1).2 ++
    word 8 entry.2.toUInt64.toNat

def runBytes (entries : List (IdentityKey × Int64)) : Bytes :=
  magic ++ word 8 entries.length ++ entries.flatMap entryBytes

/-- `first` and `last` of `write_identity_entries`. -/
def keyRange (entries : List (IdentityKey × Int64)) : Bytes × Bytes :=
  entries.foldl (fun range entry =>
    (if range.1 = [] then encodedKey entry.1 else range.1, encodedKey entry.1)) ([], [])

/-- The next entry: the number of its kind, its key and its handle. -/
def takeEntry (bytes : Bytes) : Option ((ℕ × Bytes × Int64) × Bytes) := do
  let (kind, bytes) ← takeWord 8 bytes
  let (length, bytes) ← takeWord 8 bytes
  if bytes.length < length then none
  else
    let (handle, rest) ← takeWord 8 (bytes.drop length)
    return ((kind, bytes.take length, (UInt64.ofNat handle).toInt64), rest)

variable (directory : AssocMap RunPath Bytes)

/-- The number of entries and their bytes, of a file that is a run. -/
def openRun (path : RunPath) : Except IdentityError (ℕ × Bytes) :=
  match directory.find? path with
  | none => .error .corruptRun
  | some bytes =>
    if bytes.take 8 ≠ magic then .error .corruptRun
    else
      match takeWord 8 (bytes.drop 8) with
      | none => .error .corruptRun
      | some result => .ok result

/-- The loop of `find_in_run`. -/
def scanRun (key : IdentityKey) : ℕ → Bytes → Except IdentityError (Option Int64)
  | 0, _ => .ok none
  | count + 1, bytes =>
    match takeEntry bytes with
    | none => .error .corruptRun
    | some ((kind, text, handle), rest) =>
      if kind % 256 = (ofLex key).1.underlying ∧ text = (ofLex key).2 then .ok (some handle)
      else scanRun key count rest

/-- `find_in_run`. -/
def findInRun (run : IdentityRun) (key : IdentityKey) : Except IdentityError (Option Int64) :=
  if run.firstKey ≠ [] ∧ encodedKey key < run.firstKey ∨
      run.lastKey ≠ [] ∧ run.lastKey < encodedKey key then .ok none
  else
    match openRun directory run.path with
    | .error error => .error error
    | .ok (count, bytes) => scanRun key count bytes

/-- `read_identity_entries`, whose consumer puts the entries into a map. -/
def readEntries : ℕ → Bytes → IdentityEntries → Except IdentityError IdentityEntries
  | 0, _, into => .ok into
  | count + 1, bytes, into =>
    match takeEntry bytes with
    | none => .error .corruptRun
    | some ((kind, text, handle), rest) =>
      match FactIdentityKind.ofStored kind with
      | none => .error .corruptRun
      | some kind => readEntries count rest (into.insertOrAssign (toLex (kind, text)) handle)

/-- The entries of the runs, later ones over earlier ones. -/
def readRuns (directory : AssocMap RunPath Bytes) : List IdentityRun → IdentityEntries →
    Except IdentityError IdentityEntries
  | [], into => .ok into
  | run :: rest, into =>
    match openRun directory run.path with
    | .error error => .error error
    | .ok (count, bytes) =>
      match readEntries count bytes into with
      | .error error => .error error
      | .ok into => readRuns directory rest into

/-! ## The operations -/

variable (faults : ℕ → DiskFault) (index : SpillableIdentityIndex)

/-- The loop over the runs, the newest first. -/
def lookupRuns (directory : AssocMap RunPath Bytes) (key : IdentityKey) :
    List IdentityRun → Except IdentityError (Option Int64)
  | [] => .ok none
  | run :: rest =>
    match findInRun directory run key with
    | .error error => .error error
    | .ok (some handle) => .ok (some handle)
    | .ok none => lookupRuns directory key rest

/-- `lookup`. -/
def lookup (key : IdentityKey) : Except IdentityError (Option Int64) :=
  match index.resident.find? key with
  | some handle => .ok (some handle)
  | none => lookupRuns index.directory key index.runs.reverse

def maxFileBytes : ℕ := 2 ^ 63

/-- `compact`. -/
def compact (fault : DiskFault) : Except IdentityError Unit × SpillableIdentityIndex :=
  match readRuns index.directory index.runs .empty with
  | .error error => (.error error, index)
  | .ok merged =>
    let path := RunPath.compacted index.compactionSerial
    let content := runBytes merged.entries
    let bytes := UInt64.ofNat content.length
    if fault.compact ∨ maxFileBytes ≤ content.length ∨ index.options.maxTotalBytes < bytes then
      (.error .compactionLimit, { index with
          directory := index.directory.eraseWhere fun p _ => p = path
          compactionSerial := index.compactionSerial + 1 })
    else
      (.ok (), { index with
          directory := (index.directory.insertOrAssign path content).eraseWhere fun p _ =>
            p ∈ index.runs.map IdentityRun.path
          runs := [{ path := path, entryCount := merged.entries.length, byteSize := bytes
                     firstKey := (keyRange merged.entries).1
                     lastKey := (keyRange merged.entries).2 }]
          totalSize := bytes
          compactionSerial := index.compactionSerial + 1 })

/-- The run that `flush` adds, and what it leaves behind before it compacts. -/
def spilled : SpillableIdentityIndex :=
  let path := RunPath.run index.runs.length
  let content := runBytes index.resident.entries
  let bytes := UInt64.ofNat content.length
  { index with
    directory := index.directory.insertOrAssign path content
    runs := index.runs ++
      [{ path := path, entryCount := index.resident.entries.length, byteSize := bytes
         firstKey := (keyRange index.resident.entries).1
         lastKey := (keyRange index.resident.entries).2 }]
    totalSize := index.totalSize + bytes
    resident := .empty
    residentSize := 0
    writes := index.writes + 1 }

/-- What a flush leaves behind that does not add its run. -/
def unspilled : SpillableIdentityIndex :=
  { index with
    directory := index.directory.eraseWhere fun p _ => p = .run index.runs.length
    writes := index.writes + 1 }

/-- `flush`. -/
def flush : Except IdentityError Unit × SpillableIdentityIndex :=
  if index.resident.entries = [] then (.ok (), index)
  else
    let fault := faults index.writes
    let content := runBytes index.resident.entries
    let bytes := UInt64.ofNat content.length
    if fault.create ∨ maxFileBytes ≤ content.length then (.error .cannotCreate, index.unspilled)
    else if index.totalSize > index.options.maxTotalBytes - bytes then
      (.error .spillLimit, index.unspilled)
    else if fault.checksum then (.error .cannotChecksum, index.unspilled)
    else if index.spilled.runs.length > index.options.maxIdentityRuns then
      index.spilled.compact fault
    else (.ok (), index.spilled)

/-- What an entry costs in memory. -/
def cost (key : IdentityKey) : UInt64 := UInt64.ofNat (ofLex key).2.length + 8 + 32

/-- There is no room for an entry of this cost. -/
def full (cost : UInt64) : Bool :=
  cost > index.options.maxResidentIdentityBytes ∨
    index.residentSize > index.options.maxResidentIdentityBytes - cost ∨
    index.resident.entries.length ≥ index.options.maxIdentityEntries.toNat

/-- The entry put among the resident ones. -/
def emplace (key : IdentityKey) (handle : Int64) : SpillableIdentityIndex :=
  { index with
    resident := index.resident.insertOrAssign key handle
    residentSize := index.residentSize + cost key
    totalEntries := index.totalEntries + 1 }

/-- The second half of `insert`, after room has been made. -/
def insertResident (key : IdentityKey) (handle : Int64) :
    Except IdentityError IdentityInsertResult × SpillableIdentityIndex :=
  if index.full (cost key) then (.error .residentLimit, index)
  else (.ok .inserted, index.emplace key handle)

/-- `insert`. -/
def insert (key : IdentityKey) (handle : Int64) :
    Except IdentityError IdentityInsertResult × SpillableIdentityIndex :=
  match index.lookup key with
  | .error error => (.error error, index)
  | .ok (some existing) => (.ok (if existing = handle then .existing else .conflict), index)
  | .ok none =>
    if index.full (cost key) then
      match index.flush faults with
      | (.error error, after) => (.error error, after)
      | (.ok (), after) => after.insertResident key handle
    else index.insertResident key handle

/-- `entries`. -/
def entries : Except IdentityError IdentityEntries :=
  match readRuns index.directory index.runs .empty with
  | .error error => .error error
  | .ok stored => .ok (stored.insertAll index.resident.entries)

end SpillableIdentityIndex

end CppIndexer.Ast
