/-
# The spillable fact buffer

An append-only store of symbol records that keeps a bounded part of itself in
memory.  When what is resident reaches the threshold it is written to a segment,
a file with the index of its first record and their number in its header.  The
records are enumerated segment by segment and then from memory.

`append` refuses a record whose frame does not fit into the byte limit and leaves
everything as it was.  A segment is longer than its frames by a header of 32
bytes, and that is checked when it has been written: the record is resident by
then and stays so when the segment is refused.

The segments are files of a private directory, and what is read is what was
written.  `faults` says which attempts to create one fail, in the order in which
the buffer comes to them.  Sizes are unsigned 64-bit numbers and wrap around.
-/

import CppIndexer.Ast.SpilledSymbol
import CppIndexer.Lib.ExceptResults

namespace CppIndexer.Ast

open Util (Bytes ascii)
open Codec LittleEndian

structure SpillSegment where
  path : ℕ
  family : FactFamily
  firstIndex : UInt64
  recordCount : ℕ
  byteSize : ℕ

structure SpillableFactBufferOptions where
  family : FactFamily
  spillThresholdBytes : UInt64
  maxTotalBytes : UInt64

inductive FactBufferError where
  | tooLong
  | payloadLimit
  | spillLimit
  | cannotCreate
  | missing
  | wireVersion
  | truncated
  | symbol (error : SymbolReadError)

/-- `SpillableFactBuffer::Impl`, its directory, and the number of segments it has
set out to write. -/
structure SpillableFactBuffer where
  options : SpillableFactBufferOptions
  resident : List SymbolRecord
  segments : List SpillSegment
  directory : AssocMap ℕ Bytes
  nextIndex : UInt64
  residentSize : UInt64
  totalSize : UInt64
  spills : ℕ

namespace SpillableFactBuffer

def create (options : SpillableFactBufferOptions) : SpillableFactBuffer where
  options := options
  resident := []
  segments := []
  directory := .empty
  nextIndex := 0
  residentSize := 0
  totalSize := 0
  spills := 0

/-- No vector holds as many bytes. -/
def maxVectorBytes : ℕ := 2 ^ 63

/-- The encoder of the buffer; a vector that would be too long is thrown for. -/
def encoder (record : SymbolRecord) : Except FactBufferError Bytes :=
  if maxVectorBytes ≤ (encodeSymbolRecord record).length then .error .tooLong
  else .ok (encodeSymbolRecord record)

/-! ## The format of a segment -/

def magic : Bytes := ascii "CIDXSEG1"

/-- A record behind the number of its bytes. -/
def frame (record : SymbolRecord) : Bytes := appendString (encodeSymbolRecord record)

def segmentBytes (family : FactFamily) (first : UInt64) (records : List SymbolRecord) : Bytes :=
  [magic, appendU64 (UInt64.ofNat family.underlying), appendU64 first,
    appendU64 (UInt64.ofNat records.length)].flatten ++ records.flatMap frame

/-- `read_u64`. -/
def readU64 : Reader Bytes FactBufferError UInt64 := readWord .truncated

def readPayload (size : UInt64) : Reader Bytes FactBufferError SymbolRecord := fun bytes =>
  if bytes.length < size.toNat then .error .truncated
  else
    match decodeSymbolRecord (bytes.take size.toNat) with
    | .error error => .error (.symbol error)
    | .ok record => .ok (record, bytes.drop size.toNat)

def readFrame : Reader Bytes FactBufferError SymbolRecord := do
  let size ← readU64
  readPayload size

/-- The index of the first record of a segment, and its records. -/
def readRecords : Reader Bytes FactBufferError (UInt64 × List SymbolRecord) := do
  let _ ← readU64
  let first ← readU64
  let count ← readU64
  let records ← times readFrame count.toNat
  return (first, records)

def readSegment (content : Bytes) : Except FactBufferError (UInt64 × List SymbolRecord) :=
  if content.take 8 ≠ magic then .error .wireVersion
  else (readRecords (content.drop 8)).map Prod.fst

/-! ## The operations -/

variable (faults : ℕ → Bool) (buffer : SpillableFactBuffer)

def firstResident : UInt64 := buffer.nextIndex - UInt64.ofNat buffer.resident.length

/-- The segment that a spill adds, and what it leaves behind. -/
def spilled : SpillableFactBuffer :=
  let content := segmentBytes buffer.options.family buffer.firstResident buffer.resident
  { buffer with
    directory := buffer.directory.insertOrAssign buffer.segments.length content
    segments := buffer.segments ++
      [{ path := buffer.segments.length, family := buffer.options.family
         firstIndex := buffer.firstResident, recordCount := buffer.resident.length
         byteSize := content.length }]
    resident := []
    residentSize := 0
    totalSize := buffer.totalSize - buffer.residentSize + UInt64.ofNat content.length
    spills := buffer.spills + 1 }

/-- What a spill leaves behind that does not add its segment. -/
def unspilled : SpillableFactBuffer :=
  { buffer with
    directory := buffer.directory.eraseWhere fun path _ => path = buffer.segments.length
    spills := buffer.spills + 1 }

/-- `spill`. -/
def spill : Except FactBufferError Unit × SpillableFactBuffer :=
  if buffer.resident = [] then (.ok (), buffer)
  else
    let size :=
      (segmentBytes buffer.options.family buffer.firstResident buffer.resident).length
    let limit := buffer.options.maxTotalBytes.toNat
    if faults buffer.spills then (.error .cannotCreate, buffer.unspilled)
    else if size > limit ∨ (buffer.totalSize - buffer.residentSize).toNat > limit - size then
      (.error .spillLimit, buffer.unspilled)
    else (.ok (), buffer.spilled)

/-- The frame of a record of this size exceeds the byte limit. -/
def exceeds (encodedSize : UInt64) : Bool :=
  encodedSize > buffer.options.maxTotalBytes ∨
    encodedSize + 8 > buffer.options.maxTotalBytes ∨
    buffer.totalSize > buffer.options.maxTotalBytes - encodedSize - 8

/-- The record made resident. -/
def retain (record : SymbolRecord) (encodedSize : UInt64) : SpillableFactBuffer :=
  { buffer with
    nextIndex := buffer.nextIndex + 1
    residentSize := buffer.residentSize + (encodedSize + 8)
    totalSize := buffer.totalSize + (encodedSize + 8)
    resident := buffer.resident ++ [record] }

/-- `append`. -/
def append (record : SymbolRecord) : Except FactBufferError UInt64 × SpillableFactBuffer :=
  match encoder record with
  | .error error => (.error error, buffer)
  | .ok encoded =>
    let encodedSize := UInt64.ofNat encoded.length
    if buffer.exceeds encodedSize then (.error .payloadLimit, buffer)
    else
      let retained := buffer.retain record encodedSize
      if retained.residentSize ≥ buffer.options.spillThresholdBytes then
        match retained.spill faults with
        | (.error error, after) => (.error error, after)
        | (.ok (), after) => (.ok buffer.nextIndex, after)
      else (.ok buffer.nextIndex, retained)

/-- `size`. -/
def size : UInt64 := buffer.nextIndex

/-- Records with their indices. -/
def numberedFrom : UInt64 → List SymbolRecord → List (UInt64 × SymbolRecord)
  | _, [] => []
  | first, record :: rest => (first, record) :: numberedFrom (first + 1) rest

/-- The loop over the segments of `for_each_in_order`. -/
def readSegments (directory : AssocMap ℕ Bytes) :
    List SpillSegment → Except FactBufferError (List (UInt64 × SymbolRecord))
  | [] => .ok []
  | segment :: rest =>
    match directory.find? segment.path with
    | none => .error .missing
    | some content =>
      match readSegment content with
      | .error error => .error error
      | .ok (first, records) =>
        (readSegments directory rest).map fun later => numberedFrom first records ++ later

/-- `for_each_in_order`: what the consumer is called with. -/
def forEachInOrder : Except FactBufferError (List (UInt64 × SymbolRecord)) :=
  (readSegments buffer.directory buffer.segments).map fun stored =>
    stored ++ numberedFrom buffer.firstResident buffer.resident

/-! ## Runs -/

/-- The buffer after the calls. -/
def appendAll (records : List SymbolRecord) : SpillableFactBuffer :=
  records.foldl (fun buffer record => (buffer.append faults record).2) buffer

/-- The records whose `append` returns. -/
def accepted : SpillableFactBuffer → List SymbolRecord → List SymbolRecord
  | _, [] => []
  | buffer, record :: rest =>
    match buffer.append faults record with
    | (.ok _, after) => record :: accepted after rest
    | (.error _, after) => accepted after rest

end SpillableFactBuffer

end CppIndexer.Ast
